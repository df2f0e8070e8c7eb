import Courier.Call
import Courier.Pool.Registry
import Courier.Proofs.Call.Written
import Courier.Proofs.Traffic.Fit

/-!
# No cross-talk

Calls share the pools of a registry, in any order of steps and with any endings. In every state the
lines of idle connections are quiet, and the response of an exchange that is complete is the one by
which a peer has answered its request.
-/
namespace Courier
open Bytes (toList)
open Courier.Frame (IsWhole)
open Pool (Life Activity Acquire PreDial Balanced numbers located)

namespace Traffic

/-- What holds in every state of a pool and its lines. -/
structure Sound (s : Traffic) : Prop where
  conserved : s.life.Conserved
  numbered : s.life.Numbered
  idle : s.lines.Quiet (numbers s.life.pool.idle)
  fit : ∀ a ∈ s.life.activities, s.lines.Fit a

/-- A pool without connections. -/
def start (network address : String) (config : Pool.Config) (now : Instant) : Traffic :=
  ⟨.start network address config now, fun _ => {}⟩

theorem sound_start (network address : String) (config : Pool.Config) (now : Instant) :
    (start network address config now).Sound :=
  ⟨Pool.Life.conserved_start network address config now, ⟨.nil, nofun⟩, nofun, nofun⟩

/-- A call begins. -/
def enlist (s : Traffic) (e : Errand) : Traffic := { s with life := s.life.enlist e }

theorem Sound.enlist {s : Traffic} (hs : s.Sound) {e : Errand} (ht : s.life.tickets ≤ e.ticket)
    (hw : IsWhole e.request) : (s.enlist e).Sound where
  conserved := hs.conserved.step (.exchange s.life ht)
  numbered := hs.numbered.step (.exchange s.life ht)
  idle := hs.idle
  fit a ha := by
    obtain rfl | ha := List.mem_cons.1 ha
    · exact ⟨hw, nofun⟩
    · exact hs.fit a ha

/-- A step of an operation touches no connection that is idle or that another operation has. -/
theorem Sound.untouched {s : Traffic} (hs : s.Sound) {before after : List Activity} {a : Activity}
    {m : Pool.Step Activity} {touch : Touch} (hact : s.life.activities = before ++ a :: after)
    (hm : a.Moves s.life.pool s.life.now m touch) (hf : ∀ c ∈ touch.opened, c.id ∉ s.life.opened) :
    (∀ id ∈ numbers s.life.pool.idle, at? touch ≠ some id) ∧
      ∀ b ∈ before ++ after, ∀ id ∈ b.stock.conns, at? touch ≠ some id := by
  have hnew : ∀ id ∈ numbers touch.opened, id ∉ s.life.opened := by
    intro id hid
    obtain ⟨c, hc, rfl⟩ := List.mem_map.1 hid
    exact hf c hc
  refine ⟨fun id hid ht => ?_, fun b hb id hid ht => ?_⟩
  · obtain ha | ho := touched hm id ht
    · exact (hs.conserved.apart hact ha).1 hid
    · refine hnew id ho (hs.conserved.mem_opened ?_)
      rw [Pool.Life.located_places]
      exact List.mem_append_left _ hid
  · obtain ha | ho := touched hm id ht
    · exact (hs.conserved.apart hact ha).2 b hb hid
    · have hmem : b ∈ s.life.activities := by
        rw [hact]
        simp only [List.mem_append, List.mem_cons] at hb ⊢
        tauto
      refine hnew id ho (hs.conserved.mem_opened ?_)
      rw [Pool.Life.located_places]
      exact List.mem_append_right _ (Pool.Life.mem_located hmem hid)

theorem Sound.advance {s : Traffic} (hs : s.Sound) {before after : List Activity} {a : Activity}
    {m : Pool.Step Activity} {touch : Touch} {lines : Lines}
    (hact : s.life.activities = before ++ a :: after) (hm : a.Moves s.life.pool s.life.now m touch)
    (hf : ∀ c ∈ touch.opened, c.id ∉ s.life.opened) (hl : s.lines.Feels a touch lines) :
    Sound ⟨s.life.proceed before m touch after, lines⟩ := by
  obtain ⟨hidle, hothers⟩ := hs.untouched hact hm hf
  have hquiet : lines.Quiet (numbers s.life.pool.idle) := by
    intro id hid
    rw [hl.other (hidle id hid)]
    exact hs.idle id hid
  have ha : s.lines.Fit a := hs.fit a (by simp [hact])
  obtain ⟨hfit, hnext⟩ := fit_step hm hl ha hquiet
  have hstep : Life.Step s.life (s.life.proceed before m touch after) := .advance (.mk hact hm hf)
  refine ⟨hs.conserved.step hstep, hs.numbered.step hstep, hnext, fun b hb => ?_⟩
  have hb' : b = m.next ∨ b ∈ before ++ after := by
    simp only [Pool.Life.proceed, List.mem_append, List.mem_cons] at hb ⊢
    tauto
  obtain rfl | hb' := hb'
  · exact hfit
  · have hold : s.lines.Fit b := by
      refine hs.fit b ?_
      rw [hact]
      simp only [List.mem_append, List.mem_cons] at hb' ⊢
      tauto
    refine hold.frame (fun id hid => hl.other (hothers b hb' id hid)) fun id => ?_
    rw [hl.served id]
    exact List.Subset.refl _

theorem Sound.tend {s : Traffic} (hs : s.Sound) {life : Life} (h : s.life.Tend life) :
    Sound { s with life } := by
  have hc := hs.conserved.step (.tend h)
  have hn := hs.numbered.step (.tend h)
  cases h with
  | @sweep p w hb =>
    have hq := quiet_of_balanced (Pool.balanced_sweep hb) hs.idle nofun nofun
    refine ⟨hc, hn, hq.2, fun a ha => ?_⟩
    obtain rfl | ha := List.mem_cons.1 ha
    · exact hq.1
    · exact hs.fit a ha
  | topUp =>
    refine ⟨hc, hn, hs.idle, fun a ha => ?_⟩
    obtain rfl | ha := List.mem_cons.1 ha
    · have hnil : numbers (Pool.TopUp.begin s.life.pool).conns = [] := by
        rw [← Pool.conns_topUp, Pool.stock_topUp_begin]
      show s.lines.Quiet _
      rw [hnil]
      nofun
    · exact hs.fit a ha
  | close =>
    exact ⟨hc, hn, (quiet_of_balanced (Pool.balanced_close s.life.pool) hs.idle nofun nofun).2,
      hs.fit⟩
  | pass => exact ⟨hc, hn, hs.idle, hs.fit⟩

theorem Sound.serve {s : Traffic} (hs : s.Sound) (id : Nat) {l : Line} (h : (s.lines id).Serves l) :
    Sound { s with lines := s.lines.put id l } :=
  ⟨hs.conserved, hs.numbered, hs.idle.serve h, fun a ha => (hs.fit a ha).serve h⟩

theorem Sound.step {s s' : Traffic} (hs : s.Sound) (h : s.Step s') : s'.Sound := by
  cases h with
  | advance hact hm hf hl => exact hs.advance hact hm hf hl
  | tend h => exact hs.tend h
  | serve id h => exact hs.serve id h

end Traffic

/-! ## Calls that share pools -/

/-- A registry and its pools, by their numbers. -/
structure Net where
  registry : Pool.Registry
  pools : List Traffic

namespace Net

def start : Net := ⟨.empty, []⟩

/-- The net when one of its pools has changed. -/
def put (n : Net) (i : Pool.PoolId) (t : Traffic) : Net := { n with pools := n.pools.set i t }

/-- What can happen to a net. Whoever makes an exchange or a call finds its pool in the registry;
the frame of an exchange is the caller's, that of a call is made from its header and body. -/
inductive Step : Net → Net → Prop
  | within {n : Net} {i : Pool.PoolId} {t t' : Traffic} (ht : n.pools[i]? = some t)
      (h : Traffic.Step t t') : Step n (n.put i t')
  | create {n : Net} {network address : String} (config : Pool.Config) (now : Instant)
      (h : n.registry.lookup network address = .missing) :
      Step n ⟨n.registry.add network address n.pools.length,
        n.pools ++ [Traffic.start network address config now]⟩
  | roundTrip {n : Net} {i : Pool.PoolId} {t : Traffic} {e : Errand} (network : String)
      (hr : n.registry.lookup network e.address = .found i) (ht : n.pools[i]? = some t)
      (hk : t.life.tickets ≤ e.ticket) (hw : IsWhole e.request) : Step n (n.put i (t.enlist e))
  | invoke {σ : Type} {n : Net} {i : Pool.PoolId} {t : Traffic} (call : Call σ) (nonce : ByteArray)
      (selected : Except Fault Node) (done : Option Done) {node : Node} {request : ByteArray}
      {ticket : Ticket} (ho : (call.onward nonce selected done).1 = .exchange node request)
      (hr : n.registry.lookup (call.network node) node.address = .found i)
      (ht : n.pools[i]? = some t) (hk : t.life.tickets ≤ ticket) :
      Step n (n.put i (t.enlist ⟨ticket, node.address, request⟩))
  | close (n : Net) : Step n { n with registry := n.registry.close }

/-- The states to which a net can come. -/
def Reachable (n : Net) : Prop := Relation.ReflTransGen Step start n

/-- A call that goes on to an exchange has a whole frame to send. -/
theorem isWhole_of_onward {σ : Type} {call : Call σ} {nonce : ByteArray}
    {selected : Except Fault Node} {done : Option Done} {node : Node} {request : ByteArray}
    (h : (call.onward nonce selected done).1 = .exchange node request) : IsWhole request :=
  Message.isWhole_of_encodeRequest (Call.encodeRequest_of_onward h)

/-- A response that passes all checks is one that can be decoded. -/
theorem decode_of_check {header : RequestHeader} {response : ByteArray} {reply : Reply}
    (h : Call.check header response = .ok reply) : Message.decodeResponse response = .ok reply := by
  unfold Call.check at h
  split at h
  · cases h
  next hd =>
    split at h
    · cases h
    · split at h
      · cases h
      · split at h
        · cases h
        · cases h
          exact hd

/-- A call that succeeds has its reply from the response of its exchange. -/
theorem decode_of_conclude {σ : Type} {call : Call σ} {node : Node} {trip : RoundTrip}
    {now : Instant} {reply : Reply} (h : (call.conclude node (.ok trip) now).result = .ok reply) :
    Message.decodeResponse trip.response = .ok reply := by
  have hcheck : Call.check call.header trip.response = .ok reply := by
    simp only [Call.conclude] at h
    cases hc : Call.check call.header trip.response with
    | error f => simp [hc, Except.mapError] at h
    | ok r => simpa [hc, Except.mapError] using h
  exact decode_of_check hcheck

theorem sound_put {n : Net} (hn : ∀ t ∈ n.pools, t.Sound) (i : Pool.PoolId) {t : Traffic}
    (ht : t.Sound) : ∀ t' ∈ (n.put i t).pools, t'.Sound := by
  intro t' ht'
  obtain h | rfl := List.mem_or_eq_of_mem_set ht'
  · exact hn t' h
  · exact ht

theorem Reachable.sound {n : Net} (h : n.Reachable) : ∀ t ∈ n.pools, t.Sound := by
  induction h with
  | refl => nofun
  | tail _ hstep ih =>
    cases hstep with
    | within ht h => exact sound_put ih _ ((ih _ (List.mem_of_getElem? ht)).step h)
    | create config now h =>
      intro t ht
      obtain ht | ht := List.mem_append.1 ht
      · exact ih t ht
      · rw [List.mem_singleton.1 ht]
        exact Traffic.sound_start _ _ config now
    | roundTrip network hr ht hk hw =>
      exact sound_put ih _ ((ih _ (List.mem_of_getElem? ht)).enlist hk hw)
    | invoke call nonce selected done ho hr ht hk =>
      exact sound_put ih _ ((ih _ (List.mem_of_getElem? ht)).enlist hk (isWhole_of_onward ho))
    | close => exact ih

/-- In every state of a net idle connections have no request outstanding and no byte unread, calls
have numbers of their own, and a call whose exchange is complete has got the very response by which
the peer has answered the frame that this call wrote; if the call succeeds, its reply is what that
response says. -/
theorem no_cross_talk {n : Net} (h : n.Reachable) {t : Traffic} (ht : t ∈ n.pools) :
    (∀ c ∈ t.life.pool.idle, (t.lines c.id).IsQuiet) ∧
    (t.life.errands.map Errand.ticket).Nodup ∧
    ∀ e trip, .exchange e (.finished (.ok trip)) ∈ t.life.activities →
      ∃ id, ∃ s ∈ (t.lines id).served,
        s.request = Traffic.stamp e.ticket (toList e.request) ∧ s.response = trip.response ∧
        ∀ (σ : Type) (call : Call σ) (node : Node) (now : Instant) (reply : Reply),
          (call.conclude node (.ok trip) now).result = .ok reply →
          Message.decodeResponse s.response = .ok reply := by
  have hs := h.sound t ht
  refine ⟨fun c hc => hs.idle c.id (List.mem_map_of_mem hc), hs.numbered.nodup, fun e trip he => ?_⟩
  obtain ⟨-, id, s, hs, hrequest, hresponse⟩ := hs.fit _ he
  refine ⟨id, s, hs, hrequest, hresponse, fun σ call node now reply hr => ?_⟩
  rw [hresponse]
  exact decode_of_conclude hr

/-- Steps of one pool are steps of the net. -/
theorem leads_within {n : Net} {i : Pool.PoolId} {t t' : Traffic} (ht : n.pools[i]? = some t)
    (h : Relation.ReflTransGen Traffic.Step t t') : Relation.ReflTransGen Step n (n.put i t') := by
  obtain ⟨hi, rfl⟩ := List.getElem?_eq_some_iff.1 ht
  induction h with
  | refl =>
    have hput : n.put i n.pools[i] = n := by simp [put]
    rw [hput]
  | @tail u v _ hstep ih =>
    have hu : (n.put i u).pools[i]? = some u := by simp [put, hi]
    have hput : (n.put i u).put i v = n.put i v := by simp [put]
    exact hput ▸ ih.tail (.within hu hstep)

end Net

namespace Traffic

/-! ### A call that is answered -/

/-- A request frame that is nothing but a head. -/
def bareRequest : ByteArray := Bytes.ofList [0x48, 0, 1, 0, 0, 0, 0, 10, 0, 0]

theorem isWhole_bareRequest : IsWhole bareRequest := ⟨by decide, by decide⟩

/-- A response frame without a body; it names the request 2. -/
def bareResponse : ByteArray :=
  Bytes.ofList [0x48, 0, 1, 0, 0, 0, 0, 19, 0, 9, 0, 0, 2, 0, 0, 0, 0, 0, 0]

def ping (request : ByteArray) : Errand := ⟨0, "10.0.0.1:80", request⟩

def pong {request : ByteArray} (h : IsWhole request) : Service where
  request := stamp 0 (toList request)
  response := bareResponse
  isRequest := by simpa [content] using h
  isResponse := ⟨by decide, by decide⟩

def firstConn : Conn := ⟨0, "10.0.0.1:80", none, 0, 0⟩

/-- A pool whose one call begins. -/
def pinging (request : ByteArray) :
    Traffic := (start "tcp" "10.0.0.1:80" {} 0).enlist (ping request)

theorem step_exchange {s : Traffic} {e : Errand} {x : Exchange} {rest : List Activity}
    {m : Pool.Step Exchange} {touch : Touch} {lines : Lines}
    (hs : s.life.activities = .exchange e x :: rest) (hm : x.Moves e s.life.pool s.life.now m touch)
    (hf : ∀ c ∈ touch.opened, c.id ∉ s.life.opened)
    (hl : s.lines.Feels (.exchange e x) touch lines) :
    Step s ⟨s.life.proceed [] (m.map (.exchange e)) touch rest, lines⟩ :=
  .advance hs (.exchange hm) hf hl

/-- The call dials and writes its request in one go. -/
theorem leads_written {request : ByteArray} (hw : IsWhole request) :
    ∃ t, Relation.ReflTransGen Step (pinging request) t ∧
      t.life.pool = { Pool.new "tcp" "10.0.0.1:80" {} with active := 1 } ∧ t.life.now = 0 ∧
      t.life.activities =
        [.exchange (ping request)
          (.reading "10.0.0.1:80" ⟨some firstConn, false, none, false⟩ (.start Frame.maxSize))] ∧
      t.lines 0 = { toPeer := stamp 0 (toList request) } := by
  have hd : (Pool.Dial.start (Pool.new "tcp" "10.0.0.1:80" {}) 0 none 0).Ends 0 (.ok firstConn) :=
    ⟨some (.ok firstConn), none, .connected firstConn, rfl⟩
  have hne : 0 < request.size := Nat.lt_of_lt_of_le (by decide) hw.head
  have hbegun : (Frame.Writer.start request).isComplete = false :=
    decide_eq_false (Nat.not_le_of_lt hne)
  have hfeed : (Frame.Writer.start request).feed (.took request.size) =
      .ok ⟨request, request.size⟩ := by
    simp [Frame.Writer.start, Frame.Writer.feed, Frame.Writer.left, Nat.ne_of_gt hne]
  have hcomplete : Frame.Writer.isComplete ⟨request, request.size⟩ = true := by
    simp [Frame.Writer.isComplete]
  have hline :
      ({ toPeer := stamp 0 (toList ((Frame.Writer.start request).offer.extract 0 request.size)) } :
      Line) = { toPeer := stamp 0 (toList request) } := by
    simp [Frame.Writer.start, Frame.Writer.offer]
  have hnew {opened : List Nat} : ∀ c ∈ ([] : List Conn), c.id ∉ opened := List.forall_mem_nil _
  have hfirst : ∀ c ∈ [firstConn], c.id ∉ ([] : List Nat) := fun _ _ => List.not_mem_nil
  have h0 : Relation.ReflTransGen Step (pinging request) _ := .refl
  have h1 := h0.tail (step_exchange rfl (.acquire (.arrive none)) hnew (.untouched rfl))
  have h2 := h1.tail (step_exchange rfl (.acquire (.pop false)) hnew (.untouched rfl))
  have h3 := h2.tail
    (step_exchange rfl (.acquire (.beginDial false 0 none none)) hnew (.untouched rfl))
  have h4 := h3.tail
    (step_exchange rfl (.acquire (.endDial false hd)) hfirst (.touched rfl (.opens _ firstConn _)))
  have h5 := h4.tail (step_exchange rfl (.acquired _ none none) hnew (.untouched rfl))
  have h6 := h5.tail
    (step_exchange rfl (.send _ rfl hbegun hfeed) hnew (.touched rfl (.sends _ _ firstConn _ _)))
  have h7 := h6.tail
    (step_exchange rfl (.wrote _ none (.flushed hcomplete none) rfl) hnew (.untouched rfl))
  exact ⟨_, h7, rfl, rfl, rfl, hline⟩

/-- What a peer does to its line happens to the pool with its lines. -/
theorem leads_serves (s : Traffic) (id : Nat) {l : Line}
    (h : Relation.ReflTransGen Line.Serves (s.lines id) l) :
    Relation.ReflTransGen Step s { s with lines := s.lines.put id l } := by
  induction h with
  | refl => rw [s.lines.put_eq_self]
  | @tail l l' _ h ih =>
    have hline : (s.lines.put id l id).Serves l' := by rwa [s.lines.put_self]
    have hput := s.lines.put_put id l l'
    exact hput ▸ ih.tail (.serve id hline)

/-- A peer receives a request, answers it and sends the response, each in one go. -/
theorem leads_response (s : Service) : Relation.ReflTransGen Line.Serves { toPeer := s.request }
    { toClient := toList s.response, served := [s] } := by
  have hreceive := Line.Serves.receive { toPeer := s.request } s.request.length
  rw [List.take_length, List.drop_length, List.nil_append] at hreceive
  have hanswer : Line.Serves { inbox := s.request }
    { outbox := toList s.response, served := [s] } :=
    .answer (l := { inbox := s.request }) rfl (List.append_nil _).symm
  have hsend := Line.Serves.send { outbox := toList s.response, served := [s] }
    (toList s.response).length
  rw [List.take_length, List.drop_length, List.nil_append] at hsend
  exact .head hreceive (.head hanswer (.single hsend))

/-- The call dials, writes its request and is answered. -/
theorem leads_answered {request : ByteArray} (hw : IsWhole request) :
    ∃ t, Relation.ReflTransGen Step (pinging request) t ∧
      t.life.pool = { Pool.new "tcp" "10.0.0.1:80" {} with active := 1 } ∧ t.life.now = 0 ∧
      t.life.activities =
        [.exchange (ping request)
          (.reading "10.0.0.1:80" ⟨some firstConn, false, none, false⟩ (.start Frame.maxSize))] ∧
      (t.lines 0).toClient = toList bareResponse := by
  obtain ⟨t, ht, hpool, hnow, hreading, hline⟩ := leads_written hw
  have hserves := leads_serves t 0 (hline ▸ leads_response (pong hw))
  exact ⟨_, ht.trans hserves, hpool, hnow, hreading, congrArg Line.toClient (t.lines.put_self 0 _)⟩

theorem feed_bareResponse :
    (Frame.Reader.start Frame.maxSize).feed bareResponse = (.frame bareResponse, .empty) := rfl

end Traffic

/-- A net with one pool, whose one call was answered and has its response. -/
theorem Net.no_cross_talk_answered : ∃ n t, Net.Reachable n ∧ t ∈ n.pools ∧
    Traffic.firstConn ∈ t.life.pool.idle ∧ (∀ c ∈ t.life.pool.idle, (t.lines c.id).IsQuiet) ∧
    ∃ id, ∃ s ∈ (t.lines id).served,
      s.request = Traffic.stamp 0 (toList Traffic.bareRequest) ∧
      s.response = Traffic.bareResponse := by
  let n : Net := ⟨Pool.Registry.empty.add "tcp" "10.0.0.1:80" 0, [.start "tcp" "10.0.0.1:80" {} 0]⟩
  have h1 : Step .start n := .create {} 0 rfl
  have h2 : Step n (n.put 0 (Traffic.pinging Traffic.bareRequest)) :=
    .roundTrip "tcp" rfl rfl (Nat.le_refl 0) Traffic.isWhole_bareRequest
  obtain ⟨u, hu, hpool, hnow, hreading, hline⟩ := Traffic.leads_answered Traffic.isWhole_bareRequest
  rw [← List.append_nil (toList Traffic.bareResponse)] at hline
  have hfinish := hu.tail (Traffic.step_exchange hreading (.receive _ rfl Traffic.feed_bareResponse)
    (List.forall_mem_nil _) (.touched rfl (.takes _ Traffic.firstConn _ hline)))
  have h3 := leads_within (n := n.put 0 (Traffic.pinging Traffic.bareRequest)) (i := 0) rfl hfinish
  have hn : Reachable _ := .head h1 (.head h2 h3)
  obtain ⟨hquiet, -, hanswer⟩ := no_cross_talk hn List.mem_cons_self
  obtain ⟨id, s, hs, hrequest, hresponse, -⟩ := hanswer _ _ List.mem_cons_self
  refine ⟨_, _, hn, List.mem_cons_self, ?_, hquiet, id, s, hs, hrequest, hresponse⟩
  rw [hpool, hnow]
  exact List.mem_cons_self

end Courier

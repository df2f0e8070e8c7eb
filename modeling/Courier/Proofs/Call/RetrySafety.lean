import Courier.Proofs.Call.Faults
import Courier.Proofs.Frame.Whole
import Courier.Proofs.Pool.Acquiring

/-!
# Retry safety

A run of a call leads from the resolution of its target to its result, through an exchange if it
gets that far. Pools, clocks, peers and contexts may do at every step what they like. A call that
fails says that its request was sent just if it came to write, and says that it is safe to try again
only if it has handed no byte to a socket.
-/
namespace Courier
open Bytes (toList)
open Pool (Acquire)

/-- The states that an exchange has left, each with what the step out of it did to a socket. -/
abbrev Trace := List (Exchange × Touch)

namespace Exchange

def isWriting : Exchange → Bool
  | .writing _ _ _ => true
  | .acquiring _ | .reading _ _ _ | .finished _ => false

/-- A way of an exchange. Between two of its steps the pool can change and time can pass. -/
inductive Path (e : Errand) : Exchange → Trace → Exchange → Prop
  | stay (x : Exchange) : Path e x [] x
  | go {x y : Exchange} {s : Pool.Step Exchange} {touch : Touch} {trace : Trace} (p : Pool)
      (now : Instant) (h : x.Moves e p now s touch) (hp : Path e s.next trace y) :
      Path e x ((x, touch) :: trace) y

end Exchange

namespace Trace

/-- The exchange has come to write. -/
def hasWrite (t : Trace) : Bool := t.any fun x => x.1.isWriting

/-- All bytes that sockets have accepted. -/
def handed (t : Trace) : List UInt8 := t.flatMap fun x => toList x.2.sent

end Trace

/-! ## Exchanges -/

/-- A call that has a connection has it in its handle, and one that has failed has sent nothing. -/
def Pool.Acquire.IsUnsent : Acquire → Prop
  | .served h => h.conn.isSome
  | .failed f => f.isSent = false
  | .arriving | .queued _ | .popping _ | .checking _ _ | .exhausted _ | .dialing _ _ => True

theorem Pool.Acquire.isUnsent_step {ticket : Ticket} {p : Pool} {now : Instant} {a : Acquire}
    {s : Step Acquire} {touch : Touch} (h : a.Moves ticket p now s touch) : s.next.IsUnsent := by
  cases h.does with
  | leaves ha hs hn hf =>
    obtain rfl | ⟨why, rfl⟩ := hf
    · rfl
    · exact why.isSent_fault .dial
  | refused slot hd => exact isSent_beginDial hd
  | stops slot hd why => exact why.isSent_fault .dial
  | fails slot hr => exact Dial.isSent_ends hr
  | _ => trivial

/-- What is known of an exchange, given whether it has come to write before. -/
def Exchange.Stands (wrote : Bool) : Exchange → Prop
  | .acquiring a => wrote = false ∧ a.IsUnsent
  | .writing _ h _ => h.conn.isSome
  | .reading _ h _ => wrote = true ∧ h.conn.isSome
  | .finished (.ok _) => wrote = true
  | .finished (.error f) => f.isSent = wrote

/-- A write that fails has been begun, or there is no connection. -/
theorem Exchange.fault_of_write {h : Handle} {w : Frame.Writer} {io : Option (Except Fault Unit)}
    {done : Option Done} {now : Instant} {f : Fault} (hio : h.Writes w io)
    (hr : await h .write io done now = some (.error f)) :
    f.isSent = true ∨ h.conn = none ∧ f = .connectionClosed := by
  cases hio with
  | underWay => exact .inl (isSent_await hr)
  | refused hw ha =>
    cases hr
    exact .inl (Frame.Writer.isSent_feed ha)
  | flushed hw outcome =>
    have hf : Frame.Writer.flush outcome = .error f := Option.some.inj hr
    exact .inl (Frame.Writer.isSent_flush hf)
  | unconnected hn =>
    cases hr
    exact .inr ⟨hn, rfl⟩

theorem Exchange.fault_of_read {h : Handle} {io : Option (Except Fault ByteArray)}
    {done : Option Done} {now : Instant} {f : Fault} (hio : h.Stalls io)
    (hr : await h .read io done now = some (.error f)) :
    f.isSent = true ∨ h.conn = none ∧ f = .connectionClosed := by
  cases hio with
  | underWay => exact .inl (isSent_await hr)
  | failed e =>
    cases hr
    exact .inl (Fault.isSent_ofIo e .read _)
  | unconnected hn =>
    cases hr
    exact .inr ⟨hn, rfl⟩

/-- A write that fails has been begun: its fault is sent. -/
theorem Exchange.isSent_write {h : Handle} {w : Frame.Writer} {io : Option (Except Fault Unit)}
    {done : Option Done} {now : Instant} {f : Fault} (hc : h.conn.isSome) (hio : h.Writes w io)
    (hr : await h .write io done now = some (.error f)) : f.isSent = true :=
  (fault_of_write hio hr).resolve_right fun ⟨hn, _⟩ => by simp [hn] at hc

theorem Exchange.isSent_read {h : Handle} {io : Option (Except Fault ByteArray)}
    {done : Option Done} {now : Instant} {f : Fault} (hc : h.conn.isSome) (hio : h.Stalls io)
    (hr : await h .read io done now = some (.error f)) : f.isSent = true :=
  (fault_of_read hio hr).resolve_right fun ⟨hn, _⟩ => by simp [hn] at hc

theorem Exchange.stands_step {e : Errand} {p : Pool} {now : Instant} {x : Exchange}
    {s : Pool.Step Exchange} {touch : Touch} {past : Bool} (h : x.Moves e p now s touch)
    (hx : x.Stands past) : s.next.Stands (past || x.isWriting) := by
  cases h with
  | acquire h => exact ⟨by simp [hx.1, isWriting], Acquire.isUnsent_step h⟩
  | refuse f =>
    obtain ⟨rfl, hf⟩ := hx
    exact hf
  | acquired h deadline done =>
    obtain ⟨rfl, hc⟩ := hx
    cases done with
    | none => exact hc
    | some why => exact why.isSent_fault .dial
  | send remote hc hw hn => exact hx
  | @wrote h w io r remote done hio hr =>
    rw [isWriting, Bool.or_true]
    obtain ⟨f, rfl | ⟨why, rfl⟩, hw⟩ | ⟨rfl, hw⟩ := wrote_cases p remote h r done now
    · rw [hw]
      exact isSent_write hx hio hr
    · rw [hw]
      exact why.isSent_fault .read
    · rw [hw]
      exact ⟨rfl, hx⟩
  | take remote hc hr => exact ⟨by simp [hx.1], hx.2⟩
  | receive remote hc hr =>
    obtain ⟨rfl, -⟩ := hx
    rfl
  | reject remote hc hr =>
    obtain ⟨rfl, -⟩ := hx
    exact Frame.Reader.isSent_feed hr
  | stall remote done hio hr =>
    obtain ⟨rfl, hc⟩ := hx
    exact isSent_read hc hio hr

/-- An exchange that fails says that its request was sent just if it has come to write. -/
theorem Exchange.Path.stands {e : Errand} {x y : Exchange} {trace : Trace} {past : Bool}
    (h : Path e x trace y) (hx : x.Stands past) : y.Stands (past || trace.hasWrite) := by
  induction h generalizing past with
  | stay x => simpa [Trace.hasWrite] using hx
  | go p now hm _ ih =>
    have := ih (stands_step hm hx)
    simpa [Trace.hasWrite, Bool.or_assoc] using this

theorem Exchange.sent_of_not_writing {e : Errand} {p : Pool} {now : Instant} {x : Exchange}
    {s : Pool.Step Exchange} {touch : Touch} (h : x.Moves e p now s touch)
    (hx : x.isWriting = false) : touch.sent = .empty := by
  cases h with
  | acquire h =>
    cases h with
    | @endDial slot d r hr => cases r <;> rfl
    | _ => rfl
  | send => cases hx
  | _ => rfl

/-- Who never comes to write hands no byte to a socket. -/
theorem Exchange.Path.handed {e : Errand} {x y : Exchange} {trace : Trace} (h : Path e x trace y)
    (ht : trace.hasWrite = false) : trace.handed = [] := by
  induction h with
  | stay x => rfl
  | go p now hm _ ih =>
    simp only [Trace.hasWrite, List.any_cons, Bool.or_eq_false_iff] at ht
    have := ih ht.2
    simpa [Trace.handed, sent_of_not_writing hm ht.1] using this

/-! ## Calls -/

namespace Call
variable {σ : Type} {client : Client σ} {query : Query} {call : Call σ}

/-- What can come of asking a selector: a node, an error of its own, or the end of the context. -/
inductive Selects : Except Fault Node → Prop
  | node (n : Node) : Selects (.ok n)
  | refused (why : String) : Selects (.error (.route why))
  | done (why : Done) : Selects (.error (why.fault .select))

/-- A call begins and goes on when its selector has answered. -/
def Goes (client : Client σ) (query : Query) (call : Call σ) (o : Onward) : Prop :=
  ∃ c now nonce selected done, begin client query c now = .ok call ∧ Selects selected ∧
    (call.onward nonce selected done).1 = o

/-- The runs of a call: what its exchange has done, if it came to one, and its result. The registry
of pools may be closed when the call comes to it. -/
inductive Run (client : Client σ) (query : Query) : Trace → Except Fault Reply → Prop
  | unresolved {c : Context} {now : Instant} {f : Fault} (h : begin client query c now = .error f) :
      Run client query [] (.error f)
  | failed {call : Call σ} {f : Fault} (h : Goes client query call (.failed f)) :
      Run client query [] (.error f)
  | unsent {call : Call σ} {node : Node} {f : Fault} (h : Goes client query call (.unsent node f))
      (later : Instant) : Run client query [] (call.conclude node (.error f) later).result
  | closed {call : Call σ} {node : Node} {request : ByteArray}
      (h : Goes client query call (.exchange node request)) (later : Instant) :
      Run client query [] (call.conclude node (.error .poolClosed) later).result
  | exchanged {call : Call σ} {node : Node} {request : ByteArray} {ticket : Ticket} {trace : Trace}
      {done : Option Done} {exchanged : Except Fault RoundTrip}
      (h : Goes client query call (.exchange node request))
      (hp : Exchange.Path ⟨ticket, node.address, request⟩ (.begin done) trace (.finished exchanged))
      (later : Instant) : Run client query trace (call.conclude node exchanged later).result

theorem isSent_begin {c : Context} {now : Instant} {f : Fault}
    (h : begin client query c now = .error f) : f.isSent = false := by
  unfold begin at h
  dsimp only at h
  split at h
  next hr =>
    cases h
    exact isSent_resolve hr
  · cases h

theorem isSent_judgeNode {selected : Except Fault Node} {done : Option Done} {f : Fault}
    {counts : List Counter} (hs : Selects selected)
    (h : call.judgeNode selected done = (.error f, counts)) : f.isSent = false := by
  unfold judgeNode at h
  cases hs with
  | refused why =>
    cases h
    rfl
  | done why =>
    cases h
    exact why.isSent_fault .select
  | node n =>
    dsimp only at h
    split at h
    · cases h
      rfl
    · cases done with
      | some why =>
        cases h
        exact why.isSent_fault .select
      | none => cases h

theorem isSent_failed {f : Fault} (h : Goes client query call (.failed f)) : f.isSent = false := by
  obtain ⟨c, now, nonce, selected, done, -, hs, ho⟩ := h
  unfold onward at ho
  split at ho
  next hj =>
    cases ho
    exact isSent_judgeNode hs hj
  next => split at ho <;> cases ho

theorem isSent_unsent {node : Node} {f : Fault} (h : Goes client query call (.unsent node f)) :
    f.isSent = false := by
  obtain ⟨c, now, nonce, selected, done, -, hs, ho⟩ := h
  unfold onward at ho
  split at ho
  · cases ho
  · split at ho
    next hr =>
      cases ho
      exact isSent_request hr
    next => cases ho

/-- The cost of a call does not change what its fault says. -/
theorem isSent_conclude {node : Node} {exchanged : Except Fault RoundTrip} {later : Instant}
    {f : Fault} {sent : Bool} (hx : (Exchange.finished exchanged).Stands sent)
    (h : (call.conclude node exchanged later).result = .error f) : f.isSent = sent := by
  unfold conclude at h
  cases exchanged with
  | error g =>
    cases h
    exact (g.isSent_withCost _).trans hx
  | ok trip =>
    obtain rfl : sent = true := hx
    dsimp only at h
    cases hc : check call.header trip.response with
    | ok reply => simp [hc, Except.mapError] at h
    | error g =>
      rw [hc] at h
      cases h
      exact (g.isSent_withCost _).trans (isSent_check hc)

theorem Run.isSent {trace : Trace} {result : Except Fault Reply} (h : Run client query trace result)
    {f : Fault} (hf : result = .error f) : f.isSent = trace.hasWrite := by
  cases h with
  | unresolved hb =>
    cases hf
    exact isSent_begin hb
  | failed hg =>
    cases hf
    exact isSent_failed hg
  | @unsent _ _ g hg later =>
    have hx : (Exchange.finished (.error g)).Stands false := isSent_unsent hg
    exact isSent_conclude hx hf
  | closed hg later =>
    have hx : (Exchange.finished (.error .poolClosed)).Stands false := rfl
    exact isSent_conclude hx hf
  | @exchanged _ _ _ _ _ done _ hg hp later =>
    have hbegin : (Exchange.begin done).Stands false := by
      cases done with
      | some why => exact why.isSent_fault .dial
      | none => exact ⟨rfl, trivial⟩
    exact isSent_conclude (by simpa using hp.stands hbegin) hf

theorem isSent_of_isSafeToRetry {f : Fault} (h : f.isSafeToRetry = true) : f.isSent = false := by
  unfold Fault.isSafeToRetry at h
  split at h <;> simp_all

/-- The bytes of a run come from its exchange. -/
theorem Run.handed {trace : Trace} {result : Except Fault Reply} (h : Run client query trace result)
    (ht : trace.hasWrite = false) : trace.handed = [] := by
  cases h with
  | exchanged hg hp later => exact hp.handed ht
  | _ => rfl

/-- A call that fails says that its request was sent just if it has come to write. If it says that
it is safe to try again, no socket has accepted a byte of its request. The cost of the call changes
neither. -/
theorem retry_safety {trace : Trace} {f : Fault} (h : Run client query trace (.error f)) :
    (f.isSent = true ↔ trace.hasWrite = true) ∧
    (f.isSafeToRetry = true → trace.handed = []) ∧
    ∀ cost, (f.withCost cost).isSent = f.isSent ∧
      (f.withCost cost).isSafeToRetry = f.isSafeToRetry := by
  have hs := h.isSent rfl
  refine ⟨by rw [hs], fun hsafe => ?_, fun cost => ?_⟩
  · rw [isSent_of_isSafeToRetry hsafe] at hs
    exact h.handed hs.symm
  · exact ⟨f.isSent_withCost cost, f.isSafeToRetry_withCost cost⟩

/-- A client whose calls go to one address. -/
def oneClient : Client Unit := { endpoint := "10.0.0.1:80", selectors := .withDefaults () }

/-- A request without a body. -/
def bareQuery : Query := { header := { id := 1 }, body := .empty }

def bareCall : Call Unit where
  client := oneClient
  query := bareQuery
  header := bareQuery.header
  selector := ()
  endpoint := "10.0.0.1:80"
  context := .endless
  start := 0

theorem goes_bareCall : ∃ request, Goes oneClient bareQuery bareCall
    (.exchange { address := "10.0.0.1:80" } request) := by
  have hbegin : begin oneClient bareQuery .endless 0 = .ok bareCall := rfl
  have hok : (Message.encodeRequest {} .empty bareCall.header .empty).isOk = true := by
    decide +kernel
  cases hrequest : Message.encodeRequest {} .empty bareCall.header .empty with
  | error f => simp [hrequest, Except.isOk, Except.toBool] at hok
  | ok request =>
    refine ⟨request, .endless, 0, .empty, _, none, hbegin, .node { address := "10.0.0.1:80" }, ?_⟩
    have hcall : bareCall.request .empty = (.ok request, []) := congrArg (·, []) hrequest
    simp [onward, judgeNode, hcall]

/-- A call that dials, comes to write, and is canceled before a byte is accepted. -/
theorem retry_safety_canceled : ∃ trace,
    Run oneClient bareQuery trace (.error (.canceled .write "context canceled")) ∧
    trace.hasWrite = true ∧ trace.handed = [] := by
  let conn : Conn := ⟨0, "10.0.0.1:80", none, 0, 0⟩
  let p : Pool := .new "tcp" "10.0.0.1:80" {}
  have hd : (Pool.Dial.start p 0 none 0).Ends 0 (.ok conn) :=
    ⟨some (.ok conn), none, .connected conn, rfl⟩
  obtain ⟨request, hg⟩ := goes_bareCall
  have h5 := Exchange.Path.go (e := ⟨0, "10.0.0.1:80", request⟩) p 0
    (.wrote (h := .ofConn p false conn) (w := .start request) "10.0.0.1:80" (some .canceled)
      .underWay rfl) (.stay _)
  have h4 := Exchange.Path.go p 0 (.acquired (.ofConn p false conn) none none) h5
  have h3 := Exchange.Path.go p 0 (.acquire (.endDial false hd)) h4
  have h2 := Exchange.Path.go p 0 (.acquire (.beginDial false 0 none none)) h3
  have h1 := Exchange.Path.go p 0 (.acquire (.pop false)) h2
  have hp : Exchange.Path _ (.begin none) _
      (.finished (.error (.canceled .write "context canceled"))) :=
    .go p 0 (.acquire (.arrive none)) h1
  have hrun := Run.exchanged hg hp 0
  exact ⟨_, hrun, (retry_safety hrun).1.1 rfl, rfl⟩

end Call

end Courier

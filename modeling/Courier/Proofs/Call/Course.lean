import Courier.Context.Race
import Courier.Proofs.Call.Ledger
import Courier.Proofs.Call.Signing
import Courier.Proofs.Exchange.Watched

/-!
# The course of a call

A call takes one turn after the other: it asks its selector, hears a node, looks for its pool, goes
through an exchange, reports to the selector and ends. Before each turn the clock can have moved,
contexts can have been canceled and other calls can have used the pool; selectors, pools, sockets
and peers do what they like. The turns say what the call has done to its surroundings, and its
history follows from them by induction.
-/
namespace Courier

/-! ## The context of a call -/

/-- The context of a call: the caller's, with the limit of the header if it has one. -/
def Query.contextAt (query : Query) (c : Context) (start : Instant) : Context where
  deadline := Race.earliest c.deadline (query.header.timeout.map (start + ·))
  lineage := c.lineage

/-- A limit that a header carries is not zero. -/
theorem RequestHeader.timeout_ne_zero {h : RequestHeader} {own : Span} (ht : h.timeout = some own) :
    own ≠ (0 : Nat) := by
  unfold timeout TimeLimit.ofWire at ht
  split at ht
  · cases ht
  next hne =>
    cases ht
    have hpos : h.timeoutMillis.toNat ≠ 0 := fun h0 => hne (UInt32.toNat_inj.1 h0)
    show 1000000 * h.timeoutMillis.toNat ≠ 0
    omega

/-- What is left until a deadline, as a limit, ends at the deadline. -/
theorem Instant.min_until (start deadline : Nat) :
    min deadline (start + (deadline - start)) = deadline := by omega

/-- If less than a limit is left until a deadline, the deadline comes first. -/
theorem Instant.min_limit {start deadline limit : Nat} (h : deadline - start < limit) :
    min deadline (start + limit) = deadline := by omega

/-- The limit of a call and its caller's deadline end its context when the first of them does, also
if nothing is left of the deadline. -/
theorem Call.limitContext_eq (query : Query) (c : Context) (start : Instant) :
    limitContext c start (limit query.header (c.remaining start)) = query.contextAt c start := by
  obtain ⟨deadline, lineage⟩ := c
  unfold limit Query.contextAt
  cases hown : query.header.timeout with
  | none =>
    cases deadline with
    | none => rfl
    | some deadline =>
      show limitContext _ start (deadline - start : Nat) = _
      unfold limitContext
      split
      next => rfl
      next =>
        exact congrArg (Context.mk · lineage) (congrArg some (Instant.min_until start deadline))
  | some own =>
    have hpos := RequestHeader.timeout_ne_zero hown
    cases deadline with
    | none => exact if_neg hpos
    | some deadline =>
      show limitContext _ start
          (if own = 0 ∨ (deadline - start : Nat) < own then deadline - start else own) =
        ⟨some (min deadline (start + own)), lineage⟩
      unfold limitContext
      split
      next hless =>
        have hearlier : min deadline (start + own) = deadline :=
          Instant.min_limit (hless.resolve_left hpos)
        rw [hearlier]
        split
        next => rfl
        next =>
          exact congrArg (Context.mk · lineage) (congrArg some (Instant.min_until start deadline))
      next => rfl

namespace Call
variable {σ : Type} {client : Client σ} {query : Query} {call : Call σ} {config : Pool.Config}

theorem context_of_begin {c : Context} {start : Instant}
    (h : begin client query c start = .ok call) :
    call.context = query.contextAt c start ∧ call.start = start := by
  unfold begin at h
  dsimp only at h
  split at h
  · cases h
  · cases h
    exact ⟨limitContext_eq query c start, rfl⟩

/-! ## Turns -/

/-- How far a call has come that knows its selector. Once it has chosen it has a node and a request
and nothing else; once it is settled it is done with its node, if not with its selector. -/
inductive Phase
  | ready
  | asking
  | chosen (node : Node) (request : ByteArray)
  | exchanging (node : Node) (e : Errand) (x : Exchange)
  | settled (node : Node) (exchanged : Except Fault RoundTrip)
  | reporting (k : Conclusion)
  | ended (result : Except Fault Reply) (learned : Option CallResult)

/-- Where a call is when it has heard its selector. -/
def Onward.phase : Onward → Phase
  | .failed f => .ended (.error f) none
  | .unsent node f => .settled node (.error f)
  | .exchange node request => .chosen node request

/-- What a call does to its surroundings in a turn. It seeks the pool of its node, and heeds how its
report was received. -/
inductive Deed
  | nothing
  | asks
  | hears (answer : Except Fault Node)
  | seeks
  | works (p : Pool) (s : Pool.Step Exchange) (touch : Touch)
  | reports (r : Report)
  | heeds (outcome : Except Fault Unit)

/-- The turns of a call. The selector can answer at any time, and answer anything; the registry of
pools can be closed. -/
inductive Moves (call : Call σ) (config : Pool.Config) (m : Moment) : Phase → Deed → Phase → Prop
  | ask (h : call.context.doneAt m = none) : Moves call config m .ready .asks .asking
  | skip {why : Done} (nonce : ByteArray) (h : call.context.doneAt m = some why) :
      Moves call config m .ready .nothing
        (call.onward nonce (.error (why.fault .select)) (some why)).1.phase
  | hear (answer : Except Fault Node) {nonce : ByteArray} (hn : nonce.size = Envelope.nonceSize) :
      Moves call config m .asking (.hears answer)
        (call.onward nonce answer (call.context.doneAt m)).1.phase
  | giveUp {why : Done} (nonce : ByteArray) (h : call.context.doneAt m = some why) :
      Moves call config m .asking .nothing
        (call.onward nonce (.error (why.fault .select)) (some why)).1.phase
  | decline {exchanged : Except Fault RoundTrip} (node : Node) (request : ByteArray)
      (h : Exchange.begin (call.context.doneAt m) = .finished exchanged) :
      Moves call config m (.chosen node request) .nothing (.settled node exchanged)
  | closed {a : Pool.Acquire} (node : Node) (request : ByteArray)
      (h : Exchange.begin (call.context.doneAt m) = .acquiring a) :
      Moves call config m (.chosen node request) .seeks (.settled node (.error .poolClosed))
  | enter {a : Pool.Acquire} (node : Node) (request : ByteArray) (ticket : Ticket)
      (h : Exchange.begin (call.context.doneAt m) = .acquiring a) :
      Moves call config m (.chosen node request) .seeks
        (.exchanging node ⟨ticket, node.address, request⟩ (.acquiring a))
  | work {e : Errand} {x : Exchange} {p : Pool} {s : Pool.Step Exchange} {touch : Touch}
      (node : Node) (hp : p.config = config) (h : x.MovesUnder call.context e p m s touch) :
      Moves call config m (.exchanging node e x) (.works p s touch) (.exchanging node e s.next)
  | settle (node : Node) (e : Errand) (exchanged : Except Fault RoundTrip) :
      Moves call config m (.exchanging node e (.finished exchanged)) .nothing
        (.settled node exchanged)
  | report (node : Node) (exchanged : Except Fault RoundTrip) :
      Moves call config m (.settled node exchanged)
        (.reports (call.conclude node exchanged m.now).report)
        (.reporting (call.conclude node exchanged m.now))
  | close (k : Conclusion) (outcome : Except Fault Unit) :
      Moves call config m (.reporting k) (.heeds outcome) (.ended k.result (some k.learned))

structure Turn where
  moment : Moment
  before : Phase
  deed : Deed
  after : Phase

/-- The course of a call that knows its selector, up to some phase. -/
inductive Course (call : Call σ) (config : Pool.Config) : List Turn → Phase → Prop
  | start : Course call config [] .ready
  | turn {turns : List Turn} {before after : Phase} {deed : Deed} (m : Moment)
      (hc : Course call config turns before) (h : call.Moves config m before deed after) :
      Course call config (turns ++ [⟨m, before, deed, after⟩]) after

/-- A call that has begun at a moment under the context of its caller has come to some phase. If it
finds no selector it is over at once. -/
inductive Invokes (client : Client σ) (query : Query) (config : Pool.Config) (c : Context)
    (start : Instant) : List Turn → Phase → Prop
  | unresolved {f : Fault} (h : begin client query c start = .error f) :
      Invokes client query config c start [] (.ended (.error f) none)
  | resolved {call : Call σ} {turns : List Turn} {phase : Phase}
      (hb : begin client query c start = .ok call) (hc : call.Course config turns phase) :
      Invokes client query config c start turns phase

/-- A turn of a course is a move from a phase to which the turns before it lead. -/
theorem Course.exists_before {turns : List Turn} {phase : Phase}
    (h : call.Course config turns phase) {t : Turn} (ht : t ∈ turns) :
    call.Moves config t.moment t.before t.deed t.after ∧
      ∃ earlier, earlier ++ [t] <+: turns ∧ call.Course config earlier t.before := by
  induction h with
  | start => cases ht
  | @turn turns before after deed m hc hm ih =>
    obtain ht | ht := List.mem_append.1 ht
    · obtain ⟨hmoves, earlier, hearlier, hbefore⟩ := ih ht
      exact ⟨hmoves, earlier, hearlier.trans (List.prefix_append _ _), hbefore⟩
    · obtain rfl := List.mem_singleton.1 ht
      exact ⟨hm, turns, List.prefix_rfl, hc⟩

/-! ## What the turns show -/

/-- What the turn has done in the exchange of its call. -/
def Turn.leg? (t : Turn) : Option (Exchange × Touch) :=
  match t.before, t.deed with
  | .exchanging _ _ x, .works _ _ touch => some (x, touch)
  | _, _ => none

def Deed.report? : Deed → Option Report
  | .reports r => some r
  | .nothing | .asks | .hears _ | .seeks | .works _ _ _ | .heeds _ => none

/-- Whether the turn has to do with pools. -/
def Deed.usesPool : Deed → Bool
  | .seeks | .works _ _ _ => true
  | .nothing | .asks | .hears _ | .reports _ | .heeds _ => false

/-- Whether the call neither hears nor reports anything. -/
def Deed.isMute : Deed → Bool
  | .hears _ | .reports _ => false
  | .nothing | .asks | .seeks | .works _ _ _ | .heeds _ => true

/-- The exchange of a call. -/
def trace (turns : List Turn) : Trace := turns.filterMap Turn.leg?

/-- The reports that the selector was given. -/
def reports (turns : List Turn) : List Report := turns.filterMap fun t => t.deed.report?

/-- The selector has named a node with an address, and the context was not done then. -/
def Reaches (c : Context) (turns : List Turn) (node : Node) : Prop :=
  ∃ t ∈ turns, t.deed = .hears (.ok node) ∧ node.address ≠ "" ∧ c.doneAt t.moment = none

/-- The bytes of a request that the call can send. -/
def Encodes (call : Call σ) (request : ByteArray) : Prop :=
  ∃ nonce, nonce.size = Envelope.nonceSize ∧
    Message.encodeRequest call.query.packing nonce call.header call.query.body = .ok request

/-- How the exchange with a node has ended: it was not begun, or its ledger says how. -/
inductive Exchanged (call : Call σ) (node : Node) (trace : Trace) : Except Fault RoundTrip → Prop
  | unbegun (ht : trace = []) (f : Fault) : Exchanged call node trace (.error f)
  | ended {e : Errand} {exchanged : Except Fault RoundTrip} (ha : e.address = node.address)
      (hr : call.Encodes e.request) (hl : Exchange.Ledger e trace (.finished exchanged)) :
      Exchanged call node trace exchanged

/-- The call has not come to a node. -/
structure Idle (call : Call σ) (turns : List Turn) : Prop where
  unreached : ∀ node, ¬ Reaches call.context turns node
  unreported : reports turns = []
  poolless : ∀ t ∈ turns, t.deed.usesPool = false

/-- The call has come to a node and has not reported yet. -/
structure Went (call : Call σ) (turns : List Turn) (node : Node) : Prop where
  reached : ∀ other, Reaches call.context turns other ↔ other = node
  unreported : reports turns = []

/-- The call has reported about its exchange with a node, and this in its last turn. -/
def HasReported (call : Call σ) (turns : List Turn) (k : Conclusion) : Prop :=
  ∃ earlier m node exchanged, k = call.conclude node exchanged m.now ∧
    turns = earlier ++ [⟨m, .settled node exchanged, .reports k.report, .reporting k⟩] ∧
    Went call earlier node ∧ Exchanged call node (trace earlier) exchanged

/-- What is known of a call from its turns. -/
def History (call : Call σ) (turns : List Turn) : Phase → Prop
  | .ready | .asking => Idle call turns
  | .chosen node request => Went call turns node ∧ trace turns = [] ∧ call.Encodes request
  | .exchanging node e x =>
    Went call turns node ∧ e.address = node.address ∧ call.Encodes e.request ∧
      Exchange.Ledger e (trace turns) x
  | .settled node exchanged => Went call turns node ∧ Exchanged call node (trace turns) exchanged
  | .reporting k => HasReported call turns k
  | .ended result learned =>
    (Idle call turns ∧ (∃ f, result = .error f) ∧ learned = none) ∨
      ∃ earlier m k outcome,
      turns = earlier ++ [⟨m, .reporting k, .heeds outcome, .ended result learned⟩] ∧
        HasReported call earlier k ∧ result = k.result ∧ learned = some k.learned

/-! ## The history of a call -/

section Snoc
variable (turns : List Turn) (t : Turn)

@[simp] theorem trace_snoc : trace (turns ++ [t]) = trace turns ++ t.leg?.toList := by
  unfold trace
  rw [List.filterMap_append]
  cases hleg : t.leg? <;> simp [hleg]

variable {turns t} in
theorem trace_snoc_of_none (h : t.leg? = none) : trace (turns ++ [t]) = trace turns := by
  rw [trace_snoc, h]
  exact List.append_nil _

@[simp] theorem reports_snoc : reports (turns ++ [t]) = reports turns ++ t.deed.report?.toList := by
  unfold reports
  rw [List.filterMap_append]
  cases hreport : t.deed.report? <;> simp [hreport]

end Snoc

variable {turns : List Turn} {t : Turn} {node : Node}

theorem reaches_snoc {c : Context} : Reaches c (turns ++ [t]) node ↔
    Reaches c turns node ∨
      t.deed = .hears (.ok node) ∧ node.address ≠ "" ∧ c.doneAt t.moment = none := by
  simp [Reaches, or_and_right, exists_or]

theorem reaches_of_mute {c : Context} (h : t.deed.isMute = true) :
    Reaches c (turns ++ [t]) node ↔ Reaches c turns node := by
  rw [reaches_snoc]
  refine or_iff_left fun ht => ?_
  rw [ht.1] at h
  cases h

theorem report?_of_mute {deed : Deed} (h : deed.isMute = true) : deed.report? = none := by
  cases deed with
  | reports r => cases h
  | _ => rfl

theorem Went.snoc (hw : Went call turns node) (h : t.deed.isMute = true) :
    Went call (turns ++ [t]) node where
  reached other := (reaches_of_mute h).trans (hw.reached other)
  unreported := by rw [reports_snoc, hw.unreported, report?_of_mute h]; rfl

/-- A call that has not come to a node has no exchange. -/
theorem Idle.trace_eq (h : Idle call turns) : trace turns = [] := by
  refine List.filterMap_eq_nil_iff.2 fun t ht => ?_
  have hpool := h.poolless t ht
  unfold Turn.leg?
  split
  next hdeed =>
    rw [hdeed] at hpool
    cases hpool
  next => rfl

theorem Idle.snoc (hi : Idle call turns) (hp : t.deed.usesPool = false) (hr : t.deed.report? = none)
    (h : ∀ node, t.deed = .hears (.ok node) → node.address ≠ "" →
      call.context.doneAt t.moment ≠ none) :
    Idle call (turns ++ [t]) where
  unreached node hreaches := by
    obtain hbefore | ⟨hdeed, haddress, hdone⟩ := reaches_snoc.1 hreaches
    · exact hi.unreached node hbefore
    · exact h node hdeed haddress hdone
  unreported := by rw [reports_snoc, hi.unreported, hr]; rfl
  poolless := List.forall_mem_append.2 ⟨hi.poolless, List.forall_mem_singleton.2 hp⟩

/-- A call that hears of a node goes there. -/
theorem Idle.went (hi : Idle call turns) (hd : t.deed = .hears (.ok node)) (ha : node.address ≠ "")
    (hn : call.context.doneAt t.moment = none) : Went call (turns ++ [t]) node where
  reached other := by
    rw [reaches_snoc, or_iff_right (hi.unreached other), hd]
    constructor
    · rintro ⟨h, -⟩
      cases h
      rfl
    · rintro rfl
      exact ⟨rfl, ha, hn⟩
  unreported := by rw [reports_snoc, hi.unreported, hd]; rfl

theorem encodeRequest_of_request {nonce request : ByteArray}
    (h : (call.request nonce).1 = .ok request) :
    Message.encodeRequest call.query.packing nonce call.header call.query.body = .ok request := by
  unfold Call.request at h
  split at h
  · dsimp only at h
    exact h
  · cases h

/-- Where a call goes from its selector: it is over, or it has a node, and a request for it or a
fault. -/
theorem onward_cases (call : Call σ) (nonce : ByteArray) (answer : Except Fault Node)
    (done : Option Done) :
    ((∃ f, (call.onward nonce answer done).1.phase = .ended (.error f) none) ∧
      ∀ node, answer = .ok node → node.address ≠ "" → done ≠ none) ∨
    ∃ node, answer = .ok node ∧ node.address ≠ "" ∧ done = none ∧
      ((∃ f, (call.onward nonce answer done).1.phase = .settled node (.error f)) ∨
        ∃ request, (call.onward nonce answer done).1.phase = .chosen node request ∧
          Message.encodeRequest call.query.packing nonce call.header call.query.body =
            .ok request) := by
  cases answer with
  | error f =>
    refine .inl ⟨⟨f, rfl⟩, fun node h => ?_⟩
    cases h
  | ok node =>
    by_cases ha : node.address = ""
    · refine .inl ⟨?_, fun other h hne => ?_⟩
      · simp [onward, judgeNode, ha, Onward.phase]
      · cases h
        exact absurd ha hne
    · cases done with
      | some why =>
        refine .inl ⟨⟨why.fault .select, ?_⟩, fun _ _ _ hdone => ?_⟩
        · simp [onward, judgeNode, ha, Onward.phase]
        · cases hdone
      | none =>
        refine .inr ⟨node, rfl, ha, rfl, ?_⟩
        have hencode : ∀ request, (call.request nonce).1 = .ok request → _ :=
          fun _ => encodeRequest_of_request
        simp only [onward, judgeNode, ha, if_false]
        generalize call.request nonce = requested at hencode
        obtain ⟨f | request, counts⟩ := requested
        · exact .inl ⟨f, rfl⟩
        · exact .inr ⟨request, rfl, hencode request rfl⟩

/-- What is known of a call that has heard its selector. -/
theorem History.hear (hi : Idle call turns) {m : Moment} {answer : Except Fault Node}
    {nonce : ByteArray} (hn : nonce.size = Envelope.nonceSize) {after : Phase}
    (ha : after = (call.onward nonce answer (call.context.doneAt m)).1.phase) :
    History call (turns ++ [⟨m, .asking, .hears answer, after⟩]) after := by
  obtain ⟨⟨f, hended⟩, hnone⟩ | ⟨node, rfl, haddress, hdone, hgoes⟩ :=
    onward_cases call nonce answer (call.context.doneAt m)
  · rw [ha, hended]
    refine .inl ⟨hi.snoc rfl rfl fun node hdeed => ?_, ⟨f, rfl⟩, rfl⟩
    cases hdeed
    exact hnone node rfl
  · have hwent : Went call (turns ++ [⟨m, .asking, .hears (.ok node), after⟩]) node :=
      hi.went rfl haddress hdone
    have htrace : trace (turns ++ [⟨m, .asking, .hears (.ok node), after⟩]) = [] :=
      (trace_snoc_of_none rfl).trans hi.trace_eq
    obtain ⟨f, hsettled⟩ | ⟨request, hchosen, hencode⟩ := hgoes
    · rw [hsettled] at ha
      subst ha
      exact ⟨hwent, .unbegun htrace f⟩
    · rw [hchosen] at ha
      subst ha
      exact ⟨hwent, htrace, nonce, hn, hencode⟩

/-- An exchange begins under a context that is not done, and is over at once under another one. -/
theorem begin_eq_acquiring {done : Option Done} {a : Pool.Acquire} :
    Exchange.begin done = .acquiring a ↔ done = none ∧ a = .arriving := by
  cases done with
  | none => simp [Exchange.begin, eq_comm]
  | some why => simp [Exchange.begin]

theorem begin_eq_finished {done : Option Done} {exchanged : Except Fault RoundTrip} :
    Exchange.begin done = .finished exchanged ↔
      ∃ why, done = some why ∧ exchanged = .error (why.fault .dial) := by
  cases done with
  | none => simp [Exchange.begin]
  | some why => simp [Exchange.begin, eq_comm]

/-- The history of a call goes on with its turns. -/
theorem History.step {m : Moment} {before after : Phase} {deed : Deed}
    (hh : History call turns before) (h : call.Moves config m before deed after) :
    History call (turns ++ [⟨m, before, deed, after⟩]) after := by
  cases h with
  | ask hd => exact Idle.snoc hh rfl rfl nofun
  | skip nonce hd => exact .inl ⟨Idle.snoc hh rfl rfl nofun, ⟨_, rfl⟩, rfl⟩
  | hear answer hn => exact History.hear hh hn rfl
  | giveUp nonce hd => exact .inl ⟨Idle.snoc hh rfl rfl nofun, ⟨_, rfl⟩, rfl⟩
  | decline node request hbegin =>
    obtain ⟨hwent, htrace, -⟩ := hh
    obtain ⟨why, -, rfl⟩ := begin_eq_finished.1 hbegin
    exact ⟨hwent.snoc rfl, .unbegun ((trace_snoc_of_none rfl).trans htrace) _⟩
  | closed node request hbegin =>
    obtain ⟨hwent, htrace, -⟩ := hh
    exact ⟨hwent.snoc rfl, .unbegun ((trace_snoc_of_none rfl).trans htrace) _⟩
  | enter node request ticket hbegin =>
    obtain ⟨hwent, htrace, hencode⟩ := hh
    obtain ⟨-, rfl⟩ := begin_eq_acquiring.1 hbegin
    refine ⟨hwent.snoc rfl, rfl, hencode, ?_⟩
    rw [trace_snoc_of_none rfl, htrace]
    exact Exchange.ledger_begin _
  | work node hp hm =>
    obtain ⟨hwent, haddress, hencode, hledger⟩ := hh
    refine ⟨hwent.snoc rfl, haddress, hencode, ?_⟩
    rw [trace_snoc]
    exact hledger.step hm.moves
  | settle node e exchanged =>
    obtain ⟨hwent, haddress, hencode, hledger⟩ := hh
    refine ⟨hwent.snoc rfl, .ended haddress hencode ?_⟩
    rwa [trace_snoc_of_none rfl]
  | report node exchanged => exact ⟨turns, m, node, exchanged, rfl, rfl, hh⟩
  | close k outcome => exact .inr ⟨turns, m, k, outcome, rfl, hh, rfl, rfl⟩

theorem Course.history {phase : Phase} (h : call.Course config turns phase) :
    History call turns phase := by
  induction h with
  | start => exact ⟨fun node hreaches => by simp [Reaches] at hreaches, rfl, List.forall_mem_nil _⟩
  | turn m hc hm ih => exact ih.step hm

/-- A call that is over has not come to a node, or its result is what it concludes from its
exchange. -/
theorem Course.ended_cases {turns : List Turn} {result : Except Fault Reply}
    {learned : Option CallResult} (h : call.Course config turns (.ended result learned)) :
    (trace turns = [] ∧ ∃ f, result = .error f) ∨ ∃ node exchanged now,
      Exchanged call node (trace turns) exchanged ∧
      result = (call.conclude node exchanged now).result := by
  obtain ⟨hidle, hresult, -⟩ | ⟨_, m', k, outcome, rfl, hreported, rfl, -⟩ := h.history
  · exact .inl ⟨hidle.trace_eq, hresult⟩
  · obtain ⟨earlier, m, node, exchanged, rfl, rfl, -, hexchanged⟩ := hreported
    refine .inr ⟨node, exchanged, m.now, ?_, rfl⟩
    rwa [trace_snoc_of_none rfl, trace_snoc_of_none rfl]

/-- The exchange of a call has a ledger, whether the call is over or not. If it is over, so is the
exchange. -/
theorem Course.ledger {turns : List Turn} {phase : Phase} (h : call.Course config turns phase) :
    trace turns = [] ∨ ∃ e x, call.Encodes e.request ∧ Exchange.Ledger e (trace turns) x ∧
      ∀ result learned, phase = .ended result learned → ∃ node exchanged now,
        x = .finished exchanged ∧ result = (call.conclude node exchanged now).result := by
  have hh := h.history
  cases phase with
  | ready | asking => exact .inl (Idle.trace_eq hh)
  | chosen node request => exact .inl hh.2.1
  | exchanging node e x =>
    obtain ⟨-, -, hencodes, hledger⟩ := hh
    refine .inr ⟨e, x, hencodes, hledger, fun result learned hended => ?_⟩
    cases hended
  | settled node exchanged =>
    cases hh.2 with
    | unbegun ht f => exact .inl ht
    | ended ha hr hl =>
      refine .inr ⟨_, _, hr, hl, fun result learned hended => ?_⟩
      cases hended
  | reporting k =>
    obtain ⟨earlier, m, node, exchanged, -, rfl, -, hexchanged⟩ := hh
    rw [trace_snoc_of_none rfl]
    cases hexchanged with
    | unbegun ht f => exact .inl ht
    | ended ha hr hl =>
      refine .inr ⟨_, _, hr, hl, fun result learned hended => ?_⟩
      cases hended
  | ended result learned =>
    obtain ⟨hnone, -⟩ | ⟨node, exchanged, now, hexchanged, rfl⟩ := h.ended_cases
    · exact .inl hnone
    · cases hexchanged with
      | unbegun ht f => exact .inl ht
      | ended ha hr hl =>
        refine .inr ⟨_, _, hr, hl, fun result learned hended => ⟨node, exchanged, now, rfl, ?_⟩⟩
        cases hended
        rfl

/-! ## A call that is answered -/

theorem Course.work {e : Errand} {x y : Exchange} {p : Pool} {s : Pool.Step Exchange}
    {touch : Touch} (hc : call.Course config turns (.exchanging node e x)) (m : Moment)
    (hp : p.config = config) (h : x.MovesUnder call.context e p m s touch) (hy : s.next = y) :
    ∃ turns, call.Course config turns (.exchanging node e y) := by
  subst hy
  exact ⟨_, hc.turn m (.work node hp h)⟩

/-- A call whose exchange is over reports and ends. -/
theorem Course.exists_ended {e : Errand} {exchanged : Except Fault RoundTrip}
    (hc : call.Course config turns (.exchanging node e (.finished exchanged))) (m : Moment) :
    ∃ more, call.Course config (turns ++ more) (.ended (call.conclude node exchanged m.now).result
      (some (call.conclude node exchanged m.now).learned)) := by
  have h1 := hc.turn m (.settle node e exchanged)
  have h2 := h1.turn m (.report node exchanged)
  have h3 := h2.turn m (.close _ (.ok ()))
  rw [List.append_assoc, List.append_assoc] at h3
  exact ⟨_, h3⟩

theorem exists_bareRequest :
    ∃ request, (bareCall.request (Bytes.replicate 12 0)).1 = .ok request := by
  have hok :
      (Message.encodeRequest {} (Bytes.replicate 12 0) bareCall.header .empty).isOk = true := by
    decide +kernel
  cases hrequest : Message.encodeRequest {} (Bytes.replicate 12 0) bareCall.header .empty with
  | error f => simp [hrequest, Except.isOk, Except.toBool] at hok
  | ok request => exact ⟨request, hrequest⟩

/-- A call whose context is not done can get a new connection to its node. -/
theorem exists_served (call : Call σ) (m : Moment) (node : Node) {nonce request : ByteArray}
    (hd : call.context.doneAt m = none) (ha : node.address ≠ "")
    (hn : nonce.size = Envelope.nonceSize) (hr : (call.request nonce).1 = .ok request) :
    ∃ turns, call.Course {} turns (.exchanging node ⟨0, node.address, request⟩
      (.acquiring
        (.served (.ofConn (.new "tcp" node.address {}) false ⟨0, node.address, none, 0, 0⟩)))) := by
  let conn : Conn := ⟨0, node.address, none, 0, 0⟩
  let p : Pool := .new "tcp" node.address {}
  have hchosen :
      (call.onward nonce (.ok node) (call.context.doneAt m)).1.phase = .chosen node request := by
    simp only [onward, judgeNode, ha, hd, if_false]
    generalize call.request nonce = requested at hr
    obtain ⟨_, counts⟩ := requested
    cases hr
    rfl
  have h0 : call.Course {} [] .ready := .start
  have h1 := h0.turn m (.ask hd)
  have h2 := h1.turn m (.hear (.ok node) hn)
  rw [hchosen] at h2
  have h3 := h2.turn m (.enter node request 0 (begin_eq_acquiring.2 ⟨hd, rfl⟩))
  obtain ⟨_, h4⟩ := h3.work (y := .acquiring (.popping false)) m (p := p) rfl (.acquire .arrive) rfl
  obtain ⟨_, h5⟩ :=
    h4.work (y := .acquiring (.exhausted false)) m (p := p) rfl (.acquire (.pop false)) rfl
  obtain ⟨d, h6⟩ : ∃ d turns, call.Course {} turns
      (.exchanging node ⟨0, node.address, request⟩ (.acquiring (.dialing false d))) :=
    ⟨_, h5.work m (p := p) rfl (.acquire (.beginDial false 0)) (by rw [hd]; rfl)⟩
  obtain ⟨_, h6⟩ := h6
  exact h6.work m (p := p) rfl (.acquire (.endDial false (.connected conn) rfl)) rfl

/-- A call whose context is not done can get any whole frame as its response. -/
theorem exists_answered (call : Call σ) (m : Moment) (node : Node)
    {nonce request response : ByteArray} (hd : call.context.doneAt m = none)
    (ha : node.address ≠ "") (hn : nonce.size = Envelope.nonceSize)
    (hr : (call.request nonce).1 = .ok request) (hw : Frame.IsWhole response)
    (hs : response.size ≤ Frame.maxSize) : ∃ turns, call.Course {} turns
      (.ended (call.conclude node (.ok ⟨response, node.address⟩) m.now).result
        (some (call.conclude node (.ok ⟨response, node.address⟩) m.now).learned)) := by
  let conn : Conn := ⟨0, node.address, none, 0, 0⟩
  let p : Pool := .new "tcp" node.address {}
  let h : Handle := { Handle.ofConn p false conn with deadline := call.context.deadline }
  have hrequest := Message.isWhole_of_encodeRequest (encodeRequest_of_request hr)
  have hpos : 0 < request.size := Nat.lt_of_lt_of_le (by decide) hrequest.head
  have hbegun : (Frame.Writer.start request).isComplete = false :=
    decide_eq_false (Nat.not_le_of_lt hpos)
  have hfeed :
      (Frame.Writer.start request).feed (.took request.size) = .ok ⟨request, request.size⟩ := by
    simp [Frame.Writer.start, Frame.Writer.feed, Frame.Writer.left, Nat.ne_of_gt hpos]
  have hcomplete : Frame.Writer.isComplete ⟨request, request.size⟩ = true := by
    simp [Frame.Writer.isComplete]
  obtain ⟨_, h0⟩ := exists_served call m node hd ha hn hr
  obtain ⟨_, h1⟩ := h0.work (y := .writing node.address h (.start request)) m (p := p) rfl
    (.acquired _) (by rw [hd]; rfl)
  obtain ⟨_, h2⟩ := h1.work m (p := p) rfl (.send _ rfl hbegun hfeed) rfl
  obtain ⟨_, h3⟩ := h2.work (y := .reading node.address h (.start Frame.maxSize)) m (p := p) rfl
    (.wrote _ (.flushed hcomplete none) rfl) (by rw [hd]; rfl)
  obtain ⟨_, h4⟩ := h3.work m (p := p) rfl (.receive _ rfl (Frame.Reader.feed_whole hw hs)) rfl
  obtain ⟨_, hended⟩ := h4.exists_ended m
  exact ⟨_, hended⟩

end Call

end Courier

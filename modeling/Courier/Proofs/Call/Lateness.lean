import Courier.Proofs.Call.Course
import Courier.Proofs.Exchange.Lateness
import Courier.Proofs.Pool.Return

/-!
# Calls whose context is done

A call looks at its context before each thing that takes time, and again when that thing is over. So
whatever the clock and the cancellations do, nothing is begun at a moment when the context is done:
the selector is not asked, nobody queues or dials, no write and no read is started. What is under
way then may still come to its own end, and otherwise the context ends it. A call that finds its
context done fails at the stage that would have come next. If that is not the write, it has used no
connection, and one that it was given goes back unused.
-/
namespace Courier
open Pool (Acquire Step)

/-! ## Calls that fail -/

namespace Call
variable {σ : Type} {client : Client σ} {query : Query} {call : Call σ} {config : Pool.Config}

def Phase.pursuit? : Phase → Option Pursuit
  | .asking => some .selection
  | .exchanging _ _ x => x.pursuit?
  | .ready | .chosen _ _ | .settled _ _ | .reporting _ | .ended _ _ => none

/-- In the turn something is begun. -/
def Turn.Begins (t : Turn) (u : Pursuit) : Prop :=
  t.after.pursuit? = some u ∧ t.before.pursuit? ≠ some u

/-- The call has failed with this, whatever is still to be done. At its end it adds its cost to the
fault. -/
def Phase.FailsWith (f : Fault) : Phase → Prop
  | .exchanging _ _ x => x.FailsWith f
  | .settled _ result => result = .error f
  | .reporting k => ∃ cost, k.result = .error (f.withCost cost)
  | .ended result _ => result = .error f ∨ ∃ cost, result = .error (f.withCost cost)
  | .ready | .asking | .chosen _ _ => False

theorem Phase.FailsWith.step {m : Moment} {before after : Phase} {deed : Deed} {f : Fault}
    (hf : before.FailsWith f) (h : call.Moves config m before deed after) : after.FailsWith f := by
  cases h with
  | work node hp hm => exact Exchange.FailsWith.step hf hm
  | settle node e exchanged => exact hf
  | report node exchanged =>
    obtain rfl : exchanged = .error f := hf
    exact ⟨_, rfl⟩
  | close k outcome => exact .inr hf
  | _ => cases hf

/-- A call that has failed in some turn ends with that fault. -/
theorem Course.failsWith {turns : List Turn} {phase : Phase} (h : call.Course config turns phase)
    {t : Turn} (ht : t ∈ turns) {f : Fault} (hf : t.after.FailsWith f) : phase.FailsWith f := by
  induction h with
  | start => cases ht
  | turn m hc hm ih =>
    obtain ht | ht := List.mem_append.1 ht
    · exact (ih ht).step hm
    · obtain rfl := List.mem_singleton.1 ht
      exact hf

/-- The fault of a call that has failed keeps its kind and its stage. -/
theorem Phase.FailsWith.ended {f : Fault} {result : Except Fault Reply}
    {learned : Option CallResult} (h : (Phase.ended result learned).FailsWith f) :
    ∃ g, result = .error g ∧ g.kind = f.kind ∧ g.stage? = f.stage? := by
  obtain h | ⟨cost, h⟩ := h
  · exact ⟨f, h, rfl, rfl⟩
  · exact ⟨_, h, f.kind_withCost cost, f.stage?_withCost cost⟩

/-! ## Turns under a context that is done -/

theorem Onward.pursuit?_phase (o : Onward) : o.phase.pursuit? = none := by
  cases o <;> rfl

/-- Nothing is begun at a moment when the context is done. -/
theorem Moves.begins_nothing {m : Moment} {before after : Phase} {deed : Deed} {why : Done}
    (h : call.Moves config m before deed after) (hd : call.context.doneAt m = some why)
    {u : Pursuit} (hu : after.pursuit? = some u) : before.pursuit? = some u := by
  cases h with
  | ask hnone => cases hd.symm.trans hnone
  | skip | hear | giveUp => cases (Onward.pursuit?_phase _).symm.trans hu
  | decline => cases hu
  | closed => cases hu
  | enter node request ticket hbegin => cases hd.symm.trans (begin_eq_acquiring.1 hbegin).1
  | work node hp hm => exact Exchange.begins_nothing hm hd hu
  | settle => cases hu
  | report => cases hu
  | close => cases hu

/-- The connection of a handle that goes back unused: it can be the next one that is handed out,
unless its pool is closed or keeps no connections. -/
structure Recycles (config : Pool.Config) (p : Pool) (conn : Conn) (now : Instant)
    (s : Step Exchange) : Prop where
  closes : s.closes = (p.put conn config.forceClose now).2
  idle : s.pool.idle = (p.put conn config.forceClose now).1.idle
  first : p.closed = false → config.forceClose = false → config.maxIdle ≠ 0 →
    s.pool.idle.head? = some { conn with returned := now }

/-- What a turn under a context that is done comes to, by what the call would do next. A call that
takes idle connections from its pool and checks them does not look at its context. A selector that
has not failed and has named an address is not listened to. A slot that is there is taken, and a
pool without slots needs none. A write under way may go on; if it does not, no read follows. -/
structure Turn.Stops (config : Pool.Config) (why : Done) (t : Turn) : Prop where
  ready : t.before = .ready → t.after.FailsWith (why.fault .select)
  asking : t.before = .asking → t.after.FailsWith (why.fault .select) ∨
    (∃ f, t.deed = .hears (.error f) ∧ t.after.FailsWith f) ∨
    ∃ node, t.deed = .hears (.ok node) ∧ node.address = ""
  chosen : ∀ node request, t.before = .chosen node request → t.after.FailsWith (why.fault .dial)
  outside : ∀ node e a, t.before = .exchanging node e (.acquiring a) → a.isOutside = true →
    t.after.FailsWith (why.fault .dial) ∨ t.after.FailsWith .poolClosed ∨
      ∃ slot, t.after = .exchanging node e (.acquiring (.popping slot))
  exhausted : ∀ node e slot, t.before = .exchanging node e (.acquiring (.exhausted slot)) →
    t.after.FailsWith (why.fault .dial) ∨ t.after.FailsWith .poolLimit ∨
    t.after.FailsWith .poolClosed
  dialing : ∀ node e slot d, t.before = .exchanging node e (.acquiring (.dialing slot d)) →
    (∃ h, t.after = .exchanging node e (.acquiring (.served h))) ∨
      ∃ f, t.after.FailsWith f ∧ (f.IsLate .dial ∨ f.kind = .dialFailure)
  served : ∀ node e h, t.before = .exchanging node e (.acquiring (.served h)) →
    t.after.FailsWith (why.fault .dial) ∧ ∃ conn p s, h.conn = some conn ∧
    t.deed = .works p s .nothing ∧
      Recycles config p conn t.moment.now s
  writing : ∀ node e remote h w, t.before = .exchanging node e (.writing remote h w) →
    (∃ w', t.after = .exchanging node e (.writing remote h w')) ∨
      ∃ f, t.after.FailsWith f ∧ (f.stage? = some .write ∨ f = why.fault .read)
  reading : ∀ node e remote h r, t.before = .exchanging node e (.reading remote h r) →
    (∃ r', t.after = .exchanging node e (.reading remote h r')) ∨
      (∃ trip, t.after = .exchanging node e (.finished (.ok trip))) ∨
      ∃ f, t.after.FailsWith f ∧ (f.stage? = some .read ∨ f.kind = .decodeFailure)

variable {m : Moment} {after : Phase} {deed : Deed} {why : Done} {node : Node} {e : Errand}
    {x : Exchange}

theorem Moves.late_of_ready (h : call.Moves config m .ready deed after)
    (hd : call.context.doneAt m = some why) : after.FailsWith (why.fault .select) := by
  cases h with
  | ask hnone => cases hd.symm.trans hnone
  | skip nonce hsome =>
    cases hd.symm.trans hsome
    exact .inl rfl

theorem Moves.late_of_asking (h : call.Moves config m .asking deed after)
    (hd : call.context.doneAt m = some why) : after.FailsWith (why.fault .select) ∨
      (∃ f, deed = .hears (.error f) ∧ after.FailsWith f) ∨
      ∃ node, deed = .hears (.ok node) ∧ node.address = "" := by
  cases h with
  | giveUp nonce hsome =>
    cases hd.symm.trans hsome
    exact .inl (.inl rfl)
  | @hear answer nonce hn =>
    cases answer with
    | error f => exact .inr (.inl ⟨f, rfl, .inl rfl⟩)
    | ok node =>
      by_cases ha : node.address = ""
      · exact .inr (.inr ⟨node, rfl, ha⟩)
      · left
        rw [hd]
        simp only [onward, judgeNode, ha, if_false]
        exact .inl rfl

theorem Moves.late_of_chosen {request : ByteArray}
    (h : call.Moves config m (.chosen node request) deed after)
    (hd : call.context.doneAt m = some why) : after.FailsWith (why.fault .dial) := by
  cases h with
  | decline node request hbegin =>
    obtain ⟨why', hsome, rfl⟩ := begin_eq_finished.1 hbegin
    cases hd.symm.trans hsome
    rfl
  | closed node request hbegin => cases hd.symm.trans (begin_eq_acquiring.1 hbegin).1
  | enter node request ticket hbegin => cases hd.symm.trans (begin_eq_acquiring.1 hbegin).1

/-- A turn in an exchange that is not over is a step of it. -/
theorem Moves.works (h : call.Moves config m (.exchanging node e x) deed after)
    (hx : ∀ r, x ≠ .finished r) :
    ∃ p s touch, deed = .works p s touch ∧ p.config = config ∧
    x.MovesUnder call.context e p m s touch ∧
      after = .exchanging node e s.next := by
  cases h with
  | work node hp hm => exact ⟨_, _, _, rfl, hp, hm, rfl⟩
  | settle node e exchanged => exact absurd rfl (hx exchanged)

/-- A turn in which a call still looks for a connection is a step of that. -/
theorem Moves.acquires {a : Acquire}
    (h : call.Moves config m (.exchanging node e (.acquiring a)) deed after)
    (hf : ∀ f, a ≠ .failed f) (hs : ∀ handle, a ≠ .served handle) :
    ∃ p s touch, deed = .works p (s.map .acquiring) touch ∧
      a.MovesUnder call.context e.ticket p m s touch ∧
      after = .exchanging node e (.acquiring s.next) := by
  obtain ⟨p, s, touch, rfl, -, hmoves, rfl⟩ := h.works nofun
  cases hmoves with
  | acquire h => exact ⟨p, _, touch, rfl, h, rfl⟩
  | refuse f => exact absurd rfl (hf f)
  | acquired handle => exact absurd rfl (hs handle)

/-! ### Handles -/

/-- A handle is marked as the configuration says. -/
def Phase.IsMarked (config : Pool.Config) : Phase → Prop
  | .exchanging _ _ (.acquiring a) => a.Marked config.forceClose
  | _ => True

theorem Moves.isMarked {before : Phase} (h : call.Moves config m before deed after) :
    after.IsMarked config := by
  cases h with
  | skip | hear | giveUp =>
    generalize (call.onward _ _ _).1 = o
    cases o <;> trivial
  | enter node request ticket hbegin =>
    obtain ⟨-, rfl⟩ := begin_eq_acquiring.1 hbegin
    trivial
  | @work e x p s touch node hp hm =>
    cases hm with
    | acquire h =>
      rw [← hp]
      exact Pool.Acquire.marked_step h.moves
    | acquired h =>
      cases call.context.doneAt m <;> trivial
    | @wrote h w io r remote hio hr =>
      obtain ⟨f, -, hwrote⟩ | ⟨-, hwrote⟩ :=
        Exchange.wrote_cases p remote h r (call.context.doneAt m) m.now <;>
        rw [hwrote] <;> trivial
    | _ => trivial
  | _ => trivial

theorem Course.isMarked {turns : List Turn} {phase : Phase} (h : call.Course config turns phase) :
    phase.IsMarked config := by
  cases h with
  | start => trivial
  | turn m hc hm => exact hm.isMarked

/-- A connection that comes back from a handle that was not used. -/
theorem recycles_of_close {h : Handle} {conn : Conn} {p : Pool} {now : Instant} {y : Exchange}
    (hc : h.conn = some conn) (hp : p.config = config) (hforce : h.forceClose = config.forceClose)
    (deadline : Option Instant) :
    Recycles config p conn now { (({ h with deadline } : Handle).close p now) with next := y } where
  closes := by
    rw [← hforce]
    exact Pool.closes_release (h := { h with deadline }) hc p h.forceClose now
  idle := by
    rw [← hforce]
    exact Pool.idle_release (h := { h with deadline }) hc p h.forceClose now
  first hopen hkept hroom := by
    rw [← hforce] at hkept
    refine (congrArg List.head?
      (Pool.idle_release (h := { h with deadline }) hc p h.forceClose now)).trans ?_
    rw [hkept]
    exact Pool.head_put hopen (hp ▸ hroom) conn now

/-- What a turn under a context that is done comes to, wherever the course of the call has led. -/
theorem Course.stops {turns : List Turn} {phase : Phase} (hc : call.Course config turns phase)
    {t : Turn} (ht : t ∈ turns) {why : Done} (hd : call.context.doneAt t.moment = some why) :
    t.Stops config why := by
  obtain ⟨hm, earlier, -, hbefore⟩ := hc.exists_before ht
  obtain ⟨m, before, deed, after⟩ := t
  dsimp only at hm hd hbefore
  constructor <;> dsimp only
  case ready =>
    rintro rfl
    exact hm.late_of_ready hd
  case asking =>
    rintro rfl
    exact hm.late_of_asking hd
  case chosen =>
    rintro node request rfl
    exact hm.late_of_chosen hd
  case outside =>
    rintro node e a rfl ha
    obtain ⟨p, s, touch, -, hmoves, rfl⟩ := hm.acquires (by rintro f rfl; cases ha)
      (by rintro h rfl; cases ha)
    obtain hnext | hnext | ⟨slot, hnext⟩ := Pool.Acquire.late_of_outside hmoves hd ha
    · exact .inl hnext
    · exact .inr (.inl hnext)
    · exact .inr (.inr ⟨slot, by rw [hnext]⟩)
  case exhausted =>
    rintro node e slot rfl
    obtain ⟨p, s, touch, -, hmoves, rfl⟩ := hm.acquires nofun nofun
    exact Pool.Acquire.late_of_exhausted hmoves hd
  case dialing =>
    rintro node e slot d rfl
    obtain ⟨p, s, touch, -, hmoves, rfl⟩ := hm.acquires nofun nofun
    obtain ⟨h, hnext⟩ | ⟨f, hnext, hf⟩ := Pool.Acquire.late_of_dialing hmoves
    · exact .inl ⟨h, by rw [hnext]⟩
    · exact .inr ⟨f, hnext, hf⟩
  case served =>
    rintro node e h rfl
    obtain ⟨p, s, touch, rfl, hp, hmoves, rfl⟩ := hm.works nofun
    obtain ⟨conn, hconn⟩ := Option.isSome_iff_exists.1 hbefore.history.2.2.2.stands.2
    obtain ⟨rfl, hnext, deadline, hs⟩ := Exchange.late_of_served hmoves hd
    refine ⟨?_, conn, p, s, hconn, rfl, ?_⟩
    · rw [hnext]
      rfl
    · rw [hs]
      exact recycles_of_close hconn hp hbefore.isMarked deadline
  case writing =>
    rintro node e remote h w rfl
    obtain ⟨p, s, touch, rfl, hp, hmoves, rfl⟩ := hm.works nofun
    obtain ⟨w', hnext⟩ | ⟨f, hnext, hf⟩ :=
      Exchange.late_of_writing hmoves hd hbefore.history.2.2.2.stands
    · exact .inl ⟨w', by rw [hnext]⟩
    · exact .inr ⟨f, by rw [hnext]; rfl, hf⟩
  case reading =>
    rintro node e remote h r rfl
    obtain ⟨p, s, touch, rfl, hp, hmoves, rfl⟩ := hm.works nofun
    obtain ⟨r', hnext⟩ | ⟨trip, hnext⟩ | ⟨f, hnext, hf⟩ :=
      Exchange.late_of_reading hmoves hbefore.history.2.2.2.stands.2
    · exact .inl ⟨r', by rw [hnext]⟩
    · exact .inr (.inl ⟨trip, by rw [hnext]⟩)
    · exact .inr (.inr ⟨f, by rw [hnext]; rfl, hf⟩)

/-! ## What is begun and what is under way -/

/-- What the deed is a part of, if that takes time. -/
def Deed.pursuit? : Deed → Option Pursuit
  | .hears _ => some .selection
  | .works _ _ (.opens _) => some .dial
  | .works _ _ (.sends _ _) => some .write
  | .works _ _ (.takes _ _) => some .read
  | .works _ _ .nothing | .works _ _ (.checks _) | .nothing | .asks | .seeks | .reports _
  | .heeds _ => none

theorem Moves.pursuit?_of_deed {before : Phase} (h : call.Moves config m before deed after)
    {u : Pursuit} (hu : deed.pursuit? = some u) : before.pursuit? = some u := by
  cases h with
  | hear answer hn => exact hu
  | work node hp hm =>
    cases hm with
    | acquire h =>
      obtain ⟨conn, rfl, ha⟩ | rfl | ⟨conn, rfl⟩ := Pool.Acquire.pursuit?_of_opens h
      · cases hu
        exact ha
      · cases hu
      · cases hu
    | send => exact hu
    | take => exact hu
    | receive => exact hu
    | reject => exact hu
    | _ => cases hu
  | _ => cases hu

/-- What is under way was begun in some turn. -/
theorem Course.exists_begins {turns : List Turn} {phase : Phase}
    (h : call.Course config turns phase) {u : Pursuit} (hu : phase.pursuit? = some u) :
    ∃ t ∈ turns, t.Begins u := by
  induction h with
  | start => cases hu
  | @turn turns before after deed m hc hm ih =>
    by_cases hbefore : before.pursuit? = some u
    · obtain ⟨t, ht, hbegins⟩ := ih hbefore
      exact ⟨t, List.mem_append_left _ ht, hbegins⟩
    · exact ⟨⟨m, before, deed, after⟩, List.mem_append_right _ List.mem_cons_self, hu, hbefore⟩

theorem Turn.before_of_leg? {t : Turn} {leg : Exchange × Touch} (h : t.leg? = some leg) :
    ∃ node e, t.before = .exchanging node e leg.1 := by
  unfold leg? at h
  split at h
  next hx _ =>
    cases h
    exact ⟨_, _, hx⟩
  next => cases h

/-- A call that has not begun to write has used no connection. -/
theorem Course.unused {turns : List Turn} {phase : Phase} (h : call.Course config turns phase)
    (hw : ∀ t ∈ turns, ¬ t.Begins .write) : (trace turns).conns = [] := by
  obtain hnone | ⟨e, x, -, hledger, -⟩ := h.ledger
  · rw [hnone]
    rfl
  · refine hledger.unused (List.any_eq_false.2 fun leg hleg hwriting => ?_)
    obtain ⟨t, ht, hleg⟩ := List.mem_filterMap.1 hleg
    obtain ⟨-, earlier, hearlier, hbefore⟩ := h.exists_before ht
    obtain ⟨node, e, hx⟩ := Turn.before_of_leg? hleg
    have hu : t.before.pursuit? = some .write := by
      rw [hx]
      exact Exchange.pursuit?_of_isWriting hwriting
    obtain ⟨b, hb, hbegins⟩ := hbefore.exists_begins hu
    exact hw b (hearlier.subset (List.mem_append_left _ hb)) hbegins

/-- The call has not come to write. -/
def Phase.precedesWrite : Phase → Bool
  | .ready | .asking | .chosen _ _ | .exchanging _ _ (.acquiring _) => true
  | .exchanging _ _ (.writing _ _ _) | .exchanging _ _ (.reading _ _ _)
  | .exchanging _ _ (.finished _)
  | .settled _ _ | .reporting _ | .ended _ _ => false

theorem conns_snoc {turns : List Turn} {t : Turn} (h : ∀ leg ∈ t.leg?, leg.2.conn? = none) :
    (trace (turns ++ [t])).conns = (trace turns).conns := by
  rw [trace_snoc]
  cases hleg : t.leg? with
  | none => exact congrArg Trace.conns (List.append_nil _)
  | some leg =>
    obtain ⟨x, touch⟩ := leg
    rw [Option.toList_some, Trace.conns_snoc, h _ hleg]
    exact List.append_nil _

/-- A call that has failed leaves connections alone. -/
theorem Moves.conn?_of_failsWith {before : Phase} {f : Fault}
    (h : call.Moves config m before deed after) (hf : before.FailsWith f) :
    ∀ leg ∈ (Turn.mk m before deed after).leg?, leg.2.conn? = none := by
  cases h with
  | work node hp hm =>
    rintro leg ⟨⟩
    cases hm with
    | acquire h =>
      obtain rfl : _ = Acquire.failed f := hf
      cases h
    | refuse g => rfl
    | acquired h => rfl
    | send | wrote | take | receive | reject | stall => cases hf
  | _ => exact fun leg hleg => by cases hleg

/-- So does one that has not come to write. -/
theorem Moves.conn?_of_precedesWrite {before : Phase} {turns : List Turn}
    (h : call.Moves config m before deed after) (hh : History call turns before)
    (hb : before.precedesWrite = true) : (trace turns).conns = [] ∧
      ∀ leg ∈ (Turn.mk m before deed after).leg?, leg.2.conn? = none := by
  cases h with
  | ask | skip | hear | giveUp =>
    exact ⟨congrArg Trace.conns (Idle.trace_eq hh), fun leg hleg => by cases hleg⟩
  | decline | closed | enter => exact ⟨congrArg Trace.conns hh.2.1, fun leg hleg => by cases hleg⟩
  | @work e x p s touch node hp hm =>
    cases x with
    | acquiring a =>
      obtain ⟨-, -, -, hledger⟩ := hh
      have hstands := hledger.stands
      have hwrite : (trace turns).hasWrite = false := hstands.1
      refine ⟨hledger.unused hwrite, ?_⟩
      rintro leg ⟨⟩
      rw [hwrite] at hstands
      exact Exchange.conn?_of_unwritten hm.moves hstands rfl
    | writing | reading | finished => cases hb
  | settle | report | close => cases hb

/-- A call that fails before it has come to write uses no connection, then or later. -/
theorem Course.spared {turns : List Turn} {phase : Phase} (h : call.Course config turns phase)
    {t : Turn} (ht : t ∈ turns) (hb : t.before.precedesWrite = true) {f : Fault}
    (hf : t.after.FailsWith f) : (trace turns).conns = [] := by
  induction h with
  | start => cases ht
  | @turn turns before after deed m hc hm ih =>
    obtain ht | ht := List.mem_append.1 ht
    · rw [conns_snoc (hm.conn?_of_failsWith (hc.failsWith ht hf))]
      exact ih ht
    · obtain rfl := List.mem_singleton.1 ht
      obtain ⟨hnone, hquiet⟩ := hm.conn?_of_precedesWrite hc.history hb
      rw [conns_snoc hquiet]
      exact hnone

/-! ## The end of what is under way -/

/-- The turn ends something that takes time because the context is done, and leaves sockets alone.
Who waits for a slot can find one, or its pool closed. -/
structure Turn.Ends (p : Pool) (u : Pursuit) (t : Turn) : Prop where
  quiet : t.deed = .nothing ∨ ∃ s, t.deed = .works p s .nothing
  late : (∃ f, t.after.FailsWith f ∧ f.IsLate u.stage) ∨ u = .admission ∧
    (t.after.FailsWith .poolClosed ∨ ∃ node e slot,
      t.after = .exchanging node e (.acquiring (.popping slot)))

theorem exists_ends {m : Moment} {phase : Phase} {why : Done} {p : Pool}
    (hd : call.context.doneAt m = some why) (hp : p.config = config) {u : Pursuit}
    (hu : phase.pursuit? = some u) :
    ∃ deed after, call.Moves config m phase deed after ∧ Turn.Ends p u ⟨m, phase, deed, after⟩ := by
  cases phase with
  | asking =>
    cases hu
    exact ⟨_, _, .giveUp .empty hd, .inl rfl, .inl ⟨_, .inl rfl, why.isLate_fault .select⟩⟩
  | exchanging node e x =>
    obtain ⟨s, hm, hends⟩ := Exchange.exists_ends (e := e) p hd hu
    refine ⟨_, _, .work node hp hm, .inr ⟨s, rfl⟩, hends.imp_right fun ⟨hadmission, hnext⟩ => ?_⟩
    refine ⟨hadmission, hnext.imp_right ?_⟩
    rintro ⟨slot, hnext⟩
    exact ⟨node, e, slot, congrArg (Phase.exchanging node e) hnext⟩
  | ready | chosen | settled | reporting | ended => cases hu

/-! ## Calls under their contexts -/

/-- What a call does about its context. Selectors answer, connections are opened and bytes go over
them only after that was begun. -/
structure Obeys (client : Client σ) (query : Query) (config : Pool.Config) (c : Context)
    (start : Instant) (turns : List Turn) (phase : Phase) : Prop where
  begun : ∀ t ∈ turns, ∀ u, t.Begins u → (query.contextAt c start).doneAt t.moment = none
  pursued : ∀ t ∈ turns, ∀ u, t.deed.pursuit? = some u → ∃ earlier, earlier ++ [t] <+: turns ∧
    ∃ b ∈ earlier, b.Begins u
  stops : ∀ t ∈ turns, ∀ why, (query.contextAt c start).doneAt t.moment = some why →
    t.Stops config why
  fails : ∀ t ∈ turns, ∀ f, t.after.FailsWith f → ∀ result learned, phase = .ended result learned →
    ∃ g, result = .error g ∧ g.kind = f.kind ∧ g.stage? = f.stage?
  unused : (∀ t ∈ turns, ¬ t.Begins .write) →
    (trace turns).conns = [] ∧ (trace turns).handed = [] ∧ (trace turns).received = []
  spared :
    ∀ t ∈ turns, ∀ f, t.before.precedesWrite = true → t.after.FailsWith f → (trace turns).conns = []
  ends : ∀ m why p u, (query.contextAt c start).doneAt m = some why → p.config = config →
    phase.pursuit? = some u → ∃ t, t.moment = m ∧ t.before = phase ∧ t.Ends p u ∧
      Invokes client query config c start (turns ++ [t]) t.after

/-- The context of a call is canceled with that of the caller, and its deadline is the earlier one
of the caller's and the call's own. Nothing is begun when it is done. -/
theorem nothing_begins_late {c : Context} {start : Instant} {turns : List Turn} {phase : Phase}
    (h : Invokes client query config c start turns phase) :
    (∀ m, ((query.contextAt c start).doneAt m).isSome = true ↔ c.isCanceled m.scopes = true ∨
      ∃ deadline ∈ Race.earliest c.deadline (query.header.timeout.map (start + ·)),
      deadline ≤ m.now) ∧
    Obeys client query config c start turns phase := by
  refine ⟨fun m => Context.isSome_doneAt, ?_⟩
  cases h with
  | unresolved hb =>
    exact ⟨List.forall_mem_nil _, List.forall_mem_nil _, List.forall_mem_nil _,
      List.forall_mem_nil _, fun _ => ⟨rfl, rfl, rfl⟩, List.forall_mem_nil _,
      fun m why p u hd hp hu => nomatch hu⟩
  | @resolved call _ _ hb hc =>
    obtain ⟨hcontext, -⟩ := context_of_begin hb
    constructor <;> try rw [← hcontext]
    case begun =>
      intro t ht u hbegins
      cases hd : call.context.doneAt t.moment with
      | none => rfl
      | some why => exact absurd ((hc.exists_before ht).1.begins_nothing hd hbegins.1) hbegins.2
    case pursued =>
      intro t ht u hu
      obtain ⟨hm, earlier, hearlier, hbefore⟩ := hc.exists_before ht
      exact ⟨earlier, hearlier, hbefore.exists_begins (hm.pursuit?_of_deed hu)⟩
    case stops =>
      intro t ht why hd
      exact hc.stops ht hd
    case fails =>
      rintro t ht f hf result learned rfl
      exact (hc.failsWith ht hf).ended
    case unused =>
      intro hw
      have hconns := hc.unused hw
      exact ⟨hconns, Trace.bytes_of_conns hconns⟩
    case spared =>
      intro t ht f hb hf
      exact hc.spared ht hb hf
    case ends =>
      intro m why p u hd hp hu
      obtain ⟨deed, after, hm, hends⟩ := exists_ends hd hp hu
      exact ⟨⟨m, phase, deed, after⟩, rfl, rfl, hends, .resolved hb (hc.turn m hm)⟩

/-- A call that has a connection when its caller cancels fails before the write and gives the
connection back. -/
theorem nothing_begins_late_canceled : ∃ turns f learned p conn m s,
    Invokes oneClient bareQuery {} ⟨none, [0]⟩ 0 turns (.ended (.error f) learned) ∧
    f.kind = .canceled ∧ f.stage? = some .dial ∧ (trace turns).conns = [] ∧
    Recycles {} p conn m s := by
  let call : Call Unit := { bareCall with context := ⟨none, [0]⟩ }
  let node : Node := { address := "10.0.0.1:80" }
  let p : Pool := .new "tcp" "10.0.0.1:80" {}
  let late : Moment := ⟨0, ⟨1, [0]⟩⟩
  have hbegin : begin oneClient bareQuery ⟨none, [0]⟩ 0 = .ok call := rfl
  obtain ⟨request, hrequest⟩ := exists_bareRequest
  obtain ⟨turns, hserved⟩ := exists_served call ⟨0, .none⟩ node rfl (by decide) rfl hrequest
  obtain ⟨t, hmoment, hbefore, hfinished⟩ : ∃ t :
      Turn, t.moment = late ∧ t.before = .exchanging node _ _ ∧
      call.Course {} (turns ++ [t])
        (.exchanging node _ (.finished (.error (Done.canceled.fault .dial)))) :=
    ⟨_, rfl, rfl, hserved.turn late (.work node (p := p) rfl (.acquired _))⟩
  obtain ⟨more, hended⟩ := hfinished.exists_ended late
  have ht : t ∈ turns ++ [t] ++ more :=
    List.mem_append_left _ (List.mem_append_right _ List.mem_cons_self)
  obtain ⟨-, hobeys⟩ := nothing_begins_late (.resolved hbegin hended)
  obtain ⟨hfails, conn, p, s, -, -, hrecycles⟩ :=
    (hobeys.stops t ht .canceled (by rw [hmoment]; rfl)).served _ _ _ hbefore
  obtain ⟨f, hf, hkind, hstage⟩ := hobeys.fails t ht _ hfails _ _ rfl
  have hspared := hobeys.spared t ht _ (by rw [hbefore]; rfl) hfails
  rw [hf] at hended
  exact ⟨_, f, _, p, conn, _, s, .resolved hbegin hended, hkind, hstage, hspared, hrecycles⟩

end Call

end Courier

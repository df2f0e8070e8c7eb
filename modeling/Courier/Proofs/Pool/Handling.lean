import Courier.Proofs.Pool.Moves
import Courier.Scenario.Turn

/-!
# The life of a handle

A caller that has a handle sets its deadline and its mark, writes and reads through it, discards it,
and in the end closes or drops it; meanwhile anything may happen to the pool. In one of these steps
the connection goes to the pool, and the slot after it: in the first that fails or discards it, else
in the last. A handle has its connection or it is spent, and one that is spent reaches no socket and
does nothing to the pool.
-/
namespace Courier
open Pool (Step)

/-! ## Writes and reads -/

section Attempts
variable {σ α : Type}

/-- What a socket does with its surroundings when a write or a read is polled, and how this stands
then. -/
structure Poll (σ α : Type) where
  socket : Conn → σ → σ × Option (Except Fault α)
  now : Instant

namespace Handle

/-- Polls a write or a read. The socket is reached through the connection of the handle only. -/
def reach (h : Handle) (poll : Poll σ α) (x : σ) : σ × Option (Except Fault α) :=
  match h.conn with
  | none => (x, some (.error .connectionClosed))
  | some c => poll.socket c x

/-- Polls a write or a read until it ends by itself or by the deadline, if it does. -/
def attempt (h : Handle) (stage : Stage) : List (Poll σ α) → σ → σ × Option (Except Fault α)
  | [], x => (x, none)
  | poll :: polls, x =>
    let (x, io) := h.reach poll x
    match h.await stage io poll.now with
    | some r => (x, some r)
    | none => attempt h stage polls x

def faultOf : Except Fault α → Option Fault
  | .ok _ => none
  | .error f => some f

/-- What a caller does with a handle. To drop it is to close it. -/
inductive Use (σ : Type)
  | setDeadline (deadline : Option Instant)
  | setForceClose (force : Bool)
  | write (polls : List (Poll σ Unit))
  | read (polls : List (Poll σ ByteArray))
  | discard
  | close

/-- Whether a socket may be needed for it. -/
def Use.isIo : Use σ → Bool
  | .write _ | .read _ => true
  | .setDeadline _ | .setForceClose _ | .discard | .close => false

/-- The mark that is set, if one is. -/
def Use.mark? : Use σ → Option Bool
  | .setForceClose force => some force
  | .setDeadline _ | .write _ | .read _ | .discard | .close => none

/-- What a write or a read does to the pool when it has ended. -/
def actsAfterIo (h : Handle) : Except Fault α → List Act
  | .ok _ => []
  | .error _ => h.acts true

/-- What each of these does when it has run to its end: its accesses to the pool, one after the
other, the step that they make, the surroundings then, and the fault that the caller is told. -/
inductive Does (h : Handle) (p : Pool) (now : Instant) (x : σ) :
    Use σ → List Act → Step Handle → σ → Option Fault → Prop
  | setDeadline (deadline : Option Instant) :
      Does h p now x (.setDeadline deadline) [] (.quiet p { h with deadline }) x none
  | setForceClose (force : Bool) :
      Does h p now x (.setForceClose force) [] (.quiet p { h with forceClose := force }) x none
  | write {polls : List (Poll σ Unit)} {y : σ} {r : Except Fault Unit}
      (hr : h.attempt .write polls x = (y, some r)) :
      Does h p now x (.write polls) (h.actsAfterIo r) (h.afterIo p now r) y (faultOf r)
  | read {polls : List (Poll σ ByteArray)} {y : σ} {r : Except Fault ByteArray}
      (hr : h.attempt .read polls x = (y, some r)) :
      Does h p now x (.read polls) (h.actsAfterIo r) (h.afterIo p now r) y (faultOf r)
  | discard : Does h p now x .discard (h.acts true) (h.discard p now) x none
  | close : Does h p now x .close (h.acts h.forceClose) (h.close p now) x none

/-- One of the things that a caller does, with the pool, the moment and the surroundings in which it
ends or finds them. -/
structure Leg (σ : Type) where
  handle : Handle
  pool : Pool
  now : Instant
  before : σ
  use : Use σ
  acts : List Act
  step : Step Handle
  after : σ
  fault : Option Fault
  does : handle.Does pool now before use acts step after fault

/-- Legs one after the other, with whatever happens to the pool and the surroundings in between. -/
inductive Lives : Handle → List (Leg σ) → Handle → Prop
  | done (h : Handle) : Lives h [] h
  | next (leg : Leg σ) {legs : List (Leg σ)} {h : Handle} (hs : Lives leg.step.next legs h) :
      Lives leg.handle (leg :: legs) h

structure IsSpent (h : Handle) : Prop where
  conn : h.conn = none
  slot : h.slot = false

theorem IsSpent.acts {h : Handle} (hs : h.IsSpent) (force : Bool) : h.acts force = [] := by
  rw [Handle.acts, hs.conn, hs.slot]
  rfl

theorem IsSpent.release {h : Handle} (hs : h.IsSpent) (p : Pool) (force : Bool) (now : Instant) :
    h.release p force now = .quiet p { h with deadline := none } := by
  obtain ⟨conn, slot, deadline, mark⟩ := h
  obtain ⟨rfl, rfl⟩ : conn = none ∧ slot = false := ⟨hs.conn, hs.slot⟩
  rfl

/-- A write or a read through a handle without a connection fails at its first poll. -/
theorem attempt_cons_of_none {h : Handle} (hc : h.conn = none) (stage : Stage) (poll : Poll σ α)
    (polls : List (Poll σ α)) (x : σ) :
    h.attempt stage (poll :: polls) x = (x, some (.error .connectionClosed)) := by
  rw [attempt, reach, hc]
  rfl

theorem attempt_of_none {h : Handle} (hc : h.conn = none) {stage : Stage} {polls : List (Poll σ α)}
    {x y : σ} {r : Except Fault α} (hr : h.attempt stage polls x = (y, some r)) :
    r = .error .connectionClosed ∧ y = x := by
  cases polls with
  | nil => cases hr
  | cons poll polls =>
    rw [attempt_cons_of_none hc] at hr
    cases hr
    exact ⟨rfl, rfl⟩

namespace Leg
variable (leg : Leg σ)

/-- The write or the read has failed, or the connection was discarded. -/
def Spoils : Prop := leg.fault ≠ none ∨ leg.use = .discard

/-- What the leg does to the pool is what its accesses do, in their order. -/
structure Performs : Prop where
  pool : leg.step.pool = (Act.performAll leg.pool leg.now leg.acts).1
  closes : leg.step.closes = (Act.performAll leg.pool leg.now leg.acts).2

/-- Nothing happens to the pool. -/
structure IsQuiet : Prop where
  acts : leg.acts = []
  pool : leg.step.pool = leg.pool
  closes : leg.step.closes = []
  counts : leg.step.counts = []

/-- The first access puts the connection into the pool; behind it the slot comes back, if the handle
has one; and there is no other access. -/
structure HandsBack (c : Conn) (slot force : Bool) : Prop where
  acts : leg.acts = .put c force :: if slot then [.giveBackSlot] else []
  pool : leg.step.pool = if slot then (leg.pool.put c force leg.now).1.giveBackSlot
    else (leg.pool.put c force leg.now).1
  closes : leg.step.closes = (leg.pool.put c force leg.now).2
  counts : leg.step.counts = []

/-- The handle is used and keeps its connection and its slot. -/
structure Keeps (c : Conn) (slot : Bool) : Prop extends leg.IsQuiet where
  conn : leg.step.next.conn = some c
  slot : leg.step.next.slot = slot

/-- What is done with a spent handle: writes and reads reach no socket and fail, all of them at
once. -/
structure Fails : Prop extends leg.IsQuiet where
  spent : leg.step.next.IsSpent
  io : leg.use.isIo = true → leg.fault = some .connectionClosed ∧ leg.after = leg.before
  atOnce {α : Type} (stage : Stage) (poll : Poll σ α) (polls : List (Poll σ α)) (x : σ) :
    leg.handle.attempt stage (poll :: polls) x = (x, some (.error .connectionClosed))

/-- A leg leaves the connection where it is, gives it up because of a fault or on demand, or ends
the life of the handle. -/
inductive Comes : Prop
  | keeps {next : Handle} (hu : leg.use ≠ .close) (hq : ¬ leg.Spoils) (ha : leg.acts = [])
      (hn : leg.step = .quiet leg.pool next) (hc : next.conn = leg.handle.conn)
      (hs : next.slot = leg.handle.slot)
  | spoils (hu : leg.use ≠ .close) (hq : leg.Spoils) (ha : leg.acts = leg.handle.acts true)
      (hn : leg.step = leg.handle.release leg.pool true leg.now)
  | ends (hu : leg.use = .close) (hq : ¬ leg.Spoils)
      (ha : leg.acts = leg.handle.acts leg.handle.forceClose)
      (hn : leg.step = leg.handle.release leg.pool leg.handle.forceClose leg.now)

theorem comes : leg.Comes := by
  obtain ⟨handle, pool, now, before, use, acts, step, after, fault, does⟩ := leg
  cases does with
  | setDeadline | setForceClose => exact .keeps nofun nofun rfl rfl rfl rfl
  | @write polls y r hr | @read polls y r hr =>
    cases r with
    | ok a => exact .keeps nofun nofun rfl rfl rfl rfl
    | error f => exact .spoils nofun (.inl nofun) rfl rfl
  | discard => exact .spoils nofun (.inr rfl) rfl rfl
  | close => exact .ends rfl nofun rfl rfl

theorem performs : leg.Performs := by
  cases leg.comes with
  | keeps hu hq ha hn => constructor <;> rw [ha, hn] <;> rfl
  | spoils hu hq ha hn | ends hu hq ha hn => constructor <;> rw [ha, hn] <;> rfl

/-- Only setting the mark changes it. -/
theorem forceClose_next : leg.step.next.forceClose = leg.use.mark?.getD leg.handle.forceClose := by
  obtain ⟨handle, pool, now, before, use, acts, step, after, fault, does⟩ := leg
  cases does with
  | write hr | read hr => cases ‹Except Fault _› <;> rfl
  | setDeadline | setForceClose | discard | close => rfl

theorem io_of_none (hc : leg.handle.conn = none) (hu : leg.use.isIo = true) :
    leg.fault = some .connectionClosed ∧ leg.after = leg.before := by
  obtain ⟨handle, pool, now, before, use, acts, step, after, fault, does⟩ := leg
  cases does with
  | write hr | read hr =>
    obtain ⟨rfl, hafter⟩ := attempt_of_none hc hr
    exact ⟨rfl, hafter⟩
  | setDeadline | setForceClose | discard | close => cases hu

variable {leg} {c : Conn}

theorem isQuiet_of_quiet {next : Handle} (ha : leg.acts = [])
    (hn : leg.step = .quiet leg.pool next) : leg.IsQuiet := by
  refine ⟨ha, ?_, ?_, ?_⟩ <;> rw [hn] <;> rfl

theorem fails_of_isSpent (h : leg.handle.IsSpent) : leg.Fails := by
  have hquiet : leg.acts = [] ∧
      ∃ next : Handle, leg.step = .quiet leg.pool next ∧ next.IsSpent := by
    cases leg.comes with
    | keeps hu hq ha hn hc hs => exact ⟨ha, _, hn, hc.trans h.conn, hs.trans h.slot⟩
    | spoils hu hq ha hn =>
      exact ⟨ha.trans (h.acts _), _, hn.trans (h.release _ _ _), h.conn, h.slot⟩
    | ends hu hq ha hn =>
      exact ⟨ha.trans (h.acts _), _, hn.trans (h.release _ _ _), h.conn, h.slot⟩
  obtain ⟨ha, next, hn, hspent⟩ := hquiet
  refine ⟨isQuiet_of_quiet ha hn, ?_, leg.io_of_none h.conn, attempt_cons_of_none h.conn⟩
  rw [hn]
  exact hspent

theorem handsBack_of_release {force : Bool} (hc : leg.handle.conn = some c)
    (ha : leg.acts = leg.handle.acts force)
    (hn : leg.step = leg.handle.release leg.pool force leg.now) :
    leg.HandsBack c leg.handle.slot force ∧ leg.step.next.IsSpent := by
  rw [Handle.acts, hc] at ha
  rw [release_eq, hc] at hn
  refine ⟨⟨ha, ?_, ?_, ?_⟩, ?_, ?_⟩ <;> rw [hn]

theorem deadline_of_close (hu : leg.use = .close) : leg.step.next.deadline = none := by
  cases leg.comes with
  | keeps hopen => exact absurd hu hopen
  | spoils hopen => exact absurd hu hopen
  | ends _ _ _ hn => rw [hn]; rfl

/-- A handle that is given up has handed its connection back, or it had none. -/
theorem isSpent_of_spoils (hs : leg.Spoils)
    (hh : leg.handle.IsSpent ∨ ∃ c, leg.handle.conn = some c) : leg.step.next.IsSpent := by
  obtain hspent | ⟨c, hc⟩ := hh
  · exact (fails_of_isSpent hspent).spent
  · cases leg.comes with
    | keeps hu hq => exact absurd hs hq
    | spoils hu hq ha hn => exact (handsBack_of_release hc ha hn).2
    | ends hu hq => exact absurd hs hq

end Leg

namespace Lives
variable {h h' : Handle} {legs : List (Leg σ)} {c : Conn}

theorem eq_of_nil (hl : Lives h ([] : List (Leg σ)) h') : h' = h := by
  cases hl
  rfl

theorem split {pre post : List (Leg σ)} (hl : Lives h (pre ++ post) h') :
    ∃ middle, Lives h pre middle ∧ Lives middle post h' := by
  induction pre generalizing h with
  | nil => exact ⟨h, .done h, hl⟩
  | cons leg pre ih =>
    cases hl with
    | next _ hs =>
      obtain ⟨middle, hpre, hpost⟩ := ih hs
      exact ⟨middle, .next leg hpre, hpost⟩

theorem fails (hl : Lives h legs h') (hs : h.IsSpent) : (∀ leg ∈ legs, leg.Fails) ∧ h'.IsSpent := by
  induction hl with
  | done h => exact ⟨List.forall_mem_nil _, hs⟩
  | next leg hrest ih =>
    have hleg := Leg.fails_of_isSpent hs
    obtain ⟨hfails, hspent⟩ := ih hleg.spent
    exact ⟨List.forall_mem_cons.2 ⟨hleg, hfails⟩, hspent⟩

theorem forceClose_eq (hl : Lives h legs h') :
    h'.forceClose = (legs.filterMap fun leg => leg.use.mark?).getLast?.getD h.forceClose := by
  induction hl with
  | done h => rfl
  | next leg hrest ih =>
    rw [ih, leg.forceClose_next, List.filterMap_cons]
    cases leg.use.mark? with
    | none => rfl
    | some force => simp [List.getLast?_cons]

theorem isSpent_or (hl : Lives h legs h') (hh : h.IsSpent ∨ ∃ c, h.conn = some c) :
    h'.IsSpent ∨ ∃ c, h'.conn = some c := by
  induction hl with
  | done h => exact hh
  | next leg hrest ih =>
    refine ih ?_
    obtain hspent | ⟨c, hc⟩ := hh
    · exact .inl (Leg.fails_of_isSpent hspent).spent
    · cases leg.comes with
      | keeps hu hq ha hn hconn =>
        rw [hn]
        exact .inr ⟨c, hconn.trans hc⟩
      | spoils hu hq ha hn => exact .inl (Leg.handsBack_of_release hc ha hn).2
      | ends hu hq ha hn => exact .inl (Leg.handsBack_of_release hc ha hn).2

/-- One leg hands the connection back: the first one that spoils it, or else the last one. -/
theorem handsBack {last : Leg σ} (hl : Lives h (legs ++ [last]) h') (hc : h.conn = some c)
    (hlegs : ∀ leg ∈ legs, leg.use ≠ .close) (hlast : last.use = .close) :
    ∃ before back after force, legs ++ [last] = before ++ back :: after ∧
      (∀ leg ∈ before, leg.Keeps c h.slot) ∧ back.HandsBack c h.slot force ∧
      (∀ leg ∈ after, leg.Fails) ∧ h'.IsSpent ∧
      (force = true ↔ (∃ leg ∈ legs, leg.Spoils) ∨ last.handle.forceClose = true) := by
  induction legs generalizing h with
  | nil =>
    cases hl with
    | next _ hdone =>
      rw [hdone.eq_of_nil]
      cases last.comes with
      | keeps hu => exact absurd hlast hu
      | spoils hu => exact absurd hlast hu
      | ends hu hq ha hn =>
        obtain ⟨hback, hspent⟩ := Leg.handsBack_of_release hc ha hn
        exact ⟨[], last, [], _, rfl, List.forall_mem_nil _, hback, List.forall_mem_nil _,
          hspent, by simp⟩
  | cons leg legs ih =>
    obtain ⟨hleg, hlegs⟩ := List.forall_mem_cons.1 hlegs
    cases hl with
    | next _ hrest =>
      cases leg.comes with
      | ends hu => exact absurd hu hleg
      | spoils hu hq ha hn =>
        obtain ⟨hback, hspent⟩ := Leg.handsBack_of_release hc ha hn
        obtain ⟨hfails, hend⟩ := hrest.fails hspent
        exact ⟨[], leg, _, true, rfl, List.forall_mem_nil _, hback, hfails, hend,
          iff_of_true rfl (.inl ⟨leg, List.mem_cons_self, hq⟩)⟩
      | @keeps next hu hq ha hn hconn hslot =>
        have hkeeps : leg.Keeps c leg.handle.slot := by
          refine ⟨Leg.isQuiet_of_quiet ha hn, ?_, ?_⟩ <;> rw [hn]
          · exact hconn.trans hc
          · exact hslot
        obtain ⟨before, back, after, force, hall, hbefore, hback, hafter, hend, hforce⟩ :=
          ih hrest hkeeps.conn hlegs
        rw [hkeeps.slot] at hbefore hback
        refine ⟨leg :: before, back, after, force, by rw [List.cons_append, hall, List.cons_append],
          List.forall_mem_cons.2 ⟨hkeeps, hbefore⟩, hback, hafter, hend, ?_⟩
        rw [hforce]
        simp [hq]

/-- Nothing comes of what is done behind a failure or a discard. -/
theorem fails_behind {pre post : List (Leg σ)} {first : Leg σ}
    (hl : Lives h (pre ++ first :: post) h') (hc : h.conn = some c) (hs : first.Spoils) :
    ∀ leg ∈ post, leg.Fails := by
  obtain ⟨middle, hpre, hpost⟩ := hl.split
  cases hpost with
  | next _ hrest =>
    exact (hrest.fails (Leg.isSpent_of_spoils hs (hpre.isSpent_or (.inr ⟨c, hc⟩)))).1

/-- The accesses of a life in which one leg hands the connection back are those of that leg. -/
theorem acts_eq {before after : List (Leg σ)} {back : Leg σ} {slot force : Bool}
    (hbefore : ∀ leg ∈ before, leg.Keeps c slot) (hback : back.HandsBack c slot force)
    (hafter : ∀ leg ∈ after, leg.Fails) :
    (before ++ back :: after).flatMap Leg.acts =
      .put c force :: if slot then [.giveBackSlot] else [] := by
  have hfront : before.flatMap Leg.acts = [] :=
    List.flatMap_eq_nil_iff.2 fun leg hleg => (hbefore leg hleg).acts
  have hrest : after.flatMap Leg.acts = [] :=
    List.flatMap_eq_nil_iff.2 fun leg hleg => (hafter leg hleg).acts
  rw [List.flatMap_append, List.flatMap_cons, hfront, hback.acts, hrest, List.append_nil]
  rfl

end Lives

/-- The life of a handle that had a connection, whatever its owner does with it until it closes or
drops it, and whatever happens to its pool, to its peer and to the clock meanwhile. Some leg puts
the connection into the pool and gives the slot back after it; no other leg does anything to the
pool. So in the accesses of the whole life, in their order, the connection is put once, and the slot
comes back once, behind it. The connection is put to be closed just if a write or a read failed, or
it was discarded, or the mark was set in the end, which is the one set last. From the first failure
or discard on every write and every read fails for want of a connection, at once and without
reaching a socket. To drop the handle after it was closed does nothing more. -/
theorem given_back_once {c : Conn} {slot mark : Bool} {deadline : Option Instant}
    {legs : List (Leg σ)} {last : Leg σ} {h : Handle}
    (hl : Lives ⟨some c, slot, deadline, mark⟩ (legs ++ [last]) h)
    (hlegs : ∀ leg ∈ legs, leg.use ≠ .close) (hlast : last.use = .close) :
    (∀ leg ∈ legs ++ [last], leg.Performs) ∧
    (∃ before back after force, legs ++ [last] = before ++ back :: after ∧
      (∀ leg ∈ before, leg.Keeps c slot) ∧ back.HandsBack c slot force ∧
      (∀ leg ∈ after, leg.Fails) ∧ h.IsSpent ∧
      (legs ++ [last]).flatMap Leg.acts =
        .put c force :: (if slot then [.giveBackSlot] else []) ∧
      (force = true ↔ (∃ leg ∈ legs, leg.fault ≠ none ∨ leg.use = .discard) ∨
        (legs.filterMap fun leg => leg.use.mark?).getLast?.getD mark = true)) ∧
    (∀ pre first post, legs ++ [last] = pre ++ first :: post →
      (first.fault ≠ none ∨ first.use = .discard) → ∀ leg ∈ post, leg.Fails) ∧
    ∀ p now, h.close p now = .quiet p h := by
  obtain ⟨before, back, after, force, hall, hbefore, hback, hafter, hend, hforce⟩ :=
    hl.handsBack rfl hlegs hlast
  obtain ⟨middle, hpre, hpost⟩ := hl.split
  cases hpost with
  | next _ hdone =>
    refine ⟨fun leg _ => leg.performs,
      ⟨before, back, after, force, hall, hbefore, hback, hafter, hend, ?_, ?_⟩,
      fun pre first post hall hs => ?_, fun p now => ?_⟩
    · rw [hall]
      exact Lives.acts_eq hbefore hback hafter
    · rw [hforce, hpre.forceClose_eq]
      rfl
    · rw [hall] at hl
      exact hl.fails_behind rfl hs
    · have hdeadline : h.deadline = none := hdone.eq_of_nil ▸ Leg.deadline_of_close hlast
      rw [close, hend.release, ← hdeadline]

/-- A connection is marked and unmarked, written to, and read from in vain; its owner writes once
more and drops it. It is closed, though it is not marked, and the last write does not come to the
socket, which counts how often it is polled. -/
theorem given_back_once_spoilt : ∃ (c : Conn) (legs : List (Leg Nat)) (last : Leg Nat) (h : Handle),
    Lives ⟨some c, true, none, false⟩ (legs ++ [last]) h ∧ (∀ leg ∈ legs, leg.use ≠ .close) ∧
      last.use = .close ∧ last.handle.forceClose = false ∧
      (∃ back ∈ legs ++ [last], back.HandsBack c true true) ∧
      ∃ leg ∈ legs, leg.use.isIo = true ∧ leg.Fails := by
  let c : Conn := ⟨0, "10.0.0.1:80", none, 0, 0⟩
  let p : Pool := Pool.new "tcp" "10.0.0.1:80" { maxActive := 1, wait := true }
  let poll {α : Type} (io : Option (Except Fault α)) : Poll Nat α := ⟨fun _ n => (n + 1, io), 0⟩
  let h₁ : Handle := ⟨some c, true, none, false⟩
  let spent : Handle := ⟨none, false, none, false⟩
  let marked : Handle := { h₁ with forceClose := true }
  let marks : Leg Nat := ⟨h₁, p, 0, 0, _, _, _, _, _, .setForceClose true⟩
  let unmarks : Leg Nat := ⟨marked, p, 0, 0, _, _, _, _, _, .setForceClose false⟩
  let writes : Leg Nat :=
    ⟨h₁, p, 0, 0, .write [poll none, poll (some (.ok ()))], _, _, _, _, .write rfl⟩
  let reads : Leg Nat :=
    ⟨h₁, p, 0, 2, .read [poll (some (.error (.decode "frame")))], _, _, _, _, .read rfl⟩
  let again : Leg Nat := ⟨spent, p, 0, 3, .write [poll (some (.ok ()))], _, _, _, _, .write rfl⟩
  let drops : Leg Nat := ⟨spent, p, 0, 3, _, _, _, _, _, .close⟩
  have hl : Lives h₁ ([marks, unmarks, writes, reads, again] ++ [drops]) spent :=
    .next marks (.next unmarks (.next writes (.next reads (.next again (.next drops (.done _))))))
  have hopen : ∀ leg ∈ [marks, unmarks, writes, reads, again], leg.use ≠ .close := by
    simp [marks, unmarks, writes, reads, again]
  obtain ⟨-, ⟨before, back, after, force, hall, -, hback, -, -, -, hforce⟩, hfails, -⟩ :=
    given_back_once hl hopen rfl
  obtain rfl : force = true := hforce.2 (.inl ⟨reads, by simp, .inl nofun⟩)
  refine ⟨c, _, drops, spent, hl, hopen, rfl, rfl, ⟨back, ?_, hback⟩, again, by simp, rfl, ?_⟩
  · rw [hall]
    exact List.mem_append_right _ List.mem_cons_self
  · exact hfails [marks, unmarks, writes] reads [again, drops] rfl (.inl nofun) again (by simp)

end Handle
end Attempts

/-! ## Handles in a scenario -/

namespace Scenario.World

/-- A write of a scenario polls the session of the connection. -/
def writePoll (now : Instant) : Poll (World × Frame.Writer) Unit where
  socket c x :=
    let (w, writer, io) := x.1.pollWrite ⟨some c, false, none, false⟩ x.2
    ((w, writer), io)
  now := now

def readPoll (now : Instant) : Poll (World × Frame.Reader) ByteArray where
  socket c x :=
    let (w, reader, io) := x.1.pollRead ⟨some c, false, none, false⟩ x.2
    ((w, reader), io)
  now := now

section Turns
variable (w : World) (h : Handle) (now : Instant)

theorem reach_writePoll (writer : Frame.Writer) :
    h.reach (writePoll now) (w, writer) =
      (((w.pollWrite h writer).1, (w.pollWrite h writer).2.1), (w.pollWrite h writer).2.2) := by
  obtain ⟨conn, slot, deadline, mark⟩ := h
  cases conn with
  | none => rfl
  | some c => rfl

theorem reach_readPoll (reader : Frame.Reader) :
    h.reach (readPoll now) (w, reader) =
      (((w.pollRead h reader).1, (w.pollRead h reader).2.1), (w.pollRead h reader).2.2) := by
  obtain ⟨conn, slot, deadline, mark⟩ := h
  cases conn with
  | none => rfl
  | some c => rfl

theorem now_pollWrite (writer : Frame.Writer) : (w.pollWrite h writer).1.now = w.now := by
  unfold pollWrite
  split
  · rfl
  · split <;> rfl

theorem now_pollRead (reader : Frame.Reader) : (w.pollRead h reader).1.now = w.now := by
  unfold pollRead
  split
  · rfl
  · split <;> rfl

variable (conn : String) (held : Holding)

/-- A turn of a write polls it once, and what comes of it is what comes of the handle. -/
theorem turnWrite_eq_attempt (writer : Frame.Writer) :
    w.turnWrite conn held writer =
      match held.handle.attempt .write [writePoll w.now] (w, writer) with
      | (x, some r) => x.1.endIo conn held r fun () => .written
      | (x, none) => (x.1, .waiting (.write conn held x.2)) := by
  have hnow := now_pollWrite w held.handle writer
  rw [turnWrite, Handle.attempt, reach_writePoll]
  dsimp only [writePoll, Handle.attempt]
  rw [hnow]
  cases held.handle.await .write (w.pollWrite held.handle writer).2.2 w.now with
  | none => rfl
  | some r => rfl

theorem turnRead_eq_attempt (reader : Frame.Reader) :
    w.turnRead conn held reader =
      match held.handle.attempt .read [readPoll w.now] (w, reader) with
      | (x, some r) => x.1.endIo conn held r .frame
      | (x, none) => (x.1, .waiting (.read conn held x.2)) := by
  have hnow := now_pollRead w held.handle reader
  rw [turnRead, Handle.attempt, reach_readPoll]
  dsimp only [readPoll, Handle.attempt]
  rw [hnow]
  cases held.handle.await .read (w.pollRead held.handle reader).2.2 w.now with
  | none => rfl
  | some r => rfl

end Turns

end Scenario.World
end Courier

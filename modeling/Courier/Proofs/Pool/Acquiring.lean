import Courier.Proofs.Pool.Moves

/-!
# What a call does

What each step of a call that wants a connection comes to, whatever the surroundings say. A step
changes the slots, or it takes a connection or checks one, or it begins or ends a dial.
-/
namespace Courier

/-! ## Slots that nobody holds -/

/-- The slots that a caller gets by what it is told. -/
def Admission.slots : Admission → Nat
  | .admitted => 1
  | .queued | .refused => 0

namespace Slots
variable (s : Slots) (t : Ticket)

/-- The slots that nobody holds: free ones, and those given to callers that have not resumed yet. -/
def spare : Nat := s.free + s.granted.length

@[simp] theorem spare_ofCapacity (n : Nat) : (ofCapacity n).spare = n := rfl
@[simp] theorem spare_close : s.close.spare = s.spare := rfl

@[simp] theorem spare_giveBack : s.giveBack.spare = s.spare + 1 := by
  unfold giveBack
  split
  · simp only [spare]
    omega
  · simp only [spare, List.length_append, List.length_singleton]
    omega

/-- A slot that was given to a caller who leaves is not lost. -/
@[simp] theorem spare_leave : (s.leave t).spare = s.spare := by
  unfold leave
  split
  next h =>
    have hl := List.length_erase_of_mem h
    have hp := List.length_pos_of_mem h
    rw [spare_giveBack]
    simp only [spare, hl]
    omega
  next => rfl

theorem spare_ask : (s.ask t).2.spare + (s.ask t).1.slots = s.spare := by
  unfold ask
  split
  · rfl
  · split
    next hf =>
      simp only [spare, Admission.slots]
      omega
    next => rfl

theorem spare_resume : (s.resume t).2.spare + (s.resume t).1.slots = s.spare := by
  unfold resume
  split
  · exact s.spare_leave t
  · split
    next h =>
      have hl := List.length_erase_of_mem h
      have hp := List.length_pos_of_mem h
      simp only [spare, Admission.slots, hl]
      omega
    next => rfl

end Slots

namespace Pool.Acquire

/-- The call has no slot yet. -/
def isOutside : Acquire → Bool
  | .arriving | .queued _ => true
  | .popping _ | .checking _ _ | .exhausted _ | .dialing _ _ | .served _ | .failed _ => false

/-- What a step of a call comes to. Without slots nobody needs one. A call leaves the queue when
that is closed or the context is done, and the context can be done when the dial would begin. -/
inductive Does (p : Pool) (now : Instant) : Acquire → Step Acquire → Touch → Prop
  | passes {a : Acquire} (ha : a.isOutside = true) (hs : p.slots = none) :
      Does p now a (.quiet p (.popping false)) .nothing
  | enters {a : Acquire} {slots slots' : Slots} (ha : a.isOutside = true)
      (hs : p.slots = some slots) (hn : slots'.spare + 1 = slots.spare) :
      Does p now a (.quiet { p with slots := some slots' } (.popping true)) .nothing
  | waits {a : Acquire} {slots slots' : Slots} (t : Ticket) (ha : a.isOutside = true)
      (hs : p.slots = some slots) (hn : slots'.spare = slots.spare) :
      Does p now a (.quiet { p with slots := some slots' } (.queued t)) .nothing
  | leaves {a : Acquire} {slots slots' : Slots} {f : Fault} (ha : a.isOutside = true)
      (hs : p.slots = some slots) (hn : slots'.spare = slots.spare)
      (hf : f = .poolClosed ∨ ∃ why : Done, f = why.fault .dial) :
      Does p now a (.quiet { p with slots := some slots' } (.failed f)) .nothing
  | takes (slot : Bool) {c : Conn} {p' : Pool} (hp : p.popIdle = some (c, p')) :
      Does p now (.popping slot) (.quiet p' (.checking slot c)) .nothing
  | runsOut (slot : Bool) (hi : p.idle = []) :
      Does p now (.popping slot) (.quiet p (.exhausted slot)) .nothing
  | keeps (slot : Bool) (c : Conn) (counts : List Counter) :
      Does p now (.checking slot c) ⟨p, .served (.ofConn p slot c), [], counts⟩ (.checks c)
  | drops (slot : Bool) (c : Conn) (counts : List Counter) :
      Does p now (.checking slot c) ⟨p.lower 1, .popping slot, [c], counts⟩ (.checks c)
  | refused (slot : Bool) {f : Fault} (hd : p.beginDial = .error f) :
      Does p now (.exhausted slot) { fail p slot f with counts := refusalCounts f } .nothing
  | stops (slot : Bool) {p' : Pool} (hd : p.beginDial = .ok p') (why : Done) :
      Does p now (.exhausted slot) (fail (p'.lower 1) slot (why.fault .dial)) .nothing
  | dials (slot : Bool) {p' : Pool} (hd : p.beginDial = .ok p') (d : Dial) :
      Does p now (.exhausted slot) (.quiet p' (.dialing slot d)) .nothing
  | connects (slot : Bool) (d : Dial) (c : Conn) :
      Does p now (.dialing slot d) ⟨p, .served (.ofConn p slot c), [], [.newConnection]⟩ (.opens c)
  | fails (slot : Bool) {d : Dial} {f : Fault} (hr : d.Ends now (.error f)) :
      Does p now (.dialing slot d) (fail (p.lower 1) slot f) .nothing

theorem arrive_does (p : Pool) (now : Instant) (ticket : Ticket) (done : Option Done) :
    Does p now .arriving (arrive p ticket done) .nothing := by
  unfold arrive
  split
  next hs => exact .passes rfl hs
  next slots hs =>
    split
    next why =>
      have hp : { p with slots := some slots } = p := by rw [← hs]
      have hd : Does p now .arriving
          (.quiet { p with slots := some slots } (.failed (why.fault .dial))) .nothing :=
        .leaves rfl hs rfl (.inr ⟨why, rfl⟩)
      rwa [hp] at hd
    · have hn := slots.spare_ask ticket
      split
      next he => exact .enters rfl hs (by rwa [he] at hn)
      next he => exact .waits ticket rfl hs (by rwa [he] at hn)
      next he => exact .leaves rfl hs (by rwa [he] at hn) (.inl rfl)

theorem resume_does (p : Pool) (now : Instant) (ticket : Ticket) (done : Option Done) :
    Does p now (.queued ticket) (resume p ticket done) .nothing := by
  unfold resume
  split
  next hs => exact .passes rfl hs
  next slots hs =>
    have hn := slots.spare_resume ticket
    split
    next he => exact .enters rfl hs (by rwa [he] at hn)
    next he => exact .leaves rfl hs (by rwa [he] at hn) (.inl rfl)
    next slots' he =>
      have hw : slots'.spare = slots.spare := by rwa [he] at hn
      split
      next why => exact .leaves rfl hs ((slots'.spare_leave ticket).trans hw) (.inr ⟨why, rfl⟩)
      next => exact .waits ticket rfl hs hw

theorem Moves.does {ticket : Ticket} {p : Pool} {now : Instant} {a : Acquire} {m : Step Acquire}
    {touch : Touch} (h : a.Moves ticket p now m touch) : a.Does p now m touch := by
  cases h with
  | arrive done => exact arrive_does p now ticket done
  | resume t done => exact resume_does p now t done
  | pop slot =>
    unfold Acquire.pop
    split
    next hp => exact .takes slot hp
    next hp =>
      refine .runsOut slot ?_
      unfold popIdle at hp
      split at hp
      next hi => exact hi
      next => cases hp
  | @judge slot c v hv =>
    unfold Acquire.judge
    split
    · exact .keeps slot c v.counts
    · exact .drops slot c v.counts
  | beginDial slot attempt done remaining =>
    unfold Acquire.beginDial
    cases hd : p.beginDial with
    | error f => exact .refused slot hd
    | ok p' =>
      cases done with
      | some why => exact .stops slot hd why
      | none => exact .dials slot hd _
  | @endDial slot d r hr =>
    cases r with
    | ok c => exact .connects slot d c
    | error f => exact .fails slot hr

end Pool.Acquire

end Courier

/-!
# Admission slots

A pool that lets its callers queue has a fixed number of slots. A caller takes a free slot at once
or waits its turn; a slot that comes back goes to the caller that waits longest, who finds it when
it resumes. Closing refuses everybody who waits and everybody who comes later.
-/
namespace Courier

abbrev Ticket := Nat

/-- The free slots, the callers that wait, in the order of their arrival, and those that were given
a slot and have not resumed yet. -/
structure Slots where
  free : Nat
  waiting : List Ticket
  granted : List Ticket
  closed : Bool
  deriving DecidableEq, Repr

inductive Admission
  | admitted
  | queued
  | refused
  deriving DecidableEq, Repr

namespace Slots

def ofCapacity (n : Nat) : Slots := ⟨n, [], [], false⟩

def ask (s : Slots) (t : Ticket) : Admission × Slots :=
  if s.closed then (.refused, s)
  else if 0 < s.free then (.admitted, { s with free := s.free - 1 })
  else (.queued, { s with waiting := s.waiting ++ [t] })

/-- One slot goes to the caller that waits longest, or is free. -/
def giveBack (s : Slots) : Slots :=
  match s.waiting with
  | [] => { s with free := s.free + 1 }
  | t :: rest => { s with waiting := rest, granted := s.granted ++ [t] }

/-- A caller leaves the queue; a slot that it was given goes on. -/
def leave (s : Slots) (t : Ticket) : Slots :=
  if t ∈ s.granted then { s with granted := s.granted.erase t }.giveBack
  else { s with waiting := s.waiting.erase t }

/-- A caller that waits looks whether it was given a slot. -/
def resume (s : Slots) (t : Ticket) : Admission × Slots :=
  if s.closed then (.refused, s.leave t)
  else if t ∈ s.granted then (.admitted, { s with granted := s.granted.erase t })
  else (.queued, s)

def close (s : Slots) : Slots := { s with closed := true }

end Slots

end Courier

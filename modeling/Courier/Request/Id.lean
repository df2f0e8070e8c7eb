/-!
# Request numbers

Every request gets a number of its own. Numbers start from the clock in milliseconds, shifted left
by sixteen bits, and grow by at least one. Callers share one cell with the last number: each reads
the clock, loads the cell, and exchanges its value for the next number if the cell still holds what
was loaded; otherwise it loads again.
-/
namespace Courier.RequestId

/-- The next number after `last` when the clock shows `millis`. -/
def next (millis last : UInt64) : UInt64 := max (millis <<< 16) (last + 1)

/-- How far one caller has come: it reads the clock, loads the cell, and has its number. -/
inductive Asking
  | arrived
  | timed (millis : UInt64)
  | loaded (millis last : UInt64)
  | served (id : UInt64)
  deriving DecidableEq

/-- The shared cell, the callers, and the numbers handed out so far, the latest first. -/
structure Issue where
  last : UInt64
  callers : List Asking
  issued : List UInt64

namespace Issue

def initial (callers : Nat) : Issue := ⟨0, List.replicate callers .arrived, []⟩

/-- Caller `i` goes one step. The exchange may fail although the cell is unchanged. -/
inductive Step : Issue → Issue → Prop
  | readClock (s : Issue) (i : Nat) (millis : UInt64) (h : s.callers[i]? = some .arrived) :
      Step s { s with callers := s.callers.set i (.timed millis) }
  | load (s : Issue) (i : Nat) (millis : UInt64) (h : s.callers[i]? = some (.timed millis)) :
      Step s { s with callers := s.callers.set i (.loaded millis s.last) }
  | exchange (s : Issue) (i : Nat) (millis : UInt64)
      (h : s.callers[i]? = some (.loaded millis s.last)) :
      Step s
        { last := next millis s.last
          callers := s.callers.set i (.served (next millis s.last))
          issued := next millis s.last :: s.issued }
  | retry (s : Issue) (i : Nat) (millis last : UInt64)
      (h : s.callers[i]? = some (.loaded millis last)) :
      Step s { s with callers := s.callers.set i (.timed millis) }

end Issue

/-- The numbers that one caller after another gets while the clock shows the given readings. -/
def sequence (last : UInt64) : List UInt64 → List UInt64
  | [] => []
  | millis :: rest => next millis last :: sequence (next millis last) rest

end Courier.RequestId

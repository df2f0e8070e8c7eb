/-!
# Query modes

How the server reads a request body, with the number that stands for each mode on the wire.
-/
namespace Courier

/-- One query unit, several that are executed side by side, or units with nested queries of their
own. -/
inductive QueryMode
  | single
  | parallel
  | compound
  deriving DecidableEq, Repr, Inhabited

namespace QueryMode

def number : QueryMode → Nat
  | single => 0
  | parallel => 1
  | compound => 2

def ofNumber? : Nat → Option QueryMode
  | 0 => some single
  | 1 => some parallel
  | 2 => some compound
  | _ => none

@[simp] theorem ofNumber?_number (m : QueryMode) : ofNumber? m.number = some m := by
  cases m <;> rfl

theorem number_injective {a b : QueryMode} (h : a.number = b.number) : a = b := by
  cases a <;> cases b <;> simp [number] at h ⊢

end QueryMode

end Courier

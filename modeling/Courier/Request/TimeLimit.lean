import Courier.Time

/-!
# Time limits

A call may have a limit of its own and a caller with a deadline. The shorter one holds, and zero
stands for no limit. On the wire the limit is a whole number of milliseconds that fits 32 bits.
-/
namespace Courier.TimeLimit

/-- The caller's remaining time if it is shorter or if there is no limit of our own. -/
def effective (configured : Span) (remaining : Option Span) : Span :=
  match remaining with
  | some left => if configured = 0 ∨ left < configured then left else configured
  | none => configured

/-- The largest number of milliseconds on the wire. -/
def maxMillis : Nat := UInt32.size - 1

/-- The milliseconds on the wire. Zero would lift the limit, so a caller's limit of less than a
millisecond is rounded up. -/
def wire (limit : Span) (bounded : Bool) : UInt32 :=
  let ms := min limit.millis maxMillis
  if ms = 0 ∧ bounded then 1 else ms.toUInt32

/-- The limit that a field of the wire stands for. -/
def ofWire (ms : UInt32) : Option Span :=
  if ms = 0 then none else some (Span.ofMillis ms.toNat)

end Courier.TimeLimit

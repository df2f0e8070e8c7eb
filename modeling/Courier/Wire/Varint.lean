import Courier.Fault.Cause

/-!
# Numbers of variable length

A number is written in groups of seven bits, the lowest first; every byte but the last has its top
bit set. Readers accept longer forms of a number, but no more bytes than the widest number of the
type needs and no bits beyond it in the last of them.
-/
namespace Courier.Wire.Varint

/-- The bytes of `n`, as few as possible. -/
def write (n : Nat) : List UInt8 :=
  if n < 128 then [n.toUInt8] else (n % 128 + 128).toUInt8 :: write (n / 128)

/-- Reads a number of at most `left` bytes, the last possible one of which is at most `last`. -/
def read (last : UInt8) : Nat → List UInt8 → Except RecordError (Nat × List UInt8)
  | 0, _ => .error .badVarint
  | _ + 1, [] => .error .unexpectedEnd
  | left + 1, b :: rest =>
    if b < 128 then
      if left = 0 ∧ last < b then .error .badVarint else .ok (b.toNat, rest)
    else
      match read last left rest with
      | .ok (n, rest) => .ok (b.toNat - 128 + 128 * n, rest)
      | .error e => .error e

end Courier.Wire.Varint

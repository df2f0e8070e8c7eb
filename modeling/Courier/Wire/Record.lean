import Courier.Bytes
import Courier.TextMap
import Courier.QueryMode
import Courier.Wire.Varint

/-!
# Records

The fields of a record stand one after the other with nothing between them. For each type of field
there is a writer and a reader, and a reader gives back what the writer wrote and leaves the bytes
behind it.
-/
namespace Courier.Wire.Record

/-- Takes a value from the front of the bytes. -/
abbrev Reader (α : Type) := StateT (List UInt8) (Except RecordError) α

/-- The reader gives back what was written and leaves the rest. -/
def Inverts {α : Type} (read : Reader α) (write : α → List UInt8) (a : α) : Prop :=
  ∀ rest, read.run (write a ++ rest) = .ok (a, rest)

def readNumber (last : UInt8) (left : Nat) : Reader Nat := fun bytes => Varint.read last left bytes

def readByte : Reader UInt8
  | [] => .error .unexpectedEnd
  | b :: rest => .ok (b, rest)

/-! ## Words -/

def word32 (n : UInt32) : List UInt8 := Varint.write n.toNat

/-- At most five bytes, the last of which has four bits. -/
def readWord32 : Reader UInt32 := do
  return (← readNumber 0x0f 5).toUInt32

def word64 (n : UInt64) : List UInt8 := Varint.write n.toNat

/-- At most ten bytes, the last of which has one bit. -/
def readWord64 : Reader UInt64 := do
  return (← readNumber 0x01 10).toUInt64

/-- Signed numbers alternate: 0, -1, 1, -2, and so on. -/
def zigzag (n : Int) : Nat := if 0 ≤ n then 2 * n.toNat else 2 * (-n).toNat - 1

def unzigzag (n : Nat) : Int := if n % 2 = 0 then n / 2 else -((n + 1) / 2)

def int32 (n : Int32) : List UInt8 := Varint.write (zigzag n.toInt)

def readInt32 : Reader Int32 := do
  return Int32.ofInt (unzigzag (← readNumber 0x0f 5))

/-- Lengths have the width of a double word. -/
def readLength : Reader Nat := readNumber 0x01 10

/-! ## Flags, options and modes -/

def flag (b : Bool) : List UInt8 := [if b then 1 else 0]

def readFlag : Reader Bool := do
  match (← readByte) with
  | 0 => return false
  | 1 => return true
  | _ => throw .badBool

def option {α : Type} (write : α → List UInt8) : Option α → List UInt8
  | none => [0]
  | some a => 1 :: write a

def readOption {α : Type} (read : Reader α) : Reader (Option α) := do
  match (← readByte) with
  | 0 => return none
  | 1 => return some (← read)
  | _ => throw .badOption

def mode (m : QueryMode) : List UInt8 := Varint.write m.number

def readMode : Reader QueryMode := do
  match QueryMode.ofNumber? (← readNumber 0x0f 5) with
  | some m => return m
  | none => throw .unknownVariant

/-! ## Texts -/

/-- The bytes of a text behind their number. -/
def text (s : String) : List UInt8 := Varint.write s.toUTF8.size ++ s.toUTF8.data.toList

/-- Takes the next `n` bytes. -/
def readBytes (n : Nat) : Reader (List UInt8) := fun bytes =>
  if bytes.length < n then .error .unexpectedEnd else .ok (bytes.take n, bytes.drop n)

def readText : Reader String := do
  let bytes ← readBytes (← readLength)
  match String.fromUTF8? (Bytes.ofList bytes) with
  | some s => return s
  | none => throw .badText

/-! ## Maps -/

/-- The entries of a map behind their number, in the order of their keys. -/
def map {α : Type} (write : α → List UInt8) (m : TextMap α) : List UInt8 :=
  Varint.write m.size ++ m.entries.flatMap fun e => text e.1 ++ write e.2

def readEntries {α : Type} (read : Reader α) : Nat → Reader (List (String × α))
  | 0 => return []
  | n + 1 => do
    let key ← readText
    let value ← read
    return (key, value) :: (← readEntries read n)

/-- Entries may come in any order; of several with one key the last one counts. -/
def readMap {α : Type} (read : Reader α) : Reader (TextMap α) := do
  return TextMap.ofList (← readEntries read (← readLength))

end Courier.Wire.Record

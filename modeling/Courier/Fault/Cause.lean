import Courier.Fault.ErrorNumber

/-!
# Causes below a call

What can go wrong in the two layers under a call: reading a record from bytes, and the operating
system's input and output.
-/
namespace Courier

/-- Why a record could not be read or written. -/
inductive RecordError
  | unexpectedEnd
  | badVarint
  | badBool
  | badText
  | badOption
  | badVariant
  | unknownVariant
  | bufferFull
  deriving DecidableEq, Repr

namespace RecordError

def message : RecordError → String
  | unexpectedEnd => "Hit the end of buffer, expected more data"
  | badVarint => "Found a varint that didn't terminate. Is the usize too big for this platform?"
  | badBool => "Found a bool that wasn't 0 or 1"
  | badText => "Tried to parse invalid utf-8"
  | badOption => "Found an Option discriminant that wasn't 0 or 1"
  | badVariant => "Found an enum discriminant that was > u32::max_value()"
  | unknownVariant => "Serde Deserialization Error"
  | bufferFull => "The serialize buffer is full"

end RecordError

/-- The classes of input and output errors. -/
inductive IoKind
  | notFound
  | permissionDenied
  | connectionRefused
  | connectionReset
  | connectionAborted
  | networkUnreachable
  | notConnected
  | brokenPipe
  | wouldBlock
  | timedOut
  | interrupted
  | invalidInput
  | invalidData
  | unexpectedEof
  | writeZero
  | other
  deriving DecidableEq, Repr

/-- An input or output error with the text it is shown by. -/
structure IoError where
  kind : IoKind
  text : String
  deriving DecidableEq, Repr

namespace IoError

/-- The class of an error number of the operating system. -/
def kindOf : Int → IoKind
  | 1 | 13 => .permissionDenied
  | 2 => .notFound
  | 4 => .interrupted
  | 11 => .wouldBlock
  | 22 => .invalidInput
  | 32 => .brokenPipe
  | 101 => .networkUnreachable
  | 103 => .connectionAborted
  | 104 => .connectionReset
  | 107 => .notConnected
  | 110 => .timedOut
  | 111 => .connectionRefused
  | _ => .other

/-- The error with a number of the operating system. -/
def ofNumber (n : Int) : IoError :=
  ⟨kindOf n, ErrorNumber.wording n ++ " (os error " ++ toString n ++ ")"⟩

/-- The end of a stream in the place of bytes that had to come. -/
def earlyEnd : IoError := ⟨.unexpectedEof, "early eof"⟩

end IoError

end Courier

import Courier.Wire.Record

/-!
# Response headers

The metadata in front of a response body: the number and mode of the request it answers, the error
of the whole call if there is one, and the errors and absent results of single query units. An error
with code zero is no error.
-/
namespace Courier

/-- An error that the service reports. -/
structure ServiceError where
  kind : Int32 := 0
  code : Int32 := 0
  message : String := ""
  statement : String := ""
  deriving DecidableEq, Repr

/-- Code zero means success. -/
def ServiceError.isSuccess (e : ServiceError) : Bool := e.code == 0

structure ResponseHeader where
  version : UInt32 := 0
  mode : QueryMode := .single
  id : UInt64 := 0
  traceId : String := ""
  timestamp : UInt64 := 0
  compress : Bool := false
  err : Option ServiceError := none
  unitErrors : TextMap ServiceError := .empty
  absentUnits : TextMap Bool := .empty
  deriving DecidableEq, Repr

namespace ResponseHeader

/-- The error of the call, if it carries one with a code. -/
def error (h : ResponseHeader) : Option ServiceError := h.err.filter (!·.isSuccess)

def isSuccess (h : ResponseHeader) : Bool := h.error.isNone

/-- The error of one unit, if it carries one with a code. -/
def unitError (h : ResponseHeader) (key : String) : Option ServiceError :=
  (h.unitErrors.get? key).filter (!·.isSuccess)

/-- Whether the unit is marked as absent. -/
def isAbsent (h : ResponseHeader) (key : String) : Bool :=
  (h.absentUnits.get? key).getD false

/-! ## Record -/

open Wire.Record

def encodeError (e : ServiceError) : List UInt8 :=
  int32 e.kind ++ int32 e.code ++ text e.message ++ text e.statement

def readError : Reader ServiceError := do
  let kind ← readInt32
  let code ← readInt32
  let message ← readText
  let statement ← readText
  return { kind, code, message, statement }

/-- The fields in their order. -/
def encode (h : ResponseHeader) : List UInt8 :=
  word32 h.version ++ Wire.Record.mode h.mode ++ word64 h.id ++ text h.traceId ++
    word64 h.timestamp ++ flag h.compress ++ option encodeError h.err ++
    map encodeError h.unitErrors ++ map flag h.absentUnits

def read : Reader ResponseHeader := do
  let version ← readWord32
  let mode ← readMode
  let id ← readWord64
  let traceId ← readText
  let timestamp ← readWord64
  let compress ← readFlag
  let err ← readOption readError
  let unitErrors ← readMap readError
  let absentUnits ← readMap readFlag
  return { version, mode, id, traceId, timestamp, compress, err, unitErrors, absentUnits }

/-- The header at the front of a segment; bytes behind it are ignored. -/
def decode (segment : ByteArray) : Except RecordError ResponseHeader :=
  match read.run segment.data.toList with
  | .ok (h, _) => .ok h
  | .error e => .error e

end ResponseHeader

end Courier

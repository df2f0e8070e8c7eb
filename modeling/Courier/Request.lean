import Courier.Digest.Sha256
import Courier.Request.TimeLimit
import Courier.Wire.Record

/-!
# Request headers

The metadata in front of a request body: who calls whom, for how long, and a signature over some of
the fields and a secret. A header is written as a record and read back from one.
-/
namespace Courier

/-- The version that every header carries. -/
def protocolVersion : UInt32 := 1

/-- The name of the query endpoint. -/
def queryCallee : String := "server.access.api/Query"

/-- The limit of callers that set none, in milliseconds. -/
def defaultTimeoutMillis : UInt32 := 60000

/-- Random numbers against replay lie below this. -/
def nonceLimit : UInt32 := 99999999

/-- Who calls, and with which defaults. -/
structure Caller where
  name : String := ""
  appId : UInt64 := 0
  secret : String := ""
  localIp : String := ""
  timeoutMillis : UInt32 := defaultTimeoutMillis

structure RequestHeader where
  version : UInt32 := 0
  requestType : UInt32 := 0
  mode : QueryMode := .single
  id : UInt64 := 0
  traceId : String := ""
  timestamp : UInt64 := 0
  timeoutMillis : UInt32 := 0
  caller : String := ""
  callee : String := ""
  appId : UInt64 := 0
  ip : String := ""
  nonce : UInt32 := 0
  compress : Bool := false
  sign : String := ""
  deriving DecidableEq, Repr

namespace RequestHeader

/-- An unsigned header for a query of `caller`, who has `remaining` time left. -/
def build (mode : QueryMode) (caller : Caller) (remaining : Option Span)
    (id timestamp : UInt64) (nonce : UInt32) : RequestHeader where
  version := protocolVersion
  mode := mode
  id := id
  timestamp := timestamp
  timeoutMillis :=
    TimeLimit.wire (TimeLimit.effective (Span.ofMillis caller.timeoutMillis.toNat) remaining)
      remaining.isSome
  caller := caller.name
  callee := queryCallee
  appId := caller.appId
  ip := caller.localIp
  nonce := nonce

/-- Zero leaves the number as it is. -/
def withId (h : RequestHeader) (id : UInt64) : RequestHeader :=
  if id = 0 then h else { h with id := id }

/-- The limit that the header carries, if any. -/
def timeout (h : RequestHeader) : Option Span := TimeLimit.ofWire h.timeoutMillis

/-! ## Signature -/

/-- The text that is hashed: twelve fields one after the other. -/
def signedText (h : RequestHeader) (secret : String) : String :=
  toString h.appId.toNat ++ secret ++ toString h.requestType.toNat ++ toString h.mode.number ++
    toString h.id.toNat ++ h.traceId ++ toString h.timestamp.toNat ++
      toString h.timeoutMillis.toNat ++
    h.caller ++ (if h.compress then "1" else "0") ++ toString h.nonce.toNat ++
    toString h.version.toNat

/-- The hash of the signed text in hexadecimal. -/
def signature (h : RequestHeader) (secret : String) : String :=
  Bytes.hex (Digest.Sha256.hash (h.signedText secret).toUTF8)

def signed (h : RequestHeader) (secret : String) : RequestHeader :=
  { h with sign := h.signature secret }

/-- Whether the header carries its signature for `secret`. -/
def verifies (h : RequestHeader) (secret : String) : Bool :=
  h.sign != "" && h.sign == h.signature secret

/-! ## Record -/

open Wire.Record

/-- The fields in their order. -/
def encode (h : RequestHeader) : List UInt8 :=
  word32 h.version ++ word32 h.requestType ++ Wire.Record.mode h.mode ++ word64 h.id ++
    text h.traceId ++ word64 h.timestamp ++ word32 h.timeoutMillis ++ text h.caller ++
    text h.callee ++ word64 h.appId ++ text h.ip ++ word32 h.nonce ++ flag h.compress ++ text h.sign

def read : Reader RequestHeader := do
  let version ← readWord32
  let requestType ← readWord32
  let mode ← readMode
  let id ← readWord64
  let traceId ← readText
  let timestamp ← readWord64
  let timeoutMillis ← readWord32
  let caller ← readText
  let callee ← readText
  let appId ← readWord64
  let ip ← readText
  let nonce ← readWord32
  let compress ← readFlag
  let sign ← readText
  return { version, requestType, mode, id, traceId, timestamp, timeoutMillis, caller, callee, appId,
           ip, nonce, compress, sign }

/-- The header at the front of a segment; bytes behind it are ignored. -/
def decode (segment : ByteArray) : Except RecordError RequestHeader :=
  match read.run segment.data.toList with
  | .ok (h, _) => .ok h
  | .error e => .error e

end RequestHeader

end Courier

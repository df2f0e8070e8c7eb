import Courier.Envelope
import Courier.Request
import Courier.Response

/-!
# Messages

A request is a header and a body in a plain frame, in an envelope if the workspace wants one; a
response is always a plain frame.
-/
namespace Courier.Message

/-- How a request frame is put into an envelope. -/
structure Packing where
  workspace : UInt32 := 0
  envelope : FrameType := .plain
  token : String := ""

/-- The frame of a request; `nonce` is used if it is encrypted. -/
def encodeRequest (packing : Packing) (nonce : ByteArray) (header : RequestHeader)
    (body : ByteArray) : Except Fault ByteArray :=
  match Frame.build .plain (Bytes.ofList header.encode) body with
  | .error e => .error e
  | .ok frame =>
    match packing.envelope with
    | .plain => .ok frame
    | .signature => Envelope.sign packing.workspace packing.token frame
    | .encrypt => Envelope.encrypt packing.workspace packing.token nonce frame

/-- The request in a frame, out of its envelope. -/
def decodeRequest (frame : ByteArray) (token : String) : Except Fault (RequestHeader × ByteArray) :=
  match Envelope.remove frame token with
  | .error e => .error e
  | .ok content =>
    match Frame.split content.inner with
    | .error e => .error e
    | .ok parts =>
      match RequestHeader.decode parts.header with
      | .error e => .error (.decode ("request header decode: " ++ e.message))
      | .ok header => .ok (header, parts.body)

/-- The frame of a response. -/
def encodeResponse (header : ResponseHeader) (body : ByteArray) : Except Fault ByteArray :=
  Frame.build .plain (Bytes.ofList header.encode) body

/-- The response in a frame, which must be plain. -/
def decodeResponse (frame : ByteArray) : Except Fault (ResponseHeader × ByteArray) :=
  match Frame.split frame with
  | .error e => .error e
  | .ok parts =>
    if parts.head.type ≠ .plain then
      .error (.decode ("unexpected response frame type " ++ toString parts.head.type.byte.toNat))
    else
      match ResponseHeader.decode parts.header with
      | .error e => .error (.decode ("response header decode: " ++ e.message))
      | .ok header => .ok (header, parts.body)

end Courier.Message

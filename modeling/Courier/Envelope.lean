import Courier.Cipher.Gcm
import Courier.Digest.Hmac
import Courier.Frame

/-!
# Envelopes

A whole frame may travel as the body of another frame, its envelope. The header segment of an
envelope names the workspace; a signature envelope adds the keyed hash of the inner frame under the
workspace's token, and an encrypting one adds the nonce under which the inner frame is enciphered.
-/
namespace Courier.Envelope

/-- Bytes of the workspace number. -/
def workspaceSize : Nat := 4

def signatureSize : Nat := 32

def nonceSize : Nat := 12

/-- The bytes of the inner frame in an envelope that authenticates them. -/
def sign (workspace : UInt32) (token : String) (inner : ByteArray) : Except Fault ByteArray :=
  Frame.build .signature
    (Bytes.ofUInt32 workspace ++ Digest.Hmac.mac token.toUTF8 inner) inner

/-- The key of a token. -/
def cipherKey (token : String) : ByteArray := Digest.Sha256.hash token.toUTF8

/-- The bytes of the inner frame in an envelope that hides them. -/
def encrypt (workspace : UInt32) (token : String) (nonce inner : ByteArray) :
    Except Fault ByteArray :=
  Frame.build .encrypt (Bytes.ofUInt32 workspace ++ nonce)
    (Cipher.Gcm.encipher (cipherKey token) nonce inner)

/-- What an envelope held, and of which workspace; a plain frame has no envelope. -/
structure Content where
  type : FrameType
  workspace : Option UInt32
  inner : ByteArray

/-- The workspace at the front of a header segment that must have `trailer` bytes behind it. -/
def workspaceOf (header : ByteArray) (trailer : Nat) : Except Fault UInt32 :=
  if header.size ≠ workspaceSize + trailer then
    .error (.decode ("wrapper header segment len " ++ toString header.size ++ " != " ++
      toString (workspaceSize + trailer)))
  else .ok (Bytes.uint32At header 0)

/-- What stands behind the workspace number. -/
def trailerOf (header : ByteArray) : ByteArray := header.extract workspaceSize header.size

/-- Takes the envelope off, if there is one. -/
def remove (buf : ByteArray) (token : String) : Except Fault Content :=
  match Frame.split buf with
  | .error e => .error e
  | .ok ⟨head, header, payload⟩ =>
    match head.type with
    | .plain => .ok ⟨.plain, none, buf⟩
    | .signature =>
      match workspaceOf header signatureSize with
      | .error e => .error e
      | .ok workspace =>
        if trailerOf header = Digest.Hmac.mac token.toUTF8 payload then
          .ok ⟨.signature, some workspace, payload⟩
        else .error (.decode "frame signature mismatch")
    | .encrypt =>
      match workspaceOf header nonceSize with
      | .error e => .error e
      | .ok workspace =>
        match Cipher.Gcm.decipher? (cipherKey token) (trailerOf header) payload with
        | some inner => .ok ⟨.encrypt, some workspace, inner⟩
        | none => .error (.decode "frame decryption failed")

end Courier.Envelope

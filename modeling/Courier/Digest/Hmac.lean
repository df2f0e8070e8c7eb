import Courier.Digest.Sha256

/-!
# Keyed hash

The keyed form of SHA-256: the key, hashed first if it is longer than a block, is filled up to one
block, and masks an inner and an outer hash.
-/
namespace Courier.Digest.Hmac
open Courier.Bytes

/-- The key as one block of 64 bytes. -/
def blockKey (key : ByteArray) : ByteArray :=
  let k := if key.size > 64 then Sha256.hash key else key
  k ++ replicate (64 - k.size) 0

/-- The 32 bytes that authenticate `msg` under `key`. -/
def mac (key msg : ByteArray) : ByteArray :=
  let k := blockKey key
  let inner := Sha256.hash (xor k (replicate 64 0x36) ++ msg)
  Sha256.hash (xor k (replicate 64 0x5c) ++ inner)

@[simp] theorem size_mac (key msg : ByteArray) : (mac key msg).size = 32 := by
  simp [mac]

end Courier.Digest.Hmac

import Courier.Cipher.Aes256

/-!
# AES-256 in Galois counter mode

A plain text is masked by a key stream that depends on key, nonce and length alone, and a tag of 16
bytes, computed from the masked text, is appended. Deciphering recomputes the tag and refuses any
other; `decipher?_encipher` says that an enciphered text deciphers to itself. No associated data is
used.
-/
namespace Courier.Cipher.Gcm
open Courier.Bytes Courier.Cipher.Aes256

/-- Bytes of a tag. -/
def tagSize : Nat := 16

/-- An element of the field of 2¹²⁸ elements; the highest bit of `hi` is the constant term. -/
structure Element where
  hi : UInt64
  lo : UInt64

/-- `z + x · v`, where `n` bits of `x` are left and the highest of them comes first. -/
def multiplyAdd : Nat → (xh xl vh vl zh zl : UInt64) → Element
  | 0, _, _, _, _, zh, zl => ⟨zh, zl⟩
  | n + 1, xh, xl, vh, vl, zh, zl =>
    let take : Bool := xh >>> 63 = 1
    let zh := if take then zh ^^^ vh else zh
    let zl := if take then zl ^^^ vl else zl
    let reduce : UInt64 := if vl &&& 1 = 1 then 0xe100000000000000 else 0
    multiplyAdd n ((xh <<< 1) ||| (xl >>> 63)) (xl <<< 1)
      ((vh >>> 1) ^^^ reduce) ((vl >>> 1) ||| (vh <<< 63)) zh zl

/-- The product in the field. -/
def Element.times (x h : Element) : Element :=
  multiplyAdd 128 x.hi x.lo h.hi h.lo 0 0

/-- The authentication state after `n` blocks of `data` from `off` on. -/
def absorb (h : Element) (data : ByteArray) : Nat → Nat → Element → Element
  | 0, _, y => y
  | n + 1, off, y =>
    absorb h data n (off + 16)
      (Element.times ⟨y.hi ^^^ uint64At data off, y.lo ^^^ uint64At data (off + 8)⟩ h)

/-- The counter block of a nonce of 12 bytes. -/
def counterBlock (nonce : ByteArray) (n : UInt32) : Block :=
  ⟨uint32At nonce 0, uint32At nonce 4, uint32At nonce 8, n⟩

def pushWord (acc : ByteArray) (w : UInt32) : ByteArray :=
  (((acc.push (w >>> 24).toUInt8).push (w >>> 16).toUInt8).push (w >>> 8).toUInt8).push w.toUInt8

/-- `n` blocks of key stream appended to `acc`, from counter `c` on. -/
def streamFrom (keys : Array Block) (nonce : ByteArray) : Nat → UInt32 → ByteArray → ByteArray
  | 0, _, acc => acc
  | n + 1, c, acc =>
    let b := encrypt keys (counterBlock nonce c)
    streamFrom keys nonce n (c + 1)
      (pushWord (pushWord (pushWord (pushWord acc b.c0) b.c1) b.c2) b.c3)

/-- At least `n` bytes of key stream. -/
def keyStream (keys : Array Block) (nonce : ByteArray) (n : Nat) : ByteArray :=
  streamFrom keys nonce ((n + 15) / 16) 2 (ByteArray.emptyWithCapacity (n + 16))

/-- The tag of a masked text. -/
def tag (keys : Array Block) (nonce masked : ByteArray) : ByteArray :=
  let z := encrypt keys Block.zero
  let h : Element :=
    ⟨(z.c0.toUInt64 <<< 32) ||| z.c1.toUInt64, (z.c2.toUInt64 <<< 32) ||| z.c3.toUInt64⟩
  let y := absorb h masked ((masked.size + 15) / 16) 0 ⟨0, 0⟩
  let y := Element.times ⟨y.hi, y.lo ^^^ (8 * masked.size).toUInt64⟩ h
  let s := encrypt keys (counterBlock nonce 1)
  xor (ofUInt64 y.hi ++ ofUInt64 y.lo) s.bytes

/-- The masked text followed by its tag. -/
def encipher (key nonce plain : ByteArray) : ByteArray :=
  let keys := expandKey key
  let masked := xor plain (keyStream keys nonce plain.size)
  masked ++ tag keys nonce masked

/-- The plain text, unless the text is shorter than a tag or its tag is not the right one. -/
def decipher? (key nonce text : ByteArray) : Option ByteArray :=
  if text.size < tagSize then none
  else
    let keys := expandKey key
    let masked := text.extract 0 (text.size - tagSize)
    if text.extract (text.size - tagSize) text.size = tag keys nonce masked then
      some (xor masked (keyStream keys nonce masked.size))
    else none

@[simp] theorem size_tag (keys : Array Block) (nonce masked : ByteArray) :
    (tag keys nonce masked).size = tagSize := by
  simp [tag, tagSize]

@[simp] theorem size_encipher (key nonce plain : ByteArray) :
    (encipher key nonce plain).size = plain.size + tagSize := by
  simp [encipher]

/-- Deciphering inverts enciphering under the same key and nonce. -/
theorem decipher?_encipher (key nonce plain : ByteArray) :
    decipher? key nonce (encipher key nonce plain) = some plain := by
  have hs := size_encipher key nonce plain
  have hm : (encipher key nonce plain).extract 0 plain.size =
      xor plain (keyStream (expandKey key) nonce plain.size) := by
    rw [encipher, ByteArray.extract_append_eq_left (by simp)]
  have ht : (encipher key nonce plain).extract plain.size (plain.size + tagSize) =
      tag (expandKey key) nonce (xor plain (keyStream (expandKey key) nonce plain.size)) := by
    rw [encipher, ByteArray.extract_append_eq_right (by simp) (by simp)]
  simp only [decipher?, hs, Nat.add_sub_cancel, hm, ht, if_true, size_xor, xor_xor]
  rw [if_neg (by omega)]

/-- A text that is deciphered is what its plain text is enciphered to. -/
theorem encipher_of_decipher? {key nonce text plain : ByteArray}
    (h : decipher? key nonce text = some plain) : encipher key nonce plain = text := by
  unfold decipher? at h
  split at h
  · cases h
  next hs =>
    dsimp only at h
    split at h
    next htag =>
      cases h
      rw [encipher, size_xor, xor_xor, ← htag,
        ← ByteArray.extract_eq_extract_append_extract _ (Nat.zero_le _) (Nat.sub_le _ _),
        ByteArray.extract_zero_size]
    next => cases h

end Courier.Cipher.Gcm

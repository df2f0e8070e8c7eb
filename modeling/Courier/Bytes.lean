/-!
# Byte strings

Big-endian words inside a byte string and the lower-case hexadecimal text of one. Reading past the
end gives zero bytes, so every reader is total; the callers check sizes first.
-/
namespace Courier.Bytes

/-- Equality is decided the same way whatever else is imported. -/
instance (priority := 1100) decidableEq : DecidableEq ByteArray := ByteArray.instDecidableEq

/-- The byte at `i`, zero past the end. -/
def byteAt (b : ByteArray) (i : Nat) : UInt8 :=
  if h : i < b.size then b[i] else 0

/-- A byte string of `n` copies of `x`. -/
def replicate (n : Nat) (x : UInt8) : ByteArray :=
  ⟨Array.replicate n x⟩

def ofList (l : List UInt8) : ByteArray := ⟨l.toArray⟩

@[simp] theorem size_ofList (l : List UInt8) : (ofList l).size = l.length := by
  simp [ofList, ByteArray.size]

/-- The two bytes of `n`, the high one first. -/
def ofUInt16 (n : UInt16) : ByteArray :=
  ofList [(n >>> 8).toUInt8, n.toUInt8]

/-- The four bytes of `n`, the highest first. -/
def ofUInt32 (n : UInt32) : ByteArray :=
  ofList [(n >>> 24).toUInt8, (n >>> 16).toUInt8, (n >>> 8).toUInt8, n.toUInt8]

/-- The eight bytes of `n`, the highest first. -/
def ofUInt64 (n : UInt64) : ByteArray :=
  ofUInt32 (n >>> 32).toUInt32 ++ ofUInt32 n.toUInt32

@[simp] theorem size_ofUInt16 (n : UInt16) : (ofUInt16 n).size = 2 := by
  simp [ofUInt16]

@[simp] theorem size_ofUInt32 (n : UInt32) : (ofUInt32 n).size = 4 := by
  simp [ofUInt32]

@[simp] theorem size_ofUInt64 (n : UInt64) : (ofUInt64 n).size = 8 := by
  simp [ofUInt64]

/-- The word whose high byte stands at `i`. -/
def uint16At (b : ByteArray) (i : Nat) : UInt16 :=
  ((byteAt b i).toUInt16 <<< 8) ||| (byteAt b (i + 1)).toUInt16

/-- The word whose highest byte stands at `i`. -/
def uint32At (b : ByteArray) (i : Nat) : UInt32 :=
  ((byteAt b i).toUInt32 <<< 24) ||| ((byteAt b (i + 1)).toUInt32 <<< 16) |||
    ((byteAt b (i + 2)).toUInt32 <<< 8) ||| (byteAt b (i + 3)).toUInt32

/-- The double word whose highest byte stands at `i`. -/
def uint64At (b : ByteArray) (i : Nat) : UInt64 :=
  ((uint32At b i).toUInt64 <<< 32) ||| (uint32At b (i + 4)).toUInt64

def hexDigit (n : UInt8) : Char :=
  if n < 10 then Char.ofNat (48 + n.toNat) else Char.ofNat (87 + n.toNat)

/-- Two lower-case hexadecimal digits, the high half first. -/
def hexByte (x : UInt8) : List Char :=
  [hexDigit (x >>> 4), hexDigit (x &&& 15)]

/-- Two lower-case hexadecimal digits per byte. -/
def hex (b : ByteArray) : String :=
  String.ofList (b.data.toList.flatMap hexByte)

/-- Appends the exclusive or of the next `n` bytes, those at the positions of `acc`. -/
def xorFrom (a mask : ByteArray) : Nat → ByteArray → ByteArray
  | 0, acc => acc
  | n + 1, acc => xorFrom a mask n (acc.push (byteAt a acc.size ^^^ byteAt mask acc.size))

/-- Byte by byte exclusive or, as long as `a`; missing bytes of `mask` count as zero. -/
def xor (a mask : ByteArray) : ByteArray :=
  xorFrom a mask a.size (ByteArray.emptyWithCapacity a.size)

theorem size_xorFrom (a mask : ByteArray) (n : Nat) (acc : ByteArray) :
    (xorFrom a mask n acc).size = acc.size + n := by
  induction n generalizing acc with
  | zero => rfl
  | succ n ih => rw [xorFrom, ih, ByteArray.size_push]; omega

@[simp] theorem size_xor (a mask : ByteArray) : (xor a mask).size = a.size := by
  rw [xor, size_xorFrom]
  exact Nat.zero_add _

theorem byteAt_push (b : ByteArray) (x : UInt8) (i : Nat) :
    byteAt (b.push x) i = if i = b.size then x else byteAt b i := by
  unfold byteAt
  rcases Nat.lt_trichotomy i b.size with h | h | h
  · rw [dif_pos (by rw [ByteArray.size_push]; omega), dif_pos h, if_neg (by omega)]
    simp only [ByteArray.getElem_eq_getElem_data, ByteArray.data_push]
    exact Array.getElem_push_lt h
  · subst h
    rw [dif_pos (by rw [ByteArray.size_push]; omega), if_pos rfl]
    simp only [ByteArray.getElem_eq_getElem_data, ByteArray.data_push]
    exact Array.getElem_push_eq
  · rw [dif_neg (by rw [ByteArray.size_push]; omega), dif_neg (by omega), if_neg (by omega)]

theorem byteAt_xorFrom (a mask : ByteArray) (n : Nat) (acc : ByteArray) (i : Nat) :
    byteAt (xorFrom a mask n acc) i =
      if acc.size ≤ i ∧ i < acc.size + n then byteAt a i ^^^ byteAt mask i else byteAt acc i := by
  induction n generalizing acc with
  | zero => rw [xorFrom, if_neg (by omega)]
  | succ n ih =>
    rw [xorFrom, ih, ByteArray.size_push, byteAt_push]
    by_cases h : i = acc.size
    · subst h
      rw [if_neg (by omega), if_pos rfl, if_pos (by omega)]
    · simp only [h, if_false]
      by_cases h' : acc.size ≤ i ∧ i < acc.size + (n + 1)
      · rw [if_pos h', if_pos (by omega)]
      · rw [if_neg h', if_neg (by omega)]

theorem byteAt_xor (a mask : ByteArray) {i : Nat} (h : i < a.size) :
    byteAt (xor a mask) i = byteAt a i ^^^ byteAt mask i := by
  have he : (ByteArray.emptyWithCapacity a.size).size = 0 := rfl
  rw [xor, byteAt_xorFrom, he, Nat.zero_add, if_pos ⟨Nat.zero_le _, h⟩]

theorem ext_byteAt {a b : ByteArray} (hs : a.size = b.size)
    (h : ∀ i, i < a.size → byteAt a i = byteAt b i) : a = b := by
  apply ByteArray.ext_getElem hs
  intro i hi hi'
  have := h i hi
  simpa [byteAt, hi, hi'] using this

/-- Masking twice with the same bytes gives the text back. -/
theorem xor_xor (a mask : ByteArray) : xor (xor a mask) mask = a := by
  apply ext_byteAt (by simp)
  intro i hi
  have hi' : i < a.size := by simpa using hi
  rw [byteAt_xor _ _ (by simpa using hi'), byteAt_xor _ _ hi', UInt8.xor_assoc, UInt8.xor_self,
    UInt8.xor_zero]

end Courier.Bytes

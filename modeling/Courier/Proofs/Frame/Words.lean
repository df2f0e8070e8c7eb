import Mathlib.Algebra.Ring.Nat
import Courier.Proofs.Frame.Whole

/-!
# Words in a byte string

A word that is read from a byte string is the number whose digits to the base 256 are its bytes, the
highest one first, and it is written as the same bytes.
-/
namespace Courier.Bytes

/-- The number whose digits to the base 256 are the bytes, the highest one first. -/
def bigEndian (l : List UInt8) : Nat := l.foldl (fun n x => 256 * n + x.toNat) 0

/-- Bytes that stand one after the other. -/
theorem take_drop_toList {b : ByteArray} {i n : Nat} (h : i + n ≤ b.size) :
    ((toList b).drop i).take n = (List.range n).map fun k => byteAt b (i + k) := by
  apply List.ext_getElem
  · simp
    omega
  · intro k hk hk'
    have hlt : i + k < (toList b).length := by
      simp only [List.length_map, List.length_range] at hk'
      simp only [length_toList]
      omega
    simp [byteAt_eq_getD, List.getElem?_eq_getElem hlt]

/-- Numbers whose bits do not overlap are joined by adding them. -/
theorem or_eq_add {m n i : Nat} (hm : 2 ^ i ∣ m) (hn : n < 2 ^ i) : m ||| n = m + n := by
  obtain ⟨k, rfl⟩ := hm
  exact (Nat.two_pow_add_eq_or_of_lt hn k).symm

theorem toNat_uint16At {b : ByteArray} {i : Nat} (h : i + 2 ≤ b.size) :
    (uint16At b i).toNat = bigEndian (((toList b).drop i).take 2) := by
  have hbytes : ((toList b).drop i).take 2 = [byteAt b i, byteAt b (i + 1)] := take_drop_toList h
  have hx := (byteAt b i).toNat_lt
  have hy := (byteAt b (i + 1)).toNat_lt
  simp only [hbytes, bigEndian, List.foldl_cons, List.foldl_nil, uint16At, UInt16.toNat_or,
    UInt16.toNat_shiftLeft, UInt8.toNat_toUInt16, UInt16.reduceToNat, Nat.reduceMod,
    Nat.shiftLeft_eq]
  rw [Nat.mod_eq_of_lt (by omega), or_eq_add (i := 8) (by omega) hy]
  omega

theorem toNat_uint32At {b : ByteArray} {i : Nat} (h : i + 4 ≤ b.size) :
    (uint32At b i).toNat = bigEndian (((toList b).drop i).take 4) := by
  have hbytes : ((toList b).drop i).take 4 =
      [byteAt b i, byteAt b (i + 1), byteAt b (i + 2), byteAt b (i + 3)] := take_drop_toList h
  have hx := (byteAt b i).toNat_lt
  have hy := (byteAt b (i + 1)).toNat_lt
  have hz := (byteAt b (i + 2)).toNat_lt
  have hw := (byteAt b (i + 3)).toNat_lt
  simp only [hbytes, bigEndian, List.foldl_cons, List.foldl_nil, uint32At, UInt32.toNat_or,
    UInt32.toNat_shiftLeft, UInt8.toNat_toUInt32, UInt32.reduceToNat, Nat.reduceMod,
    Nat.shiftLeft_eq,
    Nat.reducePow]
  generalize (byteAt b i).toNat = x at *
  generalize (byteAt b (i + 1)).toNat = y at *
  generalize (byteAt b (i + 2)).toNat = z at *
  generalize (byteAt b (i + 3)).toNat = w at *
  have hxy : x * 16777216 ||| y * 65536 = x * 16777216 + y * 65536 :=
    or_eq_add (i := 24) (by omega) (by omega)
  have hxyz : x * 16777216 + y * 65536 ||| z * 256 = x * 16777216 + y * 65536 + z * 256 :=
    or_eq_add (i := 16) (by omega) (by omega)
  have hall : x * 16777216 + y * 65536 + z * 256 ||| w = x * 16777216 + y * 65536 + z * 256 + w :=
    or_eq_add (i := 8) (by omega) hw
  rw [Nat.mod_eq_of_lt (by omega), Nat.mod_eq_of_lt (by omega), Nat.mod_eq_of_lt (by omega),
    hxy, hxyz, hall]
  omega

theorem ofUInt16_uint16At (b : ByteArray) (i : Nat) :
    ofUInt16 (uint16At b i) = ofList [byteAt b i, byteAt b (i + 1)] := by
  unfold ofUInt16 uint16At
  generalize byteAt b i = x
  generalize byteAt b (i + 1) = y
  have hx : ((x.toUInt16 <<< 8 ||| y.toUInt16) >>> 8).toUInt8 = x := by
    apply UInt8.eq_of_toBitVec_eq
    ext i hi
    simp
    grind
  have hy : (x.toUInt16 <<< 8 ||| y.toUInt16).toUInt8 = y := by
    apply UInt8.eq_of_toBitVec_eq
    ext i hi
    simp
  rw [hx, hy]

theorem ofUInt32_uint32At (b : ByteArray) (i : Nat) :
    ofUInt32 (uint32At b i) =
      ofList [byteAt b i, byteAt b (i + 1), byteAt b (i + 2), byteAt b (i + 3)] := by
  unfold ofUInt32 uint32At
  generalize byteAt b i = x
  generalize byteAt b (i + 1) = y
  generalize byteAt b (i + 2) = z
  generalize byteAt b (i + 3) = w
  generalize hn : x.toUInt32 <<< 24 ||| y.toUInt32 <<< 16 ||| z.toUInt32 <<< 8 ||| w.toUInt32 = n
  have hx : (n >>> 24).toUInt8 = x := by
    subst hn
    apply UInt8.eq_of_toBitVec_eq
    ext i hi
    simp
    grind
  have hy : (n >>> 16).toUInt8 = y := by
    subst hn
    apply UInt8.eq_of_toBitVec_eq
    ext i hi
    simp
    grind
  have hz : (n >>> 8).toUInt8 = z := by
    subst hn
    apply UInt8.eq_of_toBitVec_eq
    ext i hi
    simp
    grind
  have hw : n.toUInt8 = w := by
    subst hn
    apply UInt8.eq_of_toBitVec_eq
    ext i hi
    simp
  rw [hx, hy, hz, hw]

end Courier.Bytes

import Mathlib.Algebra.Ring.Int.Defs
import Mathlib.Algebra.Ring.Nat
import Courier.Wire.Varint

/-!
# A number reads back

A number within the reader's bounds is given back as it was written, whatever stands behind it.
-/
namespace Courier.Wire.Varint

/-- What is written reads back, if `left` bytes with a last one of at most `last` are enough for
it. -/
theorem read_write (last : UInt8) (hl : last < 128) (rest : List UInt8) (left n : Nat)
    (h : n < (last.toNat + 1) * 128 ^ left) :
    read last (left + 1) (write n ++ rest) = .ok (n, rest) := by
  have hlast : last.toNat < 128 := hl
  induction left generalizing n with
  | zero =>
    have hn : n ≤ last.toNat := by simpa using Nat.lt_succ_iff.1 (by simpa using h)
    have hb : n.toUInt8.toNat = n := by
      simp only [UInt8.toNat_ofNat', Nat.toUInt8]
      exact Nat.mod_eq_of_lt (by omega)
    rw [write, if_pos (by omega)]
    have h1 : n.toUInt8 < 128 := by
      rw [UInt8.lt_iff_toNat_lt, hb]; exact Nat.lt_of_le_of_lt hn hlast
    have h2 : ¬ last < n.toUInt8 := by
      rw [UInt8.lt_iff_toNat_lt, hb]; omega
    simp [read, h1, h2, hb]
  | succ left ih =>
    rw [write]
    split
    · rename_i hlt
      have hb : n.toUInt8.toNat = n := by
        simp only [UInt8.toNat_ofNat', Nat.toUInt8]
        exact Nat.mod_eq_of_lt (by omega)
      have h1 : n.toUInt8 < 128 := by rw [UInt8.lt_iff_toNat_lt, hb]; exact hlt
      simp [read, h1, hb]
    · rename_i hge
      have hb : (n % 128 + 128).toUInt8.toNat = n % 128 + 128 := by
        simp only [UInt8.toNat_ofNat', Nat.toUInt8]
        exact Nat.mod_eq_of_lt (by omega)
      have h1 : ¬ (n % 128 + 128).toUInt8 < 128 := by
        rw [UInt8.lt_iff_toNat_lt, hb]
        exact Nat.not_lt.2 (Nat.le_add_left _ _)
      have hd : n / 128 < (last.toNat + 1) * 128 ^ left := by
        rw [Nat.div_lt_iff_lt_mul (by decide), Nat.mul_assoc, ← Nat.pow_succ]
        exact h
      rw [List.cons_append, read, if_neg h1, ih _ hd]
      simp only [hb]
      congr 2
      omega

end Courier.Wire.Varint

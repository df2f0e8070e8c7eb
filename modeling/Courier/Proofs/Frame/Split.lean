import Courier.Proofs.Frame.Whole

/-!
# Frames taken apart

A frame that was built from a header segment and a body is taken apart into the same head, segment
and body, unless the segment is empty. A frame can be built just if neither of its parts is too
long.
-/
namespace Courier
open Bytes (toList)

/-- A half word is put together from its bytes. -/
theorem Bytes.join_ofUInt16 (n : UInt16) :
    ((n >>> 8).toUInt8.toUInt16 <<< 8) ||| n.toUInt8.toUInt16 = n := by
  apply UInt16.eq_of_toBitVec_eq
  ext i hi
  simp [-UInt16.toUInt16_toUInt8]
  grind

/-- The head at the front of a frame is read back. -/
theorem FrameHead.extract_bytes (head : FrameHead) (rest : ByteArray) :
    extract (head.bytes ++ rest) = .ok head := by
  have hmagic : Bytes.byteAt (head.bytes ++ rest) 0 = Frame.magic := by
    simp [Bytes.byteAt_eq_getD, bytes]
  have htype : Bytes.byteAt (head.bytes ++ rest) 1 = head.type.byte := by
    simp [Bytes.byteAt_eq_getD, bytes]
  have hversion : Bytes.byteAt (head.bytes ++ rest) 2 = head.version := by
    simp [Bytes.byteAt_eq_getD, bytes]
  have hflags : Bytes.byteAt (head.bytes ++ rest) 3 = head.flags := by
    simp [Bytes.byteAt_eq_getD, bytes]
  have htotal : Bytes.uint32At (head.bytes ++ rest) 4 = head.totalLength := by
    rw [Bytes.uint32At]
    simpa [Bytes.byteAt_eq_getD, bytes, Bytes.ofUInt32] using Bytes.join_ofUInt32 head.totalLength
  have hheader : Bytes.uint16At (head.bytes ++ rest) 8 = head.headerLength := by
    rw [Bytes.uint16At]
    simpa [Bytes.byteAt_eq_getD, bytes, Bytes.ofUInt32, Bytes.ofUInt16] using
      Bytes.join_ofUInt16 head.headerLength
  have hsize : ¬ (head.bytes ++ rest).size < Frame.headSize := by simp
  rw [extract, if_neg hsize, hmagic, if_neg (by simp), htype, FrameType.ofByte?_byte]
  simp only [hversion, hflags, htotal, hheader]

namespace Frame

/-- The head of a frame with its lengths filled in. -/
def sized (head : FrameHead) (header body : ByteArray) : FrameHead :=
  { head with
    totalLength := (headSize + header.size + body.size).toUInt32
    headerLength := header.size.toUInt16 }

@[simp] theorem type_sized (head : FrameHead) (header body : ByteArray) :
    (sized head header body).type = head.type := rfl

variable {head : FrameHead} {type : FrameType} {header body frame : ByteArray} {built : Built}

/-- Neither part of a frame is too long. -/
structure Fits (header body : ByteArray) : Prop where
  segment : header.size ≤ 0xffff
  total : headSize + header.size + body.size ≤ maxSize

theorem construct_of_fits (head : FrameHead) (h : Fits header body) :
    construct head header body =
      .ok ⟨sized head header body, (sized head header body).bytes ++ header ++ body⟩ := by
  have hh := h.segment
  have ht := h.total
  rw [construct]
  dsimp only
  rw [if_neg (by omega), if_neg (by omega)]
  rfl

theorem fits_of_construct (h : construct head header body = .ok built) : Fits header body := by
  unfold construct at h
  dsimp only at h
  split at h
  · cases h
  · split at h
    · cases h
    · exact ⟨by omega, by omega⟩

theorem build_of_fits (type : FrameType) (h : Fits header body) :
    build type header body =
      .ok ((sized { type } header body).bytes ++ header ++ body) := by
  rw [build, construct_of_fits _ h]

theorem fits_of_build (h : build type header body = .ok frame) : Fits header body := by
  unfold build at h
  split at h
  next hc => exact fits_of_construct hc
  next => cases h

/-- The length of a frame that was built. -/
theorem size_of_build (h : build type header body = .ok frame) :
    frame.size = headSize + header.size + body.size := by
  rw [build_of_fits type (fits_of_build h)] at h
  cases h
  simp

theorem size_le_of_build (h : build type header body = .ok frame) : frame.size ≤ maxSize := by
  rw [size_of_build h]
  exact (fits_of_build h).total

theorem toNat_totalLength (head : FrameHead) (h : Fits header body) :
    (sized head header body).totalLength.toNat = headSize + header.size + body.size := by
  have hmax : maxSize < UInt32.size := by decide
  have htotal := h.total
  show (headSize + header.size + body.size) % UInt32.size = _
  exact Nat.mod_eq_of_lt (by omega)

theorem toNat_headerLength (head : FrameHead) (h : Fits header body) :
    (sized head header body).headerLength.toNat = header.size := by
  have hmax : UInt16.size = 0xffff + 1 := rfl
  have hsegment := h.segment
  show header.size % UInt16.size = _
  exact Nat.mod_eq_of_lt (by omega)

/-- The middle one of three parts. -/
theorem extract_middle (a b c : ByteArray) {i j : Nat} (hi : i = a.size)
    (hj : j = a.size + b.size) : (a ++ b ++ c).extract i j = b := by
  have hback := ByteArray.extract_append_size_add (a := a) (b := b ++ c) (i := 0) (j := b.size)
  rw [Nat.add_zero] at hback
  rw [hi, hj, ByteArray.append_assoc, hback, ByteArray.extract_append_eq_left rfl]

/-- A frame with a header segment is taken apart into what it was built from. -/
theorem split_of_construct (h : construct head header body = .ok built) (hh : header.size ≠ 0) :
    Frame.split built.frame = .ok ⟨built.head, header, body⟩ := by
  have hfits := fits_of_construct h
  have hlength := toNat_headerLength head hfits
  have hne : (sized head header body).headerLength ≠ 0 := by
    intro h0
    rw [h0] at hlength
    exact hh hlength.symm
  rw [construct_of_fits _ hfits] at h
  cases h
  have hsize : ((sized head header body).bytes ++ header ++ body).size =
      headSize + header.size + body.size := by simp
  rw [Frame.split, hsize, ByteArray.append_assoc, FrameHead.extract_bytes, ← ByteArray.append_assoc]
  dsimp only
  rw [toNat_totalLength _ hfits, hlength, if_neg (by simp), if_neg hne, if_neg (by omega)]
  rw [extract_middle _ header body (by simp) (by simp)]
  rw [ByteArray.extract_append_eq_right (by simp) (by simp)]

theorem split_of_build (h : build type header body = .ok frame) (hh : header.size ≠ 0) :
    Frame.split frame = .ok ⟨sized { type } header body, header, body⟩ := by
  have hbuilt := construct_of_fits { type } (fits_of_build h)
  rw [build_of_fits type (fits_of_build h)] at h
  cases h
  exact split_of_construct hbuilt hh

end Frame

end Courier

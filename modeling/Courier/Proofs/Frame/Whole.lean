import Courier.Message
import Courier.Frame.Reader
import Courier.Frame.Writer

/-!
# Whole frames

A byte string is a whole frame if it has a head and is as long as the head says. No whole frame goes
on in another one, so in a stream of frames there is one way to tell them apart. A reader ends with
a whole frame, made of all the bytes it took, and what the coders build is a whole frame.
-/
namespace Courier

namespace Bytes

def toList (b : ByteArray) : List UInt8 := b.data.toList

variable (a b : ByteArray) (l : List UInt8)

@[simp] theorem toList_append : toList (a ++ b) = toList a ++ toList b := by
  simp [toList, ByteArray.data_append]

@[simp] theorem toList_extract (i j : Nat) :
    toList (b.extract i j) = ((toList b).take j).drop i := by
  simp [toList, ByteArray.data_extract, List.drop_take]

@[simp] theorem toList_empty : toList .empty = [] := rfl

@[simp] theorem length_toList : (toList b).length = b.size := Array.length_toList

@[simp] theorem toList_ofList : toList (ofList l) = l := rfl

@[simp] theorem ofList_toList : ofList (toList b) = b := rfl

theorem toList_injective {a b : ByteArray} (h : toList a = toList b) : a = b := by
  rw [← ofList_toList a, h, ofList_toList]

theorem byteAt_eq_getD (i : Nat) : byteAt b i = (toList b)[i]?.getD 0 := by
  unfold byteAt
  split
  next h =>
    rw [List.getElem?_eq_getElem (by simpa using h)]
    rfl
  next h =>
    rw [List.getElem?_eq_none (by simpa using h)]
    rfl

/-- A front part has the same bytes. -/
theorem byteAt_of_prefix {a b : ByteArray} (h : toList a <+: toList b) {i : Nat} (hi : i < a.size) :
    byteAt a i = byteAt b i := by
  obtain ⟨l, hl⟩ := h
  rw [byteAt_eq_getD, byteAt_eq_getD, ← hl, List.getElem?_append_left (by simpa using hi)]

/-- A word is put together from its bytes. -/
theorem join_ofUInt32 (n : UInt32) :
    ((n >>> 24).toUInt8.toUInt32 <<< 24) ||| ((n >>> 16).toUInt8.toUInt32 <<< 16) |||
      ((n >>> 8).toUInt8.toUInt32 <<< 8) ||| n.toUInt8.toUInt32 = n := by
  apply UInt32.eq_of_toBitVec_eq
  ext i hi
  simp [-UInt32.toUInt32_toUInt8]
  grind

end Bytes

namespace Frame
open Bytes (toList)

/-- A head and as many bytes as it says. -/
structure IsWhole (b : ByteArray) : Prop where
  head : headSize ≤ b.size
  length : Reader.declared b = b.size

/-- A front part with a complete head says the same length. -/
theorem declared_of_prefix {a b : ByteArray} (h : toList a <+: toList b) (ha : headSize ≤ a.size) :
    Reader.declared a = Reader.declared b := by
  unfold headSize at ha
  simp only [Reader.declared, Bytes.uint32At]
  rw [Bytes.byteAt_of_prefix h (by omega), Bytes.byteAt_of_prefix h (by omega),
    Bytes.byteAt_of_prefix h (by omega), Bytes.byteAt_of_prefix h (by omega)]

/-- No whole frame goes on in another one. -/
theorem IsWhole.eq_of_prefix {a b : ByteArray} (ha : IsWhole a) (hb : IsWhole b)
    (h : toList a <+: toList b) : a = b := by
  have hd := declared_of_prefix h ha.head
  have hl : (toList a).length = (toList b).length := by
    rw [Bytes.length_toList, Bytes.length_toList, ← ha.length, ← hb.length, hd]
  exact Bytes.toList_injective (h.eq_of_length hl)

/-! ## Reading -/

namespace Reader

/-- A reader has no more bytes than its frame, as far as it knows. -/
def IsWithin (r : Reader) : Prop := headSize ≤ r.got.size → r.got.size ≤ declared r.got

theorem checkLength_ok {limit total : Nat} (h : checkLength limit total = .ok ()) :
    headSize ≤ total ∧ total ≤ limit := by
  unfold checkLength at h
  split at h
  · cases h
  · split at h
    · cases h
    · omega

theorem feedRest_more {r r' : Reader} {piece left : ByteArray}
    (h : r.feedRest piece = (.more r', left)) :
    toList r'.got = toList r.got ++ toList piece := by
  unfold feedRest at h
  dsimp only at h
  split at h
  next hp =>
    cases h
    have : (toList piece).length ≤ declared r.got - r.got.size := by simpa using Nat.le_of_lt hp
    simp [List.take_of_length_le this]
  next => cases h

theorem feedRest_frame {r : Reader} {piece frame left : ByteArray} (hh : headSize ≤ r.got.size)
    (hr : r.got.size ≤ declared r.got) (h : r.feedRest piece = (.frame frame, left)) :
    toList frame ++ toList left = toList r.got ++ toList piece ∧ IsWhole frame := by
  unfold feedRest at h
  dsimp only at h
  split at h
  next => cases h
  next hp =>
    cases h
    have hs : toList (r.got ++ piece.extract 0 (declared r.got - r.got.size)) =
        toList r.got ++ (toList piece).take (declared r.got - r.got.size) := by simp
    have hd := declared_of_prefix (a := r.got) ⟨_, hs.symm⟩ hh
    have hl := congrArg List.length hs
    simp only [Bytes.length_toList, List.length_append, List.length_take] at hl
    refine ⟨?_, ?_, ?_⟩
    · simp [List.take_of_length_le]
    · omega
    · omega

theorem feed_more {r r' : Reader} {piece left : ByteArray} (h : r.feed piece = (.more r', left)) :
    toList r'.got = toList r.got ++ toList piece := by
  unfold feed at h
  dsimp only at h
  split at h
  · split at h
    next hp =>
      cases h
      have : (toList piece).length ≤ headSize - r.got.size := by simpa using Nat.le_of_lt hp
      simp [List.take_of_length_le this]
    next =>
      split at h
      · cases h
      · have := feedRest_more h
        simpa [List.take_of_length_le] using this
  · exact feedRest_more h

/-- A reader that has its frame has taken a whole frame and nothing else. -/
theorem feed_frame {r : Reader} {piece frame left : ByteArray} (hr : r.IsWithin)
    (h : r.feed piece = (.frame frame, left)) :
    toList frame ++ toList left = toList r.got ++ toList piece ∧ IsWhole frame := by
  unfold feed at h
  dsimp only at h
  split at h
  next hg =>
    split at h
    · cases h
    next hp =>
      split at h
      · cases h
      next hc =>
        have hs : (r.got ++ piece.extract 0 (headSize - r.got.size)).size = headSize := by
          rw [← Bytes.length_toList]
          simp
          omega
        obtain ⟨hf, hw⟩ := feedRest_frame (r := { r with got := _ }) (Nat.le_of_eq hs.symm)
          (Nat.le_trans (Nat.le_of_eq hs) (checkLength_ok hc).1) h
        refine ⟨?_, hw⟩
        rw [hf]
        simp [List.take_of_length_le]
  next hg => exact feedRest_frame (by omega) (hr (by omega)) h

end Reader

/-! ## Writing -/

namespace Writer

/-- The bytes that a stream takes of an offer follow those that it has taken before. -/
theorem feed_took {w w' : Writer} {n : Nat} (h : w.feed (.took n) = .ok w') :
    w'.buf = w.buf ∧ toList w'.taken = toList w.taken ++ toList (w.offer.extract 0 n) := by
  unfold feed at h
  dsimp only at h
  split at h
  · cases h
  · cases h
    have hl : (toList w.buf).take w.buf.size = toList w.buf := List.take_of_length_le (by simp)
    have hm : ((toList w.buf).drop w.sent).take (min n (w.buf.size - w.sent)) =
        ((toList w.buf).drop w.sent).take n := by
      rw [List.take_eq_take_iff]
      simp
    refine ⟨rfl, ?_⟩
    simp [taken, offer, left, List.take_add, hl, hm]

theorem taken_prefix (w : Writer) : toList w.taken <+: toList w.buf := by
  simp [taken, List.take_prefix]

/-- A complete writer has had all of its bytes taken. -/
theorem taken_of_isComplete {w : Writer} (h : w.isComplete = true) :
    toList w.taken = toList w.buf := by
  have : (toList w.buf).length ≤ w.sent := by simpa [isComplete] using h
  simp [taken, List.take_of_length_le this]

end Writer

/-! ## Building -/

/-- The length that a head says stands where a reader looks for it. -/
theorem declared_bytes (head : FrameHead) (rest : ByteArray) :
    Reader.declared (head.bytes ++ rest) = head.totalLength.toNat := by
  rw [Reader.declared, Bytes.uint32At]
  congr 1
  have := Bytes.join_ofUInt32 head.totalLength
  simpa [Bytes.byteAt_eq_getD, FrameHead.bytes, Bytes.ofUInt32] using this

theorem isWhole_of_construct {head : FrameHead} {header body : ByteArray} {built : Built}
    (h : construct head header body = .ok built) : IsWhole built.frame := by
  unfold construct at h
  dsimp only at h
  split at h
  · cases h
  · split at h
    · cases h
    next ht =>
      cases h
      dsimp only
      rw [ByteArray.append_assoc]
      refine ⟨?_, ?_⟩
      · simp
      · rw [declared_bytes]
        unfold maxSize headSize at ht
        simp [headSize]
        omega

theorem isWhole_of_build {type : FrameType} {header body frame : ByteArray}
    (h : build type header body = .ok frame) : IsWhole frame := by
  unfold build at h
  split at h
  next built hb =>
    cases h
    exact isWhole_of_construct hb
  next => cases h

end Frame

/-- What a call sends is a whole frame, in an envelope or not. -/
theorem Message.isWhole_of_encodeRequest {packing : Packing} {nonce body frame : ByteArray}
    {header : RequestHeader} (h : encodeRequest packing nonce header body = .ok frame) :
    Frame.IsWhole frame := by
  unfold encodeRequest at h
  split at h
  · cases h
  next inner hi =>
    split at h
    · cases h
      exact Frame.isWhole_of_build hi
    · exact Frame.isWhole_of_build h
    · exact Frame.isWhole_of_build h

end Courier

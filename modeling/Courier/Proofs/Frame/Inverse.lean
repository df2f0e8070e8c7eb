import Courier.Proofs.Frame.Split
import Courier.Proofs.Frame.Words

/-!
# Building and taking apart are inverse

A buffer is taken apart just if its first bytes are those of a head that says the size of the buffer
and the length of a header segment in it. The parts lose none of its bytes, so a frame that is not
too long is built again from them, and nothing but the lengths of the parts is written into the
head.
-/
namespace Courier
open Bytes (toList)

namespace FrameHead
open Courier.Frame

/-- The head stands at the front of a buffer. -/
structure StartsWith (buf : ByteArray) (head : FrameHead) : Prop where
  size : headSize ≤ buf.size
  magic : Bytes.byteAt buf 0 = magic
  type : Bytes.byteAt buf 1 = head.type.byte
  version : Bytes.byteAt buf 2 = head.version
  flags : Bytes.byteAt buf 3 = head.flags
  total : Bytes.uint32At buf 4 = head.totalLength
  segment : Bytes.uint16At buf 8 = head.headerLength

variable {buf : ByteArray} {head : FrameHead}

theorem extract_eq_ok_iff : extract buf = .ok head ↔ StartsWith buf head := by
  constructor
  · intro h
    unfold extract at h
    split at h
    · cases h
    next hs =>
      split at h
      · cases h
      next hmagic =>
        split at h
        · cases h
        next type htype =>
          cases h
          exact ⟨by omega, Decidable.not_not.1 hmagic, (FrameType.byte_of_ofByte? htype).symm,
            rfl, rfl, rfl, rfl⟩
  · rintro ⟨hs, hmagic, htype, hversion, hflags, htotal, hsegment⟩
    rw [extract, if_neg (by omega), if_neg (not_not_intro hmagic), htype, FrameType.ofByte?_byte]
    simp only [hversion, hflags, htotal, hsegment]

/-- The bytes of the head are the first ones of the buffer. -/
theorem StartsWith.bytes_eq (h : StartsWith buf head) : buf.extract 0 headSize = head.bytes := by
  have hfront : (toList buf).take headSize = (List.range headSize).map (Bytes.byteAt buf) := by
    have := h.size
    simpa using Bytes.take_drop_toList (b := buf) (i := 0) (n := headSize) (by omega)
  apply Bytes.toList_injective
  rw [Bytes.toList_extract, List.drop_zero, hfront, bytes, ← h.magic, ← h.type, ← h.version,
    ← h.flags, ← h.total, ← h.segment, Bytes.ofUInt32_uint32At, Bytes.ofUInt16_uint16At]
  rfl

theorem eq_of_fields {a b : FrameHead} (ht : a.type = b.type) (hv : a.version = b.version)
    (hf : a.flags = b.flags) (hl : a.totalLength.toNat = b.totalLength.toNat)
    (hs : a.headerLength.toNat = b.headerLength.toNat) : a = b := by
  cases a
  cases b
  rw [UInt32.toNat_inj] at hl
  rw [UInt16.toNat_inj] at hs
  simp_all

end FrameHead

/-- The types have the numbers 0, 1 and 2. -/
theorem FrameType.exists_byte_iff {b : UInt8} :
    (∃ t : FrameType, b = t.byte) ↔ b = 0 ∨ b = 1 ∨ b = 2 := by
  constructor
  · rintro ⟨t, rfl⟩
    cases t <;> simp [byte]
  · rintro (rfl | rfl | rfl)
    · exact ⟨.plain, rfl⟩
    · exact ⟨.signature, rfl⟩
    · exact ⟨.encrypt, rfl⟩

namespace Frame

/-- The head at the front of a buffer says the size of it and that of a header segment in it. -/
structure IsHeaded (buf : ByteArray) (head : FrameHead) : Prop where
  start : head.StartsWith buf
  total : head.totalLength.toNat = buf.size
  nonempty : head.headerLength ≠ 0
  within : headSize + head.headerLength.toNat ≤ buf.size

/-- The parts that a head in front of a buffer makes of it. -/
def partsAt (buf : ByteArray) (head : FrameHead) : Parts where
  head := head
  header := buf.extract headSize (headSize + head.headerLength.toNat)
  body := buf.extract (headSize + head.headerLength.toNat) buf.size

variable {buf : ByteArray} {head : FrameHead} {p : Parts}

theorem split_eq_ok_iff : split buf = .ok p ↔ ∃ head, IsHeaded buf head ∧ p = partsAt buf head := by
  constructor
  · intro h
    unfold split at h
    split at h
    · cases h
    next head hhead =>
      dsimp only at h
      split at h
      · cases h
      next htotal =>
        split at h
        · cases h
        next hne =>
          split at h
          · cases h
          next hstop =>
            cases h
            exact ⟨head,
              ⟨FrameHead.extract_eq_ok_iff.1 hhead, Decidable.not_not.1 htotal, hne, by omega⟩, rfl⟩
  · rintro ⟨head, ⟨hstart, htotal, hne, hstop⟩, rfl⟩
    rw [split, FrameHead.extract_eq_ok_iff.2 hstart]
    dsimp only
    rw [if_neg (not_not_intro htotal), if_neg hne, if_neg (by omega)]
    rfl

namespace IsHeaded

theorem size_header (h : IsHeaded buf head) :
    (partsAt buf head).header.size = head.headerLength.toNat := by
  have := h.within
  simp [partsAt]
  omega

/-- Nothing of the buffer is lost. -/
theorem bytes_eq (h : IsHeaded buf head) :
    buf = head.bytes ++ (partsAt buf head).header ++ (partsAt buf head).body := by
  have := h.within
  rw [← h.start.bytes_eq, partsAt, ByteArray.append_assoc,
    ← ByteArray.extract_eq_extract_append_extract _ (by omega) (by omega),
    ← ByteArray.extract_eq_extract_append_extract _ (by omega) (by omega),
    ByteArray.extract_zero_size]

theorem size_eq (h : IsHeaded buf head) :
    buf.size = headSize + (partsAt buf head).header.size + (partsAt buf head).body.size := by
  have := congrArg ByteArray.size h.bytes_eq
  simpa using this

/-- A frame that is not too long is built again from its parts. -/
theorem construct_eq (h : IsHeaded buf head) (hs : buf.size ≤ maxSize) {fresh : FrameHead}
    (ht : fresh.type = head.type) (hv : fresh.version = head.version)
    (hf : fresh.flags = head.flags) :
    construct fresh (partsAt buf head).header (partsAt buf head).body = .ok ⟨head, buf⟩ := by
  have hsize := h.size_eq
  have hfits : Fits (partsAt buf head).header (partsAt buf head).body := by
    have := head.headerLength.toNat_lt
    have := h.size_header
    exact ⟨by omega, by omega⟩
  have hhead : sized fresh (partsAt buf head).header (partsAt buf head).body = head := by
    refine FrameHead.eq_of_fields ht hv hf ?_ ?_
    · rw [toNat_totalLength _ hfits, h.total, hsize]
    · rw [toNat_headerLength _ hfits, h.size_header]
  rw [construct_of_fits _ hfits, hhead, ← h.bytes_eq]

end IsHeaded

/-! ## What is taken apart -/

/-- The bytes of a buffer are those of a frame with a header segment. -/
structure IsSplittable (buf : ByteArray) : Prop where
  head : headSize ≤ buf.size
  magic : Bytes.byteAt buf 0 = 0x48
  type : Bytes.byteAt buf 1 = 0 ∨ Bytes.byteAt buf 1 = 1 ∨ Bytes.byteAt buf 1 = 2
  total : Bytes.bigEndian (((toList buf).drop 4).take 4) = buf.size
  segment : 1 ≤ Bytes.bigEndian (((toList buf).drop 8).take 2)
  within : Bytes.bigEndian (((toList buf).drop 8).take 2) ≤ buf.size - headSize

theorem exists_isHeaded_iff : (∃ head, IsHeaded buf head) ↔ IsSplittable buf := by
  constructor
  · rintro ⟨head, ⟨hsize, hmagic, htype, -, -, htotal, hsegment⟩, hlength, hne, hwithin⟩
    have hten : 10 ≤ buf.size := hsize
    rw [← htotal, Bytes.toNat_uint32At (by omega)] at hlength
    rw [← hsegment, Bytes.toNat_uint16At (by omega)] at hwithin
    have hpos : (Bytes.uint16At buf 8).toNat ≠ 0 := by
      rw [hsegment]
      exact fun h0 => hne (UInt16.toNat_inj.1 h0)
    rw [Bytes.toNat_uint16At (by omega)] at hpos
    exact ⟨hsize, hmagic, FrameType.exists_byte_iff.1 ⟨_, htype⟩, hlength, by omega, by omega⟩
  · rintro ⟨hsize, hmagic, htype, htotal, hsegment, hwithin⟩
    have hten : 10 ≤ buf.size := hsize
    obtain ⟨type, htype⟩ := FrameType.exists_byte_iff.2 htype
    rw [← Bytes.toNat_uint32At (by omega)] at htotal
    rw [← Bytes.toNat_uint16At (by omega)] at hsegment hwithin
    refine ⟨⟨type, Bytes.byteAt buf 2, Bytes.byteAt buf 3, Bytes.uint32At buf 4,
      Bytes.uint16At buf 8⟩, ⟨hsize, hmagic, htype, rfl, rfl, rfl, rfl⟩, htotal, fun h0 => ?_, ?_⟩
    · dsimp only at h0
      rw [h0] at hsegment
      exact absurd hsegment (by decide)
    · dsimp only
      omega

/-! ## Guarded access

The readers of a buffer are total: what stands behind its end counts as zero, and a slice ends with
it. With access that gives nothing there, taking a frame apart is the same, so it never looks behind
the end. -/

/-- The byte at a place that the buffer has. -/
def guardedByte (buf : ByteArray) (i : Nat) : Option UInt8 :=
  if h : i < buf.size then some buf[i] else none

/-- The bytes between two places that the buffer has, in their order. -/
def guardedSlice (buf : ByteArray) (i j : Nat) : Option ByteArray :=
  if i ≤ j ∧ j ≤ buf.size then some (buf.extract i j) else none

/-- The head at the front of a buffer; access to a byte that the buffer does not have gives
nothing. -/
def guardedHead (buf : ByteArray) : Option (Except Fault FrameHead) :=
  if buf.size < headSize then
    return .error (.decode ("frame buf len " ++ toString buf.size ++
      " shorter than frame head len " ++ toString headSize))
  else do
    let mark ← guardedByte buf 0
    if mark ≠ magic then
      return .error (.decode ("invalid frame magic 0x" ++ String.ofList (Bytes.hexByte mark)))
    let number ← guardedByte buf 1
    match FrameType.ofByte? number with
    | none => return .error (.decode ("unknown frame type " ++ toString number.toNat))
    | some type =>
      return .ok {
        type
        version := ← guardedByte buf 2
        flags := ← guardedByte buf 3
        totalLength := ((← guardedByte buf 4).toUInt32 <<< 24) |||
          ((← guardedByte buf 5).toUInt32 <<< 16) ||| ((← guardedByte buf 6).toUInt32 <<< 8) |||
          (← guardedByte buf 7).toUInt32
        headerLength := ((← guardedByte buf 8).toUInt16 <<< 8) ||| (← guardedByte buf 9).toUInt16 }

/-- Takes a whole frame apart, with guarded access to its bytes. -/
def guardedSplit (buf : ByteArray) : Option (Except Fault Parts) := do
  match ← guardedHead buf with
  | .error e => return .error e
  | .ok head =>
    let stop := headSize + head.headerLength.toNat
    if head.totalLength.toNat ≠ buf.size then
      return .error (.decode ("total len " ++ toString head.totalLength.toNat ++
        " is not actual buf len " ++ toString buf.size))
    if head.headerLength = 0 then
      return .error (.decode "frame header segment len empty")
    if stop > buf.size then
      return .error (.decode ("frame header segment len " ++ toString head.headerLength.toNat ++
        " out of bounds for frame of " ++ toString buf.size ++ " bytes"))
    return .ok ⟨head, ← guardedSlice buf headSize stop, ← guardedSlice buf stop buf.size⟩

theorem guardedByte_eq {i : Nat} (h : i < buf.size) :
    guardedByte buf i = some (Bytes.byteAt buf i) := by
  rw [guardedByte, dif_pos h, Bytes.byteAt, dif_pos h]

theorem guardedSlice_eq {i j : Nat} (h : i ≤ j) (h' : j ≤ buf.size) :
    guardedSlice buf i j = some (buf.extract i j) := if_pos ⟨h, h'⟩

theorem guardedHead_eq (buf : ByteArray) : guardedHead buf = some (FrameHead.extract buf) := by
  unfold guardedHead FrameHead.extract
  split
  · rfl
  next hs =>
    have hbyte : ∀ i < 10, guardedByte buf i = some (Bytes.byteAt buf i) := fun i hi =>
      guardedByte_eq (Nat.lt_of_lt_of_le hi (Nat.le_of_not_lt hs))
    simp only [hbyte, Nat.reduceLT, Option.bind_eq_bind, Option.bind_some, Option.pure_def]
    split
    · rfl
    · cases FrameType.ofByte? (Bytes.byteAt buf 1) <;> rfl

theorem guardedSplit_eq (buf : ByteArray) : guardedSplit buf = some (split buf) := by
  unfold guardedSplit split
  rw [guardedHead_eq]
  simp only [Option.bind_eq_bind, Option.bind_some, Option.pure_def]
  cases FrameHead.extract buf with
  | error e => rfl
  | ok head =>
    dsimp only
    split
    · rfl
    · split
      · rfl
      · split
        · rfl
        next hstop =>
          rw [guardedSlice_eq (by omega) (by omega), guardedSlice_eq (by omega) (by omega)]
          rfl

/-! ## A head that is built with -/

/-- Builds a frame with the head at hand, into which it writes the lengths of the parts. -/
def assemble (header body : ByteArray) : ExceptT Fault (StateM FrameHead) ByteArray := do
  if header.size > 0xffff then
    throw (.encode ("frame header segment too large: " ++ toString header.size ++ " bytes"))
  let total := headSize + header.size + body.size
  if total > maxSize then
    throw (.encode ("frame too large: " ++ toString total ++ " bytes (max " ++ toString maxSize ++
      " bytes)"))
  modify fun head => { head with headerLength := header.size.toUInt16 }
  modify fun head => { head with totalLength := total.toUInt32 }
  return (← get).bytes ++ header ++ body

theorem run_assemble (head : FrameHead) (header body : ByteArray) :
    (assemble header body).run.run head =
      match construct head header body with
      | .ok built => (.ok built.frame, built.head)
      | .error e => (.error e, head) := by
  unfold assemble construct
  dsimp only
  split
  · rfl
  · split <;> rfl

/-- A frame is taken apart into what it was built from, with the head as it was left. A buffer is
taken apart, without a look behind its end, just if it is a frame with a header segment, and it is
built again from its parts. What cannot be built leaves the head as it was. -/
theorem construct_split_inverse :
    (∀ (head : FrameHead) (header body : ByteArray), header.size ≠ 0 → header.size ≤ 0xffff →
      headSize + header.size + body.size ≤ maxSize →
      ∃ frame left, construct head header body = .ok ⟨left, frame⟩ ∧
        (assemble header body).run.run head = (.ok frame, left) ∧
        split frame = .ok ⟨left, header, body⟩ ∧
        left.type = head.type ∧ left.version = head.version ∧ left.flags = head.flags) ∧
    (∀ buf, guardedSplit buf = some (split buf) ∧ ((∃ p, split buf = .ok p) ↔ IsSplittable buf) ∧
      ∀ p, split buf = .ok p → buf.size ≤ maxSize → ∀ total segment,
        construct { p.head with totalLength := total, headerLength := segment } p.header p.body =
          .ok ⟨p.head, buf⟩) ∧
    ∀ (head left : FrameHead) (header body : ByteArray) (e : Fault),
      (assemble header body).run.run head = (.error e, left) →
        construct head header body = .error e ∧ left = head := by
  refine ⟨fun head header body hne hh ht => ?_, fun buf => ⟨guardedSplit_eq buf, ?_, ?_⟩, ?_⟩
  · have hbuilt := construct_of_fits head ⟨hh, ht⟩
    refine ⟨_, _, hbuilt, ?_, split_of_construct hbuilt hne, rfl, rfl, rfl⟩
    rw [run_assemble, hbuilt]
  · rw [← exists_isHeaded_iff]
    constructor
    · rintro ⟨p, hp⟩
      obtain ⟨head, hhead, -⟩ := split_eq_ok_iff.1 hp
      exact ⟨head, hhead⟩
    · rintro ⟨head, hhead⟩
      exact ⟨_, split_eq_ok_iff.2 ⟨head, hhead, rfl⟩⟩
  · intro p hp hs total segment
    obtain ⟨head, hhead, rfl⟩ := split_eq_ok_iff.1 hp
    exact hhead.construct_eq hs rfl rfl rfl
  · intro head left header body e h
    rw [run_assemble] at h
    cases hc : construct head header body with
    | ok built =>
      rw [hc] at h
      cases h
    | error e' =>
      rw [hc] at h
      cases h
      exact ⟨rfl, rfl⟩

/-- A head that still has the lengths of another frame. -/
def usedHead : FrameHead := ⟨.signature, 7, 255, 500, 300⟩

theorem construct_split_inverse_used : ∃ frame left,
    construct usedHead (Bytes.ofList [1, 2, 3]) .empty = .ok ⟨left, frame⟩ ∧
    split frame = .ok ⟨left, Bytes.ofList [1, 2, 3], .empty⟩ ∧
    left = ⟨.signature, 7, 255, 13, 3⟩ ∧ IsSplittable frame := by
  obtain ⟨hbuild, hbuf, -⟩ := construct_split_inverse
  obtain ⟨frame, left, hc, -, hs, -⟩ :=
    hbuild usedHead (Bytes.ofList [1, 2, 3]) .empty (by decide) (by decide) (by decide)
  refine ⟨frame, left, hc, hs, ?_, (hbuf frame).2.1.1 ⟨_, hs⟩⟩
  cases hc
  rfl

end Frame

end Courier

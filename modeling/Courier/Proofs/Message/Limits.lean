import Courier.Proofs.Message.RoundTrip

/-!
# The limits of a request

A header segment has at most 65535 bytes and a frame at most 10 MiB. Both are tested for the plain
frame and once more for the envelope, whose own segment is short, so that a request has a frame just
if its header and the outer frame are within the limits. The frame is as long as its head says, and
a reader with the same limit takes it from the stream; a request beyond the limits has no frame.
-/
namespace Courier
open Bytes (toList)

namespace Frame
variable {type : FrameType} {header body frame : ByteArray}

theorem construct_of_not_fits (head : FrameHead) (h : ¬ Fits header body) :
    ∃ text, construct head header body = .error (.encode text) := by
  by_cases hsegment : header.size > 0xffff
  · exact ⟨_, if_pos hsegment⟩
  · have htotal : headSize + header.size + body.size > maxSize := by
      by_contra hle
      exact h ⟨by omega, by omega⟩
    exact ⟨_, (if_neg hsegment).trans (if_pos htotal)⟩

/-- What does not fit is refused. -/
theorem build_of_not_fits (type : FrameType) (h : ¬ Fits header body) :
    ∃ text, build type header body = .error (.encode text) := by
  obtain ⟨text, htext⟩ := construct_of_not_fits { type } h
  exact ⟨text, by rw [build, htext]⟩

/-- The head of a frame that was built says how long the frame is. -/
theorem exists_head_of_build (h : build type header body = .ok frame) :
    ∃ head, FrameHead.extract frame = .ok head ∧ head.type = type ∧
      head.totalLength.toNat = frame.size := by
  have hfits := fits_of_build h
  refine ⟨sized { type } header body, ?_, rfl, ?_⟩
  · rw [build_of_fits type hfits] at h
    cases h
    rw [ByteArray.append_assoc, FrameHead.extract_bytes]
  · rw [toNat_totalLength _ hfits, size_of_build h]

/-- A reader takes a whole frame within its limit off the stream. -/
theorem read_of_isWhole {limit : Nat} {ds : List Delivery} {tail : List UInt8} (hw : IsWhole frame)
    (hl : frame.size ≤ limit) (hq : ∀ d ∈ ds, d.IsSmooth) (hs : content ds = toList frame ++ tail) :
    ∃ rest, (Reader.start limit).read ds = (.ok frame, rest) ∧ content rest = tail := by
  obtain ⟨rest, -, hrest, hread⟩ := Reader.read_eq_parse limit hq
  have hparse : parse limit (toList frame ++ tail) = (.ok frame, tail) := parse_of_whole hw hl
  rw [hs, hparse] at hrest hread
  exact ⟨rest, hread, hrest⟩

end Frame

namespace Message
variable {packing : Packing} {nonce inner frame body : ByteArray} {header : RequestHeader}

/-- What an envelope does to a plain frame: it is the body of another frame, in the clear or hidden,
behind a segment that is short. -/
structure Wraps (packing : Packing) (inner segment payload : ByteArray) : Prop where
  short : segment.size ≤ 0xffff
  total :
    Frame.headSize + segment.size + payload.size = inner.size + Envelope.overhead packing.envelope

/-- A request in an envelope is a frame built around its plain frame. -/
theorem exists_wraps (hn : nonce.size = Envelope.nonceSize) (he : packing.envelope ≠ .plain)
    (hi : Frame.build .plain (Bytes.ofList header.encode) body = .ok inner) :
    ∃ segment payload, Wraps packing inner segment payload ∧
      encodeRequest packing nonce header body = Frame.build packing.envelope segment payload := by
  obtain ⟨workspace, envelope, token⟩ := packing
  cases envelope with
  | plain => exact absurd rfl he
  | signature =>
    refine ⟨Bytes.ofUInt32 workspace ++ Digest.Hmac.mac token.toUTF8 inner, inner,
      ⟨by simp, ?_⟩, ?_⟩
    · simp [Envelope.overhead, Envelope.workspaceSize, Envelope.signatureSize]
      omega
    · rw [encodeRequest, hi]
      rfl
  | encrypt =>
    refine ⟨Bytes.ofUInt32 workspace ++ nonce,
      Cipher.Gcm.encipher (Envelope.cipherKey token) nonce inner,
      ⟨by simp [hn, Envelope.nonceSize], ?_⟩, ?_⟩
    · simp [hn, Envelope.overhead, Envelope.workspaceSize, Envelope.nonceSize]
      omega
    · rw [encodeRequest, hi]
      rfl

namespace Sending

/-- The length of the frame of a request. -/
def total (s : Sending) : Nat :=
  Frame.headSize + s.header.encode.length + s.body.size + Envelope.overhead s.packing.envelope

/-- The header and the frame of a request are not too long. -/
structure IsWithin (s : Sending) : Prop where
  header : s.header.encode.length ≤ 0xffff
  total : s.total ≤ Frame.maxSize

variable {s : Sending} {frame : ByteArray}

/-- A request is a frame that was built, with the length that its parts come to. -/
theorem size_of_encode (h : s.encode = .ok frame) :
    frame.size = s.total ∧ ∃ head, FrameHead.extract frame = .ok head ∧
      head.type = s.packing.envelope ∧ head.totalLength.toNat = frame.size := by
  obtain ⟨inner, hi⟩ :
      ∃ inner, Frame.build .plain (Bytes.ofList s.header.encode) s.body = .ok inner := by
    cases hb : Frame.build .plain (Bytes.ofList s.header.encode) s.body with
    | ok inner => exact ⟨inner, rfl⟩
    | error e => simp [encode, encodeRequest, hb] at h
  have hsize : inner.size = Frame.headSize + s.header.encode.length + s.body.size := by
    simpa using Frame.size_of_build hi
  by_cases he : s.packing.envelope = .plain
  · have hsame : inner = frame := by
      rw [encode, encodeRequest, hi, he] at h
      exact Except.ok.inj h
    subst hsame
    rw [total, he]
    exact ⟨hsize, Frame.exists_head_of_build hi⟩
  · obtain ⟨segment, payload, hwraps, hencode⟩ := exists_wraps s.size_nonce he hi
    have hbuild : Frame.build s.packing.envelope segment payload = .ok frame := hencode ▸ h
    have hlength := Frame.size_of_build hbuild
    rw [hwraps.total, hsize] at hlength
    exact ⟨hlength, Frame.exists_head_of_build hbuild⟩

/-- A request beyond the limits is refused, by the plain frame or by its envelope. -/
theorem encode_of_not_isWithin (h : ¬ s.IsWithin) : ∃ text, s.encode = .error (.encode text) := by
  by_cases hfits : Frame.Fits (Bytes.ofList s.header.encode) s.body
  · obtain ⟨inner, hi⟩ : ∃ inner, Frame.build .plain (Bytes.ofList s.header.encode) s.body =
      .ok inner :=
      ⟨_, Frame.build_of_fits .plain hfits⟩
    have hheader : s.header.encode.length ≤ 0xffff := by simpa using hfits.segment
    have hsize : inner.size = Frame.headSize + s.header.encode.length + s.body.size := by
      simpa using Frame.size_of_build hi
    have hlong : Frame.maxSize < s.total := by
      by_contra hle
      exact h ⟨hheader, by omega⟩
    have he : s.packing.envelope ≠ .plain := by
      intro he
      have hplain := Frame.size_le_of_build hi
      rw [total, he, Envelope.overhead] at hlong
      omega
    obtain ⟨segment, payload, hwraps, hencode⟩ := exists_wraps s.size_nonce he hi
    have hover : ¬ Frame.Fits segment payload := by
      intro houter
      have htotal := houter.total
      rw [hwraps.total, hsize] at htotal
      exact absurd htotal (Nat.not_le.2 hlong)
    obtain ⟨text, htext⟩ := Frame.build_of_not_fits s.packing.envelope hover
    exact ⟨text, hencode.trans htext⟩
  · obtain ⟨text, htext⟩ := Frame.build_of_not_fits .plain hfits
    exact ⟨text, by rw [encode, encodeRequest, htext]⟩

/-- A request has a frame just if its header has at most 65535 bytes and the frame at most 10 MiB,
the envelope included. The frame has just that length and says so in its head, and a reader that
allows the largest frames takes it off the stream, in whatever pieces it comes. Any other request is
refused. -/
theorem encode_within_limits (s : Sending) :
    (Envelope.overhead .plain = 0 ∧ Envelope.overhead .signature = 46 ∧
      Envelope.overhead .encrypt = 42) ∧
    ((∃ frame, s.encode = .ok frame) ↔
      s.header.encode.length ≤ 65535 ∧
        10 + s.header.encode.length + s.body.size + Envelope.overhead s.packing.envelope ≤
          10 * 1024 * 1024) ∧
    (∀ frame, s.encode = .ok frame →
      frame.size =
        10 + s.header.encode.length + s.body.size + Envelope.overhead s.packing.envelope ∧
      (∃ head, FrameHead.extract frame = .ok head ∧ head.type = s.packing.envelope ∧
        head.totalLength.toNat = frame.size) ∧
      ∀ ds tail, (∀ d ∈ ds, d.IsSmooth) → Frame.content ds = toList frame ++ tail →
        ∃ rest, (Frame.Reader.start Frame.maxSize).read ds = (.ok frame, rest) ∧
          Frame.content rest = tail) ∧
    ((¬ ∃ frame, s.encode = .ok frame) → ∃ text, s.encode = .error (.encode text)) := by
  have hiff : (∃ frame, s.encode = .ok frame) ↔ s.IsWithin := by
    constructor
    · rintro ⟨frame, hframe⟩
      by_contra hout
      obtain ⟨text, htext⟩ := encode_of_not_isWithin hout
      cases hframe.symm.trans htext
    · intro h
      exact exists_encodeRequest s.size_nonce h.header h.total
  refine ⟨⟨rfl, rfl, rfl⟩, ?_, ?_, ?_⟩
  · rw [hiff]
    exact ⟨fun h => ⟨h.header, h.total⟩, fun ⟨hheader, htotal⟩ => ⟨hheader, htotal⟩⟩
  · intro frame hframe
    obtain ⟨hsize, hhead⟩ := size_of_encode hframe
    refine ⟨hsize, hhead, fun ds tail hq hs => ?_⟩
    exact Frame.read_of_isWhole (isWhole_of_encodeRequest hframe)
      (size_le_of_encodeRequest hframe) hq hs
  · intro hnone
    exact encode_of_not_isWithin fun h => hnone (hiff.2 h)

/-- A request with nothing in its header and a body of `n` zeros. -/
def blank (envelope : FrameType) (n : Nat) : Sending where
  packing := { workspace := 7, envelope, token := "token" }
  nonce := Bytes.replicate 12 5
  header := {}
  body := Bytes.replicate n 0
  size_nonce := rfl

theorem length_header_blank (envelope : FrameType) (n : Nat) :
    (blank envelope n).header.encode.length = 14 := by
  show ({} : RequestHeader).encode.length = 14
  decide +kernel

theorem size_body_blank (envelope : FrameType) (n : Nat) : (blank envelope n).body.size = n := by
  simp [blank, Bytes.replicate, ByteArray.size]

/-- With its header of 14 bytes a signed request has room for a body of 10485690 bytes, and not for
one byte more, though the plain frame would have room for it. -/
theorem encode_within_limits_full :
    (∃ frame, (blank .signature 10485690).encode = .ok frame ∧ frame.size = 10485760) ∧
    ∃ text, (blank .signature 10485691).encode = .error (.encode text) := by
  obtain ⟨-, hiff, hframe, -⟩ := encode_within_limits (blank .signature 10485690)
  obtain ⟨-, hiff', -, hrefused⟩ := encode_within_limits (blank .signature 10485691)
  rw [length_header_blank, size_body_blank] at hiff hiff' hframe
  constructor
  · obtain ⟨frame, hencode⟩ := hiff.2 ⟨by decide, by decide⟩
    exact ⟨frame, hencode, (hframe frame hencode).1⟩
  · refine hrefused fun hsome => ?_
    obtain ⟨-, htotal⟩ := hiff'.1 hsome
    exact absurd htotal (by decide)

end Sending

end Message

end Courier

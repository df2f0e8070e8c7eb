import Courier.Proofs.Frame.Split
import Courier.Proofs.Frame.Stream
import Courier.Request.Lemmas
import Courier.Response.Lemmas

/-!
# Messages read back

An envelope gives back the frame that was put into it, and a message its header and its body.
Requests that are written back to back on one stream, each packed in its own way, are received as
they were sent and in their order. A response is received as it was sent, so a frame stands for one
response only.
-/
namespace Courier
open Bytes (toList)

theorem Bytes.uint32At_ofUInt32 (n : UInt32) (rest : ByteArray) :
    uint32At (ofUInt32 n ++ rest) 0 = n := by
  rw [uint32At]
  simpa [byteAt_eq_getD, ofUInt32] using join_ofUInt32 n

/-! ## Envelopes -/

namespace Envelope
variable {workspace : UInt32} {token : String} {inner frame : ByteArray}

theorem workspaceOf_append (workspace : UInt32) {trailer : ByteArray} {n : Nat}
    (h : trailer.size = n) :
    workspaceOf (Bytes.ofUInt32 workspace ++ trailer) n = .ok workspace := by
  have hsize : (Bytes.ofUInt32 workspace ++ trailer).size = workspaceSize + n := by
    simp [workspaceSize, h]
  rw [workspaceOf, if_neg (not_not.2 hsize), Bytes.uint32At_ofUInt32]

theorem trailerOf_append (workspace : UInt32) (trailer : ByteArray) :
    trailerOf (Bytes.ofUInt32 workspace ++ trailer) = trailer :=
  ByteArray.extract_append_eq_right (by simp [workspaceSize]) (by simp)

theorem remove_plain {header body : ByteArray} (h : Frame.build .plain header body = .ok frame)
    (hh : header.size ≠ 0) (token : String) : remove frame token = .ok ⟨.plain, none, frame⟩ := by
  rw [remove, Frame.split_of_build h hh]
  rfl

theorem remove_sign (h : sign workspace token inner = .ok frame) :
    remove frame token = .ok ⟨.signature, some workspace, inner⟩ := by
  have hmac : (Digest.Hmac.mac token.toUTF8 inner).size = signatureSize := Digest.Hmac.size_mac _ _
  rw [remove, Frame.split_of_build h (by simp)]
  simp only [Frame.type_sized]
  rw [workspaceOf_append workspace hmac]
  simp only [trailerOf_append, if_true]

theorem remove_encrypt {nonce : ByteArray} (hn : nonce.size = nonceSize)
    (h : encrypt workspace token nonce inner = .ok frame) :
    remove frame token = .ok ⟨.encrypt, some workspace, inner⟩ := by
  rw [remove, Frame.split_of_build h (by simp)]
  simp only [Frame.type_sized]
  rw [workspaceOf_append workspace hn]
  simp only [trailerOf_append, Cipher.Gcm.decipher?_encipher]

/-- The bytes that an envelope adds to a frame. -/
def overhead : FrameType → Nat
  | .plain => 0
  | .signature => Frame.headSize + workspaceSize + signatureSize
  | .encrypt => Frame.headSize + workspaceSize + nonceSize + Cipher.Gcm.tagSize

end Envelope

/-! ## Requests -/

/-- A record is never empty. -/
theorem RequestHeader.size_encode_ne_zero (h : RequestHeader) :
    (Bytes.ofList h.encode).size ≠ 0 := by
  have := Wire.Record.length_write_pos h.version.toNat
  simp only [encode, Bytes.size_ofList, List.length_append, Wire.Record.word32]
  omega

theorem ResponseHeader.size_encode_ne_zero (h : ResponseHeader) :
    (Bytes.ofList h.encode).size ≠ 0 := by
  have := Wire.Record.length_write_pos h.version.toNat
  simp only [encode, Bytes.size_ofList, List.length_append, Wire.Record.word32]
  omega

namespace Message
variable {packing : Packing} {nonce body frame : ByteArray} {header : RequestHeader}

/-- The parts of a plain request frame. -/
theorem split_request (h : Frame.build .plain (Bytes.ofList header.encode) body = .ok frame) :
    ∃ parts, Frame.split frame = .ok parts ∧ RequestHeader.decode parts.header = .ok header ∧
      parts.body = body := by
  have hsegment : header.encode.length ≤ 0xffff := by simpa using (Frame.fits_of_build h).segment
  have hdecode := RequestHeader.decode_encode (h := header) (by omega) []
  rw [List.append_nil] at hdecode
  exact ⟨_, Frame.split_of_build h header.size_encode_ne_zero, hdecode, rfl⟩

/-- The envelope of a request comes off. -/
theorem remove_request (hn : nonce.size = Envelope.nonceSize)
    (h : encodeRequest packing nonce header body = .ok frame) :
    ∃ content, Envelope.remove frame packing.token = .ok content ∧
      Frame.build .plain (Bytes.ofList header.encode) body = .ok content.inner := by
  unfold encodeRequest at h
  split at h
  · cases h
  next plain hplain =>
    split at h
    next he =>
      cases h
      exact ⟨_, Envelope.remove_plain hplain header.size_encode_ne_zero _, hplain⟩
    next he => exact ⟨_, Envelope.remove_sign h, hplain⟩
    next he => exact ⟨_, Envelope.remove_encrypt hn h, hplain⟩

/-- A request is received as it was sent, out of its envelope. -/
theorem decodeRequest_encodeRequest (hn : nonce.size = Envelope.nonceSize)
    (h : encodeRequest packing nonce header body = .ok frame) :
    decodeRequest frame packing.token = .ok (header, body) := by
  obtain ⟨content, hremove, hplain⟩ := remove_request hn h
  obtain ⟨parts, hsplit, hdecode, rfl⟩ := split_request hplain
  simp only [decodeRequest, hremove, hsplit, hdecode]

theorem size_le_of_encodeRequest (h : encodeRequest packing nonce header body = .ok frame) :
    frame.size ≤ Frame.maxSize := by
  unfold encodeRequest at h
  split at h
  · cases h
  next plain hplain =>
    split at h
    · cases h
      exact Frame.size_le_of_build hplain
    · exact Frame.size_le_of_build h
    · exact Frame.size_le_of_build h

/-- A request whose parts leave room for the envelope has a frame. -/
theorem exists_encodeRequest (hn : nonce.size = Envelope.nonceSize)
    (hh : header.encode.length ≤ 0xffff)
    (ht : Frame.headSize + header.encode.length + body.size + Envelope.overhead packing.envelope ≤
      Frame.maxSize) : ∃ frame, encodeRequest packing nonce header body = .ok frame := by
  have hfits : Frame.Fits (Bytes.ofList header.encode) body := ⟨by simpa using hh, by simp; omega⟩
  obtain ⟨plain, hplain⟩ :
      ∃ plain, Frame.build .plain (Bytes.ofList header.encode) body = .ok plain :=
    ⟨_, Frame.build_of_fits .plain hfits⟩
  have hsize : plain.size = Frame.headSize + header.encode.length + body.size := by
    simpa using Frame.size_of_build hplain
  rw [encodeRequest, hplain]
  dsimp only
  cases he : packing.envelope with
  | plain => exact ⟨_, rfl⟩
  | signature =>
    rw [he] at ht
    simp only [Envelope.overhead, Envelope.workspaceSize, Envelope.signatureSize] at ht
    exact ⟨_, Frame.build_of_fits .signature ⟨by simp, by simp; omega⟩⟩
  | encrypt =>
    rw [he] at ht
    simp only [Envelope.overhead, Envelope.workspaceSize, Envelope.nonceSize] at ht hn
    exact ⟨_, Frame.build_of_fits .encrypt ⟨by simp [hn], by simp [hn]; omega⟩⟩

/-- A request with all that its sender needs to write it. -/
structure Sending where
  packing : Packing
  nonce : ByteArray
  header : RequestHeader
  body : ByteArray
  size_nonce : nonce.size = Envelope.nonceSize

namespace Sending

def encode (s : Sending) : Except Fault ByteArray := encodeRequest s.packing s.nonce s.header s.body

/-- What a receiver with the same token makes of what it has read. -/
def receive (s : Sending) (read : Except Fault ByteArray) :
    Except Fault (RequestHeader × ByteArray) :=
  read.bind fun frame => decodeRequest frame s.packing.token

end Sending

/-- Each frame of a list of requests gives back its own. -/
theorem receive_frames {sendings : List Sending} {frames : List ByteArray}
    (h : sendings.map Sending.encode = frames.map .ok) :
    List.zipWith Sending.receive sendings (frames.map .ok) =
      sendings.map fun s => .ok (s.header, s.body) := by
  induction sendings generalizing frames with
  | nil => rfl
  | cons s sendings ih =>
    cases frames with
    | nil => simp at h
    | cons f frames =>
      obtain ⟨hf, hrest⟩ := List.cons.inj h
      have hreceive : s.receive (.ok f) = .ok (s.header, s.body) :=
        decodeRequest_encodeRequest s.size_nonce hf
      simp only [List.map_cons, List.zipWith_cons_cons]
      rw [hreceive, ih hrest]

theorem isWhole_of_frames {sendings : List Sending} {frames : List ByteArray}
    (h : sendings.map Sending.encode = frames.map .ok) :
    ∀ f ∈ frames, Frame.IsWhole f ∧ f.size ≤ Frame.maxSize := by
  intro f hf
  have hmem : Except.ok f ∈ sendings.map Sending.encode := h ▸ List.mem_map_of_mem hf
  obtain ⟨s, -, hs⟩ := List.mem_map.1 hmem
  exact ⟨isWhole_of_encodeRequest hs, size_le_of_encodeRequest hs⟩

/-- Requests that stand back to back on a stream, each packed in its own way, are received as they
were sent and in their order, in whatever pieces the stream delivers them, and what stands behind
them on the stream is what is left of it. -/
theorem requests_over_stream {sendings : List Sending} {frames : List ByteArray}
    {ds : List Frame.Delivery} {tail : List UInt8}
    (hf : sendings.map Sending.encode = frames.map .ok) (hq : ∀ d ∈ ds, d.IsSmooth)
    (hs : Frame.content ds = frames.flatMap toList ++ tail) :
    Frame.readMany Frame.maxSize sendings.length ds = frames.map .ok ∧
    List.zipWith Sending.receive sendings (Frame.readMany Frame.maxSize sendings.length ds) =
      sendings.map (fun s => .ok (s.header, s.body)) ∧
    Frame.content (Frame.unread Frame.maxSize sendings.length ds) = tail := by
  have hlength : sendings.length = frames.length := by simpa using congrArg List.length hf
  obtain ⟨hread, hleft⟩ := Frame.readMany_content (isWhole_of_frames hf) hq hs
  rw [← hlength] at hread hleft
  refine ⟨hread, ?_, hleft⟩
  rw [hread]
  exact receive_frames hf

/-- One request of each packing. -/
def sampleSendings : List Sending :=
  [{ packing := {}, nonce := Bytes.replicate 12 0, header := { id := 300, traceId := "å" }
     body := .empty, size_nonce := rfl },
   { packing := { workspace := 7, envelope := .signature, token := "t" }, nonce :=
   Bytes.replicate 12 0
     header := { appId := 18446744073709551615 }, body := Bytes.ofList [1, 2], size_nonce := rfl },
   { packing := { workspace := 7, envelope := .encrypt, token := "" }, nonce := Bytes.replicate 12 9
     header := { mode := .compound, compress := true }, body := Bytes.ofList [3],
       size_nonce := rfl }]

/-- The stream delivers a part of the first head, waits, and delivers the rest. -/
theorem requests_over_stream_mixed : ∃ (frames : List ByteArray) (ds : List Frame.Delivery),
    sampleSendings.map Sending.encode = frames.map .ok ∧ (∀ d ∈ ds, d.IsSmooth) ∧
    Frame.content ds = frames.flatMap toList ++ [] ∧
    List.zipWith Sending.receive sampleSendings (Frame.readMany Frame.maxSize 3 ds) =
      sampleSendings.map (fun s => .ok (s.header, s.body)) ∧
    Frame.content (Frame.unread Frame.maxSize 3 ds) = [] := by
  have hframe : ∀ s ∈ sampleSendings, ∃ f, s.encode = .ok f := by
    intro s hs
    refine exists_encodeRequest s.size_nonce ?_ ?_ <;> revert s <;> decide +kernel
  simp only [sampleSendings, List.forall_mem_cons] at hframe
  obtain ⟨⟨f₁, h₁⟩, ⟨f₂, h₂⟩, ⟨f₃, h₃⟩, -⟩ := hframe
  have hf : sampleSendings.map Sending.encode = [f₁, f₂, f₃].map .ok := by
    simp only [sampleSendings, List.map_cons, List.map_nil, h₁, h₂, h₃]
  let all := f₁ ++ f₂ ++ f₃
  let ds : List Frame.Delivery :=
    [.bytes (all.extract 0 5), .pending, .bytes (all.extract 5 all.size)]
  have hq : ∀ d ∈ ds, d.IsSmooth := by simp [ds, Frame.Delivery.IsSmooth]
  have hs : Frame.content ds = [f₁, f₂, f₃].flatMap toList ++ [] := by
    have hall : (toList all).take all.size = toList all := List.take_of_length_le (by simp)
    have : Frame.content ds = toList all := by
      simp [ds, Frame.Delivery.payload, hall]
    rw [this]
    simp [all]
  obtain ⟨-, hreceived, hleft⟩ := requests_over_stream hf hq hs
  exact ⟨_, ds, hf, hq, hs, hreceived, hleft⟩

/-! ## Responses -/

/-- A response is received as it was sent. -/
theorem decodeResponse_encodeResponse {header : ResponseHeader} {body frame : ByteArray}
    (h : encodeResponse header body = .ok frame) : decodeResponse frame = .ok (header, body) := by
  have hsegment : header.encode.length ≤ 0xffff := by simpa using (Frame.fits_of_build h).segment
  have hdecode := ResponseHeader.decode_encode (h := header) (by omega) []
  rw [List.append_nil] at hdecode
  rw [decodeResponse, Frame.split_of_build h header.size_encode_ne_zero]
  simp only [Frame.type_sized, ne_eq, not_true_eq_false, if_false, hdecode]

/-- A response is received as it was sent. So no other response has its frame, and both sides find
the same errors and the same absent units in their headers. -/
theorem response_round_trip {header : ResponseHeader} {body frame : ByteArray}
    (h : encodeResponse header body = .ok frame) :
    decodeResponse frame = .ok (header, body) ∧
    (∀ other otherBody, encodeResponse other otherBody = .ok frame →
      other = header ∧ otherBody = body) ∧
    ∀ got gotBody, decodeResponse frame = .ok (got, gotBody) →
      got.error = header.error ∧ got.isSuccess = header.isSuccess ∧
      ∀ key, got.unitError key = header.unitError key ∧ got.isAbsent key = header.isAbsent key := by
  have hsent := decodeResponse_encodeResponse h
  refine ⟨hsent, fun other otherBody hother => ?_, fun got gotBody hgot => ?_⟩
  · have hsame := (decodeResponse_encodeResponse hother).symm.trans hsent
    exact Prod.mk.inj (Except.ok.inj hsame)
  · obtain ⟨rfl, -⟩ := Prod.mk.inj (Except.ok.inj (hgot.symm.trans hsent))
    exact ⟨rfl, rfl, fun _ => ⟨rfl, rfl⟩⟩

/-- The call has failed, and so has one of its units; another one has no result. -/
def failedResponse : ResponseHeader where
  id := 300
  err := some { kind := 1, code := -7, message := "naïve" }
  unitErrors :=
    .ofList [("b", { code := -2147483648, statement := "select" }), ("a", { kind := -1 })]
  absentUnits := .ofList [("c", true), ("a", false)]

theorem response_round_trip_failed : ∃ frame, encodeResponse failedResponse .empty = .ok frame ∧
    decodeResponse frame = .ok (failedResponse, .empty) ∧
    ∀ got gotBody, decodeResponse frame = .ok (got, gotBody) →
      got.isSuccess = false ∧ got.unitError "a" = none ∧ got.isAbsent "c" = true := by
  have hfits : Frame.Fits (Bytes.ofList failedResponse.encode) .empty :=
    ⟨by decide +kernel, by decide +kernel⟩
  have hframe := Frame.build_of_fits .plain hfits
  obtain ⟨hdecode, -, hanswers⟩ := response_round_trip hframe
  refine ⟨_, hframe, hdecode, fun got gotBody hgot => ?_⟩
  obtain ⟨-, hsuccess, hkeys⟩ := hanswers got gotBody hgot
  exact ⟨hsuccess, (hkeys "a").1, (hkeys "c").2⟩

end Message

end Courier

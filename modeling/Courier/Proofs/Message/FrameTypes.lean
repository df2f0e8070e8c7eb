import Courier.Proofs.Message.Boundary

/-!
# The type of a frame in an envelope

A response is a plain frame, and every other frame is refused. A request comes out of at most one
envelope, but what comes out is taken apart whatever type its own head names: in an envelope, the
marks for signed and hidden frames mean the same as the mark for plain ones. So a frame in two
envelopes is not refused as such. The header segment of its second envelope, which is a workspace
number and a hash or a nonce, is read as the header of a request.
-/
namespace Courier

/-! ## Refusals -/

theorem FrameHead.kind_of_extract {buf : ByteArray} {e : Fault} (h : extract buf = .error e) :
    e.kind = .decodeFailure := by
  unfold extract at h
  split at h
  · cases h
    rfl
  · split at h
    · cases h
      rfl
    · split at h
      · cases h
        rfl
      · cases h

theorem Frame.kind_of_split {buf : ByteArray} {e : Fault} (h : Frame.split buf = .error e) :
    e.kind = .decodeFailure := by
  unfold Frame.split at h
  split at h
  next hhead =>
    cases h
    exact FrameHead.kind_of_extract hhead
  · dsimp only at h
    split at h
    · cases h
      rfl
    · split at h
      · cases h
        rfl
      · split at h
        · cases h
          rfl
        · cases h

/-- A frame that can be taken apart was built with a header segment. -/
theorem Frame.size_ne_zero_of_split {type : FrameType} {segment payload frame : ByteArray}
    {p : Frame.Parts} (hb : build type segment payload = .ok frame)
    (hs : Frame.split frame = .ok p) : segment.size ≠ 0 := by
  intro hsegment
  have hfits := fits_of_build hb
  have hlength := toNat_headerLength { type } hfits
  rw [build_of_fits type hfits, Except.ok.injEq] at hb
  obtain ⟨head, hhead, -⟩ := split_eq_ok_iff.1 hs
  have hsame := FrameHead.extract_eq_ok_iff.2 hhead.start
  rw [← hb, ByteArray.append_assoc, FrameHead.extract_bytes] at hsame
  cases hsame
  apply hhead.nonempty
  rw [← UInt16.toNat_inj, hlength, hsegment]
  rfl

namespace Envelope
variable {buf header : ByteArray} {token : String} {e : Fault}

theorem kind_of_workspaceOf {n : Nat} (h : workspaceOf header n = .error e) :
    e.kind = .decodeFailure := by
  unfold workspaceOf at h
  split at h
  · cases h
    rfl
  · cases h

/-- An envelope that cannot be taken off is a failure to decode. -/
theorem kind_of_remove (h : remove buf token = .error e) : e.kind = .decodeFailure := by
  unfold remove at h
  split at h
  next hsplit =>
    cases h
    exact Frame.kind_of_split hsplit
  · split at h
    · cases h
    · split at h
      next hw =>
        cases h
        exact kind_of_workspaceOf hw
      · split at h
        · cases h
        · cases h
          rfl
    · split at h
      next hw =>
        cases h
        exact kind_of_workspaceOf hw
      · split at h
        · cases h
        · cases h
          rfl

end Envelope

namespace Message
variable {frame inner segment payload body : ByteArray} {token : String} {header : RequestHeader}
  {content : Envelope.Content} {type : FrameType} {e : Fault}

theorem kind_of_decodeInner (h : decodeInner inner = .error e) : e.kind = .decodeFailure := by
  unfold decodeInner at h
  split at h
  next hsplit =>
    cases h
    exact Frame.kind_of_split hsplit
  · split at h
    · cases h
      rfl
    · cases h

/-- A request that is refused is a failure to decode. -/
theorem kind_of_decodeRequest (h : decodeRequest frame token = .error e) :
    e.kind = .decodeFailure := by
  rw [decodeRequest_eq] at h
  cases hremove : Envelope.remove frame token with
  | error e' =>
    rw [hremove] at h
    cases h
    exact Envelope.kind_of_remove hremove
  | ok content =>
    rw [hremove] at h
    exact kind_of_decodeInner h

/-- A response frame of another type than plain is refused as such. -/
theorem decodeResponse_of_marked {p : Frame.Parts} (h : Frame.split frame = .ok p)
    (ht : p.head.type ≠ .plain) :
    decodeResponse frame =
      .error (.decode ("unexpected response frame type " ++ toString p.head.type.byte.toNat)) := by
  rw [decodeResponse, h]
  exact if_pos ht

/-! ## What is in the envelope -/

/-- The parts that a request is read from. -/
theorem decodeInner_eq_ok_iff :
    decodeInner inner = .ok (header, body) ↔
      ∃ p, Frame.split inner = .ok p ∧ RequestHeader.decode p.header = .ok header ∧
      p.body = body := by
  unfold decodeInner
  cases Frame.split inner with
  | error e => simp
  | ok p =>
    dsimp only
    cases hdecode : RequestHeader.decode p.header <;> simp [hdecode]

/-- The type of the frame in the envelope makes no difference. Without a header segment the frame
cannot be taken apart, but such a segment has no header either. -/
theorem decodeInner_of_build (h : Frame.build type segment payload = .ok inner) :
    decodeInner inner = .ok (header, body) ↔
      RequestHeader.decode segment = .ok header ∧ payload = body := by
  by_cases hsegment : segment.size = 0
  · have hempty : segment = .empty := ByteArray.size_eq_zero_iff.1 hsegment
    constructor
    · intro hdecode
      obtain ⟨p, hsplit, -⟩ := decodeInner_eq_ok_iff.1 hdecode
      exact absurd hsegment (Frame.size_ne_zero_of_split h hsplit)
    · rintro ⟨hdecode, -⟩
      rw [hempty] at hdecode
      cases hdecode
  · rw [decodeInner_eq_ok_iff, Frame.split_of_build h hsegment]
    simp

/-- A request comes out of the buffer only if the frame with its header is plain. -/
def OnlyPlain (frame : ByteArray) (token : String) : Prop :=
  ∀ content p result, Envelope.remove frame token = .ok content →
  Frame.split content.inner = .ok p →
    decodeRequest frame token = .ok result → p.head.type = .plain

/-- A request is accepted just if a frame comes out of its envelope, if it has one, and a header is
read from the segment of that frame; it is refused as not decodable otherwise. The type of the frame
in the envelope takes no part in it, where a response of another type is refused for its type. So
only plain frames carry metadata just if there is no header in the segment of the other ones, as in
requests that are built here. -/
theorem request_types (frame : ByteArray) (token : String) :
    (∀ header body, decodeRequest frame token = .ok (header, body) ↔
      ∃ content p, Envelope.remove frame token = .ok content ∧ Frame.split content.inner = .ok p ∧
        (content.type = .plain → p.head.type = .plain) ∧
        RequestHeader.decode p.header = .ok header ∧ p.body = body) ∧
    (∀ e, decodeRequest frame token = .error e → e.kind = .decodeFailure) ∧
    (∀ content, Envelope.remove frame token = .ok content → ∀ type segment payload,
      Frame.build type segment payload = .ok content.inner → ∀ header body,
      decodeRequest frame token = .ok (header, body) ↔
        RequestHeader.decode segment = .ok header ∧ payload = body) ∧
    (∀ p, Frame.split frame = .ok p → p.head.type ≠ .plain → decodeResponse frame =
      .error (.decode ("unexpected response frame type " ++ toString p.head.type.byte.toNat))) ∧
    (OnlyPlain frame token ↔ ∀ content p, Envelope.remove frame token = .ok content →
      Frame.split content.inner = .ok p →
      p.head.type = .plain ∨ ∃ e, RequestHeader.decode p.header = .error e) ∧
    ∀ packing nonce header body, packing.token = token → nonce.size = Envelope.nonceSize →
      encodeRequest packing nonce header body = .ok frame → OnlyPlain frame token := by
  have hinner : ∀ content, Envelope.remove frame token = .ok content →
      decodeRequest frame token = decodeInner content.inner := by
    intro content h
    rw [decodeRequest_eq, h]
    rfl
  refine ⟨fun header body => ⟨fun h => ?_, ?_⟩, fun e => kind_of_decodeRequest, ?_,
    fun p => decodeResponse_of_marked, ⟨?_, ?_⟩, ?_⟩
  · obtain ⟨content, hremove, hdecode⟩ := exists_remove h
    obtain ⟨p, hsplit, hheader, hbody⟩ := decodeInner_eq_ok_iff.1 hdecode
    refine ⟨content, p, hremove, hsplit, fun hplain => ?_, hheader, hbody⟩
    obtain ⟨outer, houter, hc⟩ := Envelope.remove_eq_ok_iff.1 hremove
    rw [Envelope.inner_of_plain hremove hplain] at hsplit
    cases hsplit.symm.trans houter
    exact hc.type_eq.symm.trans hplain
  · rintro ⟨content, p, hremove, hsplit, -, hheader, hbody⟩
    rw [hinner content hremove, decodeInner_eq_ok_iff]
    exact ⟨p, hsplit, hheader, hbody⟩
  · intro content hremove type segment payload hbuild header body
    rw [hinner content hremove]
    exact decodeInner_of_build hbuild
  · intro honly content p hremove hsplit
    cases hheader : RequestHeader.decode p.header with
    | error e => exact .inr ⟨e, rfl⟩
    | ok header =>
      refine .inl (honly content p (header, p.body) hremove hsplit ?_)
      rw [hinner content hremove, decodeInner_eq_ok_iff]
      exact ⟨p, hsplit, hheader, rfl⟩
  · rintro hplain content p ⟨header, body⟩ hremove hsplit hdecode
    rw [hinner content hremove, decodeInner_eq_ok_iff] at hdecode
    obtain ⟨p', hsplit', hheader, -⟩ := hdecode
    cases hsplit.symm.trans hsplit'
    obtain hp | ⟨e, he⟩ := hplain content p hremove hsplit
    · exact hp
    · cases hheader.symm.trans he
  · rintro packing nonce header body rfl hn hencode content p result hremove hsplit -
    obtain ⟨content', hremove', hplain⟩ := remove_request hn hencode
    cases hremove.symm.trans hremove'
    cases hsplit.symm.trans (Frame.split_of_build hplain header.size_encode_ne_zero)
    rfl

/-- The record of the request header with nothing in it. -/
theorem length_encode_empty : ({} : RequestHeader).encode.length = 14 := by decide +kernel

/-- A request in an envelope that hides it. -/
theorem request_types_hidden : ∃ frame,
    encodeRequest ⟨7, .encrypt, "token"⟩ (Bytes.replicate 12 9) {} .empty = .ok frame ∧
      OnlyPlain frame "token" ∧
      ∃ content p, Envelope.remove frame "token" = .ok content ∧ Frame.split content.inner = .ok p ∧
        RequestHeader.decode p.header = .ok {} ∧ p.body = .empty := by
  have hnonce : (Bytes.replicate 12 9).size = Envelope.nonceSize := by decide
  obtain ⟨frame, hencode⟩ : ∃ frame,
      encodeRequest ⟨7, .encrypt, "token"⟩ (Bytes.replicate 12 9) {} .empty = .ok frame := by
    refine exists_encodeRequest hnonce ?_ ?_ <;> rw [length_encode_empty] <;> decide
  have hdecode := decodeRequest_encodeRequest hnonce hencode
  have htypes := request_types frame "token"
  have honly := htypes.2.2.2.2.2 ⟨7, .encrypt, "token"⟩ _ {} .empty rfl hnonce hencode
  obtain ⟨content, p, hremove, hsplit, -, hheader, hbody⟩ := (htypes.1 {} .empty).1 hdecode
  exact ⟨frame, hencode, honly, content, p, hremove, hsplit, hheader, hbody⟩

/-- A small frame fits into an envelope. -/
theorem exists_sign (workspace : UInt32) (token : String) (h : inner.size ≤ 1000) :
    ∃ frame, Envelope.sign workspace token inner = .ok frame := by
  have hmax : Frame.headSize + 36 + 1000 ≤ Frame.maxSize := by decide
  exact ⟨_, Frame.build_of_fits .signature ⟨by simp, by simp; omega⟩⟩

theorem exists_encrypt (workspace : UInt32) (token : String) (nonce : ByteArray)
    (hn : nonce.size = Envelope.nonceSize) (h : inner.size ≤ 900) :
    ∃ frame, Envelope.encrypt workspace token nonce inner = .ok frame ∧ frame.size ≤ 1000 := by
  have hsegment : (Bytes.ofUInt32 workspace ++ nonce).size = 16 := by simp [hn, Envelope.nonceSize]
  have hsealed := Cipher.Gcm.size_encipher (Envelope.cipherKey token) nonce inner
  have hsmall : Frame.headSize + 16 + (inner.size + Cipher.Gcm.tagSize) ≤ 1000 := by
    rw [Frame.headSize, Cipher.Gcm.tagSize]
    omega
  have hfits : Frame.Fits (Bytes.ofUInt32 workspace ++ nonce)
      (Cipher.Gcm.encipher (Envelope.cipherKey token) nonce inner) := by
    refine ⟨by omega, ?_⟩
    rw [hsegment, hsealed]
    exact Nat.le_trans hsmall (by decide)
  have hbuild := Frame.build_of_fits .encrypt hfits
  refine ⟨_, hbuild, ?_⟩
  rw [Frame.size_of_build hbuild, hsegment, hsealed]
  exact hsmall

/-- A signature around a frame that is marked as signed too is accepted. So is one around a hidden
frame: the workspace number and the nonce of the inner envelope are the header, and the hidden bytes
are the body. -/
theorem marked_request_accepted :
    (∃ inner marked, Frame.build .signature (Bytes.replicate 14 0) .empty = .ok inner ∧
      Envelope.sign 0 "" inner = .ok marked ∧ decodeRequest marked "" = .ok ({}, .empty) ∧
      ¬ OnlyPlain marked "") ∧
    ∃ plain hidden twice, encodeRequest {} .empty {} .empty = .ok plain ∧
      Envelope.encrypt 0 "" (Bytes.replicate 12 0) plain = .ok hidden ∧
      Envelope.sign 0 "" hidden = .ok twice ∧
      decodeRequest twice "" =
        .ok ({}, Cipher.Gcm.encipher (Envelope.cipherKey "") (Bytes.replicate 12 0) plain) := by
  constructor
  · have hfits : Frame.Fits (Bytes.replicate 14 0) .empty := ⟨by decide, by decide⟩
    have hbuild := Frame.build_of_fits .signature hfits
    obtain ⟨marked, hsign⟩ := exists_sign 0 "" (by rw [Frame.size_of_build hbuild]; decide)
    have hremove := Envelope.remove_sign hsign
    have hdecode : decodeRequest marked "" = .ok ({}, .empty) := by
      rw [decodeRequest_eq, hremove]
      exact (decodeInner_of_build hbuild).2 ⟨rfl, rfl⟩
    refine ⟨_, marked, hbuild, hsign, hdecode, fun honly => ?_⟩
    cases honly _ _ _ hremove (Frame.split_of_build hbuild (by decide)) hdecode
  · have hsegment : (Bytes.ofList ({} : RequestHeader).encode).size = 14 := by
      rw [Bytes.size_ofList, length_encode_empty]
    have hfits : Frame.Fits (Bytes.ofList ({} : RequestHeader).encode) .empty := by
      constructor <;> rw [hsegment] <;> decide
    obtain ⟨plain, hplain⟩ :
        ∃ plain, Frame.build .plain (Bytes.ofList ({} : RequestHeader).encode) .empty = .ok plain :=
        ⟨_, Frame.build_of_fits .plain hfits⟩
    have hsize := Frame.size_of_build hplain
    rw [hsegment] at hsize
    obtain ⟨hidden, hencrypt, hsmall⟩ :=
      exists_encrypt 0 "" (Bytes.replicate 12 0) rfl (by rw [hsize]; decide)
    obtain ⟨twice, hsign⟩ := exists_sign 0 "" hsmall
    refine ⟨plain, hidden, twice, ?_, hencrypt, hsign, ?_⟩
    · rw [encodeRequest, hplain]
    · rw [decodeRequest_eq, Envelope.remove_sign hsign]
      exact (decodeInner_of_build hencrypt).2 ⟨rfl, rfl⟩

end Message
end Courier

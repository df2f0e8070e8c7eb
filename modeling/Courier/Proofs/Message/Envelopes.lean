import Courier.Proofs.Frame.Inverse
import Courier.Proofs.Message.RoundTrip

/-!
# Envelopes are exact

An envelope gives back what was put into it, and it is accepted only if it is what its content is
put into: nothing of its bytes is free but the version and the flags in its head. So a signature is
accepted just if it is the one keyed hash of what it signs.
-/
namespace Courier.Envelope
open Courier.Frame (split build IsHeaded partsAt split_eq_ok_iff)

variable {buf : ByteArray} {token : String} {content : Content} {p : Frame.Parts}

/-- What an envelope of each kind is made of when its content is taken out. -/
inductive Holds (buf : ByteArray) (token : String) (p : Frame.Parts) : Content → Prop
  | plain (ht : p.head.type = .plain) : Holds buf token p ⟨.plain, none, buf⟩
  | signature (ht : p.head.type = .signature) (hs : p.header.size = workspaceSize + signatureSize)
      (hm : trailerOf p.header = Digest.Hmac.mac token.toUTF8 p.body) :
      Holds buf token p ⟨.signature, some (Bytes.uint32At p.header 0), p.body⟩
  | encrypt {inner : ByteArray} (ht : p.head.type = .encrypt)
      (hs : p.header.size = workspaceSize + nonceSize)
      (hd : Cipher.Gcm.decipher? (cipherKey token) (trailerOf p.header) p.body = some inner) :
      Holds buf token p ⟨.encrypt, some (Bytes.uint32At p.header 0), inner⟩

theorem Holds.type_eq (h : Holds buf token p content) : content.type = p.head.type := by
  cases h with
  | plain ht | signature ht | encrypt ht => exact ht.symm

theorem workspaceOf_eq_ok_iff {header : ByteArray} {n : Nat} {workspace : UInt32} :
    workspaceOf header n = .ok workspace ↔
      header.size = workspaceSize + n ∧ workspace = Bytes.uint32At header 0 := by
  unfold workspaceOf
  split
  next h => simp [h]
  next h => simp [Decidable.not_not.1 h, eq_comm]

/-- The content of an envelope comes out of the parts of the frame. -/
theorem remove_eq_ok_iff :
    remove buf token = .ok content ↔ ∃ p, split buf = .ok p ∧ Holds buf token p content := by
  constructor
  · intro h
    unfold remove at h
    split at h
    · cases h
    next head header payload hsplit =>
      refine ⟨_, hsplit, ?_⟩
      split at h
      next ht =>
        cases h
        exact .plain ht
      next ht =>
        split at h
        · cases h
        next workspace hw =>
          obtain ⟨hs, rfl⟩ := workspaceOf_eq_ok_iff.1 hw
          split at h
          next hm =>
            cases h
            exact .signature (p := ⟨head, header, payload⟩) ht hs hm
          next => cases h
      next ht =>
        split at h
        · cases h
        next workspace hw =>
          obtain ⟨hs, rfl⟩ := workspaceOf_eq_ok_iff.1 hw
          split at h
          next inner hd =>
            cases h
            exact .encrypt (p := ⟨head, header, payload⟩) ht hs hd
          next => cases h
  · rintro ⟨p, hsplit, h⟩
    rw [remove, hsplit]
    cases h with
    | plain ht => simp only [ht]
    | signature ht hs hm => simp only [ht, workspaceOf_eq_ok_iff.2 ⟨hs, rfl⟩, hm, if_true]
    | encrypt ht hs hd => simp only [ht, workspaceOf_eq_ok_iff.2 ⟨hs, rfl⟩, hd]

/-- A header segment is the workspace number and what stands behind it. -/
theorem ofUInt32_append_trailerOf {header : ByteArray} (h : workspaceSize ≤ header.size) :
    Bytes.ofUInt32 (Bytes.uint32At header 0) ++ trailerOf header = header := by
  have hfront : header.extract 0 workspaceSize = Bytes.ofUInt32 (Bytes.uint32At header 0) := by
    apply Bytes.toList_injective
    rw [Bytes.ofUInt32_uint32At, Bytes.toList_extract, List.drop_zero]
    unfold workspaceSize at *
    exact Bytes.take_drop_toList (i := 0) (by omega)
  rw [← hfront, trailerOf, ← ByteArray.extract_eq_extract_append_extract _ (Nat.zero_le _) h,
    ByteArray.extract_zero_size]

/-- A frame with the current version and no flags is built again from its parts. -/
theorem build_of_split (h : split buf = .ok p) (hs : buf.size ≤ Frame.maxSize)
    (hv : Bytes.byteAt buf 2 = Frame.currentVersion) (hf : Bytes.byteAt buf 3 = 0) :
    build p.head.type p.header p.body = .ok buf := by
  obtain ⟨head, hhead, rfl⟩ := split_eq_ok_iff.1 h
  have hbuilt : Frame.construct { type := head.type }
    (partsAt buf head).header (partsAt buf head).body =
      .ok ⟨head, buf⟩ :=
    hhead.construct_eq hs rfl (hv.symm.trans hhead.start.version) (hf.symm.trans hhead.start.flags)
  show build head.type _ _ = _
  rw [build, hbuilt]

theorem sign_of_holds (h : split buf = .ok p) (hs : buf.size ≤ Frame.maxSize)
    (hv : Bytes.byteAt buf 2 = Frame.currentVersion) (hf : Bytes.byteAt buf 3 = 0)
    (hc : Holds buf token p content) (ht : content.type = .signature) :
    ∃ workspace, content.workspace = some workspace ∧
    sign workspace token content.inner = .ok buf := by
  cases hc with
  | signature htype hsize hm =>
    refine ⟨_, rfl, ?_⟩
    rw [sign, ← hm, ofUInt32_append_trailerOf (by omega), ← htype]
    exact build_of_split h hs hv hf
  | plain | encrypt => cases ht

/-- The nonce in an envelope that hides its content. -/
def nonceOf (buf : ByteArray) : ByteArray := buf.extract 14 26

theorem trailerOf_encrypt (h : split buf = .ok p) (hs : p.header.size = workspaceSize + nonceSize) :
    trailerOf p.header = nonceOf buf := by
  obtain ⟨head, hhead, rfl⟩ := split_eq_ok_iff.1 h
  have hsize := hhead.size_header
  rw [hs] at hsize
  rw [trailerOf, hs, partsAt, ← hsize, ByteArray.extract_extract]
  rfl

theorem encrypt_of_holds (h : split buf = .ok p) (hs : buf.size ≤ Frame.maxSize)
    (hv : Bytes.byteAt buf 2 = Frame.currentVersion) (hf : Bytes.byteAt buf 3 = 0)
    (hc : Holds buf token p content) (ht : content.type = .encrypt) :
    ∃ workspace, content.workspace = some workspace ∧
      encrypt workspace token (nonceOf buf) content.inner = .ok buf := by
  cases hc with
  | encrypt htype hsize hd =>
    refine ⟨_, rfl, ?_⟩
    rw [← trailerOf_encrypt h hsize, encrypt, Cipher.Gcm.encipher_of_decipher? hd,
      ofUInt32_append_trailerOf (by omega), ← htype]
    exact build_of_split h hs hv hf
  | plain | signature => cases ht

/-- Without envelope the content is the frame itself. -/
theorem inner_of_plain (h : remove buf token = .ok content) (hp : content.type = .plain) :
    content.inner = buf := by
  obtain ⟨p, -, hc⟩ := remove_eq_ok_iff.1 h
  cases hc with
  | plain => rfl
  | signature | encrypt => cases hp

/-- Envelopes give back what was put into them. Conversely, one that is accepted with a token, and
has the current version and no flags, is what its content is put into with that token and its own
nonce. So a buffer is accepted as a signature just if it is the keyed hash of the payload, and a
plain frame always as it is. -/
theorem wrapping_exact (token : String) :
    (∀ workspace inner buf, sign workspace token inner = .ok buf →
      remove buf token = .ok ⟨.signature, some workspace, inner⟩) ∧
    (∀ workspace nonce inner buf, nonce.size = nonceSize →
      encrypt workspace token nonce inner = .ok buf →
      remove buf token = .ok ⟨.encrypt, some workspace, inner⟩ ∧ nonceOf buf = nonce) ∧
    (∀ buf content, buf.size ≤ Frame.maxSize → Bytes.byteAt buf 2 = 1 → Bytes.byteAt buf 3 = 0 →
      remove buf token = .ok content →
      (content.type = .signature → ∃ workspace, content.workspace = some workspace ∧
        sign workspace token content.inner = .ok buf) ∧
      (content.type = .encrypt → ∃ workspace, content.workspace = some workspace ∧
        encrypt workspace token (nonceOf buf) content.inner = .ok buf)) ∧
    (∀ buf p, split buf = .ok p → p.head.type = .signature → ∀ content,
      remove buf token = .ok content ↔
        p.header.size = 36 ∧ p.header.extract 4 36 = Digest.Hmac.mac token.toUTF8 p.body ∧
        content = ⟨.signature, some (Bytes.uint32At p.header 0), p.body⟩) ∧
    (∀ buf p, split buf = .ok p → p.head.type = .plain →
      remove buf token = .ok ⟨.plain, none, buf⟩) ∧
    ∀ buf content, remove buf token = .ok content →
      ∃ p, split buf = .ok p ∧ content.type = p.head.type := by
  refine ⟨fun _ _ _ h => remove_sign h, fun _ _ _ _ hn h => ⟨remove_encrypt hn h, ?_⟩, ?_, ?_,
    ?_, ?_⟩
  · have hsplit := Frame.split_of_build h (by simp)
    rw [← trailerOf_encrypt hsplit (by simp [workspaceSize, hn]), trailerOf_append]
  · intro buf content hs hv hf h
    obtain ⟨p, hsplit, hc⟩ := remove_eq_ok_iff.1 h
    exact ⟨sign_of_holds hsplit hs hv hf hc, encrypt_of_holds hsplit hs hv hf hc⟩
  · intro buf p hsplit ht content
    rw [remove_eq_ok_iff]
    constructor
    · rintro ⟨p', hsplit', hc⟩
      cases hsplit.symm.trans hsplit'
      cases hc with
      | signature _ hsize hm =>
        rw [trailerOf, hsize] at hm
        exact ⟨hsize, hm, rfl⟩
      | plain htype | encrypt htype => cases htype.symm.trans ht
    · rintro ⟨hsize, hm, rfl⟩
      refine ⟨p, hsplit, .signature ht hsize ?_⟩
      rw [trailerOf, hsize]
      exact hm
  · intro buf p hsplit ht
    exact remove_eq_ok_iff.2 ⟨p, hsplit, .plain ht⟩
  · intro buf content h
    obtain ⟨p, hsplit, hc⟩ := remove_eq_ok_iff.1 h
    exact ⟨p, hsplit, hc.type_eq⟩

/-- An empty text is put into both envelopes and comes out of them. -/
theorem wrapping_exact_empty : ∃ signed hidden,
    sign 7 "token" .empty = .ok signed ∧
    remove signed "token" = .ok ⟨.signature, some 7, .empty⟩ ∧
    (∃ workspace, some 7 = some workspace ∧ sign workspace "token" .empty = .ok signed) ∧
    encrypt 7 "token" (Bytes.replicate 12 9) .empty = .ok hidden ∧
    remove hidden "token" = .ok ⟨.encrypt, some 7, .empty⟩ ∧
    nonceOf hidden = Bytes.replicate 12 9 := by
  obtain ⟨hsign, hencrypt, hback, -⟩ := wrapping_exact "token"
  obtain ⟨signed, hsigned⟩ : ∃ signed, sign 7 "token" .empty = .ok signed :=
    ⟨_, Frame.build_of_fits .signature ⟨by simp, by simp; decide⟩⟩
  have hnonce : (Bytes.replicate 12 9).size = nonceSize := by decide
  obtain ⟨hidden, hhidden⟩ :
      ∃ hidden, encrypt 7 "token" (Bytes.replicate 12 9) .empty = .ok hidden :=
    ⟨_, Frame.build_of_fits .encrypt ⟨by simp [hnonce, nonceSize], by simp [hnonce]; decide⟩⟩
  have hremove := hsign 7 .empty signed hsigned
  have hversion : Bytes.byteAt signed 2 = 1 ∧ Bytes.byteAt signed 3 = 0 := by
    obtain ⟨head, hhead, hp⟩ := split_eq_ok_iff.1 (Frame.split_of_build hsigned (by simp))
    cases congrArg Frame.Parts.head hp
    exact ⟨hhead.start.version, hhead.start.flags⟩
  have hagain := hback signed _ (Frame.size_le_of_build hsigned) hversion.1 hversion.2 hremove
  exact ⟨signed, hidden, hsigned, hremove, hagain.1 rfl, hhidden,
    hencrypt 7 _ .empty hidden hnonce hhidden⟩

end Courier.Envelope

import Courier.Proofs.Message.Envelopes
import Courier.Proofs.Wire.Delimiting

/-!
# The border between header and body

The end of a header is said twice in a frame: by the length of the header segment in the head and by
the record of the header, which ends by itself. A segment that is shorter than the record is
refused, but the bytes of a longer one that stand behind the record are dropped. So another length
in the head of a frame moves the front of the body, and nobody notices.
-/
namespace Courier
open Bytes (toList)

namespace Frame
variable {buf : ByteArray} {head head' : FrameHead}

/-- A frame with another length of the header segment in its head. -/
def resized (buf : ByteArray) (length : UInt16) : ByteArray :=
  buf.extract 0 8 ++ Bytes.ofUInt16 length ++ buf.extract headSize buf.size

theorem IsHeaded.resized_eq (h : IsHeaded buf head) (length : UInt16) :
    resized buf length =
      ({ head with headerLength := length } : FrameHead).bytes ++
        buf.extract headSize buf.size := by
  have hfront : buf.extract 0 8 =
      Bytes.ofList [magic, head.type.byte, head.version, head.flags] ++
        Bytes.ofUInt32 head.totalLength := by
    have hshorter : buf.extract 0 8 = (buf.extract 0 headSize).extract 0 8 := by
      rw [ByteArray.extract_extract]
      rfl
    rw [hshorter, h.start.bytes_eq, FrameHead.bytes, ByteArray.extract_append_eq_left (by simp)]
  rw [resized, hfront]
  rfl

theorem IsHeaded.size_resized (h : IsHeaded buf head) (length : UInt16) :
    (resized buf length).size = buf.size := by
  have := h.start.size
  rw [h.resized_eq]
  simp
  omega

/-- The other length is accepted just if there is such a segment. -/
theorem IsHeaded.resized_iff (h : IsHeaded buf head) (length : UInt16) :
    IsHeaded (resized buf length) head' ↔
      head' = { head with headerLength := length } ∧ length ≠ 0 ∧
        headSize + length.toNat ≤ buf.size := by
  have hstart : FrameHead.StartsWith (resized buf length) { head with headerLength := length } := by
    rw [h.resized_eq]
    exact FrameHead.extract_eq_ok_iff.1 (FrameHead.extract_bytes _ _)
  have hsize := h.size_resized length
  constructor
  · rintro ⟨hstart', htotal, hne, hwithin⟩
    have hsame :=
      (FrameHead.extract_eq_ok_iff.2 hstart').symm.trans (FrameHead.extract_eq_ok_iff.2 hstart)
    cases hsame
    rw [hsize] at hwithin
    exact ⟨rfl, hne, hwithin⟩
  · rintro ⟨rfl, hne, hwithin⟩
    exact ⟨hstart, h.total.trans hsize.symm, hne, Nat.le_trans hwithin (Nat.le_of_eq hsize.symm)⟩

/-- The length that the head says already changes nothing. -/
theorem IsHeaded.resized_self (h : IsHeaded buf head) : resized buf head.headerLength = buf := by
  have hten := h.start.size
  rw [h.resized_eq]
  show head.bytes ++ _ = buf
  rw [← h.start.bytes_eq, ← ByteArray.extract_eq_extract_append_extract _ (Nat.zero_le _) hten,
    ByteArray.extract_zero_size]

/-- Behind the head all bytes stay where they are. -/
theorem IsHeaded.extract_resized (h : IsHeaded buf head) (length : UInt16) (i : Nat) {j : Nat}
    (hj : headSize + j ≤ buf.size) :
    (resized buf length).extract (headSize + i) (headSize + j) =
      buf.extract (headSize + i) (headSize + j) := by
  have hback := ByteArray.extract_append_size_add (i := i) (j := j)
    (a := ({ head with headerLength := length } : FrameHead).bytes)
    (b := buf.extract headSize buf.size)
  rw [FrameHead.size_bytes, ByteArray.extract_extract, Nat.min_eq_left hj] at hback
  rw [h.resized_eq, hback]

theorem IsHeaded.partsAt_resized (h : IsHeaded buf head) {length : UInt16}
    (hl : headSize + length.toNat ≤ buf.size) :
    partsAt (resized buf length) { head with headerLength := length } =
      ⟨{ head with headerLength := length }, buf.extract headSize (headSize + length.toNat),
        buf.extract (headSize + length.toNat) buf.size⟩ := by
  have hheader := h.extract_resized length 0 hl
  have hbody := h.extract_resized length length.toNat (j := buf.size - headSize) (by omega)
  have hsize : headSize + (buf.size - headSize) = buf.size := by omega
  rw [hsize] at hbody
  rw [Nat.add_zero] at hheader
  rw [partsAt, h.size_resized, hheader, hbody]

end Frame

/-! ## Headers in a segment -/

theorem RequestHeader.decode_eq_ok_iff {segment : ByteArray} {header : RequestHeader} :
    decode segment = .ok header ↔ ∃ rest, read.run (toList segment) = .ok (header, rest) := by
  unfold decode toList
  cases read.run segment.data.toList with
  | error e => simp
  | ok result => simp [Prod.ext_iff]

theorem ResponseHeader.decode_eq_ok_iff {segment : ByteArray} {header : ResponseHeader} :
    decode segment = .ok header ↔ ∃ rest, read.run (toList segment) = .ok (header, rest) := by
  unfold decode toList
  cases read.run segment.data.toList with
  | error e => simp
  | ok result => simp [Prod.ext_iff]

namespace Message
open Courier.Frame (IsHeaded partsAt resized headSize split_eq_ok_iff)
open Wire.Record (Reader Uses Delimits Inverts)

/-- The request in a frame without envelope. -/
def decodeInner (inner : ByteArray) : Except Fault (RequestHeader × ByteArray) :=
  match Frame.split inner with
  | .error e => .error e
  | .ok parts =>
    match RequestHeader.decode parts.header with
    | .error e => .error (.decode ("request header decode: " ++ e.message))
    | .ok header => .ok (header, parts.body)

theorem decodeRequest_eq (frame : ByteArray) (token : String) :
    decodeRequest frame token =
      (Envelope.remove frame token).bind fun content => decodeInner content.inner := by
  rw [decodeRequest]
  cases Envelope.remove frame token <;> rfl

/-- A request that is accepted has come out of its envelope. -/
theorem exists_remove {frame : ByteArray} {token : String} {result : RequestHeader × ByteArray}
    (h : decodeRequest frame token = .ok result) :
    ∃ content, Envelope.remove frame token = .ok content ∧
    decodeInner content.inner = .ok result := by
  rw [decodeRequest_eq] at h
  cases hremove : Envelope.remove frame token with
  | error e =>
    rw [hremove] at h
    cases h
  | ok content =>
    rw [hremove] at h
    exact ⟨content, rfl, h⟩

/-- A header that `read` finds at the front of the header segment, and the bytes behind that
segment. -/
def Reads {α : Type} (read : Reader α) (buf : ByteArray) (head : FrameHead) (a : α)
    (body : ByteArray) : Prop :=
  IsHeaded buf head ∧ (∃ rest, read.run (toList (partsAt buf head).header) = .ok (a, rest)) ∧
    body = (partsAt buf head).body

variable {α : Type} {read : Reader α} {decode : ByteArray → Except Fault (α × ByteArray)}
  {accepts : FrameType → Prop} {buf frame body : ByteArray} {head : FrameHead} {a : α}
  {record gap : List UInt8}

/-- The decoder takes the headers that `read` finds in frames of the accepted types. The header ends
by itself and is not read from nothing. -/
structure Decodes (decode : ByteArray → Except Fault (α × ByteArray)) (read : Reader α)
    (accepts : FrameType → Prop) : Prop where
  iff : ∀ {buf a body}, decode buf = .ok (a, body) ↔
    ∃ head, accepts head.type ∧ Reads read buf head a body
  delimits : Delimits read
  nonempty : read.run [] = .error .unexpectedEnd

theorem decodes_inner : Decodes decodeInner RequestHeader.read fun _ => True := by
  refine ⟨fun {buf header body} => ?_, RequestHeader.delimits_read, rfl⟩
  constructor
  · intro h
    unfold decodeInner at h
    split at h
    · cases h
    next parts hsplit =>
      obtain ⟨head, hhead, rfl⟩ := split_eq_ok_iff.1 hsplit
      split at h
      · cases h
      next hdecode =>
        cases h
        exact ⟨head, trivial, hhead, RequestHeader.decode_eq_ok_iff.1 hdecode, rfl⟩
  · rintro ⟨head, -, hhead, hread, rfl⟩
    rw [decodeInner, split_eq_ok_iff.2 ⟨head, hhead, rfl⟩]
    simp only [RequestHeader.decode_eq_ok_iff.2 hread]

theorem decodes_response : Decodes decodeResponse ResponseHeader.read (· = .plain) := by
  refine ⟨fun {buf header body} => ?_, ResponseHeader.delimits_read, rfl⟩
  constructor
  · intro h
    unfold decodeResponse at h
    split at h
    · cases h
    next parts hsplit =>
      obtain ⟨head, hhead, rfl⟩ := split_eq_ok_iff.1 hsplit
      split at h
      · cases h
      next htype =>
        split at h
        · cases h
        next hdecode =>
          cases h
          exact ⟨head, Decidable.not_not.1 htype, hhead,
            ResponseHeader.decode_eq_ok_iff.1 hdecode, rfl⟩
  · rintro ⟨head, htype, hhead, hread, rfl⟩
    have hplain : ¬ (partsAt buf head).head.type ≠ .plain := not_not_intro htype
    rw [decodeResponse, split_eq_ok_iff.2 ⟨head, hhead, rfl⟩]
    simp only [hplain, if_false, ResponseHeader.decode_eq_ok_iff.2 hread]

/-- Where a decoder puts the border between the header and the body of a frame. The reader ends with
the record, and the gap behind it belongs to neither side. With another length of the header segment
the frame is accepted just if the segment has all of the record, and then its body begins behind
that segment. -/
structure Border (decode : ByteArray → Except Fault (α × ByteArray)) (read : Reader α)
    (buf : ByteArray) (a : α) (body : ByteArray) (record gap : List UInt8) : Prop where
  head : headSize ≤ buf.size
  bytes : (toList buf).drop headSize = record ++ gap ++ toList body
  uses : Uses read record a
  length : (Bytes.uint16At buf 8).toNat = record.length + gap.length
  moves : ∀ (length : UInt16) (result : α × ByteArray), decode (resized buf length) = .ok result ↔
    record.length ≤ length.toNat ∧ headSize + length.toNat ≤ buf.size ∧
      result = (a, buf.extract (headSize + length.toNat) buf.size)

/-- With no other length of its header segment a frame is accepted with another body. -/
def KeepsBody (decode : ByteArray → Except Fault (α × ByteArray)) (buf body : ByteArray) : Prop :=
  ∀ (length : UInt16) (result : α × ByteArray), decode (resized buf length) = .ok result →
  result.2 = body

/-- A frame has a border, and both ends of the header are the same just if there is no gap. For the
body to be kept there must be nothing behind the header that a longer segment could take. -/
def IsBordered (decode : ByteArray → Except Fault (α × ByteArray)) (read : Reader α)
    (buf : ByteArray) (a : α) (body : ByteArray) : Prop :=
  ∃ record gap, Border decode read buf a body record gap ∧
    ((Bytes.uint16At buf 8).toNat = record.length ↔ gap = []) ∧
    (KeepsBody decode buf body ↔ gap = [] ∧ (body.size = 0 ∨ record.length = 0xffff))

namespace Border

theorem size_eq (h : Border decode read buf a body record gap) :
    buf.size = headSize + record.length + gap.length + body.size := by
  have hhead := h.head
  have hsize := congrArg List.length h.bytes
  simp only [List.length_drop, List.length_append, Bytes.length_toList] at hsize
  omega

theorem congr {decode' : ByteArray → Except Fault (α × ByteArray)}
    (h : Border decode read buf a body record gap)
    (he : ∀ length, decode' (resized buf length) = decode (resized buf length)) :
    Border decode' read buf a body record gap :=
  ⟨h.head, h.bytes, h.uses, h.length, fun length result => he length ▸ h.moves length result⟩

/-- A length of the header segment with which the body begins there. -/
theorem decode_resized (h : Border decode read buf a body record gap) {n : Nat}
    (hr : record.length ≤ n) (hn : n ≤ 0xffff) (hs : headSize + n ≤ buf.size) :
    decode (resized buf n.toUInt16) = .ok (a, buf.extract (headSize + n) buf.size) := by
  have hword : n.toUInt16.toNat = n := Nat.mod_eq_of_lt (by omega)
  rw [h.moves, hword]
  exact ⟨hr, hs, rfl⟩

theorem keepsBody_iff (h : Border decode read buf a body record gap) :
    KeepsBody decode buf body ↔ gap = [] ∧ (body.size = 0 ∨ record.length = 0xffff) := by
  have hsize := h.size_eq
  have hlength := h.length
  have hword := (Bytes.uint16At buf 8).toNat_lt
  constructor
  · intro hkeeps
    have hkept : ∀ n, record.length ≤ n → n ≤ 0xffff → headSize + n ≤ buf.size →
        buf.size - (headSize + n) = body.size := by
      intro n hr hn hs
      rw [← hkeeps _ _ (h.decode_resized hr hn hs)]
      simp
    have hgap := hkept record.length (Nat.le_refl _) (by omega) (by omega)
    refine ⟨List.length_eq_zero_iff.1 (by omega), ?_⟩
    by_cases hbody : body.size = 0
    · exact .inl hbody
    · by_cases hrecord : record.length = 0xffff
      · exact .inr hrecord
      · have hnext := hkept (record.length + 1) (by omega) (by omega) (by omega)
        omega
  · rintro ⟨rfl, hend⟩ length result hresult
    obtain ⟨hrecord, hwithin, rfl⟩ := (h.moves length result).1 hresult
    have hlt := length.toNat_lt
    rw [List.length_nil] at hsize
    have hsame : length.toNat = record.length := by omega
    apply Bytes.toList_injective
    have hbytes := h.bytes
    rw [List.append_nil] at hbytes
    rw [Bytes.toList_extract, hsame, List.take_of_length_le (by simp), ← List.drop_drop, hbytes,
      List.drop_left]

theorem isBordered (h : Border decode read buf a body record gap) :
    IsBordered decode read buf a body := by
  refine ⟨record, gap, h, ?_, h.keepsBody_iff⟩
  rw [h.length, ← List.length_eq_zero_iff]
  omega

end Border

/-- A header segment of another length is read if it has all of the record. -/
theorem run_segment (hu : Uses read record a)
    (hb : (toList buf).drop headSize = record ++ gap ++ toList body) (n : Nat) :
    read.run (toList (buf.extract headSize (headSize + n))) =
      if record.length ≤ n then .ok (a, (gap ++ toList body).take (n - record.length))
      else .error .unexpectedEnd := by
  have hsegment : toList (buf.extract headSize (headSize + n)) =
      (record ++ (gap ++ toList body)).take n := by
    rw [Bytes.toList_extract, List.drop_take, Nat.add_sub_cancel_left, hb, List.append_assoc]
  rw [hsegment, hu.run_take]

theorem Decodes.border_of_uses (hd : Decodes decode read accepts) (hh : IsHeaded buf head)
    (ht : accepts head.type) (hu : Uses read record a)
    (hb : toList (partsAt buf head).header = record ++ gap) :
    Border decode read buf a (partsAt buf head).body record gap := by
  have hback : (toList buf).drop headSize = record ++ gap ++ toList (partsAt buf head).body := by
    have hhead : (toList head.bytes).length = headSize := by simp
    have hall := congrArg toList hh.bytes_eq
    rw [Bytes.toList_append, Bytes.toList_append, hb, List.append_assoc] at hall
    rw [hall, ← hhead, List.drop_left]
  refine ⟨hh.start.size, hback, hu, ?_, fun length result => ?_⟩
  · rw [hh.start.segment, ← hh.size_header, ← List.length_append, ← hb, Bytes.length_toList]
  · obtain ⟨other, otherBody⟩ := result
    rw [hd.iff]
    constructor
    · rintro ⟨head', -, hh', ⟨rest, hread⟩, rfl⟩
      obtain ⟨rfl, -, hwithin⟩ := (hh.resized_iff length).1 hh'
      rw [hh.partsAt_resized hwithin] at hread ⊢
      rw [run_segment hu hback] at hread
      split at hread
      next henough =>
        cases hread
        exact ⟨henough, hwithin, rfl⟩
      next => cases hread
    · rintro ⟨henough, hwithin, hresult⟩
      obtain ⟨rfl, rfl⟩ := Prod.mk.inj hresult
      have hne : length ≠ 0 := by
        rintro rfl
        exact absurd henough (Nat.not_le.2 (hu.length_pos hd.nonempty))
      refine ⟨{ head with headerLength := length }, ht,
        (hh.resized_iff length).2 ⟨rfl, hne, hwithin⟩, ?_⟩
      rw [hh.partsAt_resized hwithin, run_segment hu hback, if_pos henough]
      exact ⟨⟨_, rfl⟩, rfl⟩

/-- Every frame that is accepted has a border. -/
theorem Decodes.exists_border (hd : Decodes decode read accepts) (h : decode buf = .ok (a, body)) :
    ∃ record gap, Border decode read buf a body record gap := by
  obtain ⟨head, ht, hh, ⟨gap, hread⟩, rfl⟩ := hd.iff.1 h
  obtain ⟨record, hsegment, hu⟩ := hd.delimits _ _ _ hread
  exact ⟨record, gap, hd.border_of_uses hh ht hu hsegment⟩

/-- In a frame that was built around a record there is no gap. -/
theorem Decodes.border_of_build {write : α → List UInt8} (hd : Decodes decode read accepts)
    (ht : accepts .plain) (hi : Inverts read write a)
    (h : Frame.build .plain (Bytes.ofList (write a)) body = .ok frame) :
    Border decode read frame a body (write a) [] := by
  have hu := hd.delimits.uses_of_inverts hi
  have hne : (Bytes.ofList (write a)).size ≠ 0 := by
    have := hu.length_pos hd.nonempty
    rw [Bytes.size_ofList]
    omega
  obtain ⟨head, hh, hparts⟩ := split_eq_ok_iff.1 (Frame.split_of_build h hne)
  have hhead := congrArg Frame.Parts.head hparts
  have hheader := congrArg Frame.Parts.header hparts
  have hbody : body = (partsAt frame head).body := congrArg Frame.Parts.body hparts
  have htype : head.type = .plain := congrArg FrameHead.type hhead.symm
  rw [hbody]
  refine hd.border_of_uses hh (htype ▸ ht) hu ?_
  rw [← hheader, List.append_nil, Bytes.toList_ofList]

/-- Of a frame that is accepted without envelope the head may say another length of the segment:
there is still no envelope to take off. -/
theorem decodeRequest_resized {content : Envelope.Content} {token : String}
    (h : Envelope.remove frame token = .ok content) (hp : content.type = .plain) (length : UInt16) :
    decodeRequest (resized frame length) token = decodeInner (resized frame length) := by
  obtain ⟨p, hsplit, hholds⟩ := Envelope.remove_eq_ok_iff.1 h
  obtain ⟨head, hh, rfl⟩ := split_eq_ok_iff.1 hsplit
  have htype : head.type = .plain := hholds.type_eq.symm.trans hp
  rw [decodeRequest_eq, decodeInner]
  cases hs : Frame.split (resized frame length) with
  | error e =>
    rw [Envelope.remove, hs]
    rfl
  | ok p =>
    obtain ⟨head', hh', rfl⟩ := split_eq_ok_iff.1 hs
    obtain ⟨rfl, -⟩ := (hh.resized_iff length).1 hh'
    rw [Envelope.remove_eq_ok_iff.2 ⟨_, hs, .plain htype⟩, Except.bind, decodeInner, hs]

/-- The head of an envelope can say no other length. -/
theorem resized_of_remove {content content' : Envelope.Content} {token : String} {length : UInt16}
    (h : Envelope.remove frame token = .ok content) (hp : content.type ≠ .plain)
    (h' : Envelope.remove (resized frame length) token = .ok content') :
    resized frame length = frame := by
  obtain ⟨p, hsplit, hholds⟩ := Envelope.remove_eq_ok_iff.1 h
  obtain ⟨p', hsplit', hholds'⟩ := Envelope.remove_eq_ok_iff.1 h'
  obtain ⟨head, hh, rfl⟩ := split_eq_ok_iff.1 hsplit
  obtain ⟨head', hh', rfl⟩ := split_eq_ok_iff.1 hsplit'
  have hsize := hh.size_header
  have hsize' := hh'.size_header
  obtain ⟨rfl, -⟩ := (hh.resized_iff length).1 hh'
  have hsame : head.headerLength.toNat = length.toNat := by
    cases hholds with
    | plain => exact absurd rfl hp
    | signature ht hs =>
      cases hholds' with
      | signature _ hs' => exact hsize.symm.trans (hs.trans (hs'.symm.trans hsize'))
      | plain ht' | encrypt ht' => cases ht.symm.trans ht'
    | encrypt ht hs =>
      cases hholds' with
      | encrypt _ hs' => exact hsize.symm.trans (hs.trans (hs'.symm.trans hsize'))
      | plain ht' | signature ht' => cases ht.symm.trans ht'
  rw [← UInt16.toNat_inj.1 hsame, hh.resized_self]

/-- Each frame that is accepted has a border, if need be in its envelope, whose own head can say no
other length. In the frames that are built here there is no gap. -/
theorem header_border (frame : ByteArray) (token : String) :
    (∀ header body, decodeResponse frame = .ok (header, body) →
      IsBordered decodeResponse ResponseHeader.read frame header body) ∧
    (∀ header body, decodeRequest frame token = .ok (header, body) →
      ∃ content, Envelope.remove frame token = .ok content ∧
        IsBordered decodeInner RequestHeader.read content.inner header body ∧
        (content.type = .plain →
          IsBordered (decodeRequest · token) RequestHeader.read frame header body) ∧
        (content.type ≠ .plain → ∀ length result,
          decodeRequest (resized frame length) token = .ok result → resized frame length = frame)) ∧
    (∀ header body, encodeResponse header body = .ok frame →
      Border decodeResponse ResponseHeader.read frame header body header.encode []) ∧
    ∀ packing nonce header body, packing.token = token → nonce.size = Envelope.nonceSize →
      encodeRequest packing nonce header body = .ok frame →
      ∃ content, Envelope.remove frame token = .ok content ∧
        Border decodeInner RequestHeader.read content.inner header body header.encode [] := by
  refine ⟨?_, ?_, ?_, ?_⟩
  · intro header body h
    obtain ⟨record, gap, hborder⟩ := decodes_response.exists_border h
    exact hborder.isBordered
  · intro header body h
    obtain ⟨content, hremove, hinner⟩ := exists_remove h
    obtain ⟨record, gap, hborder⟩ := decodes_inner.exists_border hinner
    refine ⟨content, hremove, hborder.isBordered, fun hp => ?_, fun hp length result hresult => ?_⟩
    · rw [Envelope.inner_of_plain hremove hp] at hborder
      have hplain :
          Border (decodeRequest · token) RequestHeader.read frame header body record gap :=
        hborder.congr fun length => decodeRequest_resized hremove hp length
      exact hplain.isBordered
    · obtain ⟨content', hremove', -⟩ := exists_remove hresult
      exact resized_of_remove hremove hp hremove'
  · intro header body h
    have hsegment : header.encode.length ≤ 0xffff := by simpa using (Frame.fits_of_build h).segment
    exact decodes_response.border_of_build rfl
      (ResponseHeader.read_inverts (h := header) (by omega)) h
  · rintro packing nonce header body rfl hn h
    obtain ⟨content, hremove, hplain⟩ := remove_request hn h
    have hsegment : header.encode.length ≤ 0xffff := by
      simpa using (Frame.fits_of_build hplain).segment
    exact ⟨content, hremove,
      decodes_inner.border_of_build trivial (RequestHeader.read_inverts (h := header) (by omega))
        hplain⟩

/-- The response header with nothing in it, and a body of one byte. -/
def shortResponse : ByteArray :=
  Bytes.ofList [0x48, 0, 1, 0, 0, 0, 0, 20, 0, 9, 0, 0, 0, 0, 0, 0, 0, 0, 0, 0xab]

/-- A header segment that is longer by one takes the body. -/
theorem header_border_longer : ∃ record gap,
    Border decodeResponse ResponseHeader.read (resized shortResponse 10) {} .empty record gap ∧
      record.length = 9 ∧ gap.length = 1 := by
  obtain ⟨hresponse, -⟩ := header_border (resized shortResponse 10) ""
  obtain ⟨record, gap, hborder, -⟩ := hresponse {} .empty rfl
  have hnine : record.length ≤ 9 := ((hborder.moves 9 ({}, Bytes.ofList [0xab])).1 rfl).1
  have hmore : ¬ record.length ≤ 8 := fun h => by
    have haccepted := (hborder.moves 8 _).2 ⟨h, by decide, rfl⟩
    cases haccepted
  have hlength : 10 = record.length + gap.length := hborder.length
  exact ⟨record, gap, hborder, by omega, by omega⟩

/-- The same of a request. -/
def shortRequest : ByteArray :=
  Bytes.ofList ([0x48, 0, 1, 0, 0, 0, 0, 25, 0, 14] ++ List.replicate 14 0 ++ [0xab])

/-- Both are accepted with two lengths of the header segment, and only with one of them they have a
body. -/
theorem body_swallowed :
    (decodeResponse shortResponse = .ok ({}, Bytes.ofList [0xab]) ∧
      decodeResponse (resized shortResponse 10) = .ok ({}, .empty)) ∧
    decodeRequest shortRequest "" = .ok ({}, Bytes.ofList [0xab]) ∧
      decodeRequest (resized shortRequest 15) "" = .ok ({}, .empty) := ⟨⟨rfl, rfl⟩, rfl, rfl⟩

end Message
end Courier

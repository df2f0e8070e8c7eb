import Courier.Proofs.Call.Written
import Courier.Proofs.Message.RoundTrip
import Courier.Proofs.Request.Signature

/-!
# Signed headers on the wire

A call writes its header with the time limit that it can promise and leaves the signature as it is.
So a signed header is still valid at the peer just if it has kept its limit: its caller has no
deadline, or has as much time left as the header says. Otherwise the signature is that of a text
which the header no longer has, and it is valid only if the two texts collide.
-/
namespace Courier
open Bytes (toList)

/-! ## Time limits -/

namespace Span

theorem ofMillis_eq (ms : Nat) : (ofMillis ms : Nat) = 1000000 * ms := rfl

theorem millis_eq (s : Nat) : millis s = s / 1000000 := rfl

theorem millis_ofMillis (ms : Nat) : millis (ofMillis ms) = ms := by
  rw [millis_eq, ofMillis_eq]
  omega

end Span

namespace TimeLimit

theorem toNat_wire (limit : Span) (bounded : Bool) : (wire limit bounded).toNat =
    if min limit.millis maxMillis = 0 ∧ bounded then 1 else min limit.millis maxMillis := by
  unfold wire
  dsimp only
  split
  · rfl
  · have hlt : min limit.millis maxMillis < UInt32.size := by
      have : maxMillis + 1 = UInt32.size := rfl
      omega
    exact Nat.mod_eq_of_lt hlt

theorem millis_effective (ms left : Nat) : (effective (Span.ofMillis ms) (some left)).millis =
    if ms = 0 then Span.millis left else min ms (Span.millis left) := by
  have h : (effective (Span.ofMillis ms) (some left) : Nat) =
      if (1000000 * ms : Nat) = 0 ∨ left < 1000000 * ms then left else 1000000 * ms := rfl
  rw [Span.millis_eq, h, Span.millis_eq]
  split <;> split <;> omega

end TimeLimit

/-- A header without a limit has a limit of no length. -/
theorem RequestHeader.getD_timeout (h : RequestHeader) :
    h.timeout.getD 0 = Span.ofMillis h.timeoutMillis.toNat := by
  unfold timeout TimeLimit.ofWire
  split
  next h0 =>
    rw [h0]
    rfl
  next => rfl

namespace Call

/-- The caller has no deadline, or has as much time left as the header says. Less than a millisecond
counts as one. -/
def KeepsLimit (h : RequestHeader) : Option Span → Prop
  | none => True
  | some left => h.timeoutMillis = 1 ∨ h.timeoutMillis ≠ 0 ∧ h.timeoutMillis.toNat ≤ left.millis

theorem timeoutMillis_wireHeader (h : RequestHeader) (remaining : Option Span) :
    (wireHeader h remaining).timeoutMillis = h.timeoutMillis ↔ KeepsLimit h remaining := by
  have hwire : (wireHeader h remaining).timeoutMillis.toNat = _ :=
    TimeLimit.toNat_wire (limit h remaining) remaining.isSome
  have hmax : h.timeoutMillis.toNat ≤ TimeLimit.maxMillis :=
    Nat.le_of_lt_succ h.timeoutMillis.toNat_lt
  have hone : h.timeoutMillis = 1 ↔ h.timeoutMillis.toNat = 1 := UInt32.toNat_inj.symm
  have hzero : h.timeoutMillis = 0 ↔ h.timeoutMillis.toNat = 0 := UInt32.toNat_inj.symm
  rw [limit, h.getD_timeout] at hwire
  rw [← UInt32.toNat_inj, hwire]
  cases remaining with
  | none =>
    simp only [TimeLimit.effective, Span.millis_ofMillis, KeepsLimit, Option.isSome_none,
      Bool.false_eq_true, and_false, if_false, iff_true]
    omega
  | some left =>
    rw [TimeLimit.millis_effective]
    simp only [KeepsLimit, Option.isSome_some, and_true, hone, ne_eq, hzero]
    split <;> split <;> omega

/-! ## Signatures -/

/-- The signed text is kept just if the limit is. -/
theorem signedText_wireHeader (h : RequestHeader) (remaining : Option Span) (secret : String) :
    (wireHeader h remaining).signedText secret = h.signedText secret ↔ KeepsLimit h remaining := by
  have hlengths : (((wireHeader h remaining).signedPieces secret).map String.length).eraseIdx 7 =
      ((h.signedPieces secret).map String.length).eraseIdx 7 := RequestHeader.lengths_of_set rfl
  rw [RequestHeader.signedText_eq_iff hlengths, ← timeoutMillis_wireHeader]
  constructor
  · exact congrArg RequestHeader.timeoutMillis
  · intro hlimit
    have hsame : { h with timeoutMillis := (wireHeader h remaining).timeoutMillis } = h := by
      rw [hlimit]
    exact congrArg RequestHeader.signedPart hsame

theorem verifies_wireHeader {h : RequestHeader} {secret : String} (hv : h.verifies secret = true)
    (remaining : Option Span) : (wireHeader h remaining).verifies secret = true ↔
      KeepsLimit h remaining ∨ Digest.Sha256.Collide
        ((wireHeader h remaining).signedText secret).toUTF8 (h.signedText secret).toUTF8 := by
  have hs : (wireHeader h remaining).sign = h.sign := rfl
  rw [RequestHeader.verifies_iff_of_sign hv hs, signedText_wireHeader]

/-! ## At the peer -/

/-- A call that has begun under a context has handed to sockets bytes among which its peer finds a
whole frame at the front. -/
inductive Writes {σ : Type} (client : Client σ) (query : Query) (c : Context) (now : Instant)
    (frame : ByteArray) : Prop
  | intro {call : Call σ} {nonce : ByteArray} {selected : Except Fault Node}
      {done done' : Option Done} {node : Node} {request : ByteArray} {ticket : Ticket}
      {trace : Trace} {x : Exchange} (hb : begin client query c now = .ok call)
      (hn : nonce.size = Envelope.nonceSize)
      (ho : (call.onward nonce selected done).1 = .exchange node request)
      (hp : Exchange.Path ⟨ticket, node.address, request⟩ (.begin done') trace x)
      (hw : Frame.IsWhole frame) (hf : toList frame <+: trace.handed) :
      Writes client query c now frame

theorem Writes.decode {σ : Type} {client : Client σ} {query : Query} {c : Context} {now : Instant}
    {frame : ByteArray} (h : Writes client query c now frame) :
    Message.decodeRequest frame query.packing.token =
      .ok (wireHeader query.header (c.remaining now), query.body) := by
  obtain ⟨hb, hn, ho, hp, hw, hf⟩ := h
  obtain ⟨rfl, hheader⟩ := of_begin hb
  have hencode := encodeRequest_of_onward ho
  obtain rfl := hp.eq_request (Message.isWhole_of_encodeRequest hencode) hw hf
  rw [← hheader]
  exact Message.decodeRequest_encodeRequest hn hencode

/-- From what a call has written the peer obtains its header, with the limit that the call can
promise. If the header was validly signed for a secret, it is so at the peer just if it has kept its
limit, or if its text collides with the one that was signed. -/
theorem signed_header_on_wire {σ : Type} {client : Client σ} {query : Query} {c : Context}
    {now : Instant} {frame : ByteArray} {secret : String} (h : Writes client query c now frame)
    (hv : query.header.verifies secret = true) :
    ∃ header, Message.decodeRequest frame query.packing.token = .ok (header, query.body) ∧
      (header.verifies secret = true ↔ KeepsLimit query.header (c.remaining now) ∨
        Digest.Sha256.Collide (header.signedText secret).toUTF8
          (query.header.signedText secret).toUTF8) :=
  ⟨_, h.decode, verifies_wireHeader hv _⟩

/-- A call to one address can write its request. -/
theorem exists_writes (header : RequestHeader) (c : Context)
    (hh : (wireHeader header (c.remaining 0)).encode.length ≤ 0xffff) :
    ∃ frame, Writes oneClient { header, body := .empty } c 0 frame := by
  let nonce := Bytes.replicate Envelope.nonceSize 0
  have hn : nonce.size = Envelope.nonceSize := rfl
  have hroom : Frame.headSize + (wireHeader header (c.remaining 0)).encode.length +
      ByteArray.empty.size + Envelope.overhead .plain ≤ Frame.maxSize := by
    simp only [Envelope.overhead, Frame.headSize, Frame.maxSize, ByteArray.size_empty]
    omega
  obtain ⟨request, hrequest⟩ : ∃ request, Message.encodeRequest {} nonce
      (wireHeader header (c.remaining 0)) .empty = .ok request :=
    Message.exists_encodeRequest hn hh hroom
  let call : Call Unit :=
    { client := oneClient, query := { header, body := .empty }, selector := ()
      endpoint := "10.0.0.1:80"
      header := wireHeader header (c.remaining 0)
      context := limitContext c 0 (limit header (c.remaining 0)), start := 0 }
  have hb : begin oneClient { header, body := .empty } c 0 = .ok call := rfl
  have hcall : call.request nonce = (.ok request, []) := congrArg (·, []) hrequest
  have ho : (call.onward nonce (.ok { address := "10.0.0.1:80" }) none).1 =
      .exchange { address := "10.0.0.1:80" } request := by
    simp [onward, judgeNode, hcall]
  have hw := Message.isWhole_of_encodeRequest hrequest
  obtain ⟨trace, x, hp, hhanded⟩ := Exchange.exists_path_written 0 "10.0.0.1:80"
    (Nat.lt_of_lt_of_le (by decide) hw.head)
  exact ⟨request, .intro hb hn ho hp hw (hhanded ▸ List.prefix_refl _)⟩

/-- A limit of a second is kept by a caller with just a second left. -/
theorem signed_header_on_wire_kept : ∃ frame,
    Writes oneClient { header := .signedSecond, body := .empty } ⟨some 1000000000, []⟩ 0 frame ∧
    RequestHeader.signedSecond.verifies "s" = true ∧
    ∃ header, Message.decodeRequest frame "" = .ok (header, .empty) ∧
    header.verifies "s" = true := by
  have hv : RequestHeader.signedSecond.verifies "s" = true := RequestHeader.verifies_signed _ "s"
  obtain ⟨frame, h⟩ := exists_writes .signedSecond ⟨some 1000000000, []⟩ (by decide +kernel)
  obtain ⟨header, hd, hverifies⟩ := signed_header_on_wire h hv
  exact ⟨frame, h, hv, header, hd, hverifies.2 (.inl (.inr ⟨by decide, by decide⟩))⟩

/-- A limit of a second is brought down to what a caller with 50 milliseconds has left, and the
signature is not valid any more. -/
theorem verifies_shortened : ∃ frame,
    Writes oneClient { header := .signedSecond, body := .empty } ⟨some 50000000, []⟩ 0 frame ∧
    RequestHeader.signedSecond.verifies "s" = true ∧
    ∃ header, Message.decodeRequest frame "" = .ok (header, .empty) ∧ header.timeoutMillis = 50 ∧
      header.verifies "s" = false := by
  have hv : RequestHeader.signedSecond.verifies "s" = true := RequestHeader.verifies_signed _ "s"
  obtain ⟨frame, h⟩ := exists_writes .signedSecond ⟨some 50000000, []⟩ (by decide +kernel)
  exact ⟨frame, h, hv, _, h.decode, by decide +kernel, by decide +kernel⟩

end Call

end Courier

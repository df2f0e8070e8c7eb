import Courier.Proofs.Frame.Inverse
import Courier.Proofs.Frame.Stream

/-!
# Reading is parsing the flat stream

Reads one after the other take a stream apart as `parse` does with all its bytes: a head whose
length is refused costs ten bytes, a frame its length, and the end of the stream inside a frame all
that is left. What is read is a whole frame, so its length is never a reason not to take it apart.
-/
namespace Courier.Frame
open Bytes (toList)

variable {limit : Nat} {stream : List UInt8} {f : ByteArray}

/-- What is parsed is a whole frame within the limit. -/
theorem isWhole_of_parse (h : (parse limit stream).1 = .ok f) : IsWhole f ∧ f.size ≤ limit := by
  unfold parse at h
  dsimp only at h
  split at h
  · cases h
  · split at h
    · cases h
    · split at h
      · cases h
      · split at h
        · cases h
        next hshort hlow hhigh hcut =>
          cases h
          have hsize : (Bytes.ofList (stream.take (lengthOf stream))).size = lengthOf stream := by
            simp
            omega
          have hwhole : toList (Bytes.ofList (stream.take (lengthOf stream))) ++
              stream.drop (lengthOf stream) = stream := List.take_append_drop _ _
          have hhead : headSize ≤ (Bytes.ofList (stream.take (lengthOf stream))).size := by omega
          have hlength := lengthOf_append hhead (stream.drop (lengthOf stream))
          rw [hwhole] at hlength
          exact ⟨⟨hhead, by omega⟩, by omega⟩

theorem isWhole_of_mem_parseMany {n : Nat} (h : .ok f ∈ (parseMany limit n stream).1) :
    IsWhole f ∧ f.size ≤ limit := by
  induction n generalizing stream with
  | zero => simp [parseMany] at h
  | succ n ih =>
    rw [parseMany] at h
    rcases List.mem_cons.1 h with h | h
    · exact isWhole_of_parse h.symm
    · exact ih h

/-- The fault of a buffer that is not as long as its head says. -/
def lengthMismatch (declared actual : Nat) : Fault :=
  .decode ("total len " ++ toString declared ++ " is not actual buf len " ++ toString actual)

/-- Texts that begin with other characters are the reasons of other faults. -/
theorem decode_ne {a b : String} (h : a.toList.head? ≠ b.toList.head?) :
    Fault.decode a ≠ .decode b := by
  intro he
  rw [Fault.decode.inj he] at h
  exact h rfl

theorem extract_ne_lengthMismatch (buf : ByteArray) (m n : Nat) :
    FrameHead.extract buf ≠ .error (lengthMismatch m n) := by
  unfold FrameHead.extract lengthMismatch
  intro h
  split at h
  · exact decode_ne (by simp) (Except.error.inj h)
  · split at h
    · exact decode_ne (by simp) (Except.error.inj h)
    · split at h
      · exact decode_ne (by simp) (Except.error.inj h)
      · cases h

/-- The length of a whole frame is no reason not to take it apart. -/
theorem split_ne_lengthMismatch (hw : IsWhole f) (m n : Nat) :
    Frame.split f ≠ .error (lengthMismatch m n) := by
  intro h
  unfold Frame.split at h
  split at h
  next e he =>
    cases h
    exact extract_ne_lengthMismatch f m n he
  next head hhead =>
    have htotal : head.totalLength.toNat = f.size := by
      rw [← (FrameHead.extract_eq_ok_iff.1 hhead).total]
      exact hw.length
    dsimp only at h
    rw [if_neg (not_not_intro htotal)] at h
    unfold lengthMismatch at h
    split at h
    · exact decode_ne (by simp) (Except.error.inj h)
    · split at h
      · exact decode_ne (by simp) (Except.error.inj h)
      · cases h

/-- However a stream delivers its bytes, reads one after the other come to what parsing all of them
comes to, and leave what that leaves. Each frame that is read is as long as it says, and within the
limit. -/
theorem reads_flat_stream (limit n : Nat) {ds : List Delivery} (hq : ∀ d ∈ ds, d.IsSmooth) :
    readMany limit n ds = (parseMany limit n (content ds)).1 ∧
    content (unread limit n ds) = (parseMany limit n (content ds)).2 ∧
    ∀ f, .ok f ∈ readMany limit n ds →
      Bytes.bigEndian (((toList f).drop 4).take 4) = f.size ∧ headSize ≤ f.size ∧ f.size ≤ limit ∧
      ∀ declared actual, Frame.split f ≠ .error (lengthMismatch declared actual) := by
  obtain ⟨hread, hleft⟩ := Prod.mk.inj (readMany_eq_parseMany limit n hq)
  refine ⟨hread, hleft, fun f hf => ?_⟩
  rw [hread] at hf
  obtain ⟨hw, hl⟩ := isWhole_of_mem_parseMany hf
  have hhead : 10 ≤ f.size := hw.head
  refine ⟨?_, hw.head, hl, split_ne_lengthMismatch hw⟩
  rw [← Bytes.toNat_uint32At (by omega)]
  exact hw.length

/-- The stream delivers a head that says nine bytes, a frame of twelve and the front of another one,
in pieces that do not end where these do, with waits between them. -/
def raggedDeliveries : List Delivery :=
  [.bytes (Bytes.ofList [0, 0, 0, 0, 0, 0, 0, 9, 0, 0, 1]), .pending,
   .bytes (Bytes.ofList [1, 1, 1, 0, 0, 0]),
   .bytes (Bytes.ofList [12, 2, 2, 7, 8, 5, 5, 5]), .pending]

theorem reads_flat_stream_ragged :
    (∀ d ∈ raggedDeliveries, d.IsSmooth) ∧
    readMany 12 3 raggedDeliveries =
      [.error (.decode "frame total len 9 shorter than frame head len 10"),
       .ok (Bytes.ofList [1, 1, 1, 1, 0, 0, 0, 12, 2, 2, 7, 8]), .error (.io .earlyEnd)] ∧
    content (unread 12 3 raggedDeliveries) = [] := by
  have hq : ∀ d ∈ raggedDeliveries, d.IsSmooth := by simp [raggedDeliveries, Delivery.IsSmooth]
  obtain ⟨hread, hleft, -⟩ := reads_flat_stream 12 3 hq
  exact ⟨hq, hread.trans (by rfl), hleft.trans (by rfl)⟩

end Courier.Frame

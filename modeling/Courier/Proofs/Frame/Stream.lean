import Courier.Proofs.Frame.Words

/-!
# Frames on a stream

What a reader makes of a stream depends on the bytes of the stream only, and not on the pieces in
which they are delivered: it is what `parse` makes of all the bytes at once. The invariant of a
reader in the middle of a frame is that it lacks a part of the head, or that it has accepted the
length in the head and lacks a part of so many bytes. Whole frames that are written back to back are
read back one by one, with nothing left over.
-/
namespace Courier.Frame
open Bytes (toList)

namespace Delivery

/-- The bytes that a delivery adds to the stream. -/
def payload : Delivery → List UInt8
  | .bytes piece => toList piece
  | .pending | .fails _ => []

/-- A stream that reads again where it was interrupted reports no failure. -/
def IsSmooth : Delivery → Prop
  | .fails e => e.kind = .interrupted
  | .bytes _ | .pending => True

/-- Some bytes, or nothing yet. -/
def IsPlain : Delivery → Prop
  | .bytes piece => piece.size ≠ 0
  | .pending => True
  | .fails _ => False

theorem isPlain_of_isHeard {d : Delivery} (hs : d.IsSmooth) (hh : d.isHeard = true) :
    d.IsPlain := by
  cases d with
  | bytes piece => simpa [isHeard, IsPlain] using hh
  | pending => trivial
  | fails e => simp [isHeard, show e.kind = .interrupted from hs] at hh

theorem payload_of_not_isHeard {d : Delivery} (hh : d.isHeard = false) : d.payload = [] := by
  cases d with
  | bytes piece =>
    have hsize : piece.size = 0 := by simpa [isHeard] using hh
    have hlength : (toList piece).length = 0 := by simp [hsize]
    exact List.length_eq_zero_iff.1 hlength
  | pending => rfl
  | fails e => rfl

theorem forall_leave {P : Delivery → Prop} {left : ByteArray} {rest : List Delivery}
    (hleft : left.size ≠ 0 → P (.bytes left)) (hrest : ∀ d ∈ rest, P d) :
    ∀ d ∈ leave left rest, P d := by
  unfold leave
  split
  · exact hrest
  next h => exact List.forall_mem_cons.2 ⟨hleft h, hrest⟩

end Delivery

/-- All bytes of a stream. -/
def content (ds : List Delivery) : List UInt8 := ds.flatMap Delivery.payload

@[simp] theorem content_nil : content [] = [] := rfl

@[simp] theorem content_cons (d : Delivery) (ds : List Delivery) :
    content (d :: ds) = d.payload ++ content ds := List.flatMap_cons

/-- What a stream does not deliver has no bytes. -/
@[simp] theorem content_filter (ds : List Delivery) :
    content (ds.filter Delivery.isHeard) = content ds := by
  induction ds with
  | nil => rfl
  | cons d ds ih =>
    rw [List.filter_cons]
    split
    · rw [content_cons, content_cons, ih]
    next h =>
      have hh : d.isHeard = false := by simpa using h
      rw [content_cons, Delivery.payload_of_not_isHeard hh, ih]
      rfl

@[simp] theorem content_leave (left : ByteArray) (rest : List Delivery) :
    content (Delivery.leave left rest) = toList left ++ content rest := by
  unfold Delivery.leave
  split
  next h =>
    have hlength : (toList left).length = 0 := by simp [h]
    rw [List.length_eq_zero_iff.1 hlength]
    rfl
  · rfl

/-- The deliveries that are left when `n` frames have been read. -/
def unread (limit : Nat) : Nat → List Delivery → List Delivery
  | 0, ds => ds
  | n + 1, ds => unread limit n ((Reader.start limit).read ds).2

/-! ## The bytes all at once -/

/-- The total length that the first bytes of a stream say. -/
def lengthOf (stream : List UInt8) : Nat := Bytes.bigEndian ((stream.drop 4).take 4)

/-- What reading one frame from the bytes of a stream comes to, and the bytes that are left then. -/
def parse (limit : Nat) (stream : List UInt8) : Except Fault ByteArray × List UInt8 :=
  let total := lengthOf stream
  if stream.length < headSize then (.error (.io .earlyEnd), [])
  else if total < headSize then
    (.error (.decode ("frame total len " ++ toString total ++ " shorter than frame head len " ++
      toString headSize)), stream.drop headSize)
  else if limit < total then
    (.error (.decode ("frame too large: " ++ toString total ++ " bytes (max " ++ toString limit ++
      " bytes)")), stream.drop headSize)
  else if stream.length < total then (.error (.io .earlyEnd), [])
  else (.ok (Bytes.ofList (stream.take total)), stream.drop total)

/-- What `n` reads one after the other come to, and the bytes that are left then. -/
def parseMany (limit : Nat) : Nat → List UInt8 → List (Except Fault ByteArray) × List UInt8
  | 0, stream => ([], stream)
  | n + 1, stream =>
    let first := parse limit stream
    let others := parseMany limit n first.2
    (first.1 :: others.1, others.2)

variable {limit : Nat} {stream rest : List UInt8} {f : ByteArray}

theorem lengthOf_append {got : ByteArray} (h : headSize ≤ got.size) (rest : List UInt8) :
    lengthOf (toList got ++ rest) = Reader.declared got := by
  have h8 : 4 + 4 ≤ got.size := by unfold headSize at h; omega
  have hl : (toList got).length = got.size := by simp
  rw [Reader.declared, Bytes.toNat_uint32At h8, lengthOf, List.drop_append_of_le_length (by omega),
    List.take_append_of_le_length (by simp; omega)]

theorem parse_of_refused {e : Fault} (hs : headSize ≤ stream.length)
    (hc : Reader.checkLength limit (lengthOf stream) = .error e) :
    parse limit stream = (.error e, stream.drop headSize) := by
  unfold Reader.checkLength at hc
  rw [parse, if_neg (by omega)]
  split at hc
  next h =>
    cases hc
    rw [if_pos h]
  next h =>
    split at hc
    next h' =>
      cases hc
      rw [if_neg h, if_pos h']
    next => cases hc

theorem parse_of_cut (h : headSize ≤ stream.length →
    Reader.checkLength limit (lengthOf stream) = .ok () ∧ stream.length < lengthOf stream) :
    parse limit stream = (.error (.io .earlyEnd), []) := by
  by_cases hs : stream.length < headSize
  · rw [parse, if_pos hs]
  · obtain ⟨hc, hl⟩ := h (by omega)
    have := Reader.checkLength_ok hc
    rw [parse, if_neg hs, if_neg (by omega), if_neg (by omega), if_pos hl]

theorem parse_of_whole (hw : IsWhole f) (hl : f.size ≤ limit) :
    parse limit (toList f ++ rest) = (.ok f, rest) := by
  have hh := hw.head
  have hd : lengthOf (toList f ++ rest) = f.size := (lengthOf_append hh rest).trans hw.length
  have hn : (toList f).length = f.size := by simp
  rw [parse, hd, if_neg (by simp; omega), if_neg (by omega), if_neg (by omega), if_neg (by simp),
    ← hn, List.take_left, List.drop_left, Bytes.ofList_toList]

/-! ## The bytes in pieces -/

namespace Reader

/-- The reader needs more bytes: of a head, or of a frame whose length it has accepted. -/
def Waits (r : Reader) : Prop :=
  headSize ≤ r.got.size → checkLength r.limit (declared r.got) = .ok () ∧
  r.got.size < declared r.got

theorem waits_start (limit : Nat) : (start limit).Waits := by
  intro h
  have h0 : (start limit).got.size = 0 := rfl
  unfold headSize at h
  omega

/-- What comes of a piece of the stream: a reader that has these bytes too, or a frame or a head
that is refused, and the bytes behind it. -/
inductive Takes (r : Reader) (piece : ByteArray) : Next × ByteArray → Prop
  | waits {r' : Reader} (hr : r'.Waits) (hl : r'.limit = r.limit)
      (hs : toList r'.got = toList r.got ++ toList piece) : Takes r piece (.more r', .empty)
  | ends {f left : ByteArray} (hw : IsWhole f) (hl : f.size ≤ r.limit)
      (hs : toList f ++ toList left = toList r.got ++ toList piece) : Takes r piece (.frame f, left)
  | refuses {head left : ByteArray} {e : Fault} (hh : head.size = headSize)
      (hc : checkLength r.limit (declared head) = .error e)
      (hs : toList head ++ toList left = toList r.got ++ toList piece) :
      Takes r piece (.fault e, left)

variable {r : Reader}

/-- It does not matter which of the bytes the reader has and which of them come. -/
theorem Takes.regroup {r' : Reader} {piece piece' : ByteArray} {fed : Next × ByteArray}
    (h : Takes r' piece' fed) (hl : r'.limit = r.limit)
    (hs : toList r'.got ++ toList piece' = toList r.got ++ toList piece) : Takes r piece fed := by
  cases h with
  | waits hr hl' hs' => exact .waits hr (hl'.trans hl) (hs'.trans hs)
  | ends hw hl' hs' => exact .ends hw (hl ▸ hl') (hs'.trans hs)
  | refuses hh hc hs' => exact .refuses hh (hl ▸ hc) (hs'.trans hs)

/-- The first bytes of a piece go to those that the reader has, and the others stay. -/
theorem toList_taken (got piece : ByteArray) (n : Nat) :
    toList (got ++ piece.extract 0 n) ++ toList (piece.extract n piece.size) =
      toList got ++ toList piece := by
  simp [List.take_of_length_le]

theorem toList_taken_all {got piece : ByteArray} {n : Nat} (h : piece.size ≤ n) :
    toList (got ++ piece.extract 0 n) = toList got ++ toList piece := by
  have : (toList piece).length ≤ n := by simpa using h
  simp [List.take_of_length_le this]

theorem size_taken (got : ByteArray) {piece : ByteArray} {n : Nat} (h : n ≤ piece.size) :
    (got ++ piece.extract 0 n).size = got.size + n := by
  simp
  omega

theorem size_taken_all (got : ByteArray) {piece : ByteArray} {n : Nat} (h : piece.size ≤ n) :
    (got ++ piece.extract 0 n).size = got.size + piece.size := by
  simp
  omega

theorem takes_rest (hh : headSize ≤ r.got.size) (hc : checkLength r.limit (declared r.got) = .ok ())
    (hle : r.got.size ≤ declared r.got) (piece : ByteArray) : Takes r piece (r.feedRest piece) := by
  unfold feedRest
  dsimp only
  generalize hn : declared r.got - r.got.size = n
  have hfront : toList r.got <+: toList (r.got ++ piece.extract 0 n) :=
    ⟨_, (Bytes.toList_append _ _).symm⟩
  have hgot := declared_of_prefix hfront hh
  split
  next hp =>
    have hsize := size_taken_all r.got (Nat.le_of_lt hp)
    refine .waits (fun _ => ⟨?_, ?_⟩) rfl (toList_taken_all (Nat.le_of_lt hp))
    · rw [← hgot]
      exact hc
    · dsimp only
      omega
  next hp =>
    have hsize := size_taken r.got (Nat.le_of_not_lt hp)
    have := checkLength_ok hc
    exact .ends ⟨by omega, by omega⟩ (by omega) (toList_taken _ _ _)

/-- A reader that waits takes the next piece of the stream. -/
theorem takes (h : r.Waits) (piece : ByteArray) : Takes r piece (r.feed piece) := by
  unfold feed
  dsimp only
  split
  next hg =>
    generalize hn : headSize - r.got.size = n
    split
    next hp =>
      have hsize := size_taken_all r.got (Nat.le_of_lt hp)
      refine .waits (fun hh => ?_) rfl (toList_taken_all (Nat.le_of_lt hp))
      dsimp only at hh
      omega
    next hp =>
      have hsize := size_taken r.got (Nat.le_of_not_lt hp)
      have hs := toList_taken r.got piece n
      split
      next e hc => exact .refuses (by omega) hc hs
      next hc =>
        have := checkLength_ok hc
        have hrest := takes_rest (r := { r with got := r.got ++ piece.extract 0 n })
          (by dsimp only; omega) hc (by dsimp only; omega) (piece.extract n piece.size)
        exact hrest.regroup (r := r) rfl hs
  next hg =>
    obtain ⟨hc, hl⟩ := h (by omega)
    exact takes_rest (by omega) hc (by omega) piece

/-- A reader in the middle of a frame does with the pieces of a stream what is done with all
bytes. -/
theorem run_eq_parse {ds : List Delivery} (hr : r.Waits) (hq : ∀ d ∈ ds, d.IsPlain) :
    ∃ ds', (∀ d ∈ ds', d.IsPlain) ∧
      content ds' = (parse r.limit (toList r.got ++ content ds)).2 ∧
      r.run ds = ((parse r.limit (toList r.got ++ content ds)).1, ds') := by
  induction ds generalizing r with
  | nil =>
    have hcut : parse r.limit (toList r.got ++ content []) = (.error (.io .earlyEnd), []) := by
      refine parse_of_cut fun hs => ?_
      have hh : headSize ≤ r.got.size := by simpa using hs
      rw [lengthOf_append hh]
      simpa using hr hh
    rw [hcut]
    exact ⟨[], by simp, rfl, rfl⟩
  | cons d ds ih =>
    obtain ⟨hd, hds⟩ := List.forall_mem_cons.1 hq
    cases d with
    | pending => exact ih hr hds
    | fails e => exact hd.elim
    | bytes piece =>
      have htakes := takes hr piece
      have hsize : piece.size ≠ 0 := hd
      rw [run, if_neg hsize, content_cons, Delivery.payload, ← List.append_assoc]
      generalize r.feed piece = fed at htakes
      cases htakes with
      | waits hr' hl hs =>
        rw [← hs, ← hl]
        exact ih hr' hds
      | @ends f left hw hl hs =>
        rw [← hs, List.append_assoc, parse_of_whole hw hl]
        exact ⟨Delivery.leave left ds, Delivery.forall_leave id hds, content_leave left ds, rfl⟩
      | @refuses head left e hh hc hs =>
        have hsize : (toList head).length = headSize := by simp [hh]
        have hrefused : parse r.limit (toList head ++ (toList left ++ content ds)) =
            (.error e, toList left ++ content ds) := by
          rw [parse_of_refused (by simp [hh]) (by rwa [lengthOf_append (Nat.le_of_eq hh.symm)]),
            ← hsize, List.drop_left]
        rw [← hs, List.append_assoc, hrefused]
        exact ⟨Delivery.leave left ds, Delivery.forall_leave id hds, content_leave left ds, rfl⟩

/-- A reader does with what a stream delivers what is done with all bytes. -/
theorem read_eq_parse {ds : List Delivery} (limit : Nat) (hq : ∀ d ∈ ds, d.IsSmooth) :
    ∃ ds', (∀ d ∈ ds', d.IsSmooth) ∧ content ds' = (parse limit (content ds)).2 ∧
      (start limit).read ds = ((parse limit (content ds)).1, ds') := by
  have hplain : ∀ d ∈ ds.filter Delivery.isHeard, d.IsPlain := by
    intro d hd
    obtain ⟨hmem, hheard⟩ := List.mem_filter.1 hd
    exact Delivery.isPlain_of_isHeard (hq d hmem) hheard
  obtain ⟨ds', hplain', hcontent, hrun⟩ := run_eq_parse (waits_start limit) hplain
  rw [content_filter] at hcontent hrun
  refine ⟨ds', fun d hd => ?_, hcontent, hrun⟩
  have h := hplain' d hd
  cases d with
  | fails e => exact h.elim
  | bytes | pending => trivial

end Reader

/-- Reads of a stream depend on its bytes only, and so does what they leave of it. -/
theorem readMany_eq_parseMany (limit n : Nat) {ds : List Delivery} (hq : ∀ d ∈ ds, d.IsSmooth) :
    (readMany limit n ds, content (unread limit n ds)) = parseMany limit n (content ds) := by
  induction n generalizing ds with
  | zero => rfl
  | succ n ih =>
    obtain ⟨ds', hq', hcontent, hread⟩ := Reader.read_eq_parse limit hq
    rw [readMany, unread, parseMany, hread]
    dsimp only
    rw [← hcontent, ← ih hq']

theorem parseMany_frames {frames : List ByteArray} (hw : ∀ f ∈ frames, IsWhole f ∧ f.size ≤ limit) :
    parseMany limit frames.length (frames.flatMap toList ++ rest) = (frames.map .ok, rest) := by
  induction frames with
  | nil => rfl
  | cons f frames ih =>
    obtain ⟨⟨hf, hl⟩, hw⟩ := List.forall_mem_cons.1 hw
    simp only [List.length_cons, List.flatMap_cons, List.append_assoc, parseMany, List.map_cons,
      parse_of_whole hf hl, ih hw]

/-- Frames that stand back to back on a stream are read back, and nothing of them is left. -/
theorem readMany_content {frames : List ByteArray} {ds : List Delivery}
    {tail : List UInt8} (hw : ∀ f ∈ frames, IsWhole f ∧ f.size ≤ limit) (hq : ∀ d ∈ ds, d.IsSmooth)
    (hs : content ds = frames.flatMap toList ++ tail) :
    readMany limit frames.length ds = frames.map .ok ∧
      content (unread limit frames.length ds) = tail := by
  have hreads := readMany_eq_parseMany limit frames.length hq
  rw [hs, parseMany_frames hw] at hreads
  exact Prod.mk.inj hreads

end Courier.Frame

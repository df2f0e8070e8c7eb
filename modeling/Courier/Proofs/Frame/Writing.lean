import Courier.Network.Link
import Courier.Proofs.Frame.Whole

/-!
# Writing against every stream

A stream answers the offers of a writer as it likes: it takes a part, it takes nothing, or it fails.
It is asked at most once for each byte, each offer is just what it has not taken yet, and what it
takes is a front part of the bytes. All ends well just if its parts come to the whole before it
takes nothing or fails, and the flush succeeds; any fault is one of the write. The loop at a link is
a run against the answers of that link.
-/
namespace Courier.Frame
open Bytes (toList)

namespace Reception

/-- The part of an offer that is taken. -/
def part (offer : ByteArray) : Reception → ByteArray
  | took n => offer.extract 0 n
  | failed _ => .empty

/-- No more is taken than was offered. -/
def Fits (offer : ByteArray) : Reception → Prop
  | took n => n ≤ offer.size
  | failed _ => True

instance (offer : ByteArray) (a : Reception) : Decidable (a.Fits offer) :=
  match a with
  | took n => inferInstanceAs (Decidable (n ≤ offer.size))
  | failed _ => inferInstanceAs (Decidable True)

end Reception

/-- Answers begin with parts that come to `n` bytes, none of them empty, and go on with the rest. -/
inductive Accepts : List Reception → Nat → List Reception → Prop
  | nothing (rest : List Reception) : Accepts rest 0 rest
  | more {answers rest : List Reception} {k n : Nat} (hk : 0 < k) (h : Accepts answers n rest) :
      Accepts (.took k :: answers) (k + n) rest

/-- Answers that go on with no part: there are none, or the next one takes nothing or fails. -/
inductive Stops : List Reception → Prop
  | silent : Stops []
  | empty (rest : List Reception) : Stops (.took 0 :: rest)
  | failed (e : IoError) (rest : List Reception) : Stops (.failed e :: rest)

namespace Writer
variable {w w' : Writer} {a : Reception} {f : Fault} {flushed : Option IoError}
  {answers rest : List Reception} {n : Nat}

/-- The offers of a run with their answers. -/
def dialogue (w : Writer) : List Reception → List (ByteArray × Reception)
  | [] => []
  | a :: rest =>
    if w.isComplete then []
    else
      match w.feed a with
      | .ok w' => (w.offer, a) :: w'.dialogue rest
      | .error _ => [(w.offer, a)]

/-- The bytes that are taken in the course of it. -/
def accepted (d : List (ByteArray × Reception)) : List UInt8 :=
  d.flatMap fun p => toList (p.2.part p.1)

namespace Run

def writer : Run → Writer
  | waiting w | ended w _ => w

/-- The run of a writer that has a result, or none yet. -/
def of (w : Writer) : Option (Except Fault Unit) → Run
  | none => waiting w
  | some r => ended w r

end Run

/-! ## One answer -/

theorem isComplete_iff : w.isComplete = true ↔ w.left = 0 := by
  simp [isComplete, left, Nat.sub_eq_zero_iff_le]

theorem isComplete_eq_false_iff : w.isComplete = false ↔ 0 < w.left := by
  rw [Nat.pos_iff_ne_zero, Bool.eq_false_iff, Ne, isComplete_iff]

theorem size_offer : w.offer.size = w.left := by
  simp [offer, left]

theorem taken_offer : toList w.taken ++ toList w.offer = toList w.buf := by
  simp [taken, offer, List.take_of_length_le]

/-- An answer that lets the writer go on takes something. -/
theorem exists_of_feed (h : w.feed a = .ok w') :
    ∃ n, a = .took n ∧ 0 < n ∧ w' = { w with sent := w.sent + min n w.left } := by
  unfold feed at h
  split at h
  · cases h
  · split at h
    · cases h
    next n hn =>
      cases h
      exact ⟨n, rfl, Nat.pos_of_ne_zero hn, rfl⟩

theorem left_feed (hw : w.isComplete = false) (h : w.feed a = .ok w') : w'.left < w.left := by
  obtain ⟨n, rfl, hn, rfl⟩ := exists_of_feed h
  have hleft := isComplete_eq_false_iff.1 hw
  simp only [left] at hleft ⊢
  omega

theorem taken_feed (h : w.feed a = .ok w') :
    w'.buf = w.buf ∧ toList w'.taken = toList w.taken ++ toList (a.part w.offer) := by
  obtain ⟨n, rfl, -, -⟩ := exists_of_feed h
  exact feed_took h

/-- An answer that ends the run takes nothing. -/
theorem cases_of_feed (h : w.feed a = .error f) :
    (a = .took 0 ∧ ∃ why, f = .network .write why) ∨
      ∃ e, a = .failed e ∧ f = .ofIo e .write "write frame" := by
  unfold feed at h
  split at h
  next e =>
    cases h
    exact .inr ⟨e, rfl, rfl⟩
  next n =>
    split at h
    next hn =>
      cases h
      exact .inl ⟨congrArg _ hn, _, rfl⟩
    next => cases h

theorem part_of_feed (h : w.feed a = .error f) : toList (a.part w.offer) = [] := by
  obtain ⟨rfl, -⟩ | ⟨e, rfl, -⟩ := cases_of_feed h
  · simp [Reception.part]
  · rfl

theorem stops_of_feed (h : w.feed a = .error f) : Stops (a :: rest) := by
  obtain ⟨rfl, -⟩ | ⟨e, rfl, -⟩ := cases_of_feed h
  · exact .empty rest
  · exact .failed e rest

/-- A network fault or a timeout, and one of the write. -/
def IsOfWrite (f : Fault) : Prop :=
  (∃ why, f = .network .write why) ∨ ∃ why, f = .timeout .write why

theorem isOfWrite_feed (h : w.feed a = .error f) : IsOfWrite f := by
  obtain ⟨-, hf⟩ | ⟨e, -, rfl⟩ := cases_of_feed h
  · exact .inl hf
  · exact Fault.ofIo_cases e .write _

theorem isOfWrite_flush (h : flush flushed = .error f) : IsOfWrite f := by
  cases flushed with
  | none => cases h
  | some e =>
    cases h
    exact Fault.ofIo_cases _ _ _

/-! ## Runs -/

theorem run_of_isComplete (h : w.isComplete = true) :
    w.run flushed answers = .ended w (flush flushed) := by
  cases answers <;> simp [run, h]

theorem dialogue_of_isComplete (h : w.isComplete = true) : w.dialogue answers = [] := by
  cases answers <;> simp [dialogue, h]

section Cons
variable (hw : w.isComplete = false)
include hw

theorem run_nil : w.run flushed [] = .waiting w := by simp [run, hw]

theorem run_cons_ok (ha : w.feed a = .ok w') : w.run flushed (a :: rest) = w'.run flushed rest := by
  simp [run, hw, ha]

theorem run_cons_error (ha : w.feed a = .error f) :
    w.run flushed (a :: rest) = .ended w (.error f) := by
  simp [run, hw, ha]

theorem dialogue_cons_ok (ha : w.feed a = .ok w') :
    w.dialogue (a :: rest) = (w.offer, a) :: w'.dialogue rest := by
  simp [dialogue, hw, ha]

theorem dialogue_cons_error (ha : w.feed a = .error f) :
    w.dialogue (a :: rest) = [(w.offer, a)] := by
  simp [dialogue, hw, ha]

end Cons

/-- The cases of a run: the writer is complete, it waits, its offer comes to a fault, or it goes
on. -/
@[elab_as_elim]
theorem run_induction {motive : Writer → List Reception → Prop}
    (complete : ∀ w answers, w.isComplete = true → motive w answers)
    (waiting : ∀ w, w.isComplete = false → motive w [])
    (fault : ∀ w a rest f, w.isComplete = false → w.feed a = .error f → motive w (a :: rest))
    (onward : ∀ w a rest w', w.isComplete = false → w.feed a = .ok w' → motive w' rest →
      motive w (a :: rest)) (w : Writer) (answers : List Reception) : motive w answers := by
  induction answers generalizing w with
  | nil =>
    cases hw : w.isComplete with
    | true => exact complete w [] hw
    | false => exact waiting w hw
  | cons a rest ih =>
    cases hw : w.isComplete with
    | true => exact complete w (a :: rest) hw
    | false =>
      cases ha : w.feed a with
      | error f => exact fault w a rest f hw ha
      | ok w' => exact onward w a rest w' hw ha (ih w')

/-! ## It ends -/

variable (w answers) in
theorem length_dialogue_le : (w.dialogue answers).length ≤ w.left := by
  induction w, answers using run_induction with
  | complete w answers hw => simp [dialogue_of_isComplete hw]
  | waiting w hw => simp [dialogue]
  | fault w a rest f hw ha =>
    rw [dialogue_cons_error hw ha]
    exact isComplete_eq_false_iff.1 hw
  | onward w a rest w' hw ha ih =>
    rw [dialogue_cons_ok hw ha]
    exact Nat.lt_of_le_of_lt ih (left_feed hw ha)

theorem exists_ended (h : w.left ≤ answers.length) :
    ∃ w' r, w.run flushed answers = .ended w' r := by
  induction w, answers using run_induction with
  | complete w answers hw => exact ⟨w, _, run_of_isComplete hw⟩
  | waiting w hw => exact absurd (isComplete_eq_false_iff.1 hw) (Nat.not_lt.2 h)
  | fault w a rest f hw ha => exact ⟨w, _, run_cons_error hw ha⟩
  | onward w a rest w' hw ha ih =>
    rw [run_cons_ok hw ha]
    have hleft := left_feed hw ha
    exact ih (Nat.le_of_lt_succ (Nat.lt_of_lt_of_le hleft h))

/-! ## What is taken -/

variable (w answers flushed) in
/-- What the writer has noted as taken is what the stream has taken of its offers. -/
theorem taken_run :
    (w.run flushed answers).writer.buf = w.buf ∧
      toList (w.run flushed answers).writer.taken = toList w.taken ++
        accepted (w.dialogue answers) := by
  induction w, answers using run_induction with
  | complete w answers hw =>
    rw [run_of_isComplete hw, dialogue_of_isComplete hw]
    exact ⟨rfl, (List.append_nil _).symm⟩
  | waiting w hw =>
    rw [run_nil hw]
    exact ⟨rfl, (List.append_nil _).symm⟩
  | fault w a rest f hw ha =>
    rw [run_cons_error hw ha, dialogue_cons_error hw ha]
    simp [Run.writer, accepted, part_of_feed ha]
  | onward w a rest w' hw ha ih =>
    obtain ⟨hbuf, htaken⟩ := taken_feed ha
    rw [run_cons_ok hw ha, dialogue_cons_ok hw ha, ih.1, ih.2, hbuf, htaken]
    simp [accepted]

/-- Each offer is what the stream has not taken before. -/
theorem offer_of_dialogue {before after : List (ByteArray × Reception)} {offer : ByteArray}
    (h : w.dialogue answers = before ++ (offer, a) :: after) :
    toList w.taken ++ (accepted before ++ toList offer) = toList w.buf := by
  induction w, answers using run_induction generalizing before with
  | complete w answers hw => simp [dialogue_of_isComplete hw] at h
  | waiting w hw => simp [dialogue] at h
  | fault w a rest f hw ha =>
    rw [dialogue_cons_error hw ha] at h
    cases before with
    | nil =>
      cases h
      exact taken_offer
    | cons p before => simp at h
  | onward w a rest w' hw ha ih =>
    rw [dialogue_cons_ok hw ha] at h
    cases before with
    | nil =>
      obtain ⟨hfirst, -⟩ := List.cons.inj h
      rw [← (Prod.mk.inj hfirst).1]
      exact taken_offer
    | cons p before =>
      obtain ⟨rfl, hrest⟩ := List.cons.inj h
      obtain ⟨hbuf, htaken⟩ := taken_feed ha
      have hnext := ih hrest
      rw [hbuf, htaken, List.append_assoc] at hnext
      simpa [accepted] using hnext

/-! ## How it ends -/

theorem isComplete_of_run (h : w.run flushed answers = .ended w' (.ok ())) :
    w'.isComplete = true := by
  induction w, answers using run_induction with
  | complete w answers hw =>
    rw [run_of_isComplete hw] at h
    exact (Run.ended.inj h).1 ▸ hw
  | waiting w hw => simp [run_nil hw] at h
  | fault w a rest f hw ha => simp [run_cons_error hw ha] at h
  | onward w a rest w₁ hw ha ih => exact ih (run_cons_ok hw ha ▸ h)

theorem isOfWrite_of_run (h : w.run flushed answers = .ended w' (.error f)) : IsOfWrite f := by
  induction w, answers using run_induction with
  | complete w answers hw =>
    rw [run_of_isComplete hw] at h
    exact isOfWrite_flush (Run.ended.inj h).2
  | waiting w hw => simp [run_nil hw] at h
  | fault w a rest g hw ha =>
    rw [run_cons_error hw ha] at h
    cases h
    exact isOfWrite_feed ha
  | onward w a rest w₁ hw ha ih => exact ih (run_cons_ok hw ha ▸ h)

/-- The writer after a stream has taken so many bytes more. -/
def advance (w : Writer) (n : Nat) : Writer := { w with sent := w.sent + n }

theorem left_advance (w : Writer) (n : Nat) : (w.advance n).left = w.left - n := by
  simp [advance, left, Nat.sub_add_eq]

theorem feed_took_of_le (hn : 0 < n) (h : n ≤ w.left) : w.feed (.took n) = .ok (w.advance n) := by
  simp [feed, advance, Nat.ne_of_gt hn, Nat.min_eq_left h]

/-- Parts that are taken one after the other bring the writer on by their sum. -/
theorem run_accepts (h : Accepts answers n rest) (hn : n ≤ w.left) :
    w.run flushed answers = (w.advance n).run flushed rest := by
  induction h generalizing w with
  | nothing rest => rfl
  | @more answers rest k n hk h ih =>
    have hw : w.isComplete = false := isComplete_eq_false_iff.2 (by omega)
    rw [run_cons_ok hw (feed_took_of_le hk (by omega)), ih (by rw [left_advance]; omega)]
    simp [advance, Nat.add_assoc]

/-- The answers to a writer are parts that come to all that is left, or stop before. -/
theorem exists_accepts (h : ∀ p ∈ w.dialogue answers, p.2.Fits p.1) :
    ∃ n rest, Accepts answers n rest ∧ (n = w.left ∨ n < w.left ∧ Stops rest) := by
  induction w, answers using run_induction with
  | complete w answers hw => exact ⟨0, answers, .nothing answers, .inl (isComplete_iff.1 hw).symm⟩
  | waiting w hw => exact ⟨0, [], .nothing [], .inr ⟨isComplete_eq_false_iff.1 hw, .silent⟩⟩
  | fault w a rest f hw ha =>
    exact ⟨0, a :: rest, .nothing _, .inr ⟨isComplete_eq_false_iff.1 hw, stops_of_feed ha⟩⟩
  | onward w a rest w' hw ha ih =>
    rw [dialogue_cons_ok hw ha] at h
    obtain ⟨hfits, hmore⟩ := List.forall_mem_cons.1 h
    obtain ⟨k, rfl, hk, -⟩ := exists_of_feed ha
    have hle : k ≤ w.left := Nat.le_trans hfits (Nat.le_of_eq size_offer)
    obtain rfl : w.advance k = w' := Except.ok.inj ((feed_took_of_le hk hle).symm.trans ha)
    obtain ⟨n, rest', haccepts, hend⟩ := ih hmore
    rw [left_advance] at hend
    exact ⟨k + n, rest', .more hk haccepts, hend.imp (by omega) fun ⟨hlt, hstops⟩ =>
      ⟨by omega, hstops⟩⟩

theorem run_whole (h : Accepts answers w.left rest) :
    w.run flushed answers = .ended (w.advance w.left) (flush flushed) := by
  rw [run_accepts h (Nat.le_refl _)]
  exact run_of_isComplete (isComplete_iff.2 (by rw [left_advance, Nat.sub_self]))

theorem isComplete_advance (h : n < w.left) : (w.advance n).isComplete = false :=
  isComplete_eq_false_iff.2 (by rw [left_advance]; omega)

theorem run_empty (h : Accepts answers n (.took 0 :: rest)) (hn : n < w.left) :
    w.run flushed answers = .ended (w.advance n) (.error (.network .write
      ("write frame: zero bytes written, " ++ toString (w.sent + n) ++ " of " ++
        toString w.buf.size ++ " sent"))) := by
  rw [run_accepts h (Nat.le_of_lt hn)]
  exact run_cons_error (isComplete_advance hn) rfl

theorem run_failed {e : IoError} (h : Accepts answers n (.failed e :: rest)) (hn : n < w.left) :
    w.run flushed answers = .ended (w.advance n) (.error (.ofIo e .write "write frame")) := by
  rw [run_accepts h (Nat.le_of_lt hn)]
  exact run_cons_error (isComplete_advance hn) rfl

/-- Behind answers that stop early nothing is well. -/
theorem not_ok_of_stops (h : Accepts answers n rest) (hn : n < w.left) (hstops : Stops rest) :
    w.run flushed answers ≠ .ended w' (.ok ()) := by
  cases hstops with
  | silent =>
    rw [run_accepts h (Nat.le_of_lt hn), run_nil (isComplete_advance hn)]
    exact Run.noConfusion
  | empty rest => simp [run_empty h hn]
  | failed e rest => simp [run_failed h hn]

theorem run_ok_iff (hfits : ∀ p ∈ w.dialogue answers, p.2.Fits p.1) :
    (∃ w', w.run flushed answers = .ended w' (.ok ())) ↔
      flushed = none ∧ ∃ rest, Accepts answers w.left rest := by
  constructor
  · rintro ⟨w', hrun⟩
    obtain ⟨n, rest, h, rfl | ⟨hn, hstops⟩⟩ := exists_accepts hfits
    · rw [run_whole h] at hrun
      refine ⟨?_, rest, h⟩
      cases flushed with
      | none => rfl
      | some e => exact absurd (Run.ended.inj hrun).2 (by simp [flush])
    · exact absurd hrun (not_ok_of_stops h hn hstops)
  · rintro ⟨rfl, rest, h⟩
    exact ⟨_, run_whole h⟩

/-! ## The law of writing -/

theorem left_start (buf : ByteArray) : (start buf).left = buf.size := Nat.sub_zero _

theorem taken_start (buf : ByteArray) : toList (start buf).taken = [] := by simp [start, taken]

section Start
variable {buf : ByteArray}

/-- What is taken is a front part of the bytes. -/
theorem accepted_prefix : accepted ((start buf).dialogue answers) <+: toList buf := by
  obtain ⟨hbuf, htaken⟩ := taken_run (start buf) none answers
  rw [taken_start, List.nil_append] at htaken
  have hfront := taken_prefix ((start buf).run none answers).writer
  rwa [htaken, hbuf] at hfront

/-- If all is well, all bytes were taken. -/
theorem accepted_of_run (h : (start buf).run flushed answers = .ended w (.ok ())) :
    accepted ((start buf).dialogue answers) = toList buf := by
  obtain ⟨hbuf, htaken⟩ := taken_run (start buf) flushed answers
  rw [taken_start, List.nil_append, h] at htaken
  rw [h] at hbuf
  calc accepted ((start buf).dialogue answers)
    _ = toList w.taken := htaken.symm
    _ = toList w.buf := taken_of_isComplete (isComplete_of_run h)
    _ = toList buf := congrArg toList hbuf

theorem offer_of_dialogue_start {before after : List (ByteArray × Reception)} {offer : ByteArray}
    (h : (start buf).dialogue answers = before ++ (offer, a) :: after) :
    accepted before ++ toList offer = toList buf := by
  have hsplit := offer_of_dialogue h
  rwa [taken_start, List.nil_append] at hsplit

end Start

/-- Whatever parts of its offers a stream takes, it gets the bytes once and in order. It is asked no
more often than there are bytes, and after as many answers the writer has ended. All is well just if
the parts that it takes before it takes nothing or fails come to all bytes, and the flush succeeds.
Each offer is what is left behind the parts that were taken before; all that was taken is a front
part of the bytes, and if all is well it is the bytes. To take nothing, to fail and to fail in the
flush are faults of their own; each of them is a network fault or a timeout at the write, so that
the request counts as sent. -/
theorem sends_once_in_order (buf : ByteArray) (flushed : Option IoError) (answers : List Reception)
    (hfits : ∀ p ∈ (start buf).dialogue answers, p.2.Fits p.1) :
    ((start buf).dialogue answers).length ≤ buf.size ∧
    (buf.size ≤ answers.length → ∃ w r, (start buf).run flushed answers = .ended w r) ∧
    ((∃ w, (start buf).run flushed answers = .ended w (.ok ())) ↔
      flushed = none ∧ ∃ rest, Accepts answers buf.size rest) ∧
    (∀ before offer a after, (start buf).dialogue answers = before ++ (offer, a) :: after →
      accepted before ++ toList offer = toList buf) ∧
    accepted ((start buf).dialogue answers) <+: toList buf ∧
    (∀ w, (start buf).run flushed answers = .ended w (.ok ()) →
      accepted ((start buf).dialogue answers) = toList buf) ∧
    (∀ n rest, Accepts answers n (.took 0 :: rest) → n < buf.size → ∃ w,
      (start buf).run flushed answers = .ended w (.error (.network .write
        ("write frame: zero bytes written, " ++ toString n ++ " of " ++ toString buf.size ++
          " sent")))) ∧
    (∀ n e rest, Accepts answers n (.failed e :: rest) → n < buf.size → ∃ w,
      (start buf).run flushed answers = .ended w (.error (.ofIo e .write "write frame"))) ∧
    (∀ rest e, Accepts answers buf.size rest → flushed = some e → ∃ w,
      (start buf).run flushed answers = .ended w (.error (.ofIo e .write "flush frame"))) ∧
    (∀ w f, (start buf).run flushed answers = .ended w (.error f) →
      ((∃ why, f = .network .write why) ∨ ∃ why, f = .timeout .write why) ∧ f.isSent = true) := by
  have hleft := left_start buf
  refine ⟨hleft ▸ length_dialogue_le _ _, fun h => exists_ended (hleft.symm ▸ h),
    hleft ▸ run_ok_iff hfits, fun _ _ _ _ h => offer_of_dialogue_start h, accepted_prefix,
    fun _ h => accepted_of_run h,
    fun n rest h hn => ?_, fun n e rest h hn => ?_, fun rest e h he => ?_, fun w f h => ?_⟩
  · have hsent : (start buf).sent + n = n := Nat.zero_add n
    have hrun : (start buf).run flushed answers = _ := run_empty h (hleft.symm ▸ hn)
    rw [hsent] at hrun
    exact ⟨_, hrun⟩
  · exact ⟨_, run_failed h (hleft.symm ▸ hn)⟩
  · subst he
    exact ⟨_, run_whole (hleft.symm ▸ h)⟩
  · obtain ⟨why, rfl⟩ | ⟨why, rfl⟩ := isOfWrite_of_run h
    · exact ⟨.inl ⟨why, rfl⟩, rfl⟩
    · exact ⟨.inr ⟨why, rfl⟩, rfl⟩

/-- Five bytes that a stream takes in parts of two, one and two; it would fail after that. -/
theorem sends_once_in_order_ragged :
    (∀ p ∈ (start (Bytes.ofList [1, 2, 3, 4, 5])).dialogue
      [.took 2, .took 1, .took 2, .failed (.ofNumber 32)], p.2.Fits p.1) ∧
    (∃ w, (start (Bytes.ofList [1, 2, 3, 4, 5])).run none
      [.took 2, .took 1, .took 2, .failed (.ofNumber 32)] = .ended w (.ok ())) ∧
    accepted ((start (Bytes.ofList [1, 2, 3, 4, 5])).dialogue
      [.took 2, .took 1, .took 2, .failed (.ofNumber 32)]) = [1, 2, 3, 4, 5] := by
  have hfits : ∀ p ∈ (start (Bytes.ofList [1, 2, 3, 4, 5])).dialogue
      [.took 2, .took 1, .took 2, .failed (.ofNumber 32)], p.2.Fits p.1 := by decide
  have hparts :
      Accepts [.took 2, .took 1, .took 2, .failed (.ofNumber 32)] 5 [.failed (.ofNumber 32)] :=
    .more (by decide) (.more (by decide) (.more (by decide) (.nothing _)))
  obtain ⟨-, -, hok, -, -, hall, -⟩ := sends_once_in_order _ none _ hfits
  obtain ⟨w, hrun⟩ := hok.2 ⟨rfl, _, hparts⟩
  exact ⟨hfits, ⟨w, hrun⟩, hall w hrun⟩

end Writer

end Courier.Frame

/-! ## The loop at a link -/

namespace Courier.Network.Link
open Bytes (toList)
open Courier.Frame (Reception Writer)

/-- A link gives no answer and stays as it is, or its answer fits the offer, and as long as there is
a peer, what is taken comes to it. -/
theorem take_cases {l l' : Link} {isRead : Bool} {offer : ByteArray} {answer : Option Reception}
    (h : l.take isRead offer = (l', answer)) :
    (answer = none ∧ l' = l) ∨ ∃ a, answer = some a ∧ a.Fits offer ∧ (l.peerOpen = true →
      l'.peerOpen = true ∧ toList l'.toPeer = toList l.toPeer ++ toList (a.part offer)) := by
  unfold take at h
  split at h
  next hopen =>
    generalize (if isRead = true then offer.size else capacity - l.toPeer.size) = room at h
    dsimp only at h
    split at h
    · cases h
      exact .inl ⟨rfl, rfl⟩
    · cases h
      exact .inr ⟨_, rfl, Nat.min_le_right _ _, fun _ => ⟨hopen, by simp [Reception.part]⟩⟩
  next hclosed =>
    split at h
    · cases h
      exact .inr ⟨_, rfl, trivial, fun hopen => absurd hopen hclosed⟩
    · split at h
      · cases h
        exact .inr ⟨_, rfl, trivial, fun hopen => absurd hopen hclosed⟩
      · cases h
        exact .inr ⟨_, rfl, Nat.le_refl _, fun hopen => absurd hopen hclosed⟩

theorem eq_of_take_none {l l' : Link} {isRead : Bool} {offer : ByteArray}
    (h : l.take isRead offer = (l', none)) : l' = l := by
  obtain ⟨-, hsame⟩ | ⟨a, ha, -⟩ := take_cases h
  · exact hsame
  · cases ha

theorem fits_of_take {l l' : Link} {isRead : Bool} {offer : ByteArray} {a : Reception}
    (h : l.take isRead offer = (l', some a)) :
    a.Fits offer ∧ (l.peerOpen = true →
      l'.peerOpen = true ∧ toList l'.toPeer = toList l.toPeer ++ toList (a.part offer)) := by
  obtain ⟨hnone, -⟩ | ⟨b, hb, hfits⟩ := take_cases h
  · cases hnone
  · cases hb
    exact hfits

/-- The loop at a link is a run against answers of that link, and what the link takes comes to the
peer. -/
theorem exists_run_of_write {isRead : Bool} {fuel : Nat} {l l' : Link} {w w' : Writer}
    {io : Option (Except Fault Unit)} (hfuel : w.left ≤ fuel)
    (h : l.write fuel isRead w = (l', w', io)) :
    ∃ answers, (∀ p ∈ w.dialogue answers, p.2.Fits p.1) ∧ w.run none answers = .of w' io ∧
      (l.peerOpen = true →
        toList l'.toPeer = toList l.toPeer ++ Writer.accepted (w.dialogue answers)) := by
  fun_induction write fuel l isRead w with
  | case1 fuel l w hw =>
    cases h
    exact ⟨[], List.forall_mem_nil _, Writer.run_of_isComplete hw,
      fun _ => (List.append_nil _).symm⟩
  | case2 l w hw => exact absurd (Writer.isComplete_iff.2 (Nat.le_zero.1 hfuel)) hw
  | case3 l w hw fuel l₁ ht =>
    cases h
    refine ⟨[], List.forall_mem_nil _, Writer.run_nil (Bool.eq_false_iff.2 hw), fun _ => ?_⟩
    rw [eq_of_take_none ht]
    exact (List.append_nil _).symm
  | case4 l w hw fuel l₁ a ht w₁ ha ih =>
    have hw := Bool.eq_false_iff.2 hw
    obtain ⟨hfits, hpeer⟩ := fits_of_take ht
    have hleft := Writer.left_feed hw ha
    obtain ⟨answers, hall, hrun, hcame⟩ := ih (by omega) h
    refine ⟨a :: answers, ?_, (Writer.run_cons_ok hw ha).trans hrun, fun hopen => ?_⟩
    · rw [Writer.dialogue_cons_ok hw ha]
      exact List.forall_mem_cons.2 ⟨hfits, hall⟩
    · obtain ⟨hstill, htaken⟩ := hpeer hopen
      rw [hcame hstill, htaken, Writer.dialogue_cons_ok hw ha, List.append_assoc]
      rfl
  | case5 l w hw fuel l₁ a ht f ha =>
    cases h
    have hw := Bool.eq_false_iff.2 hw
    obtain ⟨hfits, hpeer⟩ := fits_of_take ht
    refine ⟨[a], ?_, Writer.run_cons_error hw ha, fun hopen => ?_⟩
    · rw [Writer.dialogue_cons_error hw ha]
      exact List.forall_mem_singleton.2 hfits
    · rw [(hpeer hopen).2, Writer.dialogue_cons_error hw ha]
      exact congrArg _ (List.append_nil _).symm

end Courier.Network.Link

import Courier.Request.Id
import Mathlib.Algebra.Group.Nat.Defs
import Mathlib.Data.List.Perm.Basic
import Mathlib.Logic.Relation

/-!
# Numbers under every schedule

Callers that ask for a number read the clock, load the shared cell and try to exchange its value, in
any order and as often as an exchange fails. Whatever the schedule and whatever the clock shows, the
cell holds the last number that was handed out, and an exchange that succeeds puts a larger one
there. So the numbers grow in the order of the exchanges, and what a caller gets is larger than all
that was handed out before it read the clock.
-/
namespace Courier.RequestId

section Next
variable {millis last : UInt64}

theorem next_eq : next millis last = if millis <<< 16 ≤ last + 1 then last + 1
    else millis <<< 16 := rfl

theorem succ_le_next : last + 1 ≤ next millis last := by
  rw [next_eq]
  split
  next => exact UInt64.le_refl _
  next h => exact UInt64.le_of_lt (UInt64.not_le.1 h)

theorem shift_le_next : millis <<< 16 ≤ next millis last := by
  rw [next_eq]
  split
  next h => exact h
  next => exact UInt64.le_refl _

/-- Unless the last number is the largest one, the next one is above it. -/
theorem last_lt_next (h : last.toNat < 2 ^ 64 - 1) : last < next millis last := by
  have hsucc : (last + 1).toNat = last.toNat + 1 := by
    rw [UInt64.toNat_add, UInt64.toNat_one]
    exact Nat.mod_eq_of_lt (by omega)
  refine UInt64.lt_of_lt_of_le (UInt64.lt_iff_toNat_lt.2 ?_) succ_le_next
  omega

/-- Below 2^48 milliseconds the shift loses nothing. -/
theorem toNat_shift (h : millis.toNat < 2 ^ 48) :
    (millis <<< 16).toNat = millis.toNat * 2 ^ 16 := by
  rw [UInt64.toNat_shiftLeft]
  show millis.toNat <<< 16 % 2 ^ 64 = _
  rw [Nat.shiftLeft_eq]
  exact Nat.mod_eq_of_lt (by omega)

end Next

namespace Asking

/-- The number of a caller that has one. -/
def number? : Asking → Option UInt64
  | served id => some id
  | arrived | timed _ | loaded _ _ => none

/-- What the clock showed to a caller that has no number yet. -/
def reading? : Asking → Option UInt64
  | timed millis | loaded millis _ => some millis
  | arrived | served _ => none

end Asking

namespace Issue
variable {s t u : Issue} {i n : Nat} {a b : Asking} {id millis : UInt64}

/-! ## What a step does to one caller -/

/-- How a caller comes from one phase to another one in a step. -/
inductive Turns (s t : Issue) : Asking → Asking → Prop
  | stay (a : Asking) : Turns s t a a
  | read (millis : UInt64) : Turns s t .arrived (.timed millis)
  | load (millis : UInt64) : Turns s t (.timed millis) (.loaded millis s.last)
  | take (millis : UInt64) {id : UInt64} (hid : id = next millis s.last)
      (h : t.issued = id :: s.issued) : Turns s t (.loaded millis s.last) (.served id)
  | fail (millis last : UInt64) : Turns s t (.loaded millis last) (.timed millis)

theorem getElem?_of_set {l : List Asking} {j : Nat} (h : (l.set j a)[i]? = some b) :
    i = j ∧ b = a ∨ l[i]? = some b := by
  rw [List.getElem?_set] at h
  split at h
  next hij =>
    split at h
    · exact .inl ⟨hij.symm, (Option.some.inj h).symm⟩
    · cases h
  next => exact .inr h

theorem Step.turns (h : Step s t) (hi : t.callers[i]? = some b) :
    ∃ a, s.callers[i]? = some a ∧ Turns s t a b := by
  cases h with
  | readClock j millis hj =>
    obtain ⟨rfl, rfl⟩ | hi := getElem?_of_set hi
    · exact ⟨_, hj, .read millis⟩
    · exact ⟨b, hi, .stay b⟩
  | load j millis hj =>
    obtain ⟨rfl, rfl⟩ | hi := getElem?_of_set hi
    · exact ⟨_, hj, .load millis⟩
    · exact ⟨b, hi, .stay b⟩
  | exchange j millis hj =>
    obtain ⟨rfl, rfl⟩ | hi := getElem?_of_set hi
    · exact ⟨_, hj, .take millis rfl rfl⟩
    · exact ⟨b, hi, .stay b⟩
  | retry j millis last hj =>
    obtain ⟨rfl, rfl⟩ | hi := getElem?_of_set hi
    · exact ⟨_, hj, .fail millis last⟩
    · exact ⟨b, hi, .stay b⟩

/-! ## Runs -/

/-- A step that hands out no number after the largest one. -/
def Advances (s t : Issue) : Prop := Step s t ∧ (t.issued = s.issued ∨ s.last.toNat < 2 ^ 64 - 1)

/-- What any number of such steps lead to. -/
def Leads : Issue → Issue → Prop := Relation.ReflTransGen Advances

/-- The numbers of the callers that have one. -/
def numbers (callers : List Asking) : List UInt64 := callers.filterMap Asking.number?

/-- What the callers have is what was handed out. Those numbers fall from the last one, which stands
in the cell, to the first one, and all of them are above zero, which stood in the cell at first. -/
structure Ordered (s : Issue) : Prop where
  cell : (s.issued ++ [0]).head? = some s.last
  falling : (s.issued ++ [0]).Pairwise (· > ·)
  had : (numbers s.callers).Perm s.issued

theorem Ordered.le_last (h : s.Ordered) : ∀ x ∈ s.issued ++ [0], x ≤ s.last := by
  obtain ⟨rest, hrest⟩ := List.head?_eq_some_iff.1 h.cell
  have hfalling := h.falling
  rw [hrest] at hfalling ⊢
  intro x hx
  obtain rfl | hx := List.mem_cons.1 hx
  · exact UInt64.le_refl _
  · exact UInt64.le_of_lt (List.rel_of_pairwise_cons hfalling hx)

theorem numbers_initial (n : Nat) : numbers (initial n).callers = [] := by
  simp [numbers, initial, Asking.number?]

theorem ordered_initial (n : Nat) : (initial n).Ordered :=
  ⟨rfl, List.pairwise_singleton _ _, by rw [numbers_initial]; exact .nil⟩

theorem numbers_middle (before after : List Asking) (a : Asking) :
    numbers (before ++ a :: after) = numbers before ++ a.number?.toList ++ numbers after := by
  cases h : a.number? <;> simp [numbers, h]

/-- The numbers around caller `i`. -/
theorem numbers_set {callers : List Asking} (h : callers[i]? = some a) (b : Asking) :
    ∃ before after, numbers callers = before ++ a.number?.toList ++ after ∧
      numbers (callers.set i b) = before ++ b.number?.toList ++ after := by
  obtain ⟨hi, ha⟩ := List.getElem?_eq_some_iff.1 h
  have hsplit : callers = callers.take i ++ a :: callers.drop (i + 1) := by
    rw [← ha, ← List.drop_eq_getElem_cons hi, List.take_append_drop]
  have hset : callers.set i b = callers.take i ++ b :: callers.drop (i + 1) := by
    rw [List.set_eq_take_append_cons_drop, if_pos hi]
  refine ⟨numbers (callers.take i), numbers (callers.drop (i + 1)), ?_, ?_⟩
  · rw [← numbers_middle, ← hsplit]
  · rw [← numbers_middle, ← hset]

/-- A caller that moves on without a number changes nothing about those that were handed out. -/
theorem Ordered.move (h : s.Ordered) (hi : s.callers[i]? = some a) (ha : a.number? = none)
    (hb : b.number? = none) : ({ s with callers := s.callers.set i b } : Issue).Ordered := by
  obtain ⟨before, after, hold, hnew⟩ := numbers_set hi b
  rw [ha] at hold
  rw [hb] at hnew
  exact ⟨h.cell, h.falling, hnew ▸ hold ▸ h.had⟩

theorem Ordered.advances (h : s.Ordered) (hst : Advances s t) : t.Ordered := by
  obtain ⟨hstep, hroom⟩ := hst
  cases hstep with
  | readClock i millis hi => exact h.move hi rfl rfl
  | load i millis hi => exact h.move hi rfl rfl
  | retry i millis last hi => exact h.move hi rfl rfl
  | exchange i millis hi =>
    have hlt : s.last < next millis s.last :=
      last_lt_next (hroom.resolve_left (List.cons_ne_self _ _))
    obtain ⟨before, after, hold, hnew⟩ := numbers_set hi (.served (next millis s.last))
    refine ⟨rfl, List.pairwise_cons.2 ⟨fun x hx => ?_, h.falling⟩, ?_⟩
    · exact UInt64.lt_of_le_of_lt (h.le_last x hx) hlt
    · have hhad := h.had
      rw [hold] at hhad
      rw [hnew]
      simp only [Asking.number?, Option.toList, List.append_nil] at hhad ⊢
      have hfront : (before ++ [next millis s.last]).Perm (next millis s.last :: before) :=
        List.perm_append_singleton _ _
      exact (hfront.append_right after).trans (hhad.cons _)

theorem Ordered.leads (h : s.Ordered) (hst : Leads s t) : t.Ordered := by
  induction hst with
  | refl => exact h
  | tail _ hstep ih => exact ih.advances hstep

theorem Step.issued_suffix (h : Step s t) : s.issued <:+ t.issued := by
  cases h with
  | exchange i millis hi => exact List.suffix_cons _ _
  | readClock | load | retry => exact List.suffix_rfl

theorem Leads.issued_suffix (h : Leads s t) : s.issued <:+ t.issued := by
  induction h with
  | refl => exact List.suffix_rfl
  | tail _ hstep ih => exact ih.trans hstep.1.issued_suffix

/-! ## What a caller gets -/

/-- A caller that had no number gets one above all that were handed out by then. -/
theorem Leads.number_gt (h : Leads s t) (hs : s.Ordered) (ha : s.callers[i]? = some a)
    (hnone : a.number? = none) (hid : t.callers[i]? = some (.served id)) :
    ∀ x ∈ s.issued, x < id := by
  induction h with
  | refl =>
    rw [ha, Option.some.injEq] at hid
    rw [hid] at hnone
    cases hnone
  | tail hrun hstep ih =>
    obtain ⟨c, hc, hturn⟩ := hstep.1.turns hid
    cases hturn with
    | stay => exact ih hc
    | take millis hnext htaken =>
      intro x hx
      have hin := (Leads.issued_suffix hrun).subset hx
      have hlast := (hs.leads hrun).le_last x (List.mem_append_left _ hin)
      have hroom := hstep.2.resolve_left (htaken ▸ List.cons_ne_self _ _)
      exact hnext ▸ UInt64.lt_of_le_of_lt hlast (last_lt_next hroom)

/-- A caller keeps what the clock showed, and gets no number below it. -/
theorem Leads.shift_le (h : Leads s t) (ha : s.callers[i]? = some (.timed millis))
    (hid : t.callers[i]? = some (.served id)) : millis <<< 16 ≤ id := by
  have hkept : ∀ b, t.callers[i]? = some b →
      b.reading? = some millis ∨ ∃ id, b = .served id ∧ millis <<< 16 ≤ id := by
    clear hid
    induction h with
    | refl =>
      intro b hb
      rw [ha, Option.some.injEq] at hb
      exact .inl (hb ▸ rfl)
    | tail _ hstep ih =>
      intro b hb
      obtain ⟨c, hc, hturn⟩ := hstep.1.turns hb
      obtain hread | ⟨id, rfl, hle⟩ := ih c hc
      · cases hturn with
        | stay => exact .inl hread
        | read => cases hread
        | load | fail => exact .inl hread
        | take millis hnext =>
          obtain rfl := Option.some.inj hread
          exact .inr ⟨_, rfl, hnext ▸ shift_le_next⟩
      · cases hturn with
        | stay => exact .inr ⟨id, rfl, hle⟩
  obtain hread | ⟨id', heq, hle⟩ := hkept _ hid
  · cases hread
  · cases heq
    exact hle

/-- On the way from `start` to `s` the call of caller `i` begins in the state `before`: it reads the
clock, which shows `millis`. -/
def Begins (start before s : Issue) (i : Nat) (millis : UInt64) : Prop :=
  Leads start before ∧ before.callers[i]? = some .arrived ∧
    ∃ after, Advances before after ∧ after.callers[i]? = some (.timed millis) ∧ Leads after s

/-- A caller that is past its beginning has read the clock on the way. -/
theorem exists_begins (h : Leads (initial n) s) (ha : s.callers[i]? = some a) :
    a = .arrived ∨ ∃ before millis, Begins (initial n) before s i millis := by
  induction h generalizing a with
  | refl =>
    rw [initial, List.getElem?_replicate] at ha
    split at ha
    · exact .inl (Option.some.inj ha).symm
    · cases ha
  | tail hrun hstep ih =>
    obtain ⟨c, hc, hturn⟩ := hstep.1.turns ha
    obtain rfl | ⟨before, millis, hstart, harrived, after, hread, htimed, hon⟩ := ih hc
    · cases hturn with
      | stay => exact .inl rfl
      | read millis => exact .inr ⟨_, millis, hrun, hc, _, hstep, ha, .refl⟩
    · exact .inr ⟨before, millis, hstart, harrived, after, hread, htimed, hon.tail hstep⟩

/-- No two callers have the same number. -/
theorem Ordered.caller_unique (h : s.Ordered) {j : Nat} (hi : s.callers[i]? = some (.served id))
    (hj : s.callers[j]? = some (.served id)) : i = j := by
  have hdistinct : s.callers.Pairwise fun a b =>
      ∀ x, a.number? = some x → ∀ y, b.number? = some y → x ≠ y := by
    have hnodup : (numbers s.callers).Nodup :=
      h.had.nodup_iff.2 ((List.pairwise_append.1 h.falling).1.imp fun hxy =>
        (UInt64.ne_of_lt hxy).symm)
    exact List.pairwise_filterMap.1 hnodup
  obtain ⟨hi, hid⟩ := List.getElem?_eq_some_iff.1 hi
  obtain ⟨hj, hjd⟩ := List.getElem?_eq_some_iff.1 hj
  have hnot {k l : Nat} (hk : k < s.callers.length) (hl : l < s.callers.length)
      (hkd : s.callers[k] = .served id) (hld : s.callers[l] = .served id) : ¬ k < l := fun hkl =>
    List.pairwise_iff_getElem.1 hdistinct k l hk hl hkl id (by rw [hkd]; rfl) id
      (by rw [hld]; rfl) rfl
  exact Nat.le_antisymm (Nat.not_lt.1 (hnot hj hi hjd hid)) (Nat.not_lt.1 (hnot hi hj hid hjd))

/-- For any number of callers, in whatever order they read the clock, load the cell and exchange its
value, however often an exchange fails and whatever the clock shows: as long as no number is taken
after the largest one, the numbers that were handed out grow in the order of the exchanges, and no
number is zero. They are the numbers that the callers have, no two callers have the same one, and
each caller has read the clock once: its number is above all that were handed out before that, and
not below the reading shifted left. -/
theorem numbers_increase (n : Nat) {s : Issue} (h : Leads (initial n) s) :
    s.issued.reverse.Pairwise (· < ·) ∧ s.issued.Nodup ∧ 0 ∉ s.issued ∧
    (numbers s.callers).Perm s.issued ∧
    (∀ (i j : Nat) id, s.callers[i]? = some (.served id) → s.callers[j]? = some (.served id) →
      i = j) ∧
    ∀ (i : Nat) id, s.callers[i]? = some (.served id) →
      (∃ before millis, Begins (initial n) before s i millis) ∧
      ∀ before millis, Begins (initial n) before s i millis →
        (∀ other ∈ before.issued, other < id) ∧ millis <<< 16 ≤ id ∧
        (millis.toNat < 2 ^ 48 → millis.toNat * 2 ^ 16 ≤ id.toNat) := by
  have hs := (ordered_initial n).leads h
  obtain ⟨hfalling, -, hpositive⟩ := List.pairwise_append.1 hs.falling
  refine ⟨List.pairwise_reverse.2 hfalling, hfalling.imp fun hxy => (UInt64.ne_of_lt hxy).symm,
    fun h0 => UInt64.lt_irrefl 0 (hpositive 0 h0 0 (List.mem_singleton_self 0)), hs.had,
    fun i j id => hs.caller_unique, fun i id hid => ⟨?_, ?_⟩⟩
  · exact (exists_begins h hid).resolve_left nofun
  · rintro before millis ⟨hstart, harrived, after, hread, htimed, hon⟩
    have hle : millis <<< 16 ≤ id := Leads.shift_le hon htimed hid
    refine ⟨?_, hle, fun hsmall => ?_⟩
    · have hrest : Leads before s := .head hread hon
      exact hrest.number_gt ((ordered_initial n).leads hstart) harrived rfl hid
    · rw [← toNat_shift hsmall]
      exact UInt64.le_iff_toNat_le.1 hle

/-- The clock shows three milliseconds to the first caller and five to the second one, which is
faster. The first one fails to exchange what it loaded and goes on from the larger number. -/
theorem numbers_increase_overtaken :
    ∃ s, Leads (initial 2) s ∧ s.callers = [.served 327681, .served 327680] ∧
      s.issued.reverse.Pairwise (· < ·) ∧ s.issued.Nodup ∧ Begins (initial 2) (initial 2) s 0 3 ∧
      3 * 2 ^ 16 ≤ (327681 : UInt64).toNat := by
  let s1 : Issue := ⟨0, [.timed 3, .arrived], []⟩
  let s2 : Issue := ⟨0, [.loaded 3 0, .arrived], []⟩
  let s3 : Issue := ⟨0, [.loaded 3 0, .timed 5], []⟩
  let s4 : Issue := ⟨0, [.loaded 3 0, .loaded 5 0], []⟩
  let s5 : Issue := ⟨327680, [.loaded 3 0, .served 327680], [327680]⟩
  let s6 : Issue := ⟨327680, [.timed 3, .served 327680], [327680]⟩
  let s7 : Issue := ⟨327680, [.loaded 3 327680, .served 327680], [327680]⟩
  let s8 : Issue := ⟨327681, [.served 327681, .served 327680], [327681, 327680]⟩
  have h1 : Advances (initial 2) s1 := ⟨.readClock _ 0 3 rfl, .inl rfl⟩
  have h2 : Advances s1 s2 := ⟨.load _ 0 3 rfl, .inl rfl⟩
  have h3 : Advances s2 s3 := ⟨.readClock _ 1 5 rfl, .inl rfl⟩
  have h4 : Advances s3 s4 := ⟨.load _ 1 5 rfl, .inl rfl⟩
  have h5 : Advances s4 s5 := ⟨.exchange _ 1 5 rfl, .inr (by decide)⟩
  have h6 : Advances s5 s6 := ⟨.retry _ 0 3 0 rfl, .inl rfl⟩
  have h7 : Advances s6 s7 := ⟨.load _ 0 3 rfl, .inl rfl⟩
  have h8 : Advances s7 s8 := ⟨.exchange _ 0 3 rfl, .inr (by decide)⟩
  have hrest : Leads s1 s8 :=
    ((((((Relation.ReflTransGen.single h2).tail h3).tail h4).tail h5).tail h6).tail h7).tail h8
  have hall : Leads (initial 2) s8 := .head h1 hrest
  have hbegins : Begins (initial 2) (initial 2) s8 0 3 := ⟨.refl, rfl, s1, h1, rfl, hrest⟩
  obtain ⟨hgrow, hnodup, -, -, -, hcaller⟩ := numbers_increase 2 hall
  obtain ⟨-, -, hreading⟩ := (hcaller 0 327681 rfl).2 _ _ hbegins
  exact ⟨s8, hall, rfl, hgrow, hnodup, hbegins, hreading (by decide)⟩

/-! ## One caller after another -/

/-- A caller that nobody disturbs takes the next number in three steps. -/
theorem take_next (last millis : UInt64) (before after : List Asking) (issued : List UInt64) :
    Relation.ReflTransGen Step ⟨last, before ++ .arrived :: after, issued⟩
      ⟨next millis last, before ++ .served (next millis last) :: after,
        next millis last :: issued⟩ := by
  have hat (a : Asking) : (before ++ a :: after)[before.length]? = some a := by simp
  have hset (a b : Asking) : (before ++ a :: after).set before.length b = before ++ b :: after := by
    simp
  have h1 : Step ⟨last, before ++ .arrived :: after, issued⟩
      ⟨last, before ++ .timed millis :: after, issued⟩ := by
    simpa only [hset] using Step.readClock ⟨last, _, issued⟩ before.length millis (hat .arrived)
  have h2 : Step ⟨last, before ++ .timed millis :: after, issued⟩
      ⟨last, before ++ .loaded millis last :: after, issued⟩ := by
    simpa only [hset] using Step.load ⟨last, _, issued⟩ before.length millis (hat _)
  have h3 : Step ⟨last, before ++ .loaded millis last :: after, issued⟩
      ⟨next millis last, before ++ .served (next millis last) :: after,
        next millis last :: issued⟩ := by
    simpa only [hset] using Step.exchange ⟨last, _, issued⟩ before.length millis
      (hat (.loaded millis last))
  exact ((Relation.ReflTransGen.single h1).tail h2).tail h3

/-- Callers that come one after another get the numbers of the sequence. -/
theorem exists_run_sequence (readings : List UInt64) (last : UInt64) (before : List Asking)
    (issued : List UInt64) :
    ∃ final, Relation.ReflTransGen Step
      ⟨last, before ++ List.replicate readings.length .arrived, issued⟩
      ⟨final, before ++ (sequence last readings).map .served,
        (sequence last readings).reverse ++ issued⟩ := by
  induction readings generalizing last before issued with
  | nil => exact ⟨last, .refl⟩
  | cons millis rest ih =>
    obtain ⟨final, hrest⟩ :=
      ih (next millis last) (before ++ [.served (next millis last)]) (next millis last :: issued)
    refine ⟨final, .trans (take_next last millis before _ issued) ?_⟩
    simpa [sequence] using hrest

end Issue

end Courier.RequestId

import Courier.Proofs.Json.Grammar

/-!
# Reading texts and numbers

In whatever way a text is written between its quotes, the reader gives back that text and the
characters behind it; and the digits of a natural number give back the number, if no digit follows.
The writers write what the grammar allows.
-/
namespace Courier.Json

/-! ## White space -/

theorem skipSpace_append {blank : List Char} (h : IsBlank blank) (cs : List Char) :
    skipSpace (blank ++ cs) = skipSpace cs :=
  List.dropWhile_append_of_pos h

theorem skipSpace_blank {blank : List Char} (h : IsBlank blank) : skipSpace blank = [] := by
  rw [← List.append_nil blank, skipSpace_append h]
  rfl

theorem skipSpace_cons {c : Char} (h : isSpace c = false) (cs : List Char) :
    skipSpace (c :: cs) = c :: cs :=
  List.dropWhile_cons_of_neg (by simp [h])

/-- Here a value may end: nothing that could belong to a number comes next. -/
def Ends (rest : List Char) : Prop :=
  ∀ c ∈ rest.head?, isSpace c = true ∨ c = ',' ∨ c = ']' ∨ c = '}'

theorem Ends.cons {c : Char} (h : c = ',' ∨ c = ']' ∨ c = '}') (rest : List Char) :
    Ends (c :: rest) := by
  simp only [Ends, List.head?_cons, Option.mem_some_iff, forall_eq']
  exact .inr h

theorem Ends.append {blank rest : List Char} (hb : IsBlank blank) (h : Ends rest) :
    Ends (blank ++ rest) := by
  cases blank with
  | nil => exact h
  | cons c blank =>
    simp only [Ends, List.cons_append, List.head?_cons, Option.mem_some_iff, forall_eq']
    exact .inl (hb c List.mem_cons_self)

/-! ## Texts -/

theorem readChars_short {e c : Char} (h : unescape? e = some c) (rest : List Char) :
    readChars ('\\' :: e :: rest) = (readChars rest).map fun p => (c :: p.1, p.2) := by
  have hu : e ≠ 'u' := by
    rintro rfl
    cases h
  rw [readChars.eq_5 e rest (fun _ _ _ _ _ _ _ _ _ he => (hu he).elim)
    (fun _ _ _ _ _ he => (hu he).elim), h]
  cases readChars rest <;> rfl

theorem readChars_plain {c : Char} (h : 0x20 ≤ c.toNat) (hq : c ≠ '"') (hb : c ≠ '\\')
    (rest : List Char) : readChars (c :: rest) = (readChars rest).map fun p => (c :: p.1, p.2) := by
  rw [readChars.eq_6 c rest hq (fun _ _ _ _ _ _ _ _ _ hc => (hb hc).elim)
    (fun _ _ _ _ _ hc => (hb hc).elim) (fun _ _ hc => (hb hc).elim), if_neg (by omega)]
  cases readChars rest <;> rfl

theorem readChars_pair {a b c d e f g h : Char} {n m : Nat} (hn : hexUnit? a b c d = some n)
    (hh : isHighSurrogate n = true) (hm : hexUnit? e f g h = some m) (hl : isLowSurrogate m = true)
    (rest : List Char) :
    readChars ('\\' :: 'u' :: a :: b :: c :: d :: '\\' :: 'u' :: e :: f :: g :: h :: rest) =
      (readChars rest).map fun p => (pairValue n m :: p.1, p.2) := by
  rw [readChars.eq_3, hn]
  simp only [Option.bind_eq_bind, Option.bind_some, hh, if_true, hm, hl]
  cases readChars rest <;> rfl

theorem readChars_unit {a b c d : Char} {n : Nat} (h : hexUnit? a b c d = some n)
    (hh : isHighSurrogate n = false) (hl : isLowSurrogate n = false) (rest : List Char) :
    readChars ('\\' :: 'u' :: a :: b :: c :: d :: rest) =
      (readChars rest).map fun p => (Char.ofNat n :: p.1, p.2) := by
  by_cases hpair : ∃ e f g k tail, rest = '\\' :: 'u' :: e :: f :: g :: k :: tail
  · obtain ⟨e, f, g, k, tail, rfl⟩ := hpair
    rw [readChars.eq_3, h]
    simp only [Option.bind_eq_bind, Option.bind_some, hh, hl, Bool.false_eq_true, if_false]
    cases readChars ('\\' :: 'u' :: e :: f :: g :: k :: tail) <;> rfl
  · rw [readChars.eq_4 a b c d rest fun e f g k tail hrest => hpair ⟨e, f, g, k, tail, hrest⟩, h]
    simp only [Option.bind_eq_bind, Option.bind_some, hh, hl, Bool.or_false, Bool.false_eq_true,
      if_false]
    cases readChars rest <;> rfl

theorem readChars_spellsChar {cs : List Char} {c : Char} (h : SpellsChar cs c) (rest : List Char) :
    readChars (cs ++ rest) = (readChars rest).map fun p => (c :: p.1, p.2) := by
  cases h with
  | plain h hq hb => exact readChars_plain h hq hb rest
  | short h => exact readChars_short h rest
  | unit h hh hl => exact readChars_unit h hh hl rest
  | pair hn hh hm hl => exact readChars_pair hn hh hm hl rest

theorem readChars_spellsChars {cs s : List Char} (h : SpellsChars cs s) (rest : List Char) :
    readChars (cs ++ '"' :: rest) = some (s, rest) := by
  induction h with
  | nil => exact readChars.eq_2 rest
  | cons h _ ih => rw [List.append_assoc, readChars_spellsChar h, ih, Option.map_some]

theorem readText_spells {cs : List Char} {s : String} (h : SpellsText cs s) (rest : List Char) :
    readText (cs ++ rest) = some (s, rest) := by
  obtain ⟨h⟩ := h
  simp only [List.cons_append, List.append_assoc, List.nil_append, readText,
    readChars_spellsChars h rest]
  simp

/-- The characters of a text are written one by one. -/
theorem spellsChar_escape (c : Char) : SpellsChar (escape c) c := by
  have hcontrol : ∀ n < 0x20, isHighSurrogate n = false ∧ isLowSurrogate n = false ∧
      hexUnit? '0' '0' (hexDigit (n / 16)) (hexDigit (n % 16)) = some n := by decide
  rw [escape.eq_def]
  split
  case h_1 => exact .short rfl
  case h_2 => exact .short rfl
  case h_3 => exact .short rfl
  case h_4 => exact .short rfl
  case h_5 => exact .short rfl
  case h_6 => exact .short rfl
  case h_7 => exact .short rfl
  case h_8 hq hb _ _ _ _ _ =>
    split
    next hlt =>
      obtain ⟨hh, hl, hunit⟩ := hcontrol c.toNat hlt
      simpa using SpellsChar.unit hunit hh hl
    next hge => exact .plain (by omega) hq hb

theorem spellsChars_flatMap_escape (s : List Char) : SpellsChars (s.flatMap escape) s := by
  induction s with
  | nil => exact .nil
  | cons c s ih => exact .cons (spellsChar_escape c) ih

theorem spellsText_writeText (s : String) : SpellsText (writeText s) s :=
  .quoted (spellsChars_flatMap_escape s.toList)

/-! ## Numbers -/

theorem writeNat_eq_cons (n : Nat) :
    ∃ c cs, writeNat n = c :: cs ∧ c.isDigit = true ∧ ∀ d ∈ cs, d.isDigit = true := by
  have hne : writeNat n ≠ [] := Nat.toDigits_ne_nil
  obtain ⟨c, cs, h⟩ := List.exists_cons_of_ne_nil hne
  have hdigits : ∀ d ∈ c :: cs, d.isDigit = true := fun d hd =>
    Nat.isDigit_of_mem_toDigits (by decide) (by decide) (h ▸ hd)
  obtain ⟨hc, hcs⟩ := List.forall_mem_cons.1 hdigits
  exact ⟨c, cs, h, hc, hcs⟩

/-- No zero stands in front of the other digits. -/
theorem head_writeNat_ne_zero {n : Nat} (hn : n ≠ 0) {c : Char} {cs : List Char}
    (h : writeNat n = c :: cs) : c ≠ '0' := by
  induction n using Nat.strongRecOn generalizing cs with
  | ind n ih =>
    by_cases hlt : n < 10
    · have hdigit : ∀ d < 10, d ≠ 0 → Nat.digitChar d ≠ '0' := by decide
      rw [writeNat, Nat.toDigits_of_lt_base hlt] at h
      cases h
      exact hdigit n hlt hn
    · obtain ⟨d, ds, hd, -⟩ := writeNat_eq_cons (n / 10)
      rw [writeNat, Nat.toDigits_of_base_le (by decide) (by omega), ← writeNat, hd] at h
      cases h
      exact ih (n / 10) (by omega) (by omega) hd

theorem readNat_writeNat {n : Nat} {rest : List Char} (h : ∀ c ∈ rest.head?, c.isDigit = false) :
    readNat (writeNat n ++ rest) = some (n, rest) := by
  by_cases hn : n = 0
  · subst hn
    rfl
  · obtain ⟨c, cs, hcs, hdigit, hdigits⟩ := writeNat_eq_cons n
    have hstop : rest.takeWhile Char.isDigit = [] ∧ rest.dropWhile Char.isDigit = rest := by
      cases rest with
      | nil => exact ⟨rfl, rfl⟩
      | cons d rest => simp [h d rfl]
    have hvalue : (c :: cs).foldl (fun n d => 10 * n + digitValue d) 0 = n :=
      hcs ▸ Nat.ofDigitChars_ten_toDigits
    rw [hcs, List.cons_append, readNat.eq_2 _ _ (head_writeNat_ne_zero hn hcs), if_pos hdigit,
      List.takeWhile_append_of_pos hdigits, List.dropWhile_append_of_pos hdigits, hstop.1, hstop.2,
      List.append_nil, hvalue]

theorem not_isDigit_of_isSpace {c : Char} (h : isSpace c = true) : c.isDigit = false := by
  simp only [isSpace, Bool.or_eq_true, decide_eq_true_eq] at h
  obtain ((rfl | rfl) | rfl) | rfl := h <;> rfl

theorem not_isSpace_of_isDigit {c : Char} (h : c.isDigit = true) : isSpace c = false := by
  refine Bool.eq_false_iff.2 fun hs => ?_
  rw [not_isDigit_of_isSpace hs] at h
  contradiction

theorem Ends.not_isDigit {rest : List Char} (h : Ends rest) :
    ∀ c ∈ rest.head?, c.isDigit = false := by
  intro c hc
  obtain hs | rfl | rfl | rfl := h c hc
  · exact not_isDigit_of_isSpace hs
  all_goals rfl

/-! ## Where a value begins -/

/-- The first character tells a number from a text, a list, an object and the end of a list. -/
theorem Numeral.head (n : Numeral) :
    ∃ c rest, n.write = c :: rest ∧ isSpace c = false ∧ ∀ d ∈ ['"', '[', ']', '\x7b'], c ≠ d := by
  obtain ⟨c, rest, h, hc, -⟩ := writeNat_eq_cons n.whole
  rw [Numeral.write, h]
  cases n.negative with
  | true => exact ⟨'-', _, rfl, rfl, by simp⟩
  | false =>
    have hdigit : ∀ d ∈ ['"', '[', ']', '\x7b'], d.isDigit = false := by
      simp [Char.isDigit]
    refine ⟨c, _, rfl, not_isSpace_of_isDigit hc, ?_⟩
    rintro d hd rfl
    rw [hdigit c hd] at hc
    contradiction

theorem Spells.head {cs : List Char} {v : Value} (h : Spells cs v) :
    ∃ c rest, cs = c :: rest ∧ isSpace c = false ∧ c ≠ ']' := by
  cases h with
  | number n =>
    obtain ⟨c, rest, h, hs, hc⟩ := n.head
    exact ⟨c, rest, h, hs, hc _ (by simp)⟩
  | text h =>
    obtain ⟨h⟩ := h
    exact ⟨_, _, rfl, rfl, by decide⟩
  | _ => exact ⟨_, _, rfl, rfl, by decide⟩

theorem skipSpace_value {cs : List Char} {v : Value} (h : Spells cs v) (rest : List Char) :
    skipSpace (cs ++ rest) = cs ++ rest := by
  obtain ⟨c, tail, rfl, hs, -⟩ := h.head
  exact skipSpace_cons hs _

theorem skipSpace_member {cs : List Char} {m : String × Value} (h : SpellsMember cs m)
    (rest : List Char) : skipSpace (cs ++ rest) = cs ++ rest := by
  obtain ⟨⟨_⟩⟩ := h
  rfl

end Courier.Json

import Courier.Proofs.Json.Literals

/-!
# Passing over a value

Whatever value stands there, in whatever way it is written, the run over its characters ends just
behind it: if lists or objects are open around it, the run goes on there, and otherwise it gives
back the characters that are left. So an unknown field may hold any value.
-/
namespace Courier.Json.Skip

/-- How the run goes on behind a value. -/
def finish (stack : List Opening) (rest : List Char) : Option (List Char) :=
  if stack.isEmpty then some rest else run stack .afterValue rest

theorem finish_cons (o : Opening) (stack : List Opening) (rest : List Char) :
    finish (o :: stack) rest = run (o :: stack) .afterValue rest := rfl

/-! ## One step -/

theorem run_go {stack stack' : List Opening} {s t : State} {c : Char}
    (h : move stack s c = .go stack' t) (rest : List Char) :
    run stack s (c :: rest) = run stack' t rest := by
  rw [run, h]

theorem run_close {stack outer : List Opening} {s : State} {c : Char}
    (h : move stack s c = close outer) (rest : List Char) :
    run stack s (c :: rest) = finish outer rest := by
  rw [run, h, close, finish]
  cases outer <;> rfl

namespace State

/-- The states between tokens. -/
def between : State → Bool
  | value | firstValue | key | firstKey | colon | afterValue => true
  | chars _ | escaped _ | unit _ _ | number _ | word _ => false

end State

theorem run_blank {s : State} (hs : s.between = true) {blank : List Char} (h : IsBlank blank)
    (stack : List Opening) (rest : List Char) : run stack s (blank ++ rest) = run stack s rest := by
  induction blank with
  | nil => rfl
  | cons c blank ih =>
    have hc : isSpace c = true := h c List.mem_cons_self
    have hmove : move stack s c = .go stack s := by
      cases s <;> simp_all [move, State.between]
    rw [List.cons_append, run_go hmove, ih fun d hd => h d (List.mem_cons_of_mem _ hd)]

/-! ## Texts -/

theorem isSome_of_hexUnit {a b c d : Char} {n : Nat} (h : hexUnit? a b c d = some n) :
    (hexValue? a).isSome ∧ (hexValue? b).isSome ∧ (hexValue? c).isSome ∧ (hexValue? d).isSome := by
  simp only [hexUnit?, Option.bind_eq_bind, Option.bind_eq_some_iff] at h
  obtain ⟨x, ha, y, hb, z, hc, w, hd, -⟩ := h
  simp [ha, hb, hc, hd]

theorem run_unit {a b c d : Char} {n : Nat} (h : hexUnit? a b c d = some n) (stack : List Opening)
    (isKey : Bool) (rest : List Char) :
    run stack (.chars isKey)
      ('\\' :: 'u' :: a :: b :: c :: d :: rest) = run stack (.chars isKey) rest := by
  obtain ⟨ha, hb, hc, hd⟩ := isSome_of_hexUnit h
  simp [run, move, ha, hb, hc, hd]

theorem run_short {e c : Char} (h : unescape? e = some c) (stack : List Opening) (isKey : Bool)
    (rest : List Char) : run stack (.chars isKey)
      ('\\' :: e :: rest) = run stack (.chars isKey) rest := by
  have hu : e ≠ 'u' := by
    rintro rfl
    cases h
  simp [run, move, hu, h]

theorem run_spellsChar {cs : List Char} {c : Char} (h : SpellsChar cs c) (stack : List Opening)
    (isKey : Bool) (rest : List Char) :
    run stack (.chars isKey) (cs ++ rest) = run stack (.chars isKey) rest := by
  cases h with
  | plain h hq hb => exact run_go (by simp [move, hq, hb, Nat.not_lt.2 h]) rest
  | short h => exact run_short h stack isKey rest
  | unit h _ _ => exact run_unit h stack isKey rest
  | pair hn _ hm _ => exact (run_unit hn stack isKey _).trans (run_unit hm stack isKey rest)

theorem run_spellsChars {cs s : List Char} (h : SpellsChars cs s) (stack : List Opening)
    (isKey : Bool) (rest : List Char) : run stack (.chars isKey)
    (cs ++ rest) = run stack (.chars isKey) rest := by
  induction h with
  | nil => rfl
  | cons h _ ih => rw [List.append_assoc, run_spellsChar h, ih]

theorem run_text {cs : List Char} {s : String} (h : SpellsText cs s) (stack : List Opening)
    (rest : List Char) : run stack .value (cs ++ rest) = finish stack rest := by
  obtain ⟨h⟩ := h
  rw [List.cons_append, List.append_assoc, run_go (t := .chars false) rfl, run_spellsChars h]
  exact run_close rfl rest

theorem run_key {cs : List Char} {s : String} (h : SpellsText cs s) (stack : List Opening)
    (rest : List Char) : run stack .key (cs ++ rest) = run stack .colon rest := by
  obtain ⟨h⟩ := h
  rw [List.cons_append, List.append_assoc, run_go (t := .chars true) rfl, run_spellsChars h]
  exact run_go rfl rest

/-! ## Numbers -/

namespace Number

/-- The number with more characters, if all of them belong to it. -/
def extendAll? (n : Number) (cs : List Char) : Option Number := cs.foldlM extend? n

theorem extendAll_append {n m : Number} {cs : List Char} (h : n.extendAll? cs = some m)
    (ds : List Char) : n.extendAll? (cs ++ ds) = m.extendAll? ds := by
  rw [extendAll?, List.foldlM_append, ← extendAll?, h]
  rfl

theorem extendAll_digits {n : Number} (hn : ∀ c : Char, c.isDigit = true → n.extend? c = some n)
    {cs : List Char} (h : ∀ c ∈ cs, c.isDigit = true) : n.extendAll? cs = some n := by
  induction cs with
  | nil => rfl
  | cons c cs ih =>
    rw [extendAll?, List.foldlM_cons, hn c (h c List.mem_cons_self)]
    exact ih fun d hd => h d (List.mem_cons_of_mem _ hd)

theorem isDigit_of_mem_write {ds : Digits} {c : Char} (h : c ∈ ds.write) : c.isDigit = true := by
  have hdigit : ∀ d : Fin 10, (Nat.digitChar d.val).isDigit = true := by decide
  obtain ⟨d, -, rfl⟩ := List.mem_map.1 h
  exact hdigit d

/-- The digits behind a point or behind an exponent's letter. -/
theorem extendAll_write {n m : Number} (hn : ∀ c : Char, c.isDigit = true → n.extend? c = some m)
    (hm : ∀ c : Char, c.isDigit = true → m.extend? c = some m) (ds : Digits) :
    n.extendAll? ds.write = some m := by
  have hdigits : ∀ c ∈ ds.write, c.isDigit = true := fun c hc => isDigit_of_mem_write hc
  rw [Digits.write, List.map_cons] at hdigits ⊢
  obtain ⟨hfirst, hrest⟩ := List.forall_mem_cons.1 hdigits
  rw [extendAll?, List.foldlM_cons, hn _ hfirst]
  exact extendAll_digits hm hrest

theorem extendAll_writeNat (n : Nat) :
    ∃ k, (k = zero ∨ k = whole) ∧ minus.extendAll? (writeNat n) = some k := by
  by_cases hn : n = 0
  · subst hn
    exact ⟨zero, .inl rfl, rfl⟩
  · obtain ⟨c, cs, hcs, hdigit, hdigits⟩ := writeNat_eq_cons n
    refine ⟨whole, .inr rfl, ?_⟩
    rw [hcs, extendAll?, List.foldlM_cons, extend?, if_neg (head_writeNat_ne_zero hn hcs),
      if_pos hdigit]
    exact extendAll_digits (fun d hd => by rw [extend?, if_pos hd]) hdigits

theorem extendAll_writeFraction (n : Numeral) {k : Number} (hk : k = zero ∨ k = whole) :
    ∃ m, (m = zero ∨ m = whole ∨ m = fraction) ∧ k.extendAll? n.writeFraction = some m := by
  rw [Numeral.writeFraction]
  cases n.fraction with
  | none => exact ⟨k, hk.imp_right .inl, rfl⟩
  | some ds =>
    have hpoint : k.extend? '.' = some point := by
      obtain rfl | rfl := hk <;> rfl
    refine ⟨fraction, .inr (.inr rfl), ?_⟩
    rw [extendAll?, List.foldlM_cons, hpoint]
    exact extendAll_write (fun d hd => by rw [extend?, if_pos hd])
      (fun d hd => by rw [extend?, if_pos hd]) ds

theorem extendAll_exponent (e : Exponent) {m : Number} (hm : m = zero ∨ m = whole ∨ m = fraction) :
    m.extendAll? e.write = some power := by
  have hletter : m.extend? (if e.capital then 'E' else 'e') = some exponent := by
    obtain rfl | rfl | rfl := hm <;> cases e.capital <;> rfl
  have hpower : ∀ d : Char, d.isDigit = true → power.extend? d = some power :=
    fun d hd => by rw [extend?, if_pos hd]
  rw [Exponent.write, List.cons_append, extendAll?, List.foldlM_cons, hletter]
  cases e.minus with
  | none => exact extendAll_write (fun d hd => by rw [extend?, if_pos hd]) hpower e.digits
  | some minus =>
    have hsign : exponent.extend? (if minus then '-' else '+') = some sign := by
      cases minus <;> rfl
    cases minus <;> exact extendAll_write (n := sign)
      (fun d hd => by rw [extend?, if_pos hd]) hpower e.digits

theorem extendAll_unsigned (n : Numeral) :
    ∃ m : Number, m.complete = true ∧
      minus.extendAll? (writeNat n.whole ++ (n.writeFraction ++ n.writeExponent)) = some m := by
  obtain ⟨k, hk, hwhole⟩ := extendAll_writeNat n.whole
  obtain ⟨m, hm, hfraction⟩ := extendAll_writeFraction n hk
  rw [extendAll_append hwhole, extendAll_append hfraction, Numeral.writeExponent]
  cases n.exponent with
  | none => exact ⟨m, by obtain rfl | rfl | rfl := hm <;> rfl, rfl⟩
  | some e => exact ⟨power, rfl, extendAll_exponent e hm⟩

end Number

theorem run_extendAll {n m : Number} {cs : List Char} (h : n.extendAll? cs = some m)
    (stack : List Opening) (rest : List Char) :
    run stack (.number n) (cs ++ rest) = run stack (.number m) rest := by
  induction cs generalizing n with
  | nil => cases h; rfl
  | cons c cs ih =>
    simp only [Number.extendAll?, List.foldlM_cons, Option.bind_eq_bind,
      Option.bind_eq_some_iff] at h
    obtain ⟨k, hk, h⟩ := h
    rw [List.cons_append, run_go (by rw [move, hk]), ih h]

/-- A complete number ends at the first character that cannot belong to it. -/
theorem run_number_end {n : Number} (hn : n.complete = true) {rest : List Char} (h : Ends rest)
    (stack : List Opening) : run stack (.number n) rest = finish stack rest := by
  cases rest with
  | nil => cases stack <;> simp [run, finish, hn]
  | cons c rest =>
    have hc : n.extend? c = none := by
      obtain hs | rfl | rfl | rfl := h c rfl
      · simp only [isSpace, Bool.or_eq_true, decide_eq_true_eq] at hs
        obtain ((rfl | rfl) | rfl) | rfl := hs <;> cases n <;> rfl
      all_goals cases n <;> rfl
    cases stack with
    | nil => simp [run, move, hc, hn, finish]
    | cons o stack => by_cases hs : isSpace c = true <;> simp [run, move, hc, hn, finish, hs]

theorem run_digit {c : Char} (h : c.isDigit = true) (stack : List Opening) (rest : List Char) :
    run stack .value (c :: rest) = run stack (.number .minus) (c :: rest) := by
  have hs : isSpace c = false := not_isSpace_of_isDigit h
  have hne : c ≠ '"' ∧ c ≠ '[' ∧ c ≠ '\x7b' ∧ c ≠ '-' := by
    refine ⟨?_, ?_, ?_, ?_⟩ <;> rintro rfl <;> contradiction
  obtain ⟨hq, hl, ho, hm⟩ := hne
  rw [run, run, move, move, if_neg (by simp [hs]), beginValue, if_neg hq, if_neg hl, if_neg ho,
    if_neg hm, Number.extend?]
  by_cases hz : c = '0'
  · simp only [if_pos hz]
  · simp only [if_neg hz, if_pos h]

theorem run_numeral (n : Numeral) {rest : List Char} (h : Ends rest) (stack : List Opening) :
    run stack .value (n.write ++ rest) = finish stack rest := by
  obtain ⟨m, hm, hall⟩ := Number.extendAll_unsigned n
  rw [Numeral.write, List.append_assoc]
  cases n.negative with
  | true =>
    rw [if_pos rfl, List.singleton_append, run_go (t := .number .minus) rfl, run_extendAll hall,
      run_number_end hm h]
  | false =>
    rw [if_neg (by decide), List.nil_append, ← run_number_end hm h stack, ← run_extendAll hall]
    obtain ⟨c, cs, hcs, hc, -⟩ := writeNat_eq_cons n.whole
    rw [hcs]
    exact run_digit hc stack _

/-! ## Values -/

theorem run_firstValue {cs : List Char} {v : Value} (h : Spells cs v) (stack : List Opening)
    (rest : List Char) : run stack .firstValue (cs ++ rest) = run stack .value (cs ++ rest) := by
  obtain ⟨c, tail, rfl, hs, hc⟩ := h.head
  simp [run, move, hs, hc]

theorem run_firstKey {cs : List Char} {m : String × Value} (h : SpellsMember cs m)
    (stack : List Opening) (rest : List Char) :
    run stack .firstKey (cs ++ rest) = run stack .key (cs ++ rest) := by
  obtain ⟨⟨_⟩⟩ := h
  rfl

/-- Behind the opening of a list that is not empty the same may come as behind a comma. -/
theorem run_firstItem {cs : List Char} {items : List Value} (h : SpellsItems cs items)
    (hne : items ≠ []) (stack : List Opening) (rest : List Char) :
    run stack .firstValue (cs ++ rest) = run stack .value (cs ++ rest) := by
  cases h with
  | nil _ => contradiction
  | one hb h _ | cons hb h _ _ =>
    simp only [List.append_assoc]
    rw [run_blank rfl hb, run_blank rfl hb, run_firstValue h]

theorem run_firstMember {cs : List Char} {members : List (String × Value)}
    (h : SpellsMembers cs members) (hne : members ≠ []) (stack : List Opening) (rest : List Char) :
    run stack .firstKey (cs ++ rest) = run stack .key (cs ++ rest) := by
  cases h with
  | nil _ => contradiction
  | one hb h _ | cons hb h _ _ =>
    simp only [List.append_assoc]
    rw [run_blank rfl hb, run_blank rfl hb, run_firstKey h]

mutual

/-- The run passes over a value, whatever is open around it: by induction on how the value is
written, together with the items and the members inside of it. -/
theorem run_spells {cs : List Char} {v : Value} (h : Spells cs v) {rest : List Char}
    (he : Ends rest) (stack : List Opening) :
    run stack .value (cs ++ rest) = finish stack rest := by
  match h with
  | .null => exact run_close rfl rest
  | .yes => exact run_close rfl rest
  | .no => exact run_close rfl rest
  | .number n => exact run_numeral n he stack
  | .text h => exact run_text h stack rest
  | @Spells.list cs items h =>
    rw [List.cons_append, List.append_assoc, run_go (t := .firstValue) rfl]
    by_cases hne : items = []
    · subst hne
      obtain ⟨hb⟩ := h
      rw [run_blank rfl hb]
      exact run_close rfl rest
    · rw [run_firstItem h hne]
      exact run_items h hne stack rest
  | @Spells.object cs members h =>
    rw [List.cons_append, List.append_assoc, run_go (t := .firstKey) rfl]
    by_cases hne : members = []
    · subst hne
      obtain ⟨hb⟩ := h
      rw [run_blank rfl hb]
      exact run_close rfl rest
    · rw [run_firstMember h hne]
      exact run_members h hne stack rest
termination_by structural h

theorem run_items {cs : List Char} {items : List Value} (h : SpellsItems cs items)
    (hne : items ≠ []) (stack : List Opening) (rest : List Char) :
    run (.list :: stack) .value (cs ++ ([']'] ++ rest)) = finish stack rest := by
  match h with
  | .nil _ => contradiction
  | .one hb h ha =>
    have he : Ends ([']'] ++ rest) := .cons (by simp) rest
    rw [List.append_assoc, List.append_assoc, run_blank rfl hb, run_spells h (he.append ha),
      finish_cons, run_blank rfl ha]
    exact run_close rfl rest
  | .cons hb h ha hr =>
    have he (tail) : Ends (',' :: (tail ++ ([']'] ++ rest))) := .cons (by simp) _
    rw [List.append_assoc, List.append_assoc, List.append_assoc, List.cons_append, run_blank rfl hb,
      run_spells h ((he _).append ha), finish_cons, run_blank rfl ha, run_go (t := .value) rfl]
    exact run_items hr (List.cons_ne_nil _ _) stack rest
termination_by structural h

theorem run_member {cs : List Char} {m : String × Value} (h : SpellsMember cs m) {rest : List Char}
    (he : Ends rest) (stack : List Opening) :
    run (.object :: stack) .key (cs ++ rest) = run (.object :: stack) .afterValue rest := by
  match h with
  | .pair hk hb ha h =>
    simp only [List.append_assoc, List.cons_append]
    rw [run_key hk, run_blank rfl hb, run_go (t := .value) rfl, run_blank rfl ha, run_spells h he,
      finish_cons]
termination_by structural h

theorem run_members {cs : List Char} {members : List (String × Value)}
    (h : SpellsMembers cs members) (hne : members ≠ []) (stack : List Opening) (rest : List Char) :
    run (.object :: stack) .key (cs ++ (['\x7d'] ++ rest)) = finish stack rest := by
  match h with
  | .nil _ => contradiction
  | .one hb h ha =>
    have he : Ends (['\x7d'] ++ rest) := .cons (by simp) rest
    rw [List.append_assoc, List.append_assoc, run_blank rfl hb, run_member h (he.append ha),
      run_blank rfl ha]
    exact run_close rfl rest
  | .cons hb h ha hr =>
    have he (tail) : Ends (',' :: (tail ++ (['\x7d'] ++ rest))) := .cons (by simp) _
    rw [List.append_assoc, List.append_assoc, List.append_assoc, List.cons_append, run_blank rfl hb,
      run_member h ((he _).append ha), run_blank rfl ha, run_go (t := .key) rfl]
    exact run_members hr (List.cons_ne_nil _ _) stack rest
termination_by structural h

end

/-- Passing over one value ends just behind it. -/
theorem value_spells {cs : List Char} {v : Value} (h : Spells cs v) {rest : List Char}
    (he : Ends rest) : value (cs ++ rest) = some rest :=
  run_spells h he []

end Courier.Json.Skip

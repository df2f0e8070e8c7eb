import Courier.Proofs.Json.Literals

/-!
# Reading values that are asked for

A reader that asks for one kind of value gives it back with the characters behind, or fails on a
value of another kind. One case lies between: from a number with a fraction or an exponent it takes
the digits in front and leaves the others, and then no group, and no text as a whole, goes on there.
Of an object it reads all members, or none if it fails on one.
-/
namespace Courier.Json
variable {α β : Type}

/-- What a reader makes of a value from which it should have the one given, or none. -/
inductive Comes (rest : List Char) : Option α → Option (α × List Char) → Prop
  | read (a : α) : Comes rest (some a) (some (a, rest))
  | fail : Comes rest none none
  | short (a : α) {c : Char} (left : List Char) (h : c = '.' ∨ c = 'e' ∨ c = 'E') :
      Comes rest none (some (a, c :: left))

theorem Comes.map {rest : List Char} {a? : Option α} {result : Option (α × List Char)}
    (h : Comes rest a? result) (f : α → β) :
    Comes rest (a?.map f) (result.bind fun p => some (f p.1, p.2)) := by
  cases h with
  | read a => exact .read (f a)
  | fail => exact .fail
  | short a left h => exact .short (f a) left h

/-! ## Numbers of 64 bits -/

/-- The natural number, if it is written without a sign, a fraction and an exponent. -/
def Numeral.natural? (n : Numeral) : Option Nat :=
  if n.negative || n.fraction.isSome || n.exponent.isSome then none else some n.whole

/-- The natural number that fits 64 bits. -/
def Value.word? : Value → Option UInt64
  | .number n => n.natural?.bind fun n => if n < UInt64.size then some n.toUInt64 else none
  | _ => none

theorem readWord_writeNat {n : Nat} {rest : List Char} (h : ∀ c ∈ rest.head?, c.isDigit = false) :
    readWord (writeNat n ++ rest) = if n < UInt64.size then some (n.toUInt64, rest) else none := by
  rw [readWord, readNat_writeNat h]
  rfl

/-- A number is its digits alone, or begins with a minus, or goes on behind its digits. -/
theorem Numeral.write_cases (n : Numeral) :
    (n.natural? = some n.whole ∧ n.write = writeNat n.whole) ∨
      (n.natural? = none ∧ ∃ left, n.write = '-' :: left) ∨
      (n.natural? = none ∧ ∃ c left, n.write = writeNat n.whole ++ c :: left ∧
        (c = '.' ∨ c = 'e' ∨ c = 'E')) := by
  obtain ⟨negative, whole, fraction, exponent⟩ := n
  cases negative with
  | true => exact .inr (.inl ⟨rfl, _, rfl⟩)
  | false =>
    cases fraction with
    | some ds => exact .inr (.inr ⟨rfl, _, _, rfl, .inl rfl⟩)
    | none =>
      cases exponent with
      | none => exact .inl ⟨rfl, List.append_nil _⟩
      | some e =>
        refine .inr (.inr ⟨rfl, _, _, rfl, ?_⟩)
        cases e.capital <;> decide

theorem comes_readWord_write (n : Numeral) {rest : List Char} (he : Ends rest) :
    Comes rest (Value.number n).word? (readWord (n.write ++ rest)) := by
  rw [Value.word?]
  obtain ⟨hn, hw⟩ | ⟨hn, left, hw⟩ | ⟨hn, c, left, hw, hc⟩ := n.write_cases
  · rw [hn, hw, readWord_writeNat he.not_isDigit, Option.bind_some]
    split
    next => exact .read _
    next => exact .fail
  · rw [hn, hw]
    exact .fail
  · have hdigit : c.isDigit = false := by
      obtain rfl | rfl | rfl := hc <;> rfl
    rw [hn, hw, List.append_assoc, List.cons_append, readWord_writeNat (by simpa using hdigit)]
    split
    next => exact .short _ _ hc
    next => exact .fail

theorem comes_readWord {cs : List Char} {v : Value} (h : Spells cs v) {rest : List Char}
    (he : Ends rest) : Comes rest v.word? (readWord (cs ++ rest)) := by
  cases h with
  | number n => exact comes_readWord_write n he
  | null => exact .fail
  | yes => exact .fail
  | no => exact .fail
  | text h =>
    obtain ⟨h⟩ := h
    exact .fail
  | list h => exact .fail
  | object h => exact .fail

/-! ## Members of objects -/

/-- A key and its colon are read up to where the value begins. -/
theorem readKey_member {cs : List Char} {key : String} {v : Value} (h : SpellsMember cs (key, v)) :
    ∃ value, Spells value v ∧ ∀ rest, readKey (cs ++ rest) = some (key, value ++ rest) := by
  cases h with
  | pair hk hb ha h =>
    refine ⟨_, h, fun rest => ?_⟩
    simp only [List.append_assoc, List.cons_append, readKey, readText_spells hk,
      Option.bind_eq_bind, Option.bind_some, skipSpace_append hb, skipSpace_append ha,
      skipSpace_value h,
      skipSpace_cons (show isSpace ':' = false from rfl)]
    rfl

/-- The reader of one member: it gets from each member what it should, whatever comes behind. -/
def ReadsMember (member : List Char → Option (α × List Char)) (f : String × Value → Option α) :
    Prop :=
  ∀ {cs m rest}, SpellsMember cs m → Ends rest → Comes rest (f m) (member (cs ++ rest))

section
variable {member : List Char → Option (α × List Char)} {f : String × Value → Option α}

theorem readMembers_step (hm : ReadsMember member f) {before cs after : List Char}
    {m : String × Value} (hb : IsBlank before) (h : SpellsMember cs m) (ha : IsBlank after)
    {c : Char} (hc : c = ',' ∨ c = '\x7d') (rest : List Char) (fuel : Nat) :
    readMembers '\x7d' member (fuel + 1) (before ++ (cs ++ (after ++ c :: rest))) =
      (f m).bind fun a =>
        if c = ',' then (readMembers '\x7d' member fuel rest).map fun p => (a :: p.1, p.2)
        else some ([a], rest) := by
  have hs : isSpace c = false := by
    obtain rfl | rfl := hc <;> rfl
  have he : Ends (c :: rest) := .cons (hc.imp_right .inr) rest
  have hcomes := hm h (he.append ha)
  rw [readMembers, skipSpace_append hb, skipSpace_member h]
  generalize f m = a?, member (cs ++ (after ++ c :: rest)) = result at hcomes
  cases hcomes with
  | fail => rfl
  | read a =>
    simp only [Option.bind_eq_bind, Option.bind_some, skipSpace_append ha, skipSpace_cons hs]
    obtain rfl | rfl := hc
    · cases readMembers '\x7d' member fuel rest <;> rfl
    · rfl
  | @short a d left hd =>
    obtain rfl | rfl | rfl := hd <;> rfl

theorem readMembers_spells (hm : ReadsMember member f) {cs : List Char}
    {members : List (String × Value)} (h : SpellsMembers cs members) (hne : members ≠ [])
    (rest : List Char) {fuel : Nat} (hfuel : members.length ≤ fuel) :
    readMembers '\x7d' member fuel (cs ++ '\x7d' :: rest) = (members.mapM f).map fun as =>
      (as, rest) := by
  induction members generalizing cs fuel with
  | nil => contradiction
  | cons m members ih =>
    cases fuel with
    | zero => simp at hfuel
    | succ fuel =>
      cases h with
      | one hb h ha =>
        rw [List.append_assoc, List.append_assoc, readMembers_step hm hb h ha (.inr rfl)]
        rw [List.mapM_cons, List.mapM_nil]
        cases f m <;> rfl
      | @cons _ _ _ _ _ n members hb h ha hr =>
        have hsplit : (m :: n :: members).mapM f =
            (f m).bind fun a => ((n :: members).mapM f).bind fun as => some (a :: as) :=
          List.mapM_cons
        rw [List.append_assoc, List.append_assoc, List.append_assoc, List.cons_append,
          readMembers_step hm hb h ha (.inl rfl),
          ih hr (List.cons_ne_nil _ _) (by simpa using hfuel), hsplit]
        cases f m with
        | none => rfl
        | some a => cases (n :: members).mapM f <;> rfl

theorem SpellsMembers.length_le {cs : List Char} {members : List (String × Value)}
    (h : SpellsMembers cs members) : members.length ≤ cs.length + 1 := by
  induction members generalizing cs with
  | nil => simp
  | cons m members ih =>
    cases h with
    | one _ _ _ => simp
    | cons _ _ _ hr =>
      have := ih hr
      simp only [List.length_cons, List.length_append] at this ⊢
      omega

/-- The members begin with the quote of a key. -/
theorem SpellsMembers.head {cs : List Char} {members : List (String × Value)}
    (h : SpellsMembers cs members) (hne : members ≠ []) :
    ∃ before tail, IsBlank before ∧ cs = before ++ '"' :: tail ∧
    SpellsMembers ('"' :: tail) members := by
  cases h with
  | nil _ => contradiction
  | one hb h ha =>
    have hall := SpellsMembers.one (List.forall_mem_nil _) h ha
    obtain ⟨⟨_⟩⟩ := h
    exact ⟨_, _, hb, rfl, hall⟩
  | cons hb h ha hr =>
    have hall := SpellsMembers.cons (List.forall_mem_nil _) h ha hr
    obtain ⟨⟨_⟩⟩ := h
    exact ⟨_, _, hb, rfl, hall⟩

/-- All members of an object are read, or none. -/
theorem readGroup_spells (hm : ReadsMember member f) {cs : List Char}
    {members : List (String × Value)} (h : SpellsMembers cs members) (rest : List Char) :
    readGroup '\x7d' member (cs ++ '\x7d' :: rest) = (members.mapM f).map fun as => (as, rest) := by
  by_cases hne : members = []
  · subst hne
    obtain ⟨hb⟩ := h
    rw [readGroup, skipSpace_append hb]
    rfl
  · have hfuel : members.length ≤ (cs ++ '\x7d' :: rest).length + 1 := by
      have := h.length_le
      simp only [List.length_append]
      omega
    obtain ⟨before, tail, hb, rfl, hq⟩ := h.head hne
    rw [List.append_assoc] at hfuel ⊢
    rw [readGroup, skipSpace_append hb]
    exact readMembers_spells hm hq hne rest hfuel

end

end Courier.Json

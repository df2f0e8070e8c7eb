/-!
# Maps from texts

Finite maps with texts as keys, kept in the order of the keys, so that two maps with the same
entries are equal and are written down in one way. Of several entries with one key the last one
counts.
-/
namespace Courier

/-- Entries in ascending order of their keys, each key once. -/
structure TextMap (α : Type) where
  entries : List (String × α)
  ascending : entries.Pairwise fun a b => a.1 < b.1

namespace TextMap
variable {α : Type}

@[ext] theorem ext {m n : TextMap α} (h : m.entries = n.entries) : m = n := by
  cases m; cases n; cases h; rfl

instance [DecidableEq α] : DecidableEq (TextMap α) := fun m n =>
  if h : m.entries = n.entries then isTrue (ext h) else isFalse fun e => h (e ▸ rfl)

instance [Repr α] : Repr (TextMap α) := ⟨fun m n => reprPrec m.entries n⟩

def empty : TextMap α := ⟨[], List.Pairwise.nil⟩

instance : Inhabited (TextMap α) := ⟨empty⟩

def size (m : TextMap α) : Nat := m.entries.length

def get? (m : TextMap α) (key : String) : Option α := m.entries.lookup key

/-- Puts an entry at its place, unless the key is taken. -/
def insertEntry (key : String) (value : α) : List (String × α) → List (String × α)
  | [] => [(key, value)]
  | (k, v) :: rest =>
    if key < k then (key, value) :: (k, v) :: rest
    else if key = k then (k, v) :: rest
    else (k, v) :: insertEntry key value rest

theorem mem_insertEntry {key : String} {value : α} {l : List (String × α)} {x : String × α}
    (h : x ∈ insertEntry key value l) : x = (key, value) ∨ x ∈ l := by
  induction l with
  | nil => simpa [insertEntry] using h
  | cons e rest ih =>
    obtain ⟨k, v⟩ := e
    simp only [insertEntry] at h
    split at h
    · simpa using h
    · split at h
      · exact .inr h
      · rcases List.mem_cons.1 h with h | h
        · exact .inr (h ▸ List.mem_cons_self)
        · exact (ih h).imp_right (List.mem_cons_of_mem _)

theorem ascending_insertEntry {key : String} {value : α} {l : List (String × α)}
    (h : l.Pairwise fun a b => a.1 < b.1) :
    (insertEntry key value l).Pairwise fun a b => a.1 < b.1 := by
  induction l with
  | nil => simp [insertEntry]
  | cons e rest ih =>
    obtain ⟨k, v⟩ := e
    obtain ⟨hk, hr⟩ := List.pairwise_cons.1 h
    simp only [insertEntry]
    split
    · rename_i hlt
      refine List.pairwise_cons.2 ⟨fun x hx => ?_, h⟩
      rcases List.mem_cons.1 hx with rfl | hx
      · exact hlt
      · exact String.lt_trans hlt (hk x hx)
    · split
      · exact h
      · rename_i hlt hne
        refine List.pairwise_cons.2 ⟨fun x hx => ?_, ih hr⟩
        rcases mem_insertEntry hx with rfl | hx
        · exact String.not_le.1 fun hle => hne (String.le_antisymm hle (String.not_lt.1 hlt))
        · exact hk x hx

/-- Adds an entry unless its key is taken. -/
def insertNew (m : TextMap α) (key : String) (value : α) : TextMap α :=
  ⟨insertEntry key value m.entries, ascending_insertEntry m.ascending⟩

/-- The map of a list of entries; of several with one key the last one counts. -/
def ofList (l : List (String × α)) : TextMap α :=
  l.foldr (fun e m => m.insertNew e.1 e.2) empty

/-- An entry below all keys goes to the front. -/
theorem insertEntry_of_lt {key : String} {value : α} {l : List (String × α)}
    (h : ∀ x ∈ l, key < x.1) : insertEntry key value l = (key, value) :: l := by
  cases l with
  | nil => rfl
  | cons e rest => simp [insertEntry, h e List.mem_cons_self]

/-- Writing a map down as a list loses nothing. -/
@[simp] theorem ofList_entries (m : TextMap α) : ofList m.entries = m := by
  obtain ⟨l, hl⟩ := m
  apply ext
  show (ofList l).entries = l
  induction l with
  | nil => rfl
  | cons e rest ih =>
    obtain ⟨he, hr⟩ := List.pairwise_cons.1 hl
    show insertEntry e.1 e.2 (ofList rest).entries = e :: rest
    rw [ih hr, insertEntry_of_lt he]

/-- A new entry is found under its key unless the key was taken. -/
theorem lookup_insertEntry {l : List (String × α)} (h : l.Pairwise fun a b => a.1 < b.1)
    (key : String) (value : α) (k : String) :
    (insertEntry key value l).lookup k = (l.lookup k).or ([(key, value)].lookup k) := by
  induction l with
  | nil => rfl
  | cons e rest ih =>
    obtain ⟨x, v⟩ := e
    obtain ⟨hx, hr⟩ := List.pairwise_cons.1 h
    rw [insertEntry]
    split
    next hlt =>
      by_cases hk : k = key
      · subst hk
        have hnone : ((x, v) :: rest).lookup k = none := by
          refine List.lookup_eq_none_iff.2 fun e he => ?_
          have hlt : k < e.1 := by
            obtain rfl | he := List.mem_cons.1 he
            · exact hlt
            · exact String.lt_trans hlt (hx e he)
          exact bne_iff_ne.2 fun heq => String.lt_irrefl _ (heq ▸ hlt)
        rw [hnone, List.lookup_cons_self, Option.none_or, List.lookup_cons_self]
      · have hne : (k == key) = false := beq_false_of_ne hk
        have hone : [(key, value)].lookup k = none := by
          rw [List.lookup_cons, hne]
          rfl
        rw [hone, Option.or_none, List.lookup_cons, hne]
    next =>
      split
      next heq =>
        subst heq
        rw [List.lookup_cons, List.lookup_cons]
        cases k == key <;> simp
      next hne =>
        rw [List.lookup_cons, List.lookup_cons, ih hr]
        cases k == x <;> rfl

/-- Of several entries with one key the last one counts. -/
theorem get?_ofList (l : List (String × α)) (key : String) :
    (ofList l).get? key = l.reverse.lookup key := by
  induction l with
  | nil => rfl
  | cons e l ih =>
    show (insertEntry e.1 e.2 (ofList l).entries).lookup key = _
    rw [lookup_insertEntry (ofList l).ascending, List.reverse_cons, List.lookup_append, ← ih]
    rfl

/-- A new key comes with one entry more. -/
theorem insertEntry_perm {key : String} (value : α) {l : List (String × α)}
    (h : key ∉ l.map Prod.fst) : (insertEntry key value l).Perm ((key, value) :: l) := by
  induction l with
  | nil => exact .refl _
  | cons e rest ih =>
    obtain ⟨k, v⟩ := e
    obtain ⟨hne, hrest⟩ : key ≠ k ∧ key ∉ rest.map Prod.fst := by simpa using h
    rw [insertEntry, if_neg hne]
    split
    · exact .refl _
    · exact ((ih hrest).cons _).trans (.swap _ _ _)

/-- Entries with different keys are kept, all of them. -/
theorem entries_ofList_perm {l : List (String × α)} (h : (l.map Prod.fst).Nodup) :
    (ofList l).entries.Perm l := by
  induction l with
  | nil => exact .refl _
  | cons e rest ih =>
    obtain ⟨hnew, hrest⟩ := List.nodup_cons.1 h
    have hkept := ih hrest
    have hfresh : e.1 ∉ (ofList rest).entries.map Prod.fst := fun hmem =>
      hnew ((hkept.map Prod.fst).mem_iff.1 hmem)
    exact (insertEntry_perm e.2 hfresh).trans (hkept.cons e)

/-- What is found under a key is its entry. -/
theorem get?_eq_some_iff {m : TextMap α} {key : String} {value : α} :
    m.get? key = some value ↔ (key, value) ∈ m.entries := by
  obtain ⟨l, hl⟩ := m
  show l.lookup key = some value ↔ (key, value) ∈ l
  induction l with
  | nil => simp
  | cons e rest ih =>
    obtain ⟨k, v⟩ := e
    obtain ⟨hk, hr⟩ := List.pairwise_cons.1 hl
    rw [List.lookup_cons]
    by_cases h : key = k
    · subst h
      have hnot : (key, value) ∉ rest := fun hmem => String.lt_irrefl key (hk _ hmem)
      simp [hnot, eq_comm]
    · rw [beq_false_of_ne h]
      simp [h, ih hr]

end TextMap

end Courier

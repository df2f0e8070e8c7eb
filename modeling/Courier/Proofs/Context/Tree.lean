import Mathlib.Data.List.Basic
import Courier.Context

/-!
# Trees of contexts

Contexts that are made from nothing and derived from one another in any order, canceled in any
order, while time passes. Beside each context its path is written down: how it came to be, how the
one came to be that it was derived from, and so on. A tree is sound if its contexts are what their
paths say; it is so from the start, and everything that can be done to it keeps it sound.
-/
namespace Courier.Context

/-- How the context of a number came to be: whether it was given a scope of its own, and the
deadline that it was given, whatever it had before. -/
structure Link where
  number : Nat
  opens : Bool
  deadline : Option Instant

/-- A context of a tree. Its path tells how it came to be, then the one from which it was derived,
and so on. -/
structure Member where
  context : Context
  path : List Link

namespace Member

/-- The contexts on the path, by number: the context itself and all from which it descends. -/
def line (m : Member) : List Nat := m.path.map Link.number

/-- The context in whose scope the context is: the first one on its path that was given a scope. -/
def host? (m : Member) : Option Nat := (m.path.find? Link.opens).map Link.number

/-- The context was given a scope of its own. -/
def opens (m : Member) : Bool := m.path.head?.any Link.opens

end Member

/-- The contexts in the order in which they were made, each known by its place, and those that were
canceled themselves, the latest first. -/
structure Tree where
  now : Instant
  scopes : Scopes
  members : List Member
  canceled : List Nat

/-- What can be done to a tree. -/
inductive Deed
  | background
  | withTimeout (of : Nat) (timeout : Span)
  | withDeadline (of : Nat) (deadline : Instant)
  | withCancel (of : Nat)
  | clone (of : Nat)
  | cancel (of : Nat)
  | advance (span : Span)

namespace Tree

def start (now : Instant) : Tree := ⟨now, .none, [], []⟩

/-- A context is added, with the scopes as they are then. -/
def add (t : Tree) (made : Context × Scopes) (opens : Bool) (deadline : Option Instant)
    (origin : List Link) : Tree :=
  { t with
    scopes := made.2
    members := t.members ++ [⟨made.1, ⟨t.members.length, opens, deadline⟩ :: origin⟩] }

/-- Does something with the context of the number, if there is one. -/
def withMember (t : Tree) (of : Nat) (act : Member → Tree) : Tree := t.members[of]?.elim t act

def perform (t : Tree) : Deed → Tree
  | .background => t.add (Context.background t.scopes) true none []
  | .withTimeout of timeout =>
    t.withMember of fun m =>
      t.add (m.context.withTimeout t.now timeout, t.scopes) false (some (t.now + timeout)) m.path
  | .withDeadline of deadline =>
    t.withMember of fun m =>
      t.add (m.context.withDeadline deadline, t.scopes) false (some deadline) m.path
  | .withCancel of =>
    t.withMember of fun m => t.add (m.context.withCancel t.scopes) true none m.path
  | .clone of => t.withMember of fun m => t.add (m.context, t.scopes) false none m.path
  | .cancel of =>
    t.withMember of fun m =>
      { t with scopes := m.context.cancel t.scopes, canceled := of :: t.canceled }
  | .advance span => { t with now := t.now + span }

/-- One deed after the other. -/
def after (t : Tree) (deeds : List Deed) : Tree := deeds.foldl perform t

/-- Whether a context of the tree is done, and why. -/
def done? (t : Tree) (m : Member) : Option Done := m.context.done? t.scopes t.now

/-- The scope of a context that was given one: so many contexts were given one before. -/
def scopeAt (t : Tree) (number : Nat) : Scope := (t.members.take number).countP Member.opens

/-! ## Sound trees -/

/-- What a context is like by its path. The path begins with a context that was made from nothing,
and every context was made before those that were derived from it. Whatever is on the path is a
context of the tree, with the rest of the path for its own. -/
structure Fits (t : Tree) (m : Member) : Prop where
  deadline : m.context.deadline = (m.path.filterMap Link.deadline).min?
  lineage : m.context.lineage = (m.path.filter Link.opens).map fun l => t.scopeAt l.number
  rooted : ∃ l ∈ m.path, l.opens = true
  descending : m.line.Pairwise (· > ·)
  ancestors :
    ∀ l rest, l :: rest <:+ m.path → ∃ m', t.members[l.number]? = some m' ∧ m'.path = l :: rest

/-- What holds of every tree. The canceled scopes are those of the contexts that were canceled. -/
structure Sound (t : Tree) : Prop where
  fits : ∀ m ∈ t.members, t.Fits m
  numbered : ∀ (n : Nat) m, t.members[n]? = some m → m.line.head? = some n
  next : t.scopes.next = t.scopeAt t.members.length
  canceled : ∀ s, s ∈ t.scopes.canceled ↔
    ∃ n ∈ t.canceled, ∃ m, t.members[n]? = some m ∧ m.context.lineage.head? = some s
  known : ∀ n ∈ t.canceled, n < t.members.length

theorem sound_start (now : Instant) : Sound (start now) where
  fits := List.forall_mem_nil _
  numbered n m h := by simp [start] at h
  next := rfl
  canceled s := by simp [start, Scopes.none]
  known := List.forall_mem_nil _

section Members
variable {t t' : Tree} {m : Member} {n : Nat}

/-- Contexts stay where they are when others are added. -/
theorem getElem?_members (hp : t.members <+: t'.members) (h : t.members[n]? = some m) :
    t'.members[n]? = some m := by
  obtain ⟨more, hmore⟩ := hp
  have hlt : n < t.members.length := (List.getElem?_eq_some_iff.1 h).1
  rw [← hmore, List.getElem?_append_left hlt, h]

theorem scopeAt_eq_of_le (hp : t.members <+: t'.members) (hn : n ≤ t.members.length) :
    t'.scopeAt n = t.scopeAt n := by
  obtain ⟨more, hmore⟩ := hp
  rw [scopeAt, ← hmore, List.take_append_of_le_length hn, scopeAt]

/-- Contexts on a path have a place in the tree. -/
theorem Fits.number_lt (h : t.Fits m) {l : Link} (hl : l ∈ m.path) :
    l.number < t.members.length := by
  obtain ⟨front, rest, hpath⟩ := List.append_of_mem hl
  obtain ⟨m', hm', -⟩ := h.ancestors l rest ⟨front, hpath.symm⟩
  exact (List.getElem?_eq_some_iff.1 hm').1

/-- A context stays what it is when others are added. -/
theorem Fits.mono (h : t.Fits m) (hp : t.members <+: t'.members) : t'.Fits m where
  deadline := h.deadline
  lineage := by
    rw [h.lineage]
    refine List.map_congr_left fun l hl => ?_
    exact (scopeAt_eq_of_le hp (Nat.le_of_lt (h.number_lt (List.mem_filter.1 hl).1))).symm
  rooted := h.rooted
  descending := h.descending
  ancestors l rest hs := by
    obtain ⟨m', hm', hpath⟩ := h.ancestors l rest hs
    exact ⟨m', getElem?_members hp hm', hpath⟩

theorem scopeAt_length (t : Tree) : t.scopeAt t.members.length = t.members.countP Member.opens := by
  rw [scopeAt, List.take_length]

/-- A context is made from nothing and gets a scope, or it is derived from one of the tree and has
the rest of its path from there. It adds what its link says to what it has from there. -/
structure Makes (t : Tree) (made : Context × Scopes) (opens : Bool) (deadline : Option Instant)
    (origin : List Link) : Prop where
  source : origin = [] ∧ opens = true ∨ ∃ m ∈ t.members, m.path = origin
  least : made.1.deadline = (deadline.toList ++ origin.filterMap Link.deadline).min?
  lineage : made.1.lineage = (if opens then [t.scopes.next] else []) ++
    (origin.filter Link.opens).map fun l => t.scopeAt l.number
  scopes : made.2 = ⟨t.scopes.next + opens.toNat, t.scopes.canceled⟩

section Makes
variable {made : Context × Scopes} {opens : Bool} {deadline : Option Instant} {origin : List Link}

theorem prefix_add : t.members <+: (t.add made opens deadline origin).members :=
  List.prefix_append _ _

theorem getElem?_add : (t.add made opens deadline origin).members[t.members.length]? =
    some ⟨made.1, ⟨t.members.length, opens, deadline⟩ :: origin⟩ := by
  simp [add]

theorem Sound.fits_add (ht : t.Sound) (hmade : t.Makes made opens deadline origin) :
    (t.add made opens deadline origin).Fits
      ⟨made.1, ⟨t.members.length, opens, deadline⟩ :: origin⟩ := by
  let t' : Tree := t.add made opens deadline origin
  have hp : t.members <+: t'.members := prefix_add
  have hlt : ∀ l ∈ origin, l.number < t.members.length := by
    obtain ⟨rfl, -⟩ | ⟨m, hm, rfl⟩ := hmade.source
    · exact List.forall_mem_nil _
    · exact fun l hl => (ht.fits m hm).number_lt hl
  have hnext : t'.scopeAt t.members.length = t.scopes.next := by
    rw [scopeAt_eq_of_le hp (Nat.le_refl _), ht.next]
  refine ⟨?_, ?_, ?_, ?_, fun l rest hs => ?_⟩
  · rw [hmade.least]
    cases deadline <;> rfl
  · have hrest : ((origin.filter Link.opens).map fun l => t'.scopeAt l.number) =
        (origin.filter Link.opens).map fun l => t.scopeAt l.number :=
      List.map_congr_left fun l hl =>
        scopeAt_eq_of_le hp (Nat.le_of_lt (hlt l (List.mem_filter.1 hl).1))
    rw [hmade.lineage, ← hrest, ← hnext]
    cases opens <;> rfl
  · obtain ⟨-, rfl⟩ | ⟨m, hm, rfl⟩ := hmade.source
    · exact ⟨_, List.mem_cons_self, rfl⟩
    · obtain ⟨l, hl, ho⟩ := (ht.fits m hm).rooted
      exact ⟨l, List.mem_cons_of_mem _ hl, ho⟩
  · refine List.pairwise_cons.2 ⟨List.forall_mem_map.2 hlt, ?_⟩
    obtain ⟨rfl, -⟩ | ⟨m, hm, rfl⟩ := hmade.source
    · exact List.Pairwise.nil
    · exact (ht.fits m hm).descending
  · obtain heq | hs := List.suffix_cons_iff.1 hs
    · obtain ⟨rfl, rfl⟩ := List.cons.inj heq
      exact ⟨_, getElem?_add, rfl⟩
    · obtain ⟨rfl, -⟩ | ⟨m, hm, rfl⟩ := hmade.source
      · simp at hs
      · obtain ⟨m', hm', hpath⟩ := (ht.fits m hm).ancestors l rest hs
        exact ⟨m', getElem?_members hp hm', hpath⟩

theorem Sound.add (ht : t.Sound) (hmade : t.Makes made opens deadline origin) :
    (t.add made opens deadline origin).Sound := by
  have hp : t.members <+: (t.add made opens deadline origin).members := prefix_add
  have hcanceled : made.2.canceled = t.scopes.canceled := by rw [hmade.scopes]
  refine ⟨fun m hmem => ?_, fun n m hn => ?_, ?_, fun s => ?_, fun n hn => ?_⟩
  · obtain hmem | hmem := List.mem_append.1 hmem
    · exact (ht.fits m hmem).mono hp
    · obtain rfl := List.mem_singleton.1 hmem
      exact ht.fits_add hmade
  · obtain hlt | hle := Nat.lt_or_ge n t.members.length
    · exact ht.numbered n m ((List.getElem?_append_left hlt).symm.trans hn)
    · obtain rfl : n = t.members.length := by
        have hlt := (List.getElem?_eq_some_iff.1 hn).1
        simp only [Tree.add, List.length_append, List.length_singleton] at hlt
        omega
      rw [getElem?_add] at hn
      cases hn
      rfl
  · have hnext : made.2.next = t.scopes.next + opens.toNat := by rw [hmade.scopes]
    rw [scopeAt_length]
    simp only [Tree.add, List.countP_append, List.countP_singleton, ← scopeAt_length, ← ht.next]
    rw [hnext]
    cases opens <;> rfl
  · show s ∈ made.2.canceled ↔ _
    rw [hcanceled, ht.canceled]
    refine exists_congr fun n => and_congr_right fun hn => ?_
    have hsame : (t.add made opens deadline origin).members[n]? = t.members[n]? :=
      List.getElem?_append_left (ht.known n hn)
    rw [hsame]
  · exact Nat.lt_of_lt_of_le (ht.known n hn) hp.length_le

end Makes

theorem deadline_withDeadline (c : Context) (deadline : Instant) :
    (c.withDeadline deadline).deadline = ((some deadline).toList ++ c.deadline.toList).min? := by
  unfold withDeadline
  cases c.deadline with
  | none => rfl
  | some own => exact congrArg some (Nat.min_comm own deadline)

theorem min?_toList (deadline : Option Nat) : (none.toList ++ deadline.toList).min? = deadline := by
  cases deadline <;> rfl

/-- The least of some deadlines can stand for them all. -/
theorem min?_toList_append (deadline : Option Nat) (deadlines : List Nat) :
    (deadline.toList ++ deadlines.min?.toList).min? = (deadline.toList ++ deadlines).min? := by
  cases deadline <;> cases h : deadlines.min? <;> simp [List.min?_cons, h]

/-- A context that has its deadline or its scope changed as it is derived. -/
theorem Sound.derive (ht : t.Sound) (hm : m ∈ t.members) {made : Context × Scopes} {opens : Bool}
    {deadline : Option Instant}
    (hdeadline : made.1.deadline = (deadline.toList ++ m.context.deadline.toList).min?)
    (hlineage : made.1.lineage = (if opens then [t.scopes.next] else []) ++ m.context.lineage)
    (hscopes : made.2 = ⟨t.scopes.next + opens.toNat, t.scopes.canceled⟩) :
    (t.add made opens deadline m.path).Sound := by
  have hf := ht.fits m hm
  refine ht.add ⟨.inr ⟨m, hm, rfl⟩, ?_, by rw [hlineage, hf.lineage], hscopes⟩
  rw [hdeadline, hf.deadline, min?_toList_append]

theorem Sound.cancel (ht : t.Sound) (hm : t.members[n]? = some m) :
    Sound { t with scopes := m.context.cancel t.scopes, canceled := n :: t.canceled } := by
  have hnext : (m.context.cancel t.scopes).next = t.scopes.next := by
    unfold Context.cancel
    split <;> rfl
  have hcanceled (s : Scope) : s ∈ (m.context.cancel t.scopes).canceled ↔
      m.context.lineage.head? = some s ∨ s ∈ t.scopes.canceled := by
    unfold Context.cancel
    split
    next h => simp [h]
    next h => simp [h, Scopes.cancel, eq_comm]
  refine ⟨fun m hm => (ht.fits m hm).mono (List.prefix_refl _), ht.numbered, hnext.trans ht.next,
    fun s => ?_, List.forall_mem_cons.2 ⟨(List.getElem?_eq_some_iff.1 hm).1, ht.known⟩⟩
  rw [hcanceled, ht.canceled]
  simp [hm]

/-- Whatever is done to a sound tree, it stays sound. -/
theorem Sound.perform (ht : t.Sound) (d : Deed) : (t.perform d).Sound := by
  have withMember {of : Nat} {act : Member → Tree}
      (hact : ∀ m, t.members[of]? = some m → (act m).Sound) : (t.withMember of act).Sound := by
    unfold Tree.withMember
    cases hm : t.members[of]? with
    | none => exact ht
    | some m => exact hact m hm
  cases d with
  | background => exact ht.add ⟨.inl ⟨rfl, rfl⟩, rfl, rfl, rfl⟩
  | withTimeout of timeout =>
    exact withMember fun m hm => ht.derive (List.mem_of_getElem? hm)
      (deadline_withDeadline _ _) rfl rfl
  | withDeadline of deadline =>
    exact withMember fun m hm => ht.derive (List.mem_of_getElem? hm)
      (deadline_withDeadline _ _) rfl rfl
  | withCancel of =>
    exact withMember fun m hm => ht.derive (List.mem_of_getElem? hm) (min?_toList _).symm rfl rfl
  | clone of =>
    exact withMember fun m hm => ht.derive (List.mem_of_getElem? hm) (min?_toList _).symm rfl rfl
  | cancel of => exact withMember fun m hm => ht.cancel hm
  | advance span =>
    exact ⟨fun m hm => (ht.fits m hm).mono (List.prefix_refl _), ht.numbered, ht.next, ht.canceled,
      ht.known⟩

theorem Sound.after (ht : t.Sound) (deeds : List Deed) : (t.after deeds).Sound := by
  induction deeds generalizing t with
  | nil => exact ht
  | cons d rest ih => exact ih (ht.perform d)

/-! ## Trees grow -/

/-- Nothing is lost: contexts stay where they are, scopes stay canceled, and time does not run
back. -/
structure Grows (t t' : Tree) : Prop where
  members : t.members <+: t'.members
  canceled : t.scopes.canceled ⊆ t'.scopes.canceled
  now : t.now ≤ t'.now

theorem Grows.refl (t : Tree) : t.Grows t := ⟨List.prefix_refl _, List.Subset.refl _, Nat.le_refl _⟩

theorem Grows.trans {t'' : Tree} (h : t.Grows t') (h' : t'.Grows t'') : t.Grows t'' :=
  ⟨h.members.trans h'.members, List.Subset.trans h.canceled h'.canceled, Nat.le_trans h.now h'.now⟩

theorem Grows.add {made : Context × Scopes} (h : made.2.canceled = t.scopes.canceled) (opens : Bool)
    (deadline : Option Instant) (origin : List Link) : t.Grows (t.add made opens deadline origin) :=
  ⟨prefix_add, fun _ hs => h.symm ▸ hs, Nat.le_refl _⟩

theorem grows_perform (t : Tree) (d : Deed) : t.Grows (t.perform d) := by
  have withMember {of : Nat} {act : Member → Tree} (hact : ∀ m, t.Grows (act m)) :
      t.Grows (t.withMember of act) := by
    unfold Tree.withMember
    cases t.members[of]? with
    | none => exact .refl t
    | some m => exact hact m
  cases d with
  | background => exact .add rfl _ _ _
  | withTimeout of timeout => exact withMember fun m => .add rfl _ _ _
  | withDeadline of deadline => exact withMember fun m => .add rfl _ _ _
  | withCancel of => exact withMember fun m => .add rfl _ _ _
  | clone of => exact withMember fun m => .add rfl _ _ _
  | cancel of =>
    refine withMember fun m => ⟨List.prefix_refl _, ?_, Nat.le_refl _⟩
    unfold Context.cancel
    split
    · exact List.Subset.refl _
    · exact List.subset_cons_self _ _
  | advance span => exact ⟨List.prefix_refl _, List.Subset.refl _, Nat.le_add_right _ _⟩

theorem grows_after (t : Tree) (deeds : List Deed) : t.Grows (t.after deeds) := by
  induction deeds generalizing t with
  | nil => exact .refl t
  | cons d rest ih => exact (grows_perform t d).trans (ih _)

end Members

end Tree

end Courier.Context

import Courier.Proofs.Context.Tree

/-!
# What a context inherits

Deadlines and scopes are inherited along different lines. A context has the least of all deadlines
on its path. It is canceled with every context on its path that was given a scope, and by whoever
shares that scope, so that canceling a context that was given none cancels the one from which it was
derived.
-/
namespace Courier.Context.Tree

/-- If the context of the number is canceled, the other one is canceled with it: the context in
whose scope the first one is, is the other one or one from which it descends. -/
def Covers (t : Tree) (n : Nat) (m : Member) : Prop :=
  ∃ m', t.members[n]? = some m' ∧ ∃ host, m'.host? = some host ∧ host ∈ m.line

section Scopes
variable {t t' : Tree} {m m' : Member} {n n' : Nat}

theorem scopeAt_lt (h : t.members[n]? = some m) (ho : m.opens = true) (hlt : n < n') :
    t.scopeAt n < t.scopeAt n' := by
  have hn : t.scopeAt (n + 1) = t.scopeAt n + 1 := by
    simp [scopeAt, List.take_add_one, h, ho]
  have hle : t.scopeAt (n + 1) ≤ t.scopeAt n' := (List.take_sublist_take_left hlt).countP_le
  rw [hn] at hle
  exact hle

/-- No two contexts were given one scope. -/
theorem scopeAt_inj (h : t.members[n]? = some m) (ho : m.opens = true)
    (h' : t.members[n']? = some m') (ho' : m'.opens = true) (hs : t.scopeAt n = t.scopeAt n') :
    n = n' := by
  obtain hlt | heq | hlt := Nat.lt_trichotomy n n'
  · exact absurd hs (Nat.ne_of_lt (scopeAt_lt h ho hlt))
  · exact heq
  · exact absurd hs.symm (Nat.ne_of_lt (scopeAt_lt h' ho' hlt))

/-- A context on a path was given a scope just if its link says so. -/
theorem Fits.exists_member (h : t.Fits m) {l : Link} (hl : l ∈ m.path) :
    ∃ m', t.members[l.number]? = some m' ∧ m'.opens = l.opens := by
  obtain ⟨front, rest, hpath⟩ := List.append_of_mem hl
  obtain ⟨m', hm', hpath'⟩ := h.ancestors l rest ⟨front, hpath.symm⟩
  exact ⟨m', hm', by simp [Member.opens, hpath']⟩

/-- The innermost scope of a context is that of its host. -/
theorem Fits.head_lineage (h : t.Fits m) : m.context.lineage.head? = m.host?.map t.scopeAt := by
  rw [h.lineage, List.head?_map, List.head?_filter, Member.host?, Option.map_map]
  rfl

/-- Every context is in a scope. -/
theorem Fits.exists_host (h : t.Fits m) : ∃ l, m.path.find? Link.opens = some l := by
  obtain ⟨l, hl, ho⟩ := h.rooted
  exact Option.isSome_iff_exists.1 (List.find?_isSome.2 ⟨l, hl, ho⟩)

/-- Links on paths that opened one scope are those of one context. -/
theorem Fits.number_eq (h : t.Fits m) (h' : t.Fits m') {l l' : Link} (hl : l ∈ m.path)
    (ho : l.opens = true) (hl' : l' ∈ m'.path) (ho' : l'.opens = true)
    (hs : t.scopeAt l.number = t.scopeAt l'.number) : l.number = l'.number := by
  obtain ⟨o, hm, hopens⟩ := h.exists_member hl
  obtain ⟨o', hm', hopens'⟩ := h'.exists_member hl'
  exact scopeAt_inj hm (hopens.trans ho) hm' (hopens'.trans ho') hs

/-- Links of one context say the same. -/
theorem Fits.opens_eq (h : t.Fits m) (h' : t.Fits m') {l l' : Link} (hl : l ∈ m.path)
    (hl' : l' ∈ m'.path) (hn : l.number = l'.number) : l.opens = l'.opens := by
  obtain ⟨o, hm, hopens⟩ := h.exists_member hl
  obtain ⟨o', hm', hopens'⟩ := h'.exists_member hl'
  rw [hn, hm'] at hm
  cases hm
  exact hopens.symm.trans hopens'

/-- A context is in the innermost scope of another one just if it descends from the host of that
one. -/
theorem Fits.mem_lineage (h : t.Fits m) (h' : t.Fits m') {s : Scope}
    (hs : m'.context.lineage.head? = some s) :
    s ∈ m.context.lineage ↔ ∃ host, m'.host? = some host ∧ host ∈ m.line := by
  obtain ⟨l', hfind⟩ := h'.exists_host
  have hl' := List.mem_of_find?_eq_some hfind
  have ho' := List.find?_some hfind
  have hhost : m'.host? = some l'.number := congrArg (Option.map Link.number) hfind
  obtain rfl : t.scopeAt l'.number = s := by
    rw [h'.head_lineage, hhost] at hs
    exact Option.some.inj hs
  rw [h.lineage, List.mem_map, hhost]
  constructor
  · rintro ⟨l, hl, hscope⟩
    obtain ⟨hl, ho⟩ := List.mem_filter.1 hl
    exact ⟨_, rfl, List.mem_map.2 ⟨l, hl, h.number_eq h' hl ho hl' ho' hscope⟩⟩
  · rintro ⟨host, heq, hmem⟩
    obtain rfl := Option.some.inj heq
    obtain ⟨l, hl, hn⟩ := List.mem_map.1 hmem
    exact ⟨l, List.mem_filter.2 ⟨hl, (h.opens_eq h' hl hl' hn).trans ho'⟩, by rw [hn]⟩

/-- A context is canceled just if one was canceled that covers it. -/
theorem Sound.isCanceled_iff (ht : t.Sound) (hm : m ∈ t.members) :
    m.context.isCanceled t.scopes = true ↔ ∃ n ∈ t.canceled, t.Covers n m := by
  simp only [isCanceled, List.any_eq_true, List.contains_iff_mem, ht.canceled]
  constructor
  · rintro ⟨s, hs, n, hn, m', hm', hhead⟩
    have hf' := ht.fits m' (List.mem_of_getElem? hm')
    exact ⟨n, hn, m', hm', ((ht.fits m hm).mem_lineage hf' hhead).1 hs⟩
  · rintro ⟨n, hn, m', hm', hcovers⟩
    have hf' := ht.fits m' (List.mem_of_getElem? hm')
    have ⟨host, hhost, _⟩ := hcovers
    have hhead : m'.context.lineage.head? = some (t.scopeAt host) := by
      rw [hf'.head_lineage, hhost]
      rfl
    exact ⟨_, ((ht.fits m hm).mem_lineage hf' hhead).2 hcovers, n, hn, m', hm', hhead⟩

end Scopes

/-! ## Ends -/

section Ends
variable {t t' : Tree} {m : Member} {n : Nat}

theorem done?_eq_canceled : t.done? m = some .canceled ↔ m.context.isCanceled t.scopes = true := by
  unfold done? Context.done?
  split
  next h => simp [h]
  next h => split <;> simp [h]

theorem isExpired_iff {c : Context} {now : Instant} :
    c.isExpired now = true ↔ ∃ deadline, c.deadline = some deadline ∧ deadline ≤ now := by
  unfold isExpired
  cases c.deadline <;> simp

theorem done?_eq_deadlineExceeded : t.done? m = some .deadlineExceeded ↔
    ¬m.context.isCanceled t.scopes = true ∧ m.context.isExpired t.now = true := by
  unfold done? Context.done?
  split
  next h => simp [h]
  next h => split <;> simp [*]

theorem Grows.isCanceled (h : t.Grows t') (hc : m.context.isCanceled t.scopes = true) :
    m.context.isCanceled t'.scopes = true := by
  simp only [Context.isCanceled, List.any_eq_true, List.contains_iff_mem] at hc ⊢
  obtain ⟨s, hs, hmem⟩ := hc
  exact ⟨s, hs, h.canceled hmem⟩

theorem Grows.isExpired (h : t.Grows t') (he : m.context.isExpired t.now = true) :
    m.context.isExpired t'.now = true := by
  rw [isExpired_iff] at he ⊢
  obtain ⟨deadline, hd, hle⟩ := he
  exact ⟨deadline, hd, Nat.le_trans hle h.now⟩

/-- What is done stays done. -/
theorem Grows.done? (h : t.Grows t') (hd : (t.done? m).isSome = true) :
    (t'.done? m).isSome = true := by
  obtain ⟨why, hwhy⟩ := Option.isSome_iff_exists.1 hd
  by_cases hc : m.context.isCanceled t'.scopes = true
  · rw [done?_eq_canceled.2 hc]
    rfl
  · cases why with
    | canceled => exact absurd (h.isCanceled (done?_eq_canceled.1 hwhy)) hc
    | deadlineExceeded =>
      rw [done?_eq_deadlineExceeded.2 ⟨hc, h.isExpired (done?_eq_deadlineExceeded.1 hwhy).2⟩]
      rfl

/-- Canceling a context cancels what it covers, at once, and nothing else. -/
theorem Sound.done?_cancel (ht : t.Sound) (hm : m ∈ t.members) {m' : Member}
    (hn : t.members[n]? = some m') :
    (t.Covers n m → (t.perform (.cancel n)).done? m = some .canceled) ∧
    (¬t.Covers n m → (t.perform (.cancel n)).done? m = t.done? m) := by
  have hperform : t.perform (.cancel n) =
      { t with scopes := m'.context.cancel t.scopes, canceled := n :: t.canceled } := by
    simp [Tree.perform, Tree.withMember, hn]
  have hsound := ht.cancel hn
  rw [hperform]
  have hcanceled : m.context.isCanceled (m'.context.cancel t.scopes) = true ↔
      t.Covers n m ∨ m.context.isCanceled t.scopes = true := by
    rw [ht.isCanceled_iff hm]
    refine (hsound.isCanceled_iff hm).trans ?_
    simp only [List.mem_cons, exists_eq_or_imp]
    exact .rfl
  refine ⟨fun hc => done?_eq_canceled.2 (hcanceled.2 (.inl hc)), fun hc => ?_⟩
  have hsame :
      m.context.isCanceled (m'.context.cancel t.scopes) = m.context.isCanceled t.scopes := by
    rw [Bool.eq_iff_iff, hcanceled, or_iff_right hc]
  simp only [done?, Context.done?, hsame]

end Ends

/-! ## Deadlines and kin -/

section Kin
variable {t : Tree} {m m' : Member} {n k : Nat}

/-- What is on the path of a context is on the path of those that descend from it. -/
theorem Fits.suffix_path (h : t.Fits m) (hk : k ∈ m.line) (hm' : t.members[k]? = some m') :
    m'.path <:+ m.path := by
  obtain ⟨l, hl, rfl⟩ := List.mem_map.1 hk
  obtain ⟨front, rest, hpath⟩ := List.append_of_mem hl
  have hs : l :: rest <:+ m.path := ⟨front, hpath.symm⟩
  obtain ⟨m'', hm'', hpath'⟩ := h.ancestors l rest hs
  rw [hm'] at hm''
  cases hm''
  rwa [hpath']

/-- No context has a later deadline than one from which it descends. -/
theorem Sound.deadline_le (ht : t.Sound) (hm : m ∈ t.members) (hk : k ∈ m.line)
    (hm' : t.members[k]? = some m') {d' : Instant} (hd' : m'.context.deadline = some d') :
    ∃ d, m.context.deadline = some d ∧ d ≤ d' := by
  have hf := ht.fits m hm
  rw [(ht.fits m' (List.mem_of_getElem? hm')).deadline, List.min?_eq_some_iff] at hd'
  have hmem : d' ∈ m.path.filterMap Link.deadline :=
    ((hf.suffix_path hk hm').sublist.filterMap _).subset hd'.1
  obtain ⟨d, hd⟩ := Option.isSome_iff_exists.1 (List.isSome_min?_of_mem hmem)
  exact ⟨d, hf.deadline.trans hd, (List.min?_eq_some_iff.1 hd).2 d' hmem⟩

theorem Sound.path_eq (ht : t.Sound) (hn : t.members[n]? = some m) :
    ∃ l, m.path = l :: m.path.tail ∧ l.number = n := by
  have hself := ht.numbered n m hn
  unfold Member.line at hself
  cases hpath : m.path with
  | nil => simp [hpath] at hself
  | cons l rest => exact ⟨l, rfl, by simpa [hpath] using hself⟩

/-- A context does not descend from itself a second time. -/
theorem Sound.not_mem_tail (ht : t.Sound) (hn : t.members[n]? = some m) :
    n ∉ m.path.tail.map Link.number := by
  obtain ⟨l, hpath, rfl⟩ := ht.path_eq hn
  have hdesc := (ht.fits m (List.mem_of_getElem? hn)).descending
  rw [Member.line, hpath, List.map_cons, List.pairwise_cons] at hdesc
  exact fun hmem => absurd (hdesc.1 _ hmem) (Nat.lt_irrefl _)

/-- The context that was derived from, and the others derived from it, do not descend from a
context. -/
theorem Sound.not_mem_line (ht : t.Sound) (hn : t.members[n]? = some m)
    (hk : t.members[k]? = some m')
    (hkin : m'.path = m.path.tail ∨ k ≠ n ∧ m'.path.tail = m.path.tail) : n ∉ m'.line := by
  have htail := ht.not_mem_tail hn
  obtain hparent | ⟨hne, hsibling⟩ := hkin
  · rwa [Member.line, hparent]
  · obtain ⟨l, hpath, rfl⟩ := ht.path_eq hk
    rw [Member.line, hpath, List.map_cons, List.mem_cons, not_or, hsibling]
    exact ⟨hne.symm, htail⟩

/-- A context with a scope of its own covers what descends from it. -/
theorem Sound.covers_of_opens (ht : t.Sound) (hn : t.members[n]? = some m) (ho : m.opens = true) :
    t.Covers n m' ↔ n ∈ m'.line := by
  obtain ⟨l, hpath, rfl⟩ := ht.path_eq hn
  have hhost : m.host? = some l.number := by
    have hopen : l.opens = true := by
      rw [Member.opens, hpath] at ho
      simpa using ho
    rw [Member.host?, hpath, List.find?_cons_of_pos hopen]
    rfl
  constructor
  · rintro ⟨m'', hm'', host, hhost', hmem⟩
    rw [hn] at hm''
    cases hm''
    rw [hhost] at hhost'
    cases hhost'
    exact hmem
  · exact fun hmem => ⟨m, hn, _, hhost, hmem⟩

/-- A context without a scope of its own covers the one from which it was derived. -/
theorem Sound.exists_parent (ht : t.Sound) (hn : t.members[n]? = some m) (ho : m.opens = false) :
    ∃ (k : Nat) (parent : Member),
      t.members[k]? = some parent ∧ parent.path = m.path.tail ∧ t.Covers n parent := by
  have hf := ht.fits m (List.mem_of_getElem? hn)
  obtain ⟨l, hpath, -⟩ := ht.path_eq hn
  have hclosed : ¬l.opens = true := by
    rw [Member.opens, hpath] at ho
    simpa using ho
  obtain ⟨o, hmem, hopen⟩ := hf.rooted
  rw [hpath] at hmem
  have hrest : o ∈ m.path.tail :=
    (List.mem_cons.1 hmem).resolve_left fun heq => hclosed (heq ▸ hopen)
  cases htail : m.path.tail with
  | nil => simp [htail] at hrest
  | cons l' rest =>
    obtain ⟨parent, hparent, hpath'⟩ := hf.ancestors l' rest (htail ▸ List.tail_suffix _)
    have hf' := ht.fits parent (List.mem_of_getElem? hparent)
    obtain ⟨host, hhost⟩ := hf'.exists_host
    refine ⟨_, parent, hparent, hpath', m, hn, host.number, ?_, ?_⟩
    · rw [Member.host?, hpath, List.find?_cons_of_neg hclosed, htail, ← hpath', hhost]
      rfl
    · exact List.mem_map_of_mem (List.mem_of_find?_eq_some hhost)

end Kin

/-! ## The law of the tree -/

/-- What holds of the context of a number. Its path begins with itself. Its deadline is the least
that was given on the path, none if none was, and so not later than that of any context there. If it
has a scope of its own, canceling it changes nothing for what does not descend from it, such as the
one from which it was derived and the others that were derived from that one; if it has none,
canceling it cancels the one from which it was derived. Whatever is done to the tree, it stays what
it is, done if it is done, and canceled if it is canceled. -/
structure Law (t : Tree) (n : Nat) (m : Member) : Prop where
  self : m.line.head? = some n
  deadline : m.context.deadline = (m.path.filterMap Link.deadline).min?
  notLater : ∀ k ∈ m.line, ∀ m', t.members[k]? = some m' → ∀ d', m'.context.deadline = some d' →
    ∃ d, m.context.deadline = some d ∧ d ≤ d'
  canceled : t.done? m = some .canceled ↔ ∃ k ∈ t.canceled, t.Covers k m
  exceeded : t.done? m = some .deadlineExceeded ↔
    (¬∃ k ∈ t.canceled, t.Covers k m) ∧ ∃ d, m.context.deadline = some d ∧ d ≤ t.now
  apart : m.opens = true → ∀ (k : Nat) m', t.members[k]? = some m' →
    (n ∉ m'.line ∨ m'.path = m.path.tail ∨ k ≠ n ∧ m'.path.tail = m.path.tail) →
    (t.perform (.cancel n)).done? m' = t.done? m'
  shared : m.opens = false → ∃ (k : Nat) (parent : Member),
    t.members[k]? = some parent ∧ parent.path = m.path.tail ∧
    (t.perform (.cancel n)).done? parent = some .canceled
  remaining : (m.context.remaining t.now).map Int.ofNat =
    m.context.deadline.map fun d => max 0 ((d : Int) - t.now)
  stays : ∀ deeds, (t.after deeds).members[n]? = some m ∧
    ((t.done? m).isSome = true → ((t.after deeds).done? m).isSome = true) ∧
    (t.done? m = some .canceled → (t.after deeds).done? m = some .canceled)

theorem remaining_eq_max (c : Context) (now : Instant) :
    (c.remaining now).map Int.ofNat = c.deadline.map fun d => max 0 ((d : Int) - now) := by
  unfold remaining Instant.until
  cases c.deadline with
  | none => rfl
  | some d =>
    refine congrArg some ?_
    show ((d - now : Nat) : Int) = max 0 ((d : Int) - now)
    omega

/-- Whatever was done to a tree, each of its contexts has the least deadline on its path, is
canceled just if one was canceled that covers it, and is overdue otherwise just if its deadline has
come. -/
theorem law_of_tree {now : Instant} {deeds : List Deed} {n : Nat} {m : Member}
    (h : ((start now).after deeds).members[n]? = some m) : ((start now).after deeds).Law n m := by
  have ht := (sound_start now).after deeds
  have hm := List.mem_of_getElem? h
  refine ⟨ht.numbered n m h, (ht.fits m hm).deadline,
    fun k hk m' hm' d' hd' => ht.deadline_le hm hk hm' hd', ?_, ?_, fun ho k m' hm' hkin => ?_,
    fun ho => ?_, remaining_eq_max _ _, fun more => ?_⟩
  · rw [done?_eq_canceled, ht.isCanceled_iff hm]
  · rw [done?_eq_deadlineExceeded, ht.isCanceled_iff hm, isExpired_iff]
  · refine (ht.done?_cancel (List.mem_of_getElem? hm') h).2 ?_
    rw [ht.covers_of_opens h ho]
    exact hkin.elim id (ht.not_mem_line h hm')
  · obtain ⟨k, parent, hk, hpath, hcovers⟩ := ht.exists_parent h ho
    exact ⟨k, parent, hk, hpath, (ht.done?_cancel (List.mem_of_getElem? hk) h).1 hcovers⟩
  · have hgrows := grows_after ((start now).after deeds) more
    refine ⟨getElem?_members hgrows.members h, hgrows.done?, fun hc => ?_⟩
    exact done?_eq_canceled.2 (hgrows.isCanceled (done?_eq_canceled.1 hc))

/-- A copy of a context is canceled, and the context with it. -/
theorem law_of_tree_clone :
    let t :=
      (start 0).after [.background, .withTimeout 0 50, .withCancel 1, .withDeadline 2 70, .clone 2]
    ∃ m, t.members[4]? = some m ∧ m.context.deadline = some 50 ∧ m.opens = false ∧
      ∃ (k : Nat) (parent : Member), t.members[k]? = some parent ∧ parent.path = m.path.tail ∧
        (t.perform (.cancel 4)).done? parent = some .canceled := by
  intro t
  have h : t.members[4]? = some _ := rfl
  have hlaw := law_of_tree h
  exact ⟨_, h, hlaw.deadline, rfl, hlaw.shared rfl⟩

example :
    let t := (start 0).after [.background, .withTimeout 0 50, .withCancel 1, .withDeadline 2 70,
      .clone 2, .cancel 4, .advance 60]
    t.members.map t.done? =
      [none, some .deadlineExceeded, some .canceled, some .canceled, some .canceled] := by
  decide

end Courier.Context.Tree

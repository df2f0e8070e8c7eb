import Courier.Selector.Registry
import Mathlib.Data.List.Infix

/-!
# The grammar of targets

A target is cut at its first mark, so it has one scheme and one endpoint at most: no mark can begin
inside a scheme without being part of it. A registry finds the selector that was registered last
under the scheme, whatever was registered before and whatever was looked up in between.
-/
namespace Courier

namespace Target
variable {c : Char} {cs before behind : List Char}

/-! ## Cutting at the mark -/

/-- The mark between a scheme and an endpoint. -/
def mark : List Char := [':', '/', '/']

theorem cut_mark (behind : List Char) : cut (mark ++ behind) = some ([], behind) := rfl

theorem cut_cons (h : ¬ mark <+: c :: cs) :
    cut (c :: cs) = (cut cs).map fun p => (c :: p.1, p.2) := by
  rw [cut]
  rintro rest rfl rfl
  exact h ⟨rest, rfl⟩

/-- Before an unmarked text with the mark behind it no mark begins: the mark has no end that it
could begin with. -/
theorem not_prefix_of_unmarked (h : ¬ mark <:+: c :: before) :
    ¬ mark <+: c :: (before ++ mark ++ behind) := by
  rintro ⟨rest, hrest⟩
  match before, hrest with
  | [], hrest => simp [mark] at hrest
  | [_], hrest => simp [mark] at hrest
  | d :: e :: before, hrest =>
    have hstart : ':' = c ∧ '/' = d ∧ '/' = e := by
      simp only [mark, List.cons_append, List.cons.injEq] at hrest
      exact ⟨hrest.1, hrest.2.1, hrest.2.2.1⟩
    obtain ⟨rfl, rfl, rfl⟩ := hstart
    exact h ⟨[], before, rfl⟩

theorem cut_append (h : ¬ mark <:+: before) (behind : List Char) :
    cut (before ++ mark ++ behind) = some (before, behind) := by
  induction before with
  | nil => rfl
  | cons c before ih =>
    have hrest : ¬ mark <:+: before := fun hin => h (List.infix_cons_iff.2 (.inr hin))
    rw [List.cons_append, List.cons_append, cut_cons (not_prefix_of_unmarked h), ih hrest]
    rfl

theorem of_cut (h : cut cs = some (before, behind)) :
    cs = before ++ mark ++ behind ∧ ¬ mark <:+: before := by
  induction cs generalizing before with
  | nil => cases h
  | cons c cs ih =>
    by_cases hp : mark <+: c :: cs
    · obtain ⟨rest, hrest⟩ := hp
      rw [← hrest, cut_mark] at h
      cases h
      exact ⟨hrest.symm, by simp [mark]⟩
    · rw [cut_cons hp, Option.map_eq_some_iff] at h
      obtain ⟨⟨before, behind⟩, hcut, heq⟩ := h
      cases heq
      obtain ⟨rfl, hunmarked⟩ := ih hcut
      refine ⟨rfl, fun hin => ?_⟩
      obtain hfront | hin := List.infix_cons_iff.1 hin
      · exact hp (hfront.trans ⟨mark ++ behind, by simp⟩)
      · exact hunmarked hin

theorem cut_eq_some_iff :
    cut cs = some (before, behind) ↔ cs = before ++ mark ++ behind ∧ ¬ mark <:+: before :=
  ⟨of_cut, fun ⟨heq, h⟩ => heq ▸ cut_append h behind⟩

/-! ## Parsing -/

/-- What can stand before the mark of a target: a text that is not empty and has no mark in it. -/
structure IsScheme (s : String) : Prop where
  ne_empty : s ≠ ""
  unmarked : ¬ ∃ front back, s = front ++ "://" ++ back

theorem eq_marked_iff {t s e : String} :
    t = s ++ "://" ++ e ↔ t.toList = s.toList ++ mark ++ e.toList := by
  rw [← String.toList_inj]
  simp [mark]

theorem exists_marked_iff {s : String} :
    (∃ front back, s = front ++ "://" ++ back) ↔ mark <:+: s.toList := by
  constructor
  · rintro ⟨front, back, h⟩
    exact ⟨front.toList, back.toList, (eq_marked_iff.1 h).symm⟩
  · rintro ⟨front, back, h⟩
    exact ⟨.ofList front, .ofList back, eq_marked_iff.2 (by simpa using h.symm)⟩

theorem parse_eq_ok_iff {target : String} {t : Target} :
    parse target = .ok t ↔ target = t.text ∧ IsScheme t.scheme ∧ t.endpoint ≠ "" := by
  obtain ⟨s, e⟩ := t
  constructor
  · intro h
    unfold parse at h
    split at h
    next => cases h
    next before behind hcut =>
      split at h
      next => cases h
      next hempty =>
        cases h
        obtain ⟨heq, hunmarked⟩ := of_cut hcut
        simp only [Bool.or_eq_true, List.isEmpty_iff, not_or] at hempty
        refine ⟨?_, ⟨?_, ?_⟩, ?_⟩
        · exact eq_marked_iff.2 (by simpa using heq)
        · exact fun h => hempty.1 (String.ofList_eq_empty_iff.1 h)
        · rw [exists_marked_iff]
          simpa using hunmarked
        · exact fun h => hempty.2 (String.ofList_eq_empty_iff.1 h)
  · rintro ⟨htext, hscheme, hend⟩
    have hs : s.toList ≠ [] := fun h => hscheme.ne_empty (String.toList_eq_nil_iff.1 h)
    have he : e.toList ≠ [] := fun h => hend (String.toList_eq_nil_iff.1 h)
    have hunmarked : ¬ mark <:+: s.toList := exists_marked_iff.not.1 hscheme.unmarked
    rw [parse, eq_marked_iff.1 htext, cut_append hunmarked]
    simp [hs, he]

/-- A target that cannot be parsed is a fault of routing. -/
theorem exists_route_of_parse {target : String} {f : Fault} (h : parse target = .error f) :
    ∃ why, f = .route why := by
  unfold parse at h
  split at h
  next =>
    cases h
    exact ⟨_, rfl⟩
  next =>
    split at h
    next =>
      cases h
      exact ⟨_, rfl⟩
    next => cases h

/-- A target has one scheme and one endpoint at most. -/
theorem eq_of_marked_eq {s e s' e' : String} (hs : IsScheme s) (hs' : IsScheme s')
    (h : s ++ "://" ++ e = s' ++ "://" ++ e') : s = s' ∧ e = e' := by
  have hcut : cut (s ++ "://" ++ e).toList = some (s.toList, e.toList) :=
    cut_eq_some_iff.2 ⟨eq_marked_iff.1 rfl, exists_marked_iff.not.1 hs.unmarked⟩
  have hcut' : cut (s ++ "://" ++ e).toList = some (s'.toList, e'.toList) :=
    cut_eq_some_iff.2 ⟨eq_marked_iff.1 h, exists_marked_iff.not.1 hs'.unmarked⟩
  obtain ⟨hfront, hback⟩ := Prod.mk.inj (Option.some.inj (hcut.symm.trans hcut'))
  exact ⟨String.toList_inj.1 hfront, String.toList_inj.1 hback⟩

end Target

namespace SelectorRegistry
variable {σ : Type} {scheme : String} {selector : σ}

/-! ## Registering -/

/-- Of all that was registered under the scheme, `selector` was the last. -/
def IsLast (history : List (String × σ)) (scheme : String) (selector : σ) : Prop :=
  ∃ before after, history = before ++ (scheme, selector) :: after ∧ ∀ e ∈ after, e.1 ≠ scheme

/-- The registry in which all of that was registered, in this order. -/
def ofHistory (history : List (String × σ)) : SelectorRegistry σ :=
  history.foldl (fun r e => r.register e.1 e.2) empty

theorem entries_ofHistory (history : List (String × σ)) :
    (ofHistory history).entries = history.reverse := by
  have along (r : SelectorRegistry σ) :
      (history.foldl (fun r e => r.register e.1 e.2) r).entries = history.reverse ++ r.entries := by
    induction history generalizing r with
    | nil => rfl
    | cons e rest ih =>
      rw [List.foldl_cons, ih]
      simp [register]
  exact (along empty).trans (List.append_nil _)

theorem get?_ofHistory (history : List (String × σ)) :
    (ofHistory history).get? scheme = some selector ↔ IsLast history scheme selector := by
  rw [get?, entries_ofHistory, List.lookup_eq_some_iff]
  constructor
  · rintro ⟨after, before, heq, hother⟩
    refine ⟨before.reverse, after.reverse, ?_, fun e he => ?_⟩
    · rw [← List.reverse_reverse history, heq]
      simp
    · exact (bne_iff_ne.1 (hother e (List.mem_reverse.1 he))).symm
  · rintro ⟨before, after, rfl, hother⟩
    refine ⟨after.reverse, before.reverse, by simp, fun e he => ?_⟩
    exact bne_iff_ne.2 (hother e (List.mem_reverse.1 he)).symm

/-- What was registered under a scheme at all was registered there as the last. -/
theorem exists_isLast_iff {history : List (String × σ)} :
    (∃ selector, IsLast history scheme selector) ↔ scheme ∈ history.map Prod.fst := by
  constructor
  · rintro ⟨selector, before, after, rfl, -⟩
    simp
  · intro h
    induction history with
    | nil => cases h
    | cons e rest ih =>
      by_cases hin : scheme ∈ rest.map Prod.fst
      · obtain ⟨selector, before, after, rfl, hother⟩ := ih hin
        exact ⟨selector, e :: before, after, rfl, hother⟩
      · obtain rfl : scheme = e.1 := by
          rw [List.map_cons] at h
          exact (List.mem_cons.1 h).resolve_right hin
        exact ⟨e.2, [], rest, rfl, fun x hx heq => hin (heq ▸ List.mem_map_of_mem hx)⟩

/-! ## Resolving -/

theorem resolve_eq_ok_iff {r : SelectorRegistry σ} {target endpoint : String} :
    r.resolve target = .ok (selector, endpoint) ↔
      ∃ scheme, target = scheme ++ "://" ++ endpoint ∧ Target.IsScheme scheme ∧ endpoint ≠ "" ∧
        r.get? scheme = some selector := by
  constructor
  · intro h
    unfold resolve at h
    split at h
    next => cases h
    next t hparse =>
      split at h
      next hget =>
        cases h
        obtain ⟨htext, hscheme, hend⟩ := Target.parse_eq_ok_iff.1 hparse
        exact ⟨t.scheme, htext, hscheme, hend, hget⟩
      next => cases h
  · rintro ⟨scheme, htext, hscheme, hend, hget⟩
    have hparse : Target.parse target = .ok ⟨scheme, endpoint⟩ :=
      Target.parse_eq_ok_iff.2 ⟨htext, hscheme, hend⟩
    rw [resolve, hparse]
    simp only [hget]

/-- A target that cannot be resolved is a fault of routing. -/
theorem exists_route_of_resolve {r : SelectorRegistry σ} {target : String} {f : Fault}
    (h : r.resolve target = .error f) : ∃ why, f = .route why := by
  unfold resolve at h
  split at h
  next hparse =>
    cases h
    exact Target.exists_route_of_parse hparse
  next =>
    split at h
    next => cases h
    next =>
      cases h
      exact ⟨_, rfl⟩

/-! ## A registry in use -/

/-- What is done with a registry. -/
inductive Deed (σ : Type)
  | register (scheme : String) (selector : σ)
  | resolve (target : String)

/-- What the deed registers, if it is one that does. -/
def Deed.registration? : Deed σ → Option (String × σ)
  | .register scheme selector => some (scheme, selector)
  | .resolve _ => none

/-- The answer to a deed, if it has one, and the registry afterwards. -/
def perform (r : SelectorRegistry σ) :
    Deed σ → Option (Except Fault (σ × String)) × SelectorRegistry σ
  | .register scheme selector => (none, r.register scheme selector)
  | .resolve target => (some (r.resolve target), r)

/-- The registry after one deed after another. -/
def after (r : SelectorRegistry σ) (deeds : List (Deed σ)) : SelectorRegistry σ :=
  deeds.foldl (fun r deed => (r.perform deed).2) r

/-- What is registered in a registry to begin with: nothing, or one selector under both names. -/
def preset : Option σ → List (String × σ)
  | none => []
  | some static => [("ip", static), ("dns", static)]

/-- An empty registry, or one with defaults. -/
def initial : Option σ → SelectorRegistry σ
  | none => empty
  | some static => withDefaults static

/-- Only what is registered counts, and not what is resolved in between. -/
theorem after_initial (static : Option σ) (deeds : List (Deed σ)) :
    (initial static).after deeds =
      ofHistory (preset static ++ deeds.filterMap Deed.registration?) := by
  have along (r : SelectorRegistry σ) : r.after deeds =
      (deeds.filterMap Deed.registration?).foldl (fun r e => r.register e.1 e.2) r := by
    induction deeds generalizing r with
    | nil => rfl
    | cons deed rest ih =>
      cases deed with
      | register scheme selector => exact ih (r.register scheme selector)
      | resolve target => exact ih r
  rw [along, ofHistory, List.foldl_append]
  cases static <;> rfl

/-- Whatever is registered in an empty registry or in one with defaults, and whatever is resolved in
between: a target is resolved just if it is a scheme, the mark and an endpoint, the scheme not empty
and without the mark, the endpoint not empty, and something was registered under the scheme. There
is one such reading of a target at most, and its endpoint is what is given back, with the selector
that was registered last under the scheme. Any other target is a fault of routing and leaves the
registry as it is. -/
theorem target_grammar (static : Option σ) (deeds : List (Deed σ)) (target : String) :
    (∀ selector endpoint, ((initial static).after deeds).resolve target = .ok (selector, endpoint) ↔
      ∃ scheme, target = scheme ++ "://" ++ endpoint ∧ Target.IsScheme scheme ∧ endpoint ≠ "" ∧
        IsLast (preset static ++ deeds.filterMap Deed.registration?) scheme selector) ∧
    ((∃ found, ((initial static).after deeds).resolve target = .ok found) ↔
      ∃ scheme endpoint, target = scheme ++ "://" ++ endpoint ∧ Target.IsScheme scheme ∧
      endpoint ≠ "" ∧
        scheme ∈ (preset static ++ deeds.filterMap Deed.registration?).map Prod.fst) ∧
    (∀ scheme endpoint scheme' endpoint', target = scheme ++ "://" ++ endpoint →
      target = scheme' ++ "://" ++ endpoint' → Target.IsScheme scheme → Target.IsScheme scheme' →
        scheme = scheme' ∧ endpoint = endpoint') ∧
    ((¬ ∃ found, ((initial static).after deeds).resolve target = .ok found) →
      ∃ why, ((initial static).after deeds).perform (.resolve target) =
        (some (.error (.route why)), (initial static).after deeds)) ∧
    (∀ scheme endpoint selector, Target.IsScheme scheme → endpoint ≠ "" →
      IsLast (preset static ++ deeds.filterMap Deed.registration?) scheme selector →
        ((initial static).after deeds).resolve (Target.text ⟨scheme, endpoint⟩) =
          .ok (selector, endpoint)) := by
  rw [after_initial]
  generalize hhistory : preset static ++ deeds.filterMap Deed.registration? = history
  have hresolve (target : String) (selector : σ) (endpoint : String) :
      (ofHistory history).resolve target = .ok (selector, endpoint) ↔
        ∃ scheme, target = scheme ++ "://" ++ endpoint ∧ Target.IsScheme scheme ∧ endpoint ≠ "" ∧
          IsLast history scheme selector := by
    simp only [resolve_eq_ok_iff, get?_ofHistory]
  refine ⟨hresolve target, ?_, ?_, ?_, ?_⟩
  · rw [Prod.exists, exists_comm]
    simp only [hresolve, ← exists_isLast_iff]
    constructor
    · rintro ⟨endpoint, selector, scheme, htext, hscheme, hend, hlast⟩
      exact ⟨scheme, endpoint, htext, hscheme, hend, selector, hlast⟩
    · rintro ⟨scheme, endpoint, htext, hscheme, hend, selector, hlast⟩
      exact ⟨endpoint, selector, scheme, htext, hscheme, hend, hlast⟩
  · intro scheme endpoint scheme' endpoint' htext htext' hscheme hscheme'
    exact Target.eq_of_marked_eq hscheme hscheme' (htext.symm.trans htext')
  · intro hnone
    cases hr : (ofHistory history).resolve target with
    | ok found => exact absurd ⟨found, hr⟩ hnone
    | error f =>
      obtain ⟨why, rfl⟩ := exists_route_of_resolve hr
      exact ⟨why, by rw [perform, hr]⟩
  · intro scheme endpoint selector hscheme hend hlast
    exact (hresolve _ selector endpoint).2 ⟨scheme, rfl, hscheme, hend, hlast⟩

/-- A scheme that ends in part of a mark, registered twice, and an endpoint with a mark of its
own. -/
theorem target_grammar_overlapping :
    ∃ r : SelectorRegistry Nat,
      r = (initial (some 0)).after [.register "a:/" 1, .resolve "a:/", .register "a:/" 2] ∧
        r.resolve "a:/://b://c, d" = .ok (2, "b://c, d") := by
  have hscheme : Target.IsScheme "a:/" :=
    ⟨by decide, Target.exists_marked_iff.not.2 (by decide)⟩
  have hlast : IsLast [("ip", 0), ("dns", 0), ("a:/", 1), ("a:/", 2)] "a:/" 2 :=
    ⟨[("ip", 0), ("dns", 0), ("a:/", 1)], [], rfl, List.forall_mem_nil _⟩
  obtain ⟨-, -, -, -, htext⟩ := target_grammar (some 0)
    [.register "a:/" 1, .resolve "a:/", .register "a:/" 2] "a:/://b://c, d"
  exact ⟨_, rfl, htext "a:/" "b://c, d" 2 hscheme (by decide) hlast⟩

end SelectorRegistry

end Courier

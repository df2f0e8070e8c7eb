import Courier.Context.Timeline
import Courier.Proofs.Context.Lineage
import Mathlib.Order.Bounds.Basic

/-!
# How a race is decided

Two things stop a race: the timer of the deadline, which goes off at the first whole millisecond
that is not before it, and a cancellation that reaches the context. What runs has until the first
moment at which one of them has come, that moment included. A race that was stopped leaves a context
that is done, and whatever happens on the timeline afterwards, it stays done.
-/
namespace Courier

namespace Instant

theorem le_tick (t : Instant) : t ≤ t.tick :=
  have h (n : Nat) : n ≤ (n + 999999) / 1000000 * 1000000 := by omega
  h t

theorem tick_lt (t : Instant) : t.tick < t + Span.ofMillis 1 :=
  have h (n : Nat) : (n + 999999) / 1000000 * 1000000 < n + 1000000 * 1 := by omega
  h t

@[simp] theorem tick_ofMillis (ms : Nat) : tick (Span.ofMillis ms) = Span.ofMillis ms :=
  have h (n : Nat) : (1000000 * n + 999999) / 1000000 * 1000000 = 1000000 * n := by omega
  h ms

end Instant

namespace Context
variable {c : Context} {s s' : Scopes} {now now' : Instant}

theorem isCanceled_iff : c.isCanceled s = true ↔ ∃ scope ∈ c.lineage, scope ∈ s.canceled := by
  simp only [isCanceled, List.any_eq_true, List.contains_iff_mem]

theorem isSome_done? :
    (c.done? s now).isSome = true ↔ c.isCanceled s = true ∨ c.isExpired now = true := by
  unfold done?
  split
  next h => simp [h]
  next h => split <;> simp [*]

theorem done?_eq_none :
    c.done? s now = none ↔ ¬c.isCanceled s = true ∧ ¬c.isExpired now = true := by
  rw [← Option.not_isSome_iff_eq_none, isSome_done?, not_or]

/-- What is done stays done when more scopes are canceled and time goes on. -/
theorem isSome_done?_mono (hs : s.canceled ⊆ s'.canceled) (hn : now ≤ now')
    (h : (c.done? s now).isSome = true) : (c.done? s' now').isSome = true := by
  rw [isSome_done?, isCanceled_iff, Tree.isExpired_iff] at h ⊢
  exact h.imp (fun ⟨scope, hmem, hc⟩ => ⟨scope, hmem, hs hc⟩)
    fun ⟨deadline, hd, hle⟩ => ⟨deadline, hd, Nat.le_trans hle hn⟩

/-- The timer of the deadline has gone off by a moment. -/
def TimedOut (c : Context) (moment : Instant) : Prop :=
  ∃ deadline, c.deadline = some deadline ∧ deadline.tick ≤ moment

theorem TimedOut.isExpired (h : c.TimedOut now) : c.isExpired now = true := by
  obtain ⟨deadline, hd, hle⟩ := h
  exact Tree.isExpired_iff.2 ⟨deadline, hd, Nat.le_trans deadline.le_tick hle⟩

/-- The timer goes off at the deadline, or less than a millisecond after one that is not a whole
one. -/
theorem exists_late {deadline : Instant} (h : c.deadline = some deadline) :
    ∃ late < Span.ofMillis 1, (∀ moment, c.TimedOut moment ↔ deadline + late ≤ moment) ∧
      ∀ ms, deadline = Span.ofMillis ms → late = 0 := by
  refine ⟨deadline.tick - deadline, ?_, fun moment => ?_, ?_⟩
  · exact Nat.sub_lt_left_of_lt_add deadline.le_tick deadline.tick_lt
  · rw [Nat.add_sub_cancel' deadline.le_tick]
    simp [TimedOut, h]
  · rintro ms rfl
    rw [Instant.tick_ofMillis, Nat.sub_self]

end Context

/-! ## What stops a race -/

namespace Race
variable {c : Context} {s : Scopes} {start moment : Instant} {plan : List (Instant × Scope)}

/-- When a race is over. -/
def Outcome.moment? : Outcome → Option Instant
  | .completed moment | .ended _ moment => some moment
  | .never => none

/-- The moment at which a race is stopped, if it ever is. -/
def stop (c : Context) (plan : List (Instant × Scope)) : Option Instant :=
  earliest (firstCancellation c plan) (c.deadline.map Instant.tick)

theorem exists_earliest_le (a b : Option Instant) :
    (∃ m, earliest a b = some m ∧ m ≤ moment) ↔
      (∃ m, a = some m ∧ m ≤ moment) ∨ ∃ m, b = some m ∧ m ≤ moment := by
  cases a <;> cases b <;> simp [earliest]

/-- A planned cancellation has reached the context by the moment of the first one, and by no earlier
one. -/
theorem exists_firstCancellation_le : (∃ m, firstCancellation c plan = some m ∧ m ≤ moment) ↔
    ∃ p ∈ plan, p.2 ∈ c.lineage ∧ p.1 ≤ moment := by
  have along (best : Option Instant) :
      (∃ m, plan.foldl (fun best p =>
          if c.lineage.contains p.2 then earliest best (some p.1) else best) best = some m ∧
            m ≤ moment) ↔
        (∃ m, best = some m ∧ m ≤ moment) ∨ ∃ p ∈ plan, p.2 ∈ c.lineage ∧ p.1 ≤ moment := by
    induction plan generalizing best with
    | nil => simp
    | cons p rest ih =>
      rw [List.foldl_cons, ih, List.exists_mem_cons_iff, ← or_assoc]
      refine or_congr_left ?_
      by_cases hmem : p.2 ∈ c.lineage
      · simp [hmem, exists_earliest_le]
      · simp [hmem]
  refine (along none).trans (or_iff_right ?_)
  rintro ⟨m, h, -⟩
  cases h

theorem exists_stop_le : (∃ m, stop c plan = some m ∧ m ≤ moment) ↔
    (∃ p ∈ plan, p.2 ∈ c.lineage ∧ p.1 ≤ moment) ∨ c.TimedOut moment := by
  rw [stop, exists_earliest_le, exists_firstCancellation_le]
  simp [Context.TimedOut]

/-- A race that is stopped at a moment is stopped for a reason that holds at that moment. -/
theorem cause_spec (h : stop c plan = some moment) :
    (cause c moment = .deadlineExceeded → c.TimedOut moment) ∧
    (cause c moment = .canceled → ∃ p ∈ plan, p.2 ∈ c.lineage ∧ p.1 ≤ moment) := by
  have hreason := exists_stop_le.1 ⟨moment, h, Nat.le_refl moment⟩
  unfold cause
  split
  next hd =>
    obtain ⟨deadline, hdeadline, htick⟩ := Option.map_eq_some_iff.1 hd
    exact ⟨fun _ => ⟨deadline, hdeadline, Nat.le_of_eq htick⟩, nofun⟩
  next hd =>
    refine ⟨nofun, fun _ => hreason.resolve_right fun ⟨deadline, hdeadline, hle⟩ => hd ?_⟩
    have htimed : c.TimedOut deadline.tick := ⟨deadline, hdeadline, Nat.le_refl _⟩
    have hstop : ∃ m, stop c plan = some m ∧ m ≤ deadline.tick := exists_stop_le.2 (.inr htimed)
    obtain ⟨m, hm, hle'⟩ := hstop
    obtain rfl := Option.some.inj (h.symm.trans hm)
    rw [hdeadline, Option.map_some, Nat.le_antisymm hle hle']

theorem run_of_done {why : Done} (h : c.done? s start = some why) (completion : Completion) :
    run c s start completion plan = .ended why start := by
  rw [run, h]

/-- Under a context that is not done, what runs has until the race is stopped. -/
theorem run_eq (h : c.done? s start = none) (completion : Completion) :
    run c s start completion plan =
      match completion, stop c plan with
      | some done, some stop => if done ≤ stop then .completed done else .ended (cause c stop) stop
      | some done, none => .completed done
      | none, some stop => .ended (cause c stop) stop
      | none, none => .never := by
  rw [run, h]
  rfl

end Race

namespace Timeline
variable {t t' : Timeline} {c : Context} {happens : Instant → Bool} {moment : Instant}

theorem mem_canceled_foldl (due : List (Instant × Scope)) (s : Scopes) (scope : Scope) :
    scope ∈ (due.foldl (fun s p => s.cancel p.2) s).canceled ↔
      scope ∈ s.canceled ∨ ∃ p ∈ due, p.2 = scope := by
  induction due generalizing s with
  | nil => simp
  | cons p rest ih =>
    rw [List.foldl_cons, ih, List.exists_mem_cons_iff, Scopes.cancel, List.mem_cons, or_assoc,
      or_left_comm, eq_comm]

theorem mem_canceled_fire {scope : Scope} : scope ∈ (t.fire happens).scopes.canceled ↔
    scope ∈ t.scopes.canceled ∨ ∃ p ∈ t.plan, happens p.1 = true ∧ p.2 = scope := by
  simp only [fire, List.partition_eq_filter_filter, mem_canceled_foldl, List.mem_filter, and_assoc]

theorem isCanceled_fire : c.isCanceled (t.fire happens).scopes = true ↔
    c.isCanceled t.scopes = true ∨ ∃ p ∈ t.plan, p.2 ∈ c.lineage ∧ happens p.1 = true := by
  simp only [Context.isCanceled_iff, mem_canceled_fire, and_or_left, exists_or]
  refine or_congr_right ⟨?_, ?_⟩
  · rintro ⟨scope, hmem, p, hp, hhappens, rfl⟩
    exact ⟨p, hp, hmem, hhappens⟩
  · rintro ⟨p, hp, hmem, hhappens⟩
    exact ⟨_, hmem, p, hp, hhappens, rfl⟩

/-- Who waits until a moment finds the context canceled then. -/
def Cancels (t : Timeline) (c : Context) (moment : Instant) : Prop :=
  c.isCanceled (t.fire (· ≤ moment)).scopes = true

/-- By a moment that is not over, the deadline of the context or a cancellation has come. -/
def Stops (t : Timeline) (c : Context) (moment : Instant) : Prop :=
  t.now ≤ moment ∧ (c.TimedOut moment ∨ t.Cancels c moment)

/-- What is planned, with what is due already for now. -/
def due (t : Timeline) : List (Instant × Scope) := t.plan.map fun p => (max p.1 t.now, p.2)

theorem exists_due_le : (∃ p ∈ t.due, p.2 ∈ c.lineage ∧ p.1 ≤ moment) ↔
    t.now ≤ moment ∧ ∃ p ∈ t.plan, p.2 ∈ c.lineage ∧ p.1 ≤ moment := by
  constructor
  · rintro ⟨_, hdue, hmem, hle⟩
    obtain ⟨p, hp, rfl⟩ := List.mem_map.1 hdue
    obtain ⟨hle, hnow⟩ := Nat.max_le.1 hle
    exact ⟨hnow, p, hp, hmem, hle⟩
  · rintro ⟨hnow, p, hp, hmem, hle⟩
    exact ⟨_, List.mem_map_of_mem hp, hmem, Nat.max_le.2 ⟨hle, hnow⟩⟩

section NotDone
variable (hd : t.done? c = none)
include hd

/-- A timer that has gone off by a moment has not done so in the past. -/
theorem now_le_of_timedOut (h : c.TimedOut moment) : t.now ≤ moment := by
  obtain ⟨deadline, hdeadline, hle⟩ := h
  have hexpired := (Context.done?_eq_none.1 hd).2
  rw [Context.Tree.isExpired_iff] at hexpired
  obtain hlt | hle' := Nat.lt_or_ge t.now deadline
  · exact Nat.le_trans (Nat.le_of_lt hlt) (Nat.le_trans deadline.le_tick hle)
  · exact absurd ⟨deadline, hdeadline, hle'⟩ hexpired

theorem cancels_iff : t.Cancels c moment ↔ ∃ p ∈ t.plan, p.2 ∈ c.lineage ∧ p.1 ≤ moment := by
  rw [Cancels, isCanceled_fire, or_iff_right (Context.done?_eq_none.1 hd).1]
  simp

theorem stops_iff : t.Stops c moment ↔ ∃ m, Race.stop c t.due = some m ∧ m ≤ moment := by
  rw [Race.exists_stop_le, exists_due_le, ← cancels_iff hd, Stops, and_or_left, or_comm]
  exact or_congr_right (and_iff_right_of_imp (now_le_of_timedOut hd))

theorem isLeast_stops_iff : IsLeast {m | t.Stops c m} moment ↔ Race.stop c t.due = some moment := by
  constructor
  · rintro ⟨hstops, hleast⟩
    obtain ⟨m, hm, hle⟩ := (stops_iff hd).1 hstops
    have hge : moment ≤ m := hleast ((stops_iff hd).2 ⟨m, hm, Nat.le_refl m⟩)
    rwa [Nat.le_antisymm hge hle]
  · refine fun h => ⟨(stops_iff hd).2 ⟨moment, h, Nat.le_refl _⟩, fun m hm => ?_⟩
    obtain ⟨m', hm', hle⟩ := (stops_iff hd).1 hm
    rwa [Option.some.inj (h.symm.trans hm')]

end NotDone

/-! ## Races -/

section Races
variable {takes : Option Span} {span : Span} {why : Done}

theorem race_of_done (hd : t.done? c = some why) (takes : Option Span) :
    t.race c takes = (.ended why t.now, t) := by
  have hrun : Race.run c t.scopes t.now (takes.map (t.now + ·)) t.due = .ended why t.now :=
    Race.run_of_done hd _
  simp only [race, hd, Option.isSome_some, true_or, ↓reduceIte]
  exact congrArg (·, t) hrun

theorem race_fst :
    (t.race c takes).1 = Race.run c t.scopes t.now (takes.map (t.now + ·)) t.due := by
  unfold race
  simp only
  split
  · rfl
  · split <;> rfl

/-- Something that takes a time completes if nothing stops it before. -/
theorem race_completed (hd : t.done? c = none) (h : ∀ m, t.Stops c m → t.now + span ≤ m) :
    (t.race c (some span)).1 = .completed (t.now + span) := by
  rw [race_fst, Race.run_eq hd]
  cases hstop : Race.stop c t.due with
  | none => rfl
  | some m => exact if_pos (h m ((isLeast_stops_iff hd).2 hstop).1)

/-- What is not complete when it is stopped ends then, for a reason that holds then. -/
theorem race_stopped (hd : t.done? c = none) (hm : IsLeast {m | t.Stops c m} moment)
    (hlate : ∀ span, takes = some span → moment < t.now + span) :
    ∃ why, (t.race c takes).1 = .ended why moment ∧
      (why = .deadlineExceeded → c.TimedOut moment) ∧ (why = .canceled → t.Cancels c moment) := by
  have hstop := (isLeast_stops_iff hd).1 hm
  refine ⟨Race.cause c moment, ?_, (Race.cause_spec hstop).1, fun h => ?_⟩
  · rw [race_fst, Race.run_eq hd, hstop]
    cases takes with
    | none => rfl
    | some span => exact if_neg (Nat.not_le.2 (hlate span rfl))
  · exact (cancels_iff hd).2 (exists_due_le.1 ((Race.cause_spec hstop).2 h)).2

theorem race_never (hd : t.done? c = none) (h : ∀ m, ¬t.Stops c m) :
    (t.race c none).1 = .never := by
  rw [race_fst, Race.run_eq hd]
  cases hstop : Race.stop c t.due with
  | none => rfl
  | some m => exact absurd ((isLeast_stops_iff hd).2 hstop).1 (h m)

/-- Under a context that is not done, something completes, or is stopped, or goes on without an
end. -/
theorem race_trichotomy (hd : t.done? c = none) (takes : Option Span) :
    (∃ span, takes = some span ∧ (t.race c takes).1 = .completed (t.now + span)) ∨
    (∃ m, IsLeast {m | t.Stops c m} m ∧ ∀ span, takes = some span → m < t.now + span) ∨
    takes = none ∧ (t.race c takes).1 = .never := by
  cases hstop : Race.stop c t.due with
  | none =>
    have hnone (m : Instant) : ¬t.Stops c m := by
      rw [stops_iff hd, hstop]
      exact nofun
    cases takes with
    | none => exact .inr (.inr ⟨rfl, race_never hd hnone⟩)
    | some span => exact .inl ⟨span, rfl, race_completed hd fun m hm => absurd hm (hnone m)⟩
  | some m =>
    have hleast := (isLeast_stops_iff hd).2 hstop
    by_cases hlate : ∀ span, takes = some span → m < t.now + span
    · exact .inr (.inl ⟨m, hleast, hlate⟩)
    · push Not at hlate
      obtain ⟨span, rfl, hle⟩ := hlate
      exact .inl ⟨span, rfl, race_completed hd fun m' hm' => Nat.le_trans hle (hleast.2 hm')⟩

/-- What is complete at once gives nothing else time to happen. -/
theorem race_of_ready (hd : t.done? c = none) : t.race c (some 0) = (.completed t.now, t) := by
  have hrace : (t.race c (some 0)).1 = .completed (t.now + 0) := race_completed hd fun m hm => hm.1
  refine Prod.ext hrace ?_
  simp [race]

/-- What a race leaves when it takes time. -/
theorem race_snd (hd : t.done? c = none) (ht : takes ≠ some 0) : (t.race c takes).2 =
    match (t.race c takes).1 with
    | .ended .canceled moment => { t.fire (· ≤ moment) with now := moment }
    | .completed moment | .ended .deadlineExceeded moment =>
      { t.fire (fun m => m ≤ t.now || m < moment) with now := moment }
    | .never => t := by
  unfold race
  simp only [hd, ht, Option.isSome_none, Bool.false_eq_true, or_self, ↓reduceIte]
  split <;> simp only [*]

theorem now_le_of_race (h : (t.race c takes).1.moment? = some moment) : t.now ≤ moment := by
  cases hd : t.done? c with
  | some why =>
    rw [race_of_done hd] at h
    exact Nat.le_of_eq (Option.some.inj h)
  | none =>
    obtain ⟨span, -, hrace⟩ | ⟨m, hm, hlate⟩ | ⟨-, hrace⟩ := race_trichotomy hd takes
    · rw [hrace] at h
      exact Nat.le.intro (Option.some.inj h)
    · obtain ⟨why, hrace, -⟩ := race_stopped hd hm hlate
      rw [hrace] at h
      exact Option.some.inj h ▸ hm.1.1
    · rw [hrace] at h
      exact nomatch h

/-- The clock stands at the moment at which the race was over. -/
theorem now_race (h : (t.race c takes).1.moment? = some moment) :
    (t.race c takes).2.now = moment := by
  cases hd : t.done? c with
  | some why =>
    rw [race_of_done hd] at h ⊢
    exact Option.some.inj h
  | none =>
    by_cases ht : takes = some 0
    · rw [ht, race_of_ready hd] at h ⊢
      exact Option.some.inj h
    · rw [race_snd hd ht]
      split
      all_goals
        next hrace =>
          rw [hrace] at h
          first | exact Option.some.inj h | exact nomatch h

/-- A race that was stopped leaves the context done. -/
theorem done?_race (h : (t.race c takes).1 = .ended why moment) :
    ((t.race c takes).2.done? c).isSome = true := by
  cases hd : t.done? c with
  | some why' => rw [race_of_done hd, hd, Option.isSome_some]
  | none =>
    obtain ⟨span, -, hrace⟩ | ⟨m, hm, hlate⟩ | ⟨-, hrace⟩ := race_trichotomy hd takes
    · exact nomatch h.symm.trans hrace
    · obtain ⟨why', hrace, htimed, hcanceled⟩ := race_stopped hd hm hlate
      have ht : takes ≠ some 0 := fun h0 => Nat.not_lt.2 hm.1.1 (hlate 0 h0)
      rw [race_snd hd ht, hrace]
      cases why' with
      | canceled => exact Context.isSome_done?.2 (.inl (hcanceled rfl))
      | deadlineExceeded => exact Context.isSome_done?.2 (.inr (htimed rfl).isExpired)
    · exact nomatch h.symm.trans hrace

end Races

/-! ## Afterwards -/

/-- The timelines to which a timeline leads, whatever is done on it. -/
inductive Later (t : Timeline) : Timeline → Prop
  | refl : Later t t
  | put {t' : Timeline} (h : Later t t') (name : String) (c : Context) : Later t (t'.put name c)
  | background {t' : Timeline} (h : Later t t') : Later t t'.background.2
  | withCancel {t' : Timeline} (h : Later t t') (c : Context) : Later t (t'.withCancel c).2
  | cancel {t' : Timeline} (h : Later t t') (c : Context) : Later t (t'.cancel c)
  | planCancel {t' : Timeline} (h : Later t t') (c : Context) (after : Span) :
      Later t (t'.planCancel c after)
  | advance {t' : Timeline} (h : Later t t') (span : Span) : Later t (t'.advance span)
  | race {t' : Timeline} (h : Later t t') (c : Context) (takes : Option Span) :
      Later t (t'.race c takes).2

/-- Scopes stay canceled, and time does not run back. -/
structure Grows (t t' : Timeline) : Prop where
  canceled : t.scopes.canceled ⊆ t'.scopes.canceled
  now : t.now ≤ t'.now

theorem Grows.refl (t : Timeline) : t.Grows t := ⟨List.Subset.refl _, Nat.le_refl _⟩

theorem Grows.trans {t'' : Timeline} (h : t.Grows t') (h' : t'.Grows t'') : t.Grows t'' :=
  ⟨List.Subset.trans h.canceled h'.canceled, Nat.le_trans h.now h'.now⟩

theorem Grows.done? (h : t.Grows t') (hd : (t.done? c).isSome = true) :
    (t'.done? c).isSome = true :=
  Context.isSome_done?_mono h.canceled h.now hd

/-- Time passes, and what was planned for it happens. -/
theorem grows_fire (happens : Instant → Bool) (h : t.now ≤ moment) :
    t.Grows { t.fire happens with now := moment } :=
  ⟨fun _ hs => mem_canceled_fire.2 (.inl hs), h⟩

theorem grows_race (c : Context) (takes : Option Span) : t.Grows (t.race c takes).2 := by
  cases hd : t.done? c with
  | some why =>
    rw [race_of_done hd]
    exact .refl t
  | none =>
    by_cases ht : takes = some 0
    · rw [ht, race_of_ready hd]
      exact .refl t
    · rw [race_snd hd ht]
      split
      next hrace => exact grows_fire _ (now_le_of_race (congrArg Race.Outcome.moment? hrace))
      next hrace => exact grows_fire _ (now_le_of_race (congrArg Race.Outcome.moment? hrace))
      next hrace => exact grows_fire _ (now_le_of_race (congrArg Race.Outcome.moment? hrace))
      next hrace => exact .refl t

theorem grows_cancel (c : Context) : t.Grows (t.cancel c) := by
  refine ⟨?_, Nat.le_refl _⟩
  unfold cancel Context.cancel
  split
  · exact List.Subset.refl _
  · exact List.subset_cons_self _ _

theorem Later.grows (h : t.Later t') : t.Grows t' := by
  induction h with
  | refl => exact .refl t
  | put _ name c ih => exact ih.trans ⟨List.Subset.refl _, Nat.le_refl _⟩
  | background _ ih => exact ih.trans ⟨List.Subset.refl _, Nat.le_refl _⟩
  | withCancel _ c ih => exact ih.trans ⟨List.Subset.refl _, Nat.le_refl _⟩
  | cancel _ c ih => exact ih.trans (grows_cancel c)
  | planCancel _ c after ih =>
    refine ih.trans ?_
    unfold Timeline.planCancel
    split <;> exact ⟨List.Subset.refl _, Nat.le_refl _⟩
  | advance _ span ih => exact ih.trans (grows_fire _ (Nat.le_add_right _ span))
  | race _ c takes ih => exact ih.trans (grows_race c takes)

/-! ## The race decided -/

/-- How the races under a context come out, whatever runs and however long it takes. The deadline
comes when it is due, up to the millisecond that a timer may take longer. Under a context that is
done nothing runs, and the timeline stays as it is. What is complete by the first moment that stops
it completes; what is not ends at that moment, for what has come by then. The clock is at the moment
of the outcome then, and after a race that was stopped the context is done for ever. -/
structure Decides (t : Timeline) (c : Context) : Prop where
  timer : ∀ deadline, c.deadline = some deadline → ∃ late < Span.ofMillis 1,
    (∀ moment, c.TimedOut moment ↔ deadline + late ≤ moment) ∧
    ∀ ms, deadline = Span.ofMillis ms → late = 0
  done : ∀ why, t.done? c = some why → ∀ takes, t.race c takes = (.ended why t.now, t)
  completed : t.done? c = none → ∀ span, (∀ m, t.Stops c m → t.now + span ≤ m) →
    (t.race c (some span)).1 = .completed (t.now + span)
  stopped : t.done? c = none → ∀ takes moment, IsLeast {m | t.Stops c m} moment →
    (∀ span, takes = some span → moment < t.now + span) →
    ∃ why, (t.race c takes).1 = .ended why moment ∧
      (why = .deadlineExceeded → c.TimedOut moment) ∧ (why = .canceled → t.Cancels c moment)
  never : t.done? c = none → (∀ m, ¬t.Stops c m) → (t.race c none).1 = .never
  unbounded : c.deadline = none → (∀ m, ¬t.Cancels c m) → ∀ takes,
    (t.race c takes).1 = takes.elim .never fun span => .completed (t.now + span)
  clock : ∀ takes moment, (t.race c takes).1.moment? = some moment → (t.race c takes).2.now = moment
  stays : ∀ takes why moment, (t.race c takes).1 = .ended why moment →
    ∀ t', Later (t.race c takes).2 t' → (t'.done? c).isSome = true

theorem race_unbounded (hdeadline : c.deadline = none) (hcancels : ∀ m, ¬t.Cancels c m)
    (takes : Option Span) :
    (t.race c takes).1 = takes.elim .never fun span => .completed (t.now + span) := by
  have hd : t.done? c = none := by
    refine Context.done?_eq_none.2 ⟨fun h => ?_, fun h => ?_⟩
    · exact hcancels t.now (isCanceled_fire.2 (.inl h))
    · obtain ⟨deadline, hsome, -⟩ := Context.Tree.isExpired_iff.1 h
      exact nomatch hdeadline.symm.trans hsome
  have hstops (m : Instant) : ¬t.Stops c m := by
    rintro ⟨-, ⟨deadline, hsome, -⟩ | h⟩
    · exact nomatch hdeadline.symm.trans hsome
    · exact hcancels m h
  cases takes with
  | none => exact race_never hd hstops
  | some span => exact race_completed hd fun m hm => absurd hm (hstops m)

/-- A race completes just if what runs is complete by the first moment at which the deadline or a
cancellation comes, and is stopped at that moment otherwise. -/
theorem race_decides (t : Timeline) (c : Context) : t.Decides c where
  timer _ h := c.exists_late h
  done _ hd takes := race_of_done hd takes
  completed hd _ h := race_completed hd h
  stopped hd _ _ hm hlate := race_stopped hd hm hlate
  never hd h := race_never hd h
  unbounded := race_unbounded
  clock _ _ h := now_race h
  stays _ _ _ h _ hlater := hlater.grows.done? (done?_race h)

/-- A context with a deadline and an ancestor that is canceled before: what is complete with the
cancellation wins, and what takes longer loses. -/
theorem race_decides_inherited :
    let t : Timeline := ⟨0, ⟨2, []⟩, [], [(Span.ofMillis 4, 0)]⟩
    let c : Context := ⟨some (Span.ofMillis 10), [1, 0]⟩
    IsLeast {m | t.Stops c m} (Span.ofMillis 4) ∧
    (t.race c (some (Span.ofMillis 4))).1 = .completed (t.now + Span.ofMillis 4) ∧
    (t.race c (some (Span.ofMillis 5))).1 = .ended .canceled (Span.ofMillis 4) ∧
    ((t.race c (some (Span.ofMillis 5))).2.done? c).isSome = true := by
  intro t c
  have hd : t.done? c = none := by decide
  have hleast : IsLeast {m | t.Stops c m} (Span.ofMillis 4) := (isLeast_stops_iff hd).2 (by decide)
  have hraces := race_decides t c
  obtain ⟨why, hrace, htimed, -⟩ := hraces.stopped hd (some (Span.ofMillis 5)) _ hleast
    fun span h => Option.some.inj h ▸ by decide
  have hwhy : why = .canceled := by
    cases why with
    | canceled => rfl
    | deadlineExceeded =>
      obtain ⟨deadline, hdeadline, hle⟩ := htimed rfl
      cases hdeadline
      exact absurd hle (by decide)
  rw [hwhy] at hrace
  refine ⟨hleast, hraces.completed hd _ fun m hm => ?_, hrace, hraces.stays _ _ _ hrace _ .refl⟩
  rw [Nat.zero_add]
  exact hleast.2 hm

end Timeline

end Courier

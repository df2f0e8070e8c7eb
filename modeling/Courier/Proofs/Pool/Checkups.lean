import Mathlib.Data.List.Nodup
import Courier.Proofs.Pool.Counting
import Courier.Proofs.Pool.IdleOrder

/-!
# What health checks find

The built-in check counts what it finds. A connection that fails its check does so for one cause,
and it is closed, either at once or at the end of the sweep that checks it; until then the sweep has
it in its hands. So it is not checked again.
-/
namespace Courier.Pool

/-! ## Health checks -/

/-- A built-in health check, with what its probe found. -/
structure Checkup where
  conn : Conn
  fast : Bool
  probe : Probe
  moment : Instant

namespace Checkup

/-- What a connection can fail its check for. -/
def causes : List Counter := [.remoteErr, .idleTimeout, .lifetimeExceed]

/-- What is counted for what checks have found. -/
def counters : List Counter := .remoteEof :: causes

variable (config : Config) (cause : Counter) (k : Checkup)

def verdict : Verdict := builtInCheck config k.probe k.conn k.fast k.moment

/-- The connection may not stay. -/
def fails : Bool := !(k.verdict config).healthy

/-- What was found is counted under this counter. -/
def isFor : Bool := cause ∈ (k.verdict config).counts

/-- The peer had closed the connection. -/
def isEnded : Bool := k.probe = .ended

/-- A connection that fails its check does so for one cause, and if its peer had closed it, this is
counted besides. -/
theorem verdict_cases :
    k.probe = .ended ∧ k.verdict config = ⟨false, [.remoteEof, .remoteErr]⟩ ∨
    k.probe ≠ .ended ∧ (k.verdict config = ⟨true, []⟩ ∨
      ∃ cause ∈ causes, k.verdict config = ⟨false, [cause]⟩) := by
  unfold verdict builtInCheck
  cases k.probe with
  | ended => exact .inl ⟨rfl, rfl⟩
  | unexpectedData => exact .inr ⟨nofun, .inr ⟨.remoteErr, by decide, rfl⟩⟩
  | failed => exact .inr ⟨nofun, .inr ⟨.remoteErr, by decide, rfl⟩⟩
  | healthy =>
    refine .inr ⟨nofun, ?_⟩
    dsimp only
    split
    · exact .inl rfl
    · split
      · exact .inr ⟨.idleTimeout, by decide, rfl⟩
      · split
        · exact .inr ⟨.lifetimeExceed, by decide, rfl⟩
        · exact .inl rfl

variable {config cause k}

theorem isFor_iff : k.isFor config cause = true ↔ cause ∈ (k.verdict config).counts :=
  decide_eq_true_iff

theorem fails_of_isFor (h : k.isFor config cause = true) : k.fails config = true := by
  rw [isFor_iff] at h
  obtain ⟨-, hv⟩ | ⟨-, hv | ⟨cause', -, hv⟩⟩ := k.verdict_cases config
  · rw [fails, hv]
    rfl
  · rw [hv] at h
    cases h
  · rw [fails, hv]
    rfl

variable (config cause k)

theorem count_verdict : (k.verdict config).counts.count cause = (k.isFor config cause).toNat := by
  have hn : (k.verdict config).counts.Nodup := by
    obtain ⟨-, hv⟩ | ⟨-, hv | ⟨cause', -, hv⟩⟩ := k.verdict_cases config
    · rw [hv]
      decide
    · rw [hv]
      exact List.nodup_nil
    · rw [hv]
      exact List.nodup_cons.2 ⟨List.not_mem_nil, List.nodup_nil⟩
  rw [hn.count, isFor]
  split <;> simp [*]

theorem isFor_remoteEof : k.isFor config .remoteEof = k.isEnded := by
  rw [Bool.eq_iff_iff, isFor_iff, isEnded, decide_eq_true_iff]
  obtain ⟨hp, hv⟩ | ⟨hp, hv | ⟨cause, hc, hv⟩⟩ := k.verdict_cases config
  · simp [hp, hv]
  · simp [hp, hv]
  · have : Counter.remoteEof ≠ cause := by
      rintro rfl
      exact absurd hc (by decide)
    simp [hp, hv, this]

variable {config cause k}

theorem isFor_remoteErr_of_isEnded (h : k.isEnded = true) : k.isFor config .remoteErr = true := by
  obtain ⟨-, hv⟩ | ⟨hp, -⟩ := k.verdict_cases config
  · rw [isFor_iff, hv]
    decide
  · exact absurd (of_decide_eq_true h) hp

/-- A connection that fails its check is counted under exactly one cause. -/
theorem existsUnique_cause (h : k.fails config = true) :
    ∃! cause, cause ∈ causes ∧ k.isFor config cause = true := by
  simp only [isFor_iff]
  obtain ⟨-, hv⟩ | ⟨-, hv | ⟨cause, hc, hv⟩⟩ := k.verdict_cases config
  · rw [hv]
    exact ⟨.remoteErr, by decide, fun other ho => by revert ho; cases other <;> decide⟩
  · rw [fails, hv] at h
    cases h
  · rw [hv]
    exact ⟨cause, ⟨hc, List.mem_singleton_self _⟩, fun other ho => List.mem_singleton.1 ho.2⟩

theorem toNat_fails (config : Config) (k : Checkup) :
    (k.fails config).toNat = (causes.map fun cause => (k.isFor config cause).toNat).sum := by
  obtain ⟨-, hv⟩ | ⟨-, hv | ⟨cause, hc, hv⟩⟩ := k.verdict_cases config
  · simp [fails, isFor, hv, causes]
  · simp [fails, isFor, hv, causes]
  · simp only [fails, isFor, hv]
    revert hc
    cases cause <;> decide

/-- Checks that fail are counted once each under their causes. -/
theorem countP_fails (config : Config) (checkups : List Checkup) :
    checkups.countP (·.fails config) =
    (causes.map fun cause => checkups.countP (·.isFor config cause)).sum := by
  have hone (b : Bool) : (if b then 1 else 0) = b.toNat := by cases b <;> rfl
  induction checkups with
  | nil => rfl
  | cons k rest ih =>
    have hk := k.toNat_fails config
    simp only [causes, List.map_cons, List.map_nil, List.sum_cons, List.sum_nil, List.countP_cons,
      hone] at ih hk ⊢
    omega

/-- Nothing else is counted by a check. -/
theorem isFor_eq_false (hc : cause ∉ counters) : k.isFor config cause = false := by
  rw [Bool.eq_false_iff, Ne, isFor_iff]
  obtain ⟨-, hv⟩ | ⟨-, hv | ⟨cause', hc', hv⟩⟩ := k.verdict_cases config
  · rw [hv]
    exact fun hmem => hc ((by decide : [.remoteEof, .remoteErr] ⊆ counters) hmem)
  · exact hv ▸ List.not_mem_nil
  · rw [hv, List.mem_singleton]
    rintro rfl
    exact hc (List.mem_cons_of_mem _ hc')

/-- The connections that fail a check. -/
def failing (config : Config) (checkups : List Checkup) : List Nat :=
  numbers ((checkups.filter (·.fails config)).map Checkup.conn)

theorem failing_append (checkups more : List Checkup) :
    failing config (checkups ++ more) = failing config checkups ++ failing config more := by
  simp [failing]

theorem failing_sublist {checkups more : List Checkup} (h : checkups.Sublist more) :
    (failing config checkups).Sublist (failing config more) :=
  ((h.filter _).map _).map _

end Checkup

/-! ## What is counted -/

/-- What was counted is what was opened, what was found by checkups, and the faults that calls
through a registry have returned. -/
structure Tallies (config : Config) (counts : List Counter) (opened : List Nat)
    (checkups : List Checkup) (faults : List Fault) : Prop where
  opened : counts.count .newConnection = opened.length
  found : ∀ cause ∈ Checkup.counters, counts.count cause = checkups.countP (·.isFor config cause)
  returned : counts.count .getConnectionErr = faults.length

section Tallies
variable {config : Config} {counts more : List Counter} {opened opened' : List Nat}
  {checkups checkups' : List Checkup} {faults faults' : List Fault}

theorem Tallies.nil : Tallies config [] [] [] [] := ⟨rfl, fun _ _ => rfl, rfl⟩

theorem Tallies.append (h : Tallies config counts opened checkups faults)
    (h' : Tallies config more opened' checkups' faults') :
    Tallies config (counts ++ more) (opened ++ opened') (checkups ++ checkups')
      (faults ++ faults') where
  opened := by rw [List.count_append, List.length_append, h.opened, h'.opened]
  found cause hc := by
    rw [List.count_append, List.countP_append, h.found cause hc, h'.found cause hc]
  returned := by rw [List.count_append, List.length_append, h.returned, h'.returned]

/-- A counter that has nothing to do with checkups is counted once. -/
theorem Tallies.single {counter : Counter} (hc : counter ∉ Checkup.counters)
    (ho : [counter].count .newConnection = opened.length)
    (hr : [counter].count .getConnectionErr = faults.length) :
    Tallies config [counter] opened [] faults where
  opened := ho
  found _ hcause :=
    List.count_eq_zero_of_not_mem fun hmem => hc (List.mem_singleton.1 hmem ▸ hcause)
  returned := hr

theorem Tallies.checkup (k : Checkup) : Tallies config (k.verdict config).counts [] [k] [] where
  opened := by
    rw [k.count_verdict, Checkup.isFor_eq_false (by decide)]
    rfl
  found cause hc := by
    rw [k.count_verdict, List.countP_singleton]
    cases k.isFor config cause <;> rfl
  returned := by
    rw [k.count_verdict, Checkup.isFor_eq_false (by decide)]
    rfl

end Tallies

/-! ## What an operation finds -/

namespace Activity

/-- What a sweep has found unhealthy and closes at its end. -/
def dropped : Activity → List Conn
  | .sweep s => s.dropped
  | .get _ _ | .use _ | .exchange _ _ | .topUp _ | .over => []

/-- The fault with which an exchange is told that it gets no connection. -/
def refusal : Activity → List Fault
  | .exchange _ (.acquiring a) => a.fault?.toList
  | .exchange _ (.writing _ _ _) | .exchange _ (.reading _ _ _) | .exchange _ (.finished _)
  | .get _ _ | .use _ | .sweep _ | .topUp _ | .over => []

/-- The health check that a step is, if it is one. -/
inductive Finds (p : Pool) (now : Instant) (a : Activity) (m : Step Activity) :
    Touch → List Checkup → Prop
  | nothing {touch : Touch} (ht : ∀ c, touch ≠ .checks c) : Finds p now a m touch []
  | checkup (k : Checkup) (hn : k.moment = now)
      (hk : a.Checks p k.conn k.fast (k.verdict p.config) m) : Finds p now a m (.checks k.conn) [k]

section Steps
variable {p : Pool} {now : Instant} {a : Activity} {m : Step Activity} {touch : Touch}
  {checkups : List Checkup}

theorem refusal_cases (a : Activity) :
    a.refusal = [] ∨ ∃ e f, a = .exchange e (.acquiring (.failed f)) := by
  cases a with
  | exchange e x =>
    cases x with
    | acquiring a =>
      cases a with
      | failed f => exact .inr ⟨e, f, rfl⟩
      | _ => exact .inl rfl
    | _ => exact .inl rfl
  | _ => exact .inl rfl

theorem Wants.moves_checks {ticket : Ticket} {wants : Acquire → Activity} (hw : Wants ticket wants)
    {a : Acquire} {m : Step Acquire} {c : Conn} (h : a.Moves ticket p now m (.checks c)) :
    ∃ fast v, p.Judges c fast now v ∧ (wants a).Checks p c fast v (m.map wants) := by
  generalize ht : Touch.checks c = touch at h
  cases h with
  | judge slot c' hv =>
    cases ht
    exact ⟨true, _, hv, .fast hw slot c _⟩
  | @endDial slot d r hr => cases r <;> cases ht
  | _ => cases ht

theorem Moves.checks {c : Conn} (h : a.Moves p now m (.checks c)) :
    ∃ fast v, p.Judges c fast now v ∧ a.Checks p c fast v m := by
  generalize ht : Touch.checks c = touch at h
  cases h with
  | get h =>
    subst ht
    exact (Wants.get _).moves_checks h
  | exchange h =>
    cases h with
    | @acquire a s touch h =>
      subst ht
      exact (Wants.exchange _).moves_checks h
    | _ => cases ht
  | judge hs hv =>
    cases ht
    exact ⟨false, _, hv, .full hs _⟩
  | dial h =>
    cases h with
    | @finish d r hr => cases r <;> cases ht
    | begin => cases ht
  | _ => cases ht

/-- With the built-in check, every step is one of those. -/
theorem Moves.finds (h : a.Moves p now m touch) (hc : p.config.customCheck = false) :
    ∃ checkups, a.Finds p now m touch checkups := by
  by_cases ht : ∃ c, touch = .checks c
  · obtain ⟨c, rfl⟩ := ht
    obtain ⟨fast, v, hv, hk⟩ := h.checks
    obtain hcustom | ⟨probe, rfl⟩ := hv
    · exact absurd hcustom (by rw [hc]; exact Bool.false_ne_true)
    · exact ⟨_, .checkup ⟨c, fast, probe, now⟩ rfl hk⟩
  · exact ⟨[], .nothing fun c heq => ht ⟨c, heq⟩⟩

/-! ## What an operation counts -/

theorem Checks.counts {c : Conn} {fast : Bool} {v : Verdict} (h : a.Checks p c fast v m) :
    m.counts = v.counts ∧ a.refusal = [] := by
  cases h with
  | fast hw slot c v => cases hw <;> exact ⟨rfl, rfl⟩
  | full hs v => exact ⟨rfl, rfl⟩

/-- A step counts what it opens and what it finds, and the fault that is returned in it. -/
theorem Finds.tallies (hf : a.Finds p now m touch checkups) (h : a.Moves p now m touch) :
    Tallies p.config m.counts (numbers touch.opened) checkups a.refusal := by
  cases hf with
  | nothing ht =>
    obtain hr | ⟨e, f, rfl⟩ := a.refusal_cases
    · rw [hr]
      cases h.counts with
      | nothing ht hm =>
        rw [hm, ht]
        exact .nil
      | opens c hm =>
        rw [hm]
        exact .single (by decide) rfl rfl
      | checks => exact absurd rfl (ht _)
      | full hd hm =>
        rw [hm]
        exact .single (by decide) rfl rfl
      | keepsOut hd hm =>
        rw [hm]
        exact .single (by decide) rfl rfl
      | unserved ht ha hm =>
        rw [ha] at hr
        cases hr
    · cases h with
      | exchange h =>
        cases h with
        | refuse => exact .single (by decide) rfl rfl
        | acquire h => cases h
  | checkup k hn hk =>
    obtain ⟨hm, hr⟩ := hk.counts
    rw [hm, hr]
    exact .checkup k

/-! ## What is closed for what was found -/

theorem dropped_judge {s : Sweep} {c : Conn} {rest : List Conn} (hs : s.pending = c :: rest)
    (healthy : Bool) : (s.judge healthy).dropped = s.dropped ++ if healthy then [] else [c] := by
  unfold Sweep.judge
  rw [hs]
  cases healthy with
  | false => rfl
  | true => exact (List.append_nil _).symm

/-- What a sweep has found unhealthy stays in its hands until it is closed. -/
theorem Moves.dropped (h : a.Moves p now m touch) :
    ∀ id ∈ numbers a.dropped, id ∈ numbers m.next.dropped ∨ id ∈ numbers m.closes := by
  cases h with
  | @judge s c rest v hs hv =>
    intro id hid
    left
    show id ∈ numbers (s.judge v.healthy).dropped
    rw [dropped_judge hs, numbers_append]
    exact List.mem_append_left _ hid
  | @finishSweep s hs =>
    intro id hid
    right
    show id ∈ numbers (s.finish p).2
    unfold Sweep.finish
    split <;> rw [numbers_append] <;> exact List.mem_append_left _ hid
  | _ => exact nofun

section Checks
variable {c : Conn} {fast : Bool} {v : Verdict}

theorem Checks.gone (h : a.Checks p c fast v m) (hv : v.healthy = false) :
    c.id ∈ numbers m.next.dropped ∨ c.id ∈ numbers m.closes := by
  cases h with
  | fast hw slot c v =>
    right
    show c.id ∈ numbers (Acquire.judge p slot c v.healthy).closes
    rw [hv]
    exact List.mem_singleton_self _
  | @full s c rest hs v =>
    left
    show c.id ∈ numbers (s.judge v.healthy).dropped
    rw [dropped_judge hs, hv, numbers_append]
    exact List.mem_append_right _ (List.mem_singleton_self _)

/-- What a sweep has found unhealthy is in its hands. -/
theorem dropped_sublist (a : Activity) : (numbers a.dropped).Sublist a.stock.conns := by
  cases a with
  | sweep s =>
    rw [stock_sweep]
    exact (List.sublist_append_right _ _).map _
  | _ => exact List.nil_sublist _

/-- So is what is checked, besides. -/
theorem Checks.sublist (h : a.Checks p c fast v m) :
    (c.id :: numbers a.dropped).Sublist a.stock.conns := by
  cases h with
  | fast hw slot c v => cases hw <;> exact List.Sublist.refl _
  | @full s c rest hs v =>
    rw [stock_sweep, Sweep.conns, hs, List.cons_append, List.cons_append]
    exact ((List.sublist_append_right _ _).map _).cons_cons _

end Checks

end Steps

end Activity

namespace Life
variable {s s' : Life} {before after : List Activity} {a : Activity} {m : Pool.Step Activity}
    {touch : Touch}
  {id : Nat}

/-- What sweeps have found unhealthy and have in their hands. -/
def dropped (s : Life) : List Nat := numbers (s.activities.flatMap Activity.dropped)

/-- The connection is closed, or a sweep has found it unhealthy and has it in its hands. -/
def Dooms (s : Life) (id : Nat) : Prop := id ∈ s.closed ∨ id ∈ s.dropped

theorem Conserved.nodup_closed (hs : s.Conserved) : s.closed.Nodup :=
  (List.nodup_append.1 (hs.perm.nodup_iff.2 hs.nodup)).2.1

theorem mem_dropped : id ∈ s.dropped ↔ ∃ a ∈ s.activities, id ∈ numbers a.dropped := by
  simp only [dropped, numbers, List.map_flatMap, List.mem_flatMap]

theorem dropped_of_sweeps (h : s.sweeps = 0) : s.dropped = [] := by
  rw [dropped, List.flatMap_eq_nil_iff.2 fun a ha => ?_, numbers_nil]
  have hnot := List.countP_eq_zero.1 h a ha
  cases a <;> first | rfl | exact absurd rfl hnot

theorem dropped_sublist (activities : List Activity) :
    (numbers (activities.flatMap Activity.dropped)).Sublist
      (located (activities.flatMap Activity.holds)) := by
  induction activities with
  | nil => exact List.Sublist.refl _
  | cons a rest ih =>
    rw [List.flatMap_cons, List.flatMap_cons, numbers_append, located_append]
    exact a.dropped_sublist.append ih

/-- What is checked was not found unhealthy before. -/
theorem Conserved.not_dooms (hc : s.Conserved) (hs : s.activities = before ++ a :: after) {c : Conn}
    {fast : Bool} {v : Verdict} (h : a.Checks s.pool c fast v m) : ¬ s.Dooms c.id := by
  have hall := hc.nodup_located
  rw [located_places, stock_among hs] at hall
  have hsub := ((dropped_sublist before).append h.sublist).append (dropped_sublist after)
  have hnodup := (List.nodup_append.1 hall).2.1.sublist hsub
  rw [List.append_assoc, List.cons_append, List.nodup_middle, List.nodup_cons, ← numbers_append,
    ← numbers_append, ← List.flatMap_cons, ← List.flatMap_append, ← hs] at hnodup
  rintro (hclosed | hdropped)
  · refine hc.not_located hclosed ?_
    rw [located_places]
    exact List.mem_append_right _ (mem_located (hs ▸ by simp) (h.sublist.subset List.mem_cons_self))
  · exact hnodup.1 hdropped

theorem dooms_proceed (h : id ∈ numbers m.next.dropped ∨ id ∈ numbers m.closes) :
    (s.proceed before m touch after).Dooms id := by
  obtain h | h := h
  · exact .inr (mem_dropped.2 ⟨m.next, by simp [proceed], h⟩)
  · exact .inl (List.mem_append_right _ h)

theorem Dooms.mono (h : s.Dooms id) (hc : s.closed ⊆ s'.closed)
    (ha : s.activities ⊆ s'.activities) : s'.Dooms id := by
  obtain h | h := h
  · exact .inl (hc h)
  · obtain ⟨a, hmem, h⟩ := mem_dropped.1 h
    exact .inr (mem_dropped.2 ⟨a, ha hmem, h⟩)

/-- An operation begins. -/
theorem Dooms.begin (h : s.Dooms id) (hc : s'.closed = s.closed)
    (ha : s'.activities = a :: s.activities) : s'.Dooms id :=
  h.mono (hc ▸ List.Subset.refl _) (ha ▸ List.subset_cons_self _ _)

theorem Dooms.advance (h : s.Dooms id) (hs : s.activities = before ++ a :: after)
    (hm : a.Moves s.pool s.now m touch) : (s.proceed before m touch after).Dooms id := by
  obtain h | h := h
  · exact .inl (List.mem_append_left _ h)
  · obtain ⟨b, hb, h⟩ := mem_dropped.1 h
    rw [hs] at hb
    obtain hb | hb := List.mem_append.1 hb
    · exact .inr (mem_dropped.2 ⟨b, List.mem_append_left _ hb, h⟩)
    · obtain rfl | hb := List.mem_cons.1 hb
      · exact dooms_proceed (hm.dropped id h)
      · exact .inr (mem_dropped.2 ⟨b, List.mem_append_right _ (List.mem_cons_of_mem _ hb), h⟩)

theorem Dooms.tend (h : s.Dooms id) (ht : s.Tend s') : s'.Dooms id := by
  cases ht with
  | sweep => exact h.begin rfl rfl
  | topUp => exact h.begin rfl rfl
  | close => exact h.mono (List.subset_append_left _ _) (List.Subset.refl _)
  | pass => exact h.mono (List.Subset.refl _) (List.Subset.refl _)

end Life

end Courier.Pool

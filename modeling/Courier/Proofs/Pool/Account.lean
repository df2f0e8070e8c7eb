import Courier.Proofs.Pool.Checkups

/-!
# The account of a pool

Beside the life of a pool it is written down what was counted, what every health check has found,
and what calls through a registry have failed with. No connection fails two checks. So as soon as no
sweep is under way, the counts of what was found are counts of connections that were closed.
-/
namespace Courier.Pool

/-- A call begins. -/
def Life.admit (s : Life) (ticket : Ticket) : Life :=
  { s with activities := .get ticket .arriving :: s.activities, tickets := ticket + 1 }

/-- The life of a pool, and what is written down beside it: the counters that went up, the checkups,
the calls through a registry that may have to be told that they have failed, and what such calls
have failed with. -/
structure Account where
  life : Life
  counts : List Counter
  checkups : List Checkup
  calls : List Ticket
  faults : List Fault

namespace Account

def start (network address : String) (config : Config) (now : Instant) : Account :=
  ⟨.start network address config now, [], [], [], []⟩

/-- What can happen to a pool with the built-in check, and what is counted. Who calls has got the
pool from elsewhere or through a registry, as an exchange has; a call through a registry is told
that it has failed. -/
inductive Step : Account → List Counter → Account → Prop
  | advance {x : Account} {before after : List Activity} {a : Activity} {m : Pool.Step Activity}
      {touch : Touch} {checkups : List Checkup} (hs : x.life.activities = before ++ a :: after)
      (hm : a.Moves x.life.pool x.life.now m touch) (hf : ∀ c ∈ touch.opened, c.id ∉ x.life.opened)
      (hk : a.Finds x.life.pool x.life.now m touch checkups) :
      Step x m.counts { x with
        life := x.life.proceed before m touch after
        counts := x.counts ++ m.counts
        checkups := x.checkups ++ checkups
        faults := x.faults ++ a.refusal }
  | tend {x : Account} {life : Life} (h : x.life.Tend life) : Step x [] { x with life }
  | get (x : Account) {ticket : Ticket} (ht : x.life.tickets ≤ ticket) :
      Step x [] { x with life := x.life.admit ticket }
  | call (x : Account) {ticket : Ticket} (ht : x.life.tickets ≤ ticket) :
      Step x [] { x with life := x.life.admit ticket, calls := ticket :: x.calls }
  | exchange (x : Account) {e : Errand} (ht : x.life.tickets ≤ e.ticket) :
      Step x [] { x with life := x.life.enlist e }
  | report {x : Account} {ticket : Ticket} {f : Fault}
      (hf : .get ticket (.failed f) ∈ x.life.activities) (hc : ticket ∈ x.calls) :
      Step x [.getConnectionErr] { x with
        counts := x.counts ++ [.getConnectionErr]
        calls := x.calls.erase ticket
        faults := x.faults ++ [f] }

/-- Any number of steps. -/
abbrev Leads : Account → Account → Prop :=
  Relation.ReflTransGen fun x x' => ∃ counts, x.Step counts x'

section Step
variable {config : Config} {x x' : Account} {counts : List Counter}

/-- The account is right. -/
structure Sound (config : Config) (x : Account) : Prop where
  reachable : Life.Reachable config x.life
  tallies : Tallies config x.counts x.life.opened x.checkups x.faults
  nodup : (Checkup.failing config x.checkups).Nodup
  dooms : ∀ id ∈ Checkup.failing config x.checkups, x.life.Dooms id

theorem Step.counts_eq (h : x.Step counts x') : x'.counts = x.counts ++ counts := by
  cases h <;> first | rfl | exact (List.append_nil _).symm

/-- With the built-in check, whatever happens to a pool happens to its account. -/
theorem exists_step (hc : x.life.pool.config.customCheck = false) {life : Life}
    (h : x.life.Step life) : ∃ counts x', x.Step counts x' ∧ x'.life = life := by
  cases h with
  | advance h =>
    obtain ⟨hs, hm, hf⟩ := h
    obtain ⟨checkups, hk⟩ := hm.finds hc
    exact ⟨_, _, .advance hs hm hf hk, rfl⟩
  | tend h => exact ⟨_, _, .tend h, rfl⟩
  | get ht => exact ⟨_, _, .get x ht, rfl⟩
  | exchange ht => exact ⟨_, _, .exchange x ht, rfl⟩

theorem sound_start (network address : String) (config : Config) (now : Instant) :
    (start network address config now).Sound config :=
  ⟨⟨_, _, _, .refl⟩, .nil, List.nodup_nil, List.forall_mem_nil _⟩

/-- Nothing is counted. -/
theorem Sound.quiet (hx : x.Sound config) {life : Life} (hl : x.life.Step life)
    (ho : life.opened = x.life.opened) (hd : ∀ {id}, x.life.Dooms id → life.Dooms id)
    (calls : List Ticket) : Sound config { x with life, calls } where
  reachable := hx.reachable.leads (.single hl)
  tallies := by
    rw [ho]
    exact hx.tallies
  nodup := hx.nodup
  dooms id hid := hd (hx.dooms id hid)

/-- What fails its check in a step did not fail one before, and it is closed, or the sweep closes
it. -/
theorem Sound.finds (hx : x.Sound config) {before after : List Activity} {a : Activity}
    {m : Pool.Step Activity} {touch : Touch} {checkups : List Checkup}
    (hs : x.life.activities = before ++ a :: after)
    (hk : a.Finds x.life.pool x.life.now m touch checkups) :
    (Checkup.failing config checkups).Nodup ∧ ∀ id ∈ Checkup.failing config checkups,
      id ∉ Checkup.failing config x.checkups ∧ (x.life.proceed before m touch after).Dooms id := by
  cases hk with
  | nothing => exact ⟨List.nodup_nil, List.forall_mem_nil _⟩
  | checkup k hn hk =>
    rw [hx.reachable.configured.1] at hk
    cases hfails : k.fails config with
    | false =>
      rw [Checkup.failing, List.filter_singleton, hfails]
      exact ⟨List.nodup_nil, List.forall_mem_nil _⟩
    | true =>
      have hnew : ¬ x.life.Dooms k.conn.id := hx.reachable.conserved.not_dooms hs hk
      have hunhealthy : (k.verdict config).healthy = false := by simpa [Checkup.fails] using hfails
      rw [Checkup.failing, List.filter_singleton, hfails]
      refine ⟨List.nodup_singleton _, fun id hid => ?_⟩
      obtain rfl := List.mem_singleton.1 hid
      exact ⟨fun hold => hnew (hx.dooms _ hold), Life.dooms_proceed (hk.gone hunhealthy)⟩

theorem Sound.step (hx : x.Sound config) (h : x.Step counts x') : x'.Sound config := by
  cases h with
  | advance hs hm hf hk =>
    have hconfig : x.life.pool.config = config := hx.reachable.configured.1
    obtain ⟨hnodup, hfound⟩ := hx.finds hs hk
    refine ⟨hx.reachable.leads (.single (.advance (.mk hs hm hf))),
      hx.tallies.append (hconfig ▸ hk.tallies hm), ?_, fun id hid => ?_⟩
    · rw [Checkup.failing_append]
      exact Life.nodup_opened hx.nodup hnodup fun id hid => (hfound id hid).1
    · rw [Checkup.failing_append] at hid
      obtain hid | hid := List.mem_append.1 hid
      · exact (hx.dooms id hid).advance hs hm
      · exact (hfound id hid).2
  | tend h =>
    refine hx.quiet (.tend h) ?_ (Life.Dooms.tend · h) x.calls
    cases h <;> rfl
  | get ht => exact hx.quiet (.get _ ht) rfl (·.begin rfl rfl) x.calls
  | call ht => exact hx.quiet (.get _ ht) rfl (·.begin rfl rfl) _
  | exchange ht => exact hx.quiet (.exchange _ ht) rfl (·.begin rfl rfl) x.calls
  | @report ticket f hf hc =>
    have htold : Tallies config [.getConnectionErr] [] [] [f] := .single (by decide) rfl rfl
    refine ⟨hx.reachable, ?_, hx.nodup, hx.dooms⟩
    simpa only [List.append_nil] using hx.tallies.append htold

/-! ## What was closed for what was found -/

/-- The connections that were closed and had failed a check that came out in some way. -/
def evicted (config : Config) (way : Checkup → Bool) (x : Account) : List Nat :=
  x.life.closed.filter (· ∈ Checkup.failing config (x.checkups.filter way))

theorem mem_evicted {way : Checkup → Bool} {id : Nat} : id ∈ x.evicted config way ↔
    id ∈ x.life.closed ∧ ∃ k ∈ x.checkups, k.fails config = true ∧ way k = true ∧
    k.conn.id = id := by
  simp [evicted, Checkup.failing, numbers, and_assoc]

/-- If no sweep is under way, whatever has failed a check was closed. -/
theorem Sound.closed (hx : x.Sound config) (hs : x.life.sweeps = 0) :
    Checkup.failing config x.checkups ⊆ x.life.closed := by
  intro id hid
  have := hx.dooms id hid
  rwa [Life.Dooms, Life.dropped_of_sweeps hs, or_iff_left List.not_mem_nil] at this

/-- No connection has failed two checks. -/
theorem Sound.length_evicted (hx : x.Sound config) (hs : x.life.sweeps = 0) (way : Checkup → Bool) :
    (x.evicted config way).length = x.checkups.countP fun k => k.fails config && way k := by
  have hsub :
      (Checkup.failing config (x.checkups.filter way)).Sublist
      (Checkup.failing config x.checkups) :=
    Checkup.failing_sublist List.filter_sublist
  have hperm : (x.evicted config way).Perm (Checkup.failing config (x.checkups.filter way)) := by
    refine (List.perm_ext_iff_of_nodup (hx.reachable.conserved.nodup_closed.filter _)
      (hx.nodup.sublist hsub)).2 fun id => ?_
    rw [List.mem_filter, decide_eq_true_iff]
    exact and_iff_right_of_imp fun hid => hx.closed hs (hsub.subset hid)
  rw [hperm.length_eq, Checkup.failing, length_numbers, List.length_map,
    ← List.countP_eq_length_filter, List.countP_filter]

theorem length_evicted_le {way way' : Checkup → Bool} (x : Account)
    (h : ∀ k, way k = true → way' k = true) :
    (x.evicted config way).length ≤ (x.evicted config way').length := by
  have hsub : (Checkup.failing config (x.checkups.filter way)).Sublist
      (Checkup.failing config (x.checkups.filter way')) :=
    Checkup.failing_sublist (List.monotone_filter_right _ h)
  rw [evicted, evicted, ← List.countP_eq_length_filter, ← List.countP_eq_length_filter]
  exact List.countP_mono_left fun id _ hid => decide_eq_true (hsub.subset (of_decide_eq_true hid))

/-- What was counted as found is the number of connections that were closed for it. -/
theorem Sound.count_found (hx : x.Sound config) (hs : x.life.sweeps = 0) {cause : Counter}
    (hc : cause ∈ Checkup.counters) :
    x.counts.count cause = (x.evicted config (·.isFor config cause)).length := by
  rw [hx.tallies.found cause hc, hx.length_evicted hs]
  refine List.countP_congr fun k _ => ?_
  rw [Bool.and_eq_true, and_iff_right_of_imp Checkup.fails_of_isFor]

/-- Whatever was closed for a check is counted for one cause. -/
theorem Sound.length_evicted_all (hx : x.Sound config) (hs : x.life.sweeps = 0) :
    x.counts.count .remoteErr + x.counts.count .idleTimeout + x.counts.count .lifetimeExceed =
      (x.evicted config fun _ => true).length := by
  rw [hx.tallies.found .remoteErr (by decide), hx.tallies.found .idleTimeout (by decide),
    hx.tallies.found .lifetimeExceed (by decide), hx.length_evicted hs]
  simp only [Bool.and_true, Checkup.countP_fails, Checkup.causes, List.map_cons, List.map_nil,
    List.sum_cons, List.sum_nil, Nat.add_zero, Nat.add_assoc]

/-- Each connection that has failed a check did so for exactly one cause. -/
theorem Sound.existsUnique_cause (hx : x.Sound config) {id : Nat}
    (hid : id ∈ x.evicted config fun _ => true) :
    ∃! cause, cause ∈ Checkup.causes ∧ id ∈ x.evicted config (·.isFor config cause) := by
  obtain ⟨hclosed, k, hk, hfails, -, rfl⟩ := mem_evicted.1 hid
  obtain ⟨cause, ⟨hc, hfor⟩, hunique⟩ := Checkup.existsUnique_cause hfails
  refine ⟨cause, ⟨hc, mem_evicted.2 ⟨hclosed, k, hk, hfails, hfor, rfl⟩⟩, fun other ho => ?_⟩
  obtain ⟨-, k', hk', hfails', hfor', heq⟩ := mem_evicted.1 ho.2
  have hinj := hx.nodup
  rw [Checkup.failing, numbers, List.map_map] at hinj
  obtain rfl : k' = k := List.inj_on_of_nodup_map hinj (List.mem_filter.2 ⟨hk', hfails'⟩)
    (List.mem_filter.2 ⟨hk, hfails⟩) heq
  exact hunique other ⟨ho.1, hfor'⟩

/-- What was opened is open or was closed. -/
theorem Sound.count_newConnection (hx : x.Sound config) :
    x.counts.count .newConnection = x.life.opens.length + x.life.closed.length := by
  have hc := hx.reachable.conserved
  rw [hx.tallies.opened, ← hc.perm.length_eq, List.length_append, hc.perm_opens.length_eq]

end Step

end Account

end Courier.Pool

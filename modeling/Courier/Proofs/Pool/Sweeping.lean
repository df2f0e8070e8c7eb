import Courier.Scenario.Health
import Courier.Proofs.Pool.Checkups

/-!
# The sweep as a filter

A sweep takes the idle connections out of the pool and checks them in their order. Meanwhile other
operations go on: connections come back and stand in the idle list, calls take them from there, and
the pool may be closed. In the end the connections that passed stand behind what has come, in their
old order, and the pool keeps as many from the front as it may. What carries this through the sweep
is that the idle list is always the front part of what has come, and that the rest of it is closed.
-/
namespace Courier
namespace Pool

/-! ## The full check -/

/-- A full check of a sweep, and whether the connection may stay; the probe matters to the built-in
check. -/
structure Finding where
  checkup : Checkup
  healthy : Bool

/-- The connections that passed, in their order. -/
def passed (found : List Finding) : List Conn := (found.filter (·.healthy)).map (·.checkup.conn)

def failed (found : List Finding) : List Conn := (found.filter (!·.healthy)).map (·.checkup.conn)

section Findings
variable (found more : List Finding)

theorem passed_append : passed (found ++ more) = passed found ++ passed more := by simp [passed]

theorem failed_append : failed (found ++ more) = failed found ++ failed more := by simp [failed]

theorem mem_passed_or_failed {c : Conn} (h : c ∈ found.map (·.checkup.conn)) :
    c ∈ passed found ∨ c ∈ failed found := by
  obtain ⟨f, hf, rfl⟩ := List.mem_map.1 h
  cases hhealthy : f.healthy with
  | true => exact .inl (List.mem_map_of_mem (List.mem_filter.2 ⟨hf, hhealthy⟩))
  | false => exact .inr (List.mem_map_of_mem (List.mem_filter.2 ⟨hf, by simp [hhealthy]⟩))

theorem Sweep.judge_eq {w : Sweep} {f : Finding} {rest : List Conn}
    (hp : w.pending = f.checkup.conn :: rest) :
    w.judge f.healthy = ⟨rest, w.kept ++ passed [f], w.dropped ++ failed [f]⟩ := by
  rw [Sweep.judge, hp]
  cases h : f.healthy <;> simp [passed, failed, h]

end Findings

/-- The built-in full check closes a connection for what its probe finds, for having been idle too
long, or for its age; a time of zero is no bound. -/
theorem Checkup.unhealthy_iff (config : Config) {k : Checkup} (hk : k.fast = false) :
    (k.verdict config).healthy = false ↔
      k.probe ≠ .healthy ∨
      (config.idleTimeout ≠ 0 ∧ config.idleTimeout < k.moment - k.conn.returned) ∨
      (config.maxLifetime ≠ 0 ∧ config.maxLifetime < k.moment - k.conn.created) := by
  unfold verdict builtInCheck
  rw [hk]
  cases k.probe with
  | ended | unexpectedData | failed => simp
  | healthy =>
    by_cases hidle : config.idleTimeout ≠ 0 ∧ config.idleTimeout < k.moment - k.conn.returned
    · simp [hidle]
    · by_cases hlife : config.maxLifetime ≠ 0 ∧ config.maxLifetime < k.moment - k.conn.created
      · simp [hidle, hlife]
      · simp [hidle, hlife]

/-! ## What the pool keeps -/

section Cuts
variable (n : Nat) (conns more : List Conn)

/-- What stands behind a list that was cut off may as well stand behind the whole list. -/
theorem take_take_append : (conns.take n ++ more).take n = (conns ++ more).take n := by
  rw [List.take_append, List.take_append, List.take_take, Nat.min_self, List.length_take]
  congr 2
  omega

theorem drop_append_eq :
    (conns ++ more).drop n = conns.drop n ++ (conns.take n ++ more).drop n := by
  rw [List.drop_append, List.drop_append, List.length_take]
  have hnone : (conns.take n).drop n = [] := List.drop_of_length_le (by simp)
  have hcut : n - min n conns.length = n - conns.length := by omega
  rw [hnone, List.nil_append, hcut]

end Cuts

namespace Life
variable {config : Config} {lost more : Nat} {s s' s'' : Life} {found : List Finding}
    {came : List Conn}
  {w : Sweep}

/-! ## A sweep among other operations -/

/-- A connection comes back that is not to be closed: its owner is done with it, or is abandoned. -/
inductive Returns : Life → Nat → Conn → Life → Prop
  | mk {s : Life} {lost : Nat} {before after : List Activity} {a b : Activity} {h : Handle}
      {c : Conn} {touch : Touch} (hs : s.activities = before ++ a :: after)
      (ha : a.handle? = some h) (hc : h.conn = some c)
      (he : s.Event lost
        (s.proceed before ((h.release s.pool false s.now).map fun _ => b) touch after)) :
      Returns s lost c
        (s.proceed before ((h.release s.pool false s.now).map fun _ => b) touch after)

/-- A sweep of the pool begins in the life `s` and goes on while anything else happens. Written down
are what it has found and the connections that have come to the idle list meanwhile, the last one
first: they come back one by one, or something else is done to the list, and then what is in the
list has come. -/
inductive Sweeps (s : Life) : Nat → List Finding → List Conn → Life → Sweep → Prop
  | begin {p : Pool} {w : Sweep} (hb : Sweep.begin s.pool = some (p, w)) :
      Sweeps s 0 [] [] { s with pool := p, activities := .sweep w :: s.activities } w
  | judge {lost : Nat} {found : List Finding} {came : List Conn} {s' : Life} {w : Sweep}
      {before after : List Activity} {c : Conn} {rest : List Conn} {probe : Probe} {v : Verdict}
      (h : Sweeps s lost found came s' w) (hs : s'.activities = before ++ .sweep w :: after)
      (hp : w.pending = c :: rest)
      (hv : s'.pool.config.customCheck = true ∨
        v = builtInCheck s'.pool.config probe c false s'.now) :
      Sweeps s lost (found ++ [⟨⟨c, false, probe, s'.now⟩, v.healthy⟩]) came
        (s'.proceed before ⟨s'.pool, .sweep (w.judge v.healthy), [], v.counts⟩ (.checks c) after)
        (w.judge v.healthy)
  | back {lost more : Nat} {found : List Finding} {came : List Conn} {s' s'' : Life} {w : Sweep}
      {c : Conn} (h : Sweeps s lost found came s' w) (hr : s'.Returns more c s'')
      (hw : .sweep w ∈ s''.activities) : Sweeps s (lost + more) found (c.back s'.now :: came) s'' w
  | shut {lost : Nat} {found : List Finding} {came : List Conn} {s' : Life} {w : Sweep}
      (h : Sweeps s lost found came s' w) : Sweeps s lost found came s'.shut w
  | passes {lost more : Nat} {found : List Finding} {came : List Conn} {s' s'' : Life} {w : Sweep}
      (h : Sweeps s lost found came s' w) (he : s'.Event more s'')
      (hi : s''.pool.idle = s'.pool.idle) (hc : s''.pool.closed = s'.pool.closed)
      (hw : .sweep w ∈ s''.activities) : Sweeps s (lost + more) found came s'' w
  | meddles {lost more : Nat} {found : List Finding} {came : List Conn} {s' s'' : Life} {w : Sweep}
      (h : Sweeps s lost found came s' w) (he : s'.Event more s'')
      (hw : .sweep w ∈ s''.activities) : Sweeps s (lost + more) found s''.pool.idle s'' w

/-- The sweep is over. -/
inductive Swept (s : Life) (lost : Nat) (found : List Finding) (came : List Conn) : Life → Prop
  | mk {s' : Life} {w : Sweep} {before after : List Activity} (h : Sweeps s lost found came s' w)
      (hs : s'.activities = before ++ .sweep w :: after) (hp : w.pending = []) :
      Swept s lost found came
        (s'.proceed before ⟨(w.finish s'.pool).1, .over, (w.finish s'.pool).2, []⟩ .nothing after)

theorem Event.mem_closed {id : Nat} (he : s.Event more s') (h : id ∈ s.closed) :
    id ∈ s'.closed := by
  obtain ⟨new, gone, hspent⟩ := he.spent
  rw [hspent.shifted.closed]
  exact List.mem_append_left _ h

/-! ## What has come to the idle list -/

/-- The idle list of an open pool is the front part of what has come to it, and the rest of that is
closed. If the pool is closed, all of it is. -/
structure Shelved (config : Config) (s : Life) (came : List Conn) : Prop where
  front : s.pool.closed = false → s.pool.idle = came.take config.maxIdle
  rest : s.pool.closed = false → ∀ c ∈ came.drop config.maxIdle, c.id ∈ s.closed
  shut : s.pool.closed = true → ∀ c ∈ came, c.id ∈ s.closed

theorem Shelved.of_open (ho : s.pool.closed = false)
    (hfront : s.pool.idle = came.take config.maxIdle)
    (hrest : ∀ c ∈ came.drop config.maxIdle, c.id ∈ s.closed) : s.Shelved config came :=
  ⟨fun _ => hfront, fun _ => hrest, fun hc => absurd (ho.symm.trans hc) Bool.false_ne_true⟩

theorem Shelved.of_closed (hc : s.pool.closed = true) (hall : ∀ c ∈ came, c.id ∈ s.closed) :
    s.Shelved config came :=
  have hshut (ho : s.pool.closed = false) : False := absurd (ho.symm.trans hc) Bool.false_ne_true
  ⟨fun ho => (hshut ho).elim, fun ho => (hshut ho).elim, fun _ => hall⟩

theorem shelved_idle (h : Leaky config lost s) : s.Shelved config s.pool.idle := by
  have hbounded := h.tallied.bounded
  refine ⟨fun _ => (List.take_of_length_le hbounded).symm, fun _ => ?_, fun hc => ?_⟩
  · rw [List.drop_of_length_le hbounded]
    exact List.forall_mem_nil _
  · rw [(h.isShut hc).idle]
    exact List.forall_mem_nil _

theorem Shelved.event (hs : s.Shelved config came) (he : s.Event more s')
    (hi : s'.pool.idle = s.pool.idle) (hc : s'.pool.closed = s.pool.closed) :
    s'.Shelved config came := by
  refine ⟨fun ho => ?_, fun ho c hmem => ?_, fun ho c hmem => ?_⟩
  · rw [hi]
    exact hs.front (hc.symm.trans ho)
  · exact he.mem_closed (hs.rest (hc.symm.trans ho) c hmem)
  · exact he.mem_closed (hs.shut (hc.symm.trans ho) c hmem)

/-- What a connection that comes back does: the pool puts it. -/
structure Puts (s : Life) (c : Conn) (s' : Life) : Prop where
  idle : s'.pool.idle = (s.pool.put c false s.now).1.idle
  closed : s'.pool.closed = s.pool.closed
  closes : s'.closed = s.closed ++ numbers (s.pool.put c false s.now).2

theorem Returns.puts {c : Conn} (hr : s.Returns more c s') : s.Event more s' ∧ s.Puts c s' := by
  obtain @⟨before, after, a, b, h, _, touch, hs, ha, hc, he⟩ := hr
  refine ⟨he, idle_release hc s.pool false s.now, (keeps_release s.pool s.now h false).closed, ?_⟩
  rw [← closes_release hc s.pool false s.now]
  rfl

theorem Shelved.back {c : Conn} (hs : s.Shelved config came) (h : Leaky config lost s)
    (he : s.Event more s') (hp : s.Puts c s') : s'.Shelved config (c.back s.now :: came) := by
  have hconfig := h.tallied.configured
  have hbounded := h.tallied.bounded
  rw [← hconfig] at hbounded
  have hclosed : ∀ x ∈ (s.pool.put c false s.now).2, x.id ∈ s'.closed := by
    intro x hx
    rw [hp.closes]
    exact List.mem_append_right _ (List.mem_map_of_mem hx)
  cases hc : s.pool.closed with
  | true =>
    have hput : (s.pool.put c false s.now).2 = [c] := by simp [put, hc]
    rw [hput] at hclosed
    refine .of_closed (hp.closed.trans hc)
      (List.forall_mem_cons.2 ⟨hclosed c List.mem_cons_self, ?_⟩)
    exact fun x hx => he.mem_closed (hs.shut hc x hx)
  | false =>
    have hfront : s.pool.Stores came s.pool (came.drop s.pool.config.maxIdle).reverse :=
      ⟨hconfig ▸ hs.front hc, rfl⟩
    have hput : s.pool.Stores ([c.back s.now] ++ came) _ _ :=
      hfront.append rfl (stores_put c s.now hc hbounded)
    refine .of_open (hp.closed.trans hc) ?_ fun x hx => ?_
    · rw [hp.idle, hput.idle, hconfig]
      rfl
    · have hmem : x ∈ ([c.back s.now] ++ came).drop s.pool.config.maxIdle := hconfig ▸ hx
      rw [← List.mem_reverse, ← hput.closes, List.mem_append, List.mem_reverse, hconfig] at hmem
      obtain hmem | hmem := hmem
      · exact he.mem_closed (hs.rest hc x hmem)
      · exact hclosed x hmem

/-- Closing the pool closes all of what has come that is not closed yet. -/
theorem Shelved.shutDown (hs : s.Shelved config came) : s.shut.Shelved config came := by
  have he : s.Event 0 s.shut := .step (step_shut s)
  cases hc : s.pool.closed with
  | true =>
    have hsame : s.shut.pool = s.pool := congrArg Prod.fst (close_of_closed hc)
    exact hs.event he (by rw [hsame]) (by rw [hsame])
  | false =>
    have hclose : s.pool.close.2 = s.pool.idle := by simp [Pool.close, hc]
    refine .of_closed (closed_shut s) fun x hx => ?_
    rw [← List.take_append_drop config.maxIdle came, ← hs.front hc, List.mem_append] at hx
    obtain hx | hx := hx
    · rw [← hclose] at hx
      exact List.mem_append_right _ (List.mem_map_of_mem hx)
    · exact he.mem_closed (hs.rest hc x hx)

/-! ## The sweep under way -/

/-- What holds of a sweep under way: it has found out about the first of the connections that were
idle, and has those that are left. -/
structure Sweeping (config : Config) (s : Life) (lost : Nat) (found : List Finding)
    (came : List Conn) (s' : Life) (w : Sweep) : Prop where
  began : s.pool.closed = false
  runs : s.Runs lost s'
  checked : found.map (·.checkup.conn) ++ w.pending = s.pool.idle
  kept : w.kept = passed found
  dropped : w.dropped = failed found
  shelved : s'.Shelved config came
  builtIn : config.customCheck = false → ∀ f ∈ found, f.checkup.fast = false ∧
    f.healthy = (f.checkup.verdict config).healthy

theorem sweep_begin_eq_some {p p' : Pool} (h : Sweep.begin p = some (p', w)) :
    p.closed = false ∧ p' = { p with idle := [] } ∧ w = ⟨p.idle, [], []⟩ := by
  unfold Sweep.begin at h
  split at h
  · cases h
  next hc =>
    cases h
    exact ⟨Bool.eq_false_of_not_eq_true hc, rfl, rfl⟩

theorem Sweeping.judge {before after : List Activity} {c : Conn} {rest : List Conn} {probe : Probe}
    {v : Verdict} (hs : Sweeping config s lost found came s' w) (hconfig : s'.pool.config = config)
    (hact : s'.activities = before ++ .sweep w :: after) (hp : w.pending = c :: rest)
    (hv : s'.pool.config.customCheck = true ∨
      v = builtInCheck s'.pool.config probe c false s'.now) :
    Sweeping config s lost (found ++ [⟨⟨c, false, probe, s'.now⟩, v.healthy⟩]) came
      (s'.proceed before ⟨s'.pool, .sweep (w.judge v.healthy), [], v.counts⟩ (.checks c) after)
      (w.judge v.healthy) := by
  have hjudges : s'.pool.Judges c false s'.now v := hv.imp_right fun hv => ⟨probe, hv⟩
  have he : s'.Event 0 (s'.proceed before ⟨s'.pool, .sweep (w.judge v.healthy), [], v.counts⟩
      (.checks c) after) := .step (.advance (.mk hact (.judge hp hjudges) (List.forall_mem_nil _)))
  have hjudge := Sweep.judge_eq (w := w) (f := ⟨⟨c, false, probe, s'.now⟩, v.healthy⟩) hp
  dsimp only at hjudge
  refine ⟨hs.began, hs.runs.tail he, ?_, ?_, ?_, hs.shelved.event he rfl rfl,
    fun hbuiltIn f hf => ?_⟩
  · rw [hjudge, ← hs.checked, hp]
    simp
  · rw [hjudge, passed_append, ← hs.kept]
  · rw [hjudge, failed_append, ← hs.dropped]
  · obtain hf | hf := List.mem_append.1 hf
    · exact hs.builtIn hbuiltIn f hf
    · obtain rfl := List.mem_singleton.1 hf
      rw [hconfig] at hv
      obtain hcustom | rfl := hv
      · exact absurd (hbuiltIn.symm.trans hcustom) Bool.false_ne_true
      · exact ⟨rfl, rfl⟩

theorem Sweeps.sweeping (h : Leaky config more s) (hs : s.Sweeps lost found came s' w) :
    Sweeping config s lost found came s' w := by
  induction hs with
  | begin hb =>
    obtain ⟨hc, rfl, rfl⟩ := sweep_begin_eq_some hb
    refine ⟨hc, .single (.step (.tend (.sweep hb))), rfl, rfl, rfl, ?_,
      fun _ => List.forall_mem_nil _⟩
    exact ⟨fun _ => List.take_nil.symm, fun _ => by simp, fun _ => List.forall_mem_nil _⟩
  | judge h' hact hp hv ih => exact ih.judge (h.runs ih.runs).tallied.configured hact hp hv
  | back h' hr hw ih =>
    obtain ⟨he, hputs⟩ := hr.puts
    exact { ih with runs := ih.runs.tail he, shelved := ih.shelved.back (h.runs ih.runs) he hputs }
  | shut h' ih =>
    exact { ih with runs := ih.runs.tail (.step (step_shut _)), shelved := ih.shelved.shutDown }
  | passes h' he hi hc hw ih =>
    exact { ih with runs := ih.runs.tail he, shelved := ih.shelved.event he hi hc }
  | meddles h' he hw ih =>
    exact { ih with runs := ih.runs.tail he, shelved := shelved_idle (h.runs (ih.runs.tail he)) }

/-! ## The end of the sweep -/

/-- The count has gone down by the connections that were closed, but for what was opened and dialed
and lost meanwhile. -/
theorem Runs.active_eq {before : Nat} (h : Leaky config before s) (hr : s.Runs lost s') :
    s'.pool.active + s'.closed.length + (s.opened.length + s.dials) =
      s.pool.active + s.closed.length + (s'.opened.length + s'.dials) + lost := by
  have hs := h.tallied
  have hs' := (h.runs hr).tallied
  have hlength := hs.perm.length_eq
  have hlength' := hs'.perm.length_eq
  have hcount := hs.count
  have hcount' := hs'.count
  simp only [List.length_append, length_located] at hlength hlength' hcount hcount'
  omega

theorem Tallied.not_mem_closed (hs : s.Tallied config lost) {c : Conn} (hc : c ∈ s.pool.idle) :
    c.id ∉ s.closed := by
  have hnodup := hs.perm.nodup_iff.2 hs.nodup
  have hplace : c.id ∈ located s.places := by
    rw [located_places]
    exact List.mem_append_left _ (List.mem_map_of_mem hc)
  exact fun hclosed => List.disjoint_of_nodup_append hnodup hplace hclosed

theorem sweep_begin_of_closed {p : Pool} (hc : p.closed = true) : Sweep.begin p = none := if_pos hc

theorem sweep_of_closed {world : Scenario.World} {id : PoolId}
    (hc : (world.poolAt id).closed = true) : world.sweep id = world := by
  rw [Scenario.World.sweep, sweep_begin_of_closed hc]

theorem Sweeping.finish (h : Leaky config more s) (hs : Sweeping config s lost found came s' w)
    (hc : s'.pool.closed = false) :
    (w.finish s'.pool).1.idle = (came ++ passed found).take config.maxIdle ∧
    ∀ c ∈ failed found ++ (came ++ passed found).drop config.maxIdle,
      c ∈ (w.finish s'.pool).2 ∨ c.id ∈ s'.closed := by
  have hconfig := (h.runs hs.runs).tallied.configured
  have hfront := hs.shelved.front hc
  obtain ⟨closes, hcloses, hstores⟩ := stores_finish w hc
  have hidle := hstores.idle
  have hcut := hstores.closes
  rw [hconfig, hfront, hs.kept] at hidle hcut
  rw [hcloses, hcut, hs.dropped]
  refine ⟨by rw [hidle, take_take_append], fun c hmem => ?_⟩
  rw [drop_append_eq, List.mem_append, List.mem_append] at hmem
  obtain hmem | hmem | hmem := hmem
  · exact .inl (List.mem_append_left _ hmem)
  · exact .inr (hs.shelved.rest hc c hmem)
  · exact .inl (List.mem_append_right _ (List.mem_reverse.2 hmem))

/-- A sweep of an open pool, whatever the checks say and whatever else happens meanwhile. It checks
the connections that were idle, in their order. In the end the idle list is what has come to it
meanwhile, and behind that the connections that passed, in their order, cut off at the bound; those
that failed and those that were cut off are closed. If the pool was closed meanwhile, nothing is
idle, and all that was idle and all that has come is closed. The count has gone down by the
connections that were closed, but for what others have opened, dialed and lost. The built-in check
fails a connection for the finding of its probe, for having been idle too long, or for its age. A
pool that is closed is not swept, and nothing changes. -/
theorem sweep_filters (h : Leaky config more s) :
    (s.pool.closed = true → Sweep.begin s.pool = none) ∧
    (∀ (world : Scenario.World) (id : PoolId), (world.poolAt id).closed = true →
      world.sweep id = world) ∧
    ∀ lost found came s', s.Swept lost found came s' →
      s.pool.closed = false ∧ s.Runs lost s' ∧ found.map (·.checkup.conn) = s.pool.idle ∧
      (s'.pool.closed = false →
        s'.pool.idle = (came ++ passed found).take config.maxIdle ∧
        (∀ c ∈ failed found ++ (came ++ passed found).drop config.maxIdle, c.id ∈ s'.closed) ∧
        ∀ c ∈ s'.pool.idle, c.id ∉ s'.closed) ∧
      (s'.pool.closed = true → s'.pool.idle = [] ∧ ∀ c ∈ came ++ s.pool.idle, c.id ∈ s'.closed) ∧
      s'.pool.active + s'.closed.length + (s.opened.length + s.dials) =
        s.pool.active + s.closed.length + (s'.opened.length + s'.dials) + lost ∧
      (config.customCheck = false → ∀ f ∈ found,
        (f.healthy = false ↔
          f.checkup.probe ≠ .healthy ∨
          (config.idleTimeout ≠ 0 ∧
            config.idleTimeout < f.checkup.moment - f.checkup.conn.returned) ∨
          (config.maxLifetime ≠ 0 ∧
            config.maxLifetime < f.checkup.moment - f.checkup.conn.created))) := by
  refine ⟨sweep_begin_of_closed, fun _ _ => sweep_of_closed, fun lost found came s'' hswept => ?_⟩
  obtain @⟨s', w, before, after, hsweeps, hact, hp⟩ := hswept
  have hs := hsweeps.sweeping h
  have he : s'.Event 0 _ := .step (.advance (.mk hact (.finishSweep hp) (List.forall_mem_nil _)))
  have hruns := hs.runs.tail he
  have hleaky := h.runs hruns
  have hchecked : found.map (·.checkup.conn) = s.pool.idle := by
    rw [← hs.checked, hp, List.append_nil]
  have hkeeps := keeps_finish s'.pool w
  have hclosed : ∀ c ∈ (w.finish s'.pool).2, c.id ∈ (s'.proceed before
      ⟨(w.finish s'.pool).1, .over, (w.finish s'.pool).2, []⟩ .nothing after).closed :=
    fun c hc => List.mem_append_right _ (List.mem_map_of_mem hc)
  refine ⟨hs.began, hruns, hchecked, fun ho => ⟨?_, ?_, ?_⟩,
    fun hc => ⟨(hleaky.isShut hc).idle, ?_⟩, Runs.active_eq h hruns, fun hbuiltIn f hf => ?_⟩
  · exact (hs.finish h (hkeeps.closed.symm.trans ho)).1
  · intro c hmem
    obtain hmem | hmem := (hs.finish h (hkeeps.closed.symm.trans ho)).2 c hmem
    · exact hclosed c hmem
    · exact he.mem_closed hmem
  · exact fun c => hleaky.tallied.not_mem_closed
  · have hshut : s'.pool.closed = true := hkeeps.closed.symm.trans hc
    have hall : (w.finish s'.pool).2 = failed found ++ passed found := by
      rw [Sweep.finish, if_pos hshut, hs.dropped, hs.kept]
    refine List.forall_mem_append.2 ⟨fun c hmem => he.mem_closed (hs.shelved.shut hshut c hmem),
      fun c hmem => hclosed c ?_⟩
    rw [← hchecked] at hmem
    rw [hall, List.mem_append]
    exact (mem_passed_or_failed found hmem).symm
  · obtain ⟨hfull, hverdict⟩ := hs.builtIn hbuiltIn f hf
    rw [hverdict]
    exact f.checkup.unhealthy_iff config hfull

/-- A pool may keep one idle connection. While the only one is checked and passes, another one comes
back: it is kept, and the one that passed is closed. -/
theorem sweep_filters_overtaken : ∃ (s s' : Life) (found : List Finding) (older newer : Conn),
    Leaky { maxIdle := 1 } 0 s ∧ s.Swept 0 found [newer] s' ∧ s.pool.idle = [older] ∧
      passed found = [older] ∧ s'.pool.idle = [newer] ∧ older.id ∈ s'.closed ∧
      s'.pool.active + 1 = s.pool.active := by
  let a : Conn := ⟨0, "10.0.0.1:80", none, 0, 0⟩
  let b : Conn := ⟨1, "10.0.0.1:80", none, 0, 0⟩
  let s0 : Life := start "tcp" "10.0.0.1:80" { maxIdle := 1 } 0
  let ha : Handle := .ofConn s0.pool false a
  let hb : Handle := .ofConn s0.pool false b
  have h1 : s0.Leads (s0.served a) := leads_served rfl rfl rfl rfl List.not_mem_nil
  have h2 := h1.trans (leads_served (c := b) rfl rfl rfl rfl (by decide))
  have h3 := h2.tail (.advance (.mk
    (show _ = [] ++ .get 1 (.served hb) :: [.get 0 (.served ha)] from rfl) (.handOut 1 hb)
    (List.forall_mem_nil _)))
  have h4 := h3.tail (.advance (.mk
    (show _ = [.use hb] ++ .get 0 (.served ha) :: [] from rfl) (.handOut 0 ha)
      (List.forall_mem_nil _)))
  let s : Life :=
    ⟨{ s0.pool with idle := [b], active := 2 }, [.over, .use ha], 0, 2, [0, 1], [],
      [.newConnection, .newConnection]⟩
  have h5 : s0.Leads s := h4.tail (.advance (.mk
    (show _ = [] ++ .use hb :: [.use ha] from rfl) (.close hb) (List.forall_mem_nil _)))
  let w : Sweep := ⟨[b], [], []⟩
  let w' : Sweep := ⟨[], [b], []⟩
  let found : List Finding := [⟨⟨b, false, .healthy, 0⟩, true⟩]
  let s1 : Life :=
    { s with pool := { s.pool with idle := [] }, activities := [.sweep w, .over, .use ha] }
  let s2 : Life :=
    { s with pool := { s.pool with idle := [a] }, activities := [.sweep w, .over, .over] }
  let s3 : Life := { s2 with activities := [.sweep w', .over, .over] }
  let s4 : Life :=
    { s2 with
      pool := { s2.pool with active := 1 }
      activities := [.over, .over, .over]
      closed := [1] }
  have hbegin : s.Sweeps 0 [] [] s1 w := .begin rfl
  have hreturns : s1.Returns 0 a s2 :=
    .mk (show s1.activities = [.sweep w, .over] ++ .use ha :: [] from rfl) rfl rfl
      (.step (.advance (.mk rfl (.close ha) (List.forall_mem_nil _))))
  have hback : s.Sweeps 0 [] [a] s2 w := hbegin.back hreturns List.mem_cons_self
  have hjudge : s.Sweeps 0 found [a] s3 w' :=
    hback.judge (show s2.activities = [] ++ .sweep w :: [.over, .over] from rfl) rfl
      (.inr (show _ = builtInCheck _ .healthy b false 0 from rfl))
  have hswept : s.Swept 0 found [a] s4 :=
    .mk hjudge (show s3.activities = [] ++ .sweep w' :: [.over, .over] from rfl) rfl
  have hleaky : Leaky { maxIdle := 1 } 0 s := Reachable.leaky ⟨_, _, _, h5⟩
  obtain ⟨-, -, -, hopen, -, hactive, -⟩ := (sweep_filters hleaky).2.2 _ _ _ _ hswept
  obtain ⟨hidle, hgone, -⟩ := hopen rfl
  exact ⟨s, s4, found, b, a, hleaky, hswept, rfl, rfl, hidle, hgone b (by decide), rfl⟩

end Life

end Pool

/-! ## Sweeps in a scenario -/

namespace Scenario.World
open Pool

/-- What the check of a pool finds out about a connection. -/
def finding (w : World) (id : PoolId) (c : Conn) : Finding :=
  ⟨⟨c, false, (w.probe c).1, w.now⟩, (w.checkConn id c false).1⟩

/-- What it finds out about several, one after the other. -/
def findings (w : World) (id : PoolId) : List Conn → List Finding
  | [] => []
  | c :: rest => w.finding id c :: (w.checkConn id c false).2.findings id rest

variable (w : World) (id : PoolId)

theorem conns_findings (conns : List Conn) :
    (w.findings id conns).map (·.checkup.conn) = conns := by
  induction conns generalizing w with
  | nil => rfl
  | cons c rest ih =>
    rw [findings, List.map_cons, ih]
    rfl

/-- The built-in check of a pool goes by what it finds out. -/
theorem healthy_finding (hcheck : (w.pools[id]?).bind PoolCell.check = none) (c : Conn) :
    (w.finding id c).healthy = ((w.finding id c).checkup.verdict (w.poolAt id).config).healthy := by
  rw [finding, checkConn, hcheck]
  unfold builtInCheck probe
  cases w.sessions[c.id]? with
  | none => rfl
  | some session => rfl

/-- Whatever a check does besides, the sweep sorts the connections by what it finds out. -/
theorem judgeAll_eq {s : Sweep} {conns : List Conn} (hp : s.pending = conns) :
    (w.judgeAll id s conns).2 =
      ⟨[], s.kept ++ passed (w.findings id conns), s.dropped ++ failed (w.findings id conns)⟩ := by
  induction conns generalizing w s with
  | nil =>
    obtain ⟨pending, kept, dropped⟩ := s
    obtain rfl : pending = [] := hp
    simp [judgeAll, findings, passed, failed]
  | cons c rest ih =>
    have hjudge : s.judge (w.finding id c).healthy = _ := Sweep.judge_eq hp
    have hrest := ih (w.checkConn id c false).2 (congrArg Sweep.pending hjudge)
    show ((w.checkConn id c false).2.judgeAll id (s.judge (w.finding id c).healthy) rest).2 = _
    rw [hrest, hjudge, List.append_assoc, List.append_assoc, ← passed_append, ← failed_append]
    rfl

/-- A sweep of an open pool takes out its idle connections, checks them, and ends in the pool as it
is then, with those that passed and those that did not. -/
theorem sweep_eq (ho : (w.poolAt id).closed = false) :
    let w₀ := w.setPool id { w.poolAt id with idle := [] }
    let w₁ := (w₀.judgeAll id ⟨(w.poolAt id).idle, [], []⟩ (w.poolAt id).idle).1
    let found := w₀.findings id (w.poolAt id).idle
    let ended := Sweep.finish ⟨[], passed found, failed found⟩ (w₁.poolAt id)
    found.map (·.checkup.conn) = (w.poolAt id).idle ∧
      w.sweep id = (w₁.setPool id ended.1).closeConns ended.2 := by
  have hbegin : Sweep.begin (w.poolAt id) =
      some ({ w.poolAt id with idle := [] }, ⟨(w.poolAt id).idle, [], []⟩) :=
    if_neg (by simp [ho])
  have hjudged := (w.setPool id { w.poolAt id with idle := [] }).judgeAll_eq id
    (s := ⟨(w.poolAt id).idle, [], []⟩) rfl
  rw [List.nil_append, List.nil_append] at hjudged
  refine ⟨conns_findings _ id _, ?_⟩
  dsimp only
  rw [sweep, hbegin, ← hjudged]

end Scenario.World

end Courier

import Courier.Proofs.Pool.Counting
import Courier.Proofs.Pool.Losses

/-!
# Who is counted as refused

A pool that refuses callers at its bound counts a refusal wherever a dial may not begin for that
reason. Most of those who would dial are callers, and they are told. The others are top-ups, which
dial for nobody and tell nobody, and they are counted all the same. So the count is that of the
callers who were told, and of the dials of top-ups that were kept out.
-/
namespace Courier.Pool

namespace Activity

/-- The dials of a top-up, whatever has become of them. -/
def preDials : Activity → Nat
  | .topUp t => t.dials.length
  | .get _ _ | .use _ | .exchange _ _ | .sweep _ | .over => 0

theorem keptOut_le (a : Activity) : a.keptOut ≤ a.preDials := by
  cases a with
  | topUp t => exact List.countP_le_length
  | _ => exact Nat.le_refl _

section Steps
variable {p : Pool} {now : Instant} {a : Activity} {m : Step Activity} {touch : Touch}

theorem Moves.preDials_le (h : a.Moves p now m touch) : m.next.preDials ≤ a.preDials := by
  cases h with
  | dial h => simp [preDials]
  | _ => exact Nat.zero_le _

/-- A check tells nobody that the pool is full. -/
theorem Checks.still {c : Conn} {fast : Bool} {v : Verdict} (h : a.Checks p c fast v m) :
    a.Still m.next := by
  cases h with
  | fast hw slot c v =>
    refine hw.still nofun ?_
    unfold Acquire.judge
    split <;> exact nofun
  | full hs v => exact ⟨rfl, Nat.le_refl _⟩

/-- A refusal that is counted is one of a caller who is told of it, or of a dial of a top-up. -/
theorem Moves.count_overLimit (h : a.Moves p now m touch)
    (hq : ∀ c, touch = .checks c → .poolOverLimit ∉ m.counts) :
    m.counts.count .poolOverLimit + a.isToldFull.toNat =
      m.next.isToldFull.toNat + (m.next.keptOut - a.keptOut) := by
  have still (hm : .poolOverLimit ∉ m.counts) (hs : a.Still m.next) :
      m.counts.count .poolOverLimit + a.isToldFull.toNat = m.next.isToldFull.toNat +
      (m.next.keptOut - a.keptOut) := by
    rw [List.count_eq_zero_of_not_mem hm, hs.told, Nat.sub_eq_zero_of_le hs.keptOut, Nat.zero_add,
      Nat.add_zero]
  cases h.counts with
  | nothing ht hm hs => exact still (hm ▸ List.not_mem_nil) hs
  | opens c hm hs => exact still (by rw [hm]; decide) hs
  | checks hv hc => exact still (hq _ rfl) hc.still
  | full hd hm ha hb hk =>
    rw [hm, ha, hb, Nat.sub_eq_zero_of_le hk]
    rfl
  | keepsOut hd hm ht hk =>
    rw [hm, ht, hk, Nat.add_sub_cancel_left, Nat.add_comm]
    rfl
  | unserved ht ha hm =>
    subst ha hm
    exact still (by simp) ⟨rfl, Nat.le_refl _⟩

/-- A dial of a top-up is kept out where the pool is full. -/
theorem Moves.full_of_keptOut (h : a.Moves p now m touch) (hk : a.keptOut < m.next.keptOut) :
    p.beginDial = .error .poolLimit ∧ 0 < m.next.preDials := by
  refine ⟨?_, Nat.lt_of_lt_of_le (Nat.zero_lt_of_lt hk) m.next.keptOut_le⟩
  cases h.counts with
  | nothing ht hm hs => exact absurd hk (Nat.not_lt.2 hs.keptOut)
  | opens c hm hs => exact absurd hk (Nat.not_lt.2 hs.keptOut)
  | checks hv hc => exact absurd hk (Nat.not_lt.2 hc.still.keptOut)
  | full hd => exact hd
  | keepsOut hd => exact hd
  | unserved ht ha hm =>
    subst ha hm
    exact absurd hk (Nat.lt_irrefl _)

theorem Abandons.isToldFull (h : a.Abandons p now m) : a.isToldFull = false := by
  cases h with
  | drop h =>
    cases h.lets with
    | @call _ _ a hw ha =>
      rw [hw.isToldFull]
      cases a <;> first | rfl | cases ha
    | handle ha => exact isToldFull_of_handle? ha
  | topUp ht => rfl

theorem Abandons.counts_eq (h : a.Abandons p now m) : m.counts = [] := by
  cases h with
  | drop h =>
    cases h.lets with
    | call hw ha => rfl
    | handle ha => rfl
  | topUp ht => rfl

end Steps

end Activity

namespace Life

/-- How many callers were told that the pool is full. -/
def toldFull (s : Life) : Nat := s.activities.countP Activity.isToldFull

/-- What can happen to a pool, and how many dials of top-ups are kept out in it. A check that
replaces the built-in one does not count refusals. -/
inductive Bars : Life → Nat → Life → Prop
  | advance {s : Life} {before after : List Activity} {a : Activity} {m : Pool.Step Activity}
      {touch : Touch} (hs : s.activities = before ++ a :: after) (hm : a.Moves s.pool s.now m touch)
      (hf : ∀ c ∈ touch.opened, c.id ∉ s.opened)
      (hq : ∀ c, touch = .checks c → .poolOverLimit ∉ m.counts) :
      Bars s (m.next.keptOut - a.keptOut) (s.proceed before m touch after)
  | tend {s s' : Life} (h : s.Tend s') : Bars s 0 s'
  | get (s : Life) {ticket : Ticket} (ht : s.tickets ≤ ticket) :
      Bars s 0 { s with activities := .get ticket .arriving :: s.activities, tickets := ticket + 1 }
  | exchange (s : Life) {e : Errand} (ht : s.tickets ≤ e.ticket) : Bars s 0 (s.enlist e)
  | abandon {s : Life} {before after : List Activity} {a : Activity} {m : Pool.Step Activity}
      (hs : s.activities = before ++ a :: after) (hm : a.Abandons s.pool s.now m) :
      Bars s 0 (s.proceed before m .nothing after)

/-- The states that a pool can come to with so many dials of top-ups kept out. -/
inductive Barred (config : Config) : Nat → Life → Prop
  | start (network address : String) (now : Instant) :
      Barred config 0 (start network address config now)
  | tail {n k : Nat} {s s' : Life} (h : Barred config n s) (he : s.Bars k s') :
      Barred config (n + k) s'

section Bars
variable {config : Config} {n k lost : Nat} {s s' : Life}

theorem Bars.event (h : s.Bars k s') : ∃ lost, s.Event lost s' := by
  cases h with
  | advance hs hm hf => exact ⟨0, .step (.advance (.mk hs hm hf))⟩
  | tend h => exact ⟨0, .step (.tend h)⟩
  | get ht => exact ⟨0, .step (.get s ht)⟩
  | exchange ht => exact ⟨0, .step (.exchange s ht)⟩
  | abandon hs hm => exact ⟨_, .abandon hs hm⟩

theorem Barred.leaky (h : Barred config n s) : ∃ lost, Leaky config lost s := by
  induction h with
  | start network address now => exact ⟨0, network, address, now, .refl _⟩
  | tail _ he ih =>
    obtain ⟨lost, hl⟩ := ih
    obtain ⟨more, he⟩ := he.event
    exact ⟨_, hl.runs (.single he)⟩

/-- The built-in check does not count refusals. -/
theorem not_mem_counts_of_checks (hc : s.pool.config.customCheck = false) {a : Activity}
    {m : Pool.Step Activity} {touch : Touch} (hm : a.Moves s.pool s.now m touch) :
    ∀ c, touch = .checks c → .poolOverLimit ∉ m.counts := by
  rintro c rfl
  cases hm.counts with
  | nothing ht hm => exact hm ▸ List.not_mem_nil
  | checks hv h =>
    obtain hcustom | ⟨probe, rfl⟩ := hv
    · exact absurd hcustom (by rw [hc]; exact Bool.false_ne_true)
    · have hbuiltIn (fast : Bool) :
          .poolOverLimit ∉ (builtInCheck s.pool.config probe c fast s.now).counts := by
        unfold builtInCheck
        split <;> try decide
        split
        · exact List.not_mem_nil
        · split
          · decide
          · split <;> decide
      cases h <;> exact hbuiltIn _
  | unserved ht ha hm => exact hm ▸ (by simp)

theorem Event.bars (hc : s.pool.config.customCheck = false) (h : s.Event lost s') :
    ∃ k, s.Bars k s' := by
  cases h with
  | step h =>
    cases h with
    | advance h =>
      obtain ⟨hs, hm, hf⟩ := h
      exact ⟨_, .advance hs hm hf (not_mem_counts_of_checks hc hm)⟩
    | tend h => exact ⟨0, .tend h⟩
    | get ht => exact ⟨0, .get s ht⟩
    | exchange ht => exact ⟨0, .exchange s ht⟩
  | abandon hs hm => exact ⟨0, .abandon hs hm⟩

/-- With the built-in check, every state is one of those. -/
theorem Leaky.barred (h : Leaky config lost s) (hc : config.customCheck = false) :
    ∃ n, Barred config n s := by
  obtain ⟨network, address, now, h⟩ := h
  induction h with
  | refl => exact ⟨0, .start network address now⟩
  | @tail s' s'' lost more hruns he ih =>
    obtain ⟨n, hn⟩ := ih
    have hs : s'.pool.config = config := (Leaky.tallied ⟨network, address, now, hruns⟩).configured
    obtain ⟨k, hk⟩ := he.bars (by rw [hs, hc])
    exact ⟨n + k, hn.tail hk⟩

theorem toldFull_among {before after : List Activity} {a : Activity}
    (hs : s.activities = before ++ a :: after) : s.toldFull =
      before.countP Activity.isToldFull + a.isToldFull.toNat +
        after.countP Activity.isToldFull := by
  rw [toldFull, hs, List.countP_append, List.countP_cons, ← Nat.add_assoc, Nat.add_right_comm]
  cases a.isToldFull <;> rfl

/-- What is counted in an event: the callers who are told in it, and the dials that are kept out. -/
theorem Bars.count (h : s.Bars k s') (hs : s.counts.count .poolOverLimit = s.toldFull + n) :
    s'.counts.count .poolOverLimit = s'.toldFull + (n + k) := by
  cases h with
  | @advance before after a m touch hact hm hf hq =>
    have hcount := hm.count_overLimit hq
    have hnext : (s.proceed before m touch after).activities = before ++ m.next :: after := rfl
    rw [toldFull_among hact] at hs
    rw [toldFull_among hnext, proceed, List.count_append]
    omega
  | tend h =>
    cases h <;> simpa [toldFull, Activity.isToldFull, Activity.fault?] using hs
  | get ht => simpa [toldFull, Activity.isToldFull, Activity.fault?, Acquire.fault?] using hs
  | exchange ht =>
    simpa [toldFull, enlist, Activity.isToldFull, Activity.fault?, Acquire.fault?] using hs
  | @abandon before after a m hact hm =>
    have hnext : (s.proceed before m .nothing after).activities = before ++ .over :: after := by
      rw [← hm.next_eq]
      rfl
    rw [toldFull_among hact, hm.isToldFull] at hs
    rw [toldFull_among hnext, proceed, hm.counts_eq, List.append_nil]
    exact hs

theorem Barred.count (h : Barred config n s) : s.counts.count .poolOverLimit = s.toldFull + n := by
  induction h with
  | start network address now => rfl
  | tail _ he ih => exact he.count ih

/-- No top-up dials more than are missing in an empty pool. -/
theorem Bars.preDials_le (h : s.Bars k s') (hc : s.pool.config = config)
    (hs : ∀ a ∈ s.activities, a.preDials ≤ config.minIdle) :
    ∀ a ∈ s'.activities, a.preDials ≤ config.minIdle := by
  have among {before after : List Activity} {a b : Activity}
    (hact : s.activities = before ++ a :: after)
      (hb : b.preDials ≤ a.preDials) : ∀ x ∈ before ++ b :: after, x.preDials ≤ config.minIdle := by
    rw [hact] at hs
    simp only [List.mem_append, List.mem_cons] at hs ⊢
    rintro x (hx | rfl | hx)
    · exact hs x (.inl hx)
    · exact Nat.le_trans hb (hs a (.inr (.inl rfl)))
    · exact hs x (.inr (.inr hx))
  cases h with
  | advance hact hm => exact among hact hm.preDials_le
  | abandon hact hm => exact among hact (hm.next_eq ▸ Nat.zero_le _)
  | get => exact List.forall_mem_cons.2 ⟨Nat.zero_le _, hs⟩
  | exchange => exact List.forall_mem_cons.2 ⟨Nat.zero_le _, hs⟩
  | tend h =>
    cases h with
    | sweep => exact List.forall_mem_cons.2 ⟨Nat.zero_le _, hs⟩
    | close => exact hs
    | pass => exact hs
    | topUp =>
      refine List.forall_mem_cons.2 ⟨?_, hs⟩
      unfold TopUp.begin
      split
      · exact Nat.zero_le _
      · simp [Activity.preDials, shortfall, hc]

theorem Barred.preDials_le (h : Barred config n s) :
    ∀ a ∈ s.activities, a.preDials ≤ config.minIdle := by
  induction h with
  | start network address now => exact List.forall_mem_nil _
  | tail h he ih =>
    obtain ⟨lost, hl⟩ := h.leaky
    exact he.preDials_le hl.tallied.configured ih

/-- A dial is kept out only of a pool that refuses callers and keeps idle connections ready. -/
theorem Barred.eq_zero (h : Barred config n s) (hc : config.refuses = false ∨ config.minIdle = 0) :
    n = 0 := by
  induction h with
  | start network address now => rfl
  | @tail n k s s' h he ih =>
    rw [ih, Nat.zero_add]
    have hle := (h.tail he).preDials_le
    obtain ⟨lost, hl⟩ := h.leaky
    cases he with
    | @advance before after a m touch hact hm =>
      rw [Nat.sub_eq_zero_iff_le, ← Nat.not_lt]
      intro hk
      obtain ⟨hfull, hpos⟩ := hm.full_of_keptOut hk
      have hrefuses := (beginDial_eq_poolLimit.1 hfull).1
      rw [hl.tallied.configured] at hrefuses
      obtain hc | hc := hc
      · exact Bool.false_ne_true (hc.symm.trans hrefuses)
      · exact absurd (hle m.next (by simp [proceed])) (by omega)
    | tend | get | exchange | abandon => rfl

end Bars

/-- The count of refusals is that of the callers who were told that the pool is full, and of the
dials of top-ups that were kept out for the same reason. Nothing is kept out if the pool does not
refuse callers at its bound, or if it keeps no idle connections ready. -/
theorem over_limit_counts {config : Config} {n : Nat} {s : Life} (h : Barred config n s) :
    s.counts.count .poolOverLimit = s.toldFull + n ∧
    (config.refuses = false ∨ config.minIdle = 0 → s.counts.count .poolOverLimit = s.toldFull) := by
  refine ⟨h.count, fun hc => ?_⟩
  rw [h.count, h.eq_zero hc, Nat.add_zero]

/-- A top-up of a pool for one connection has opened it and is kept out with its other dial. -/
theorem leads_keptOut :
    ∃ s, Reachable { maxActive := 1, minIdle := 2 } s ∧ s.pool.slots = none ∧ s.pool.idle = [] ∧
      s.pool.beginDial = .error .poolLimit ∧ s.counts.count .poolOverLimit = 1 ∧
      s.toldFull = 0 := by
  let s : Life := start "tcp" "10.0.0.1:80" { maxActive := 1, minIdle := 2 } 0
  let c : Conn := ⟨0, "10.0.0.1:80", none, 0, 0⟩
  have h1 : s.Leads { s with activities := [.topUp (.begin s.pool)] } := .single (.tend (.topUp s))
  have h2 := h1.trans (@leads_preDialed _ [] [.waiting] c rfl rfl List.not_mem_nil)
  have h3 := h2.tail (.advance (.mk
    (show _ = [] ++ .topUp ⟨[.ready c] ++ .waiting :: []⟩ :: [] from rfl) (.dial (.begin 0))
    (List.forall_mem_nil _)))
  exact ⟨_, ⟨_, _, _, h3⟩, rfl, rfl, rfl, rfl, rfl⟩

/-- A refusal is counted, and nobody has called. -/
theorem counted_without_caller :
    ∃ s, Reachable { maxActive := 1, minIdle := 2 } s ∧ s.counts.count .poolOverLimit = 1 ∧
      s.toldFull = 0 := by
  obtain ⟨s, hs, -, -, -, hcount, htold⟩ := leads_keptOut
  exact ⟨s, hs, hcount, htold⟩

/-- A call comes to a pool that is full, and is told so. -/
theorem leads_toldFull {s : Life} (hs : s.pool.slots = none) (hi : s.pool.idle = [])
    (hd : s.pool.beginDial = .error .poolLimit) :
    ∃ s', s.Leads s' ∧ s'.counts.count .poolOverLimit = s.counts.count .poolOverLimit + 1 ∧
      s'.toldFull = s.toldFull + 1 := by
  have ha : Acquire.arrive s.pool s.tickets none = .quiet s.pool (.popping false) := by
    simp [Acquire.arrive, hs]
  have hp : Acquire.pop s.pool false = .quiet s.pool (.exhausted false) := by
    simp [Acquire.pop, popIdle, hi]
  have h1 : Step s (s.withGet s.pool .arriving) := .get s (Nat.le_refl _)
  have h2 : Step (s.withGet s.pool .arriving) (s.withGet s.pool (.popping false)) :=
    step_withGet (ha ▸ .arrive none)
  have h3 : Step (s.withGet s.pool (.popping false)) (s.withGet s.pool (.exhausted false)) :=
    step_withGet (hp ▸ .pop false)
  have h4 : Step (s.withGet s.pool (.exhausted false))
      ((s.withGet s.pool (.exhausted false)).proceed [] _ .nothing s.activities) :=
    .advance (.mk rfl (.get (.beginDial false 0 none none)) (List.forall_mem_nil _))
  refine ⟨_, .head h1 (.head h2 (.head h3 (.single h4))), ?_, ?_⟩
  · simp [proceed, withGet, Acquire.beginDial, hd, refusalCounts]
  · simp [toldFull, proceed, withGet, Acquire.beginDial, hd, Acquire.fail, Activity.isToldFull,
      Activity.fault?, Acquire.fault?]

/-- A top-up is kept out, and a caller is told. -/
theorem over_limit_counts_both :
    ∃ s, Barred { maxActive := 1, minIdle := 2 } 1 s ∧ s.counts.count .poolOverLimit = 2 ∧
      s.toldFull = 1 := by
  obtain ⟨s, hs, hslots, hi, hd, hcount, htold⟩ := leads_keptOut
  obtain ⟨s', hs', hcount', htold'⟩ := leads_toldFull hslots hi hd
  obtain ⟨n, hn⟩ := (hs.leads hs').leaky.barred rfl
  have hall := (over_limit_counts hn).1
  rw [hcount'] at hall
  rw [htold', hcount, htold, Nat.add_comm 0 1, Nat.add_left_cancel_iff] at hall
  exact ⟨s', hall ▸ hn, by rw [hcount', hcount], by rw [htold', htold]⟩

end Life

end Courier.Pool

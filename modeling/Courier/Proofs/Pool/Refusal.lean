import Courier.Proofs.Pool.Shutdown

/-!
# What a closed pool says

A call that comes to a closed pool is refused after a few steps of its own, whatever else happens
meanwhile. Where callers queue, the queue refuses it. Otherwise it finds nothing idle and is refused
where it would dial, and there the bound comes before the end of the pool: a pool that refuses
callers at its bound and still counts as much as its bound says that it is full.
-/
namespace Courier.Pool

/-- A call has come to a closed pool and has taken `n` steps. -/
inductive Acquire.Late (config : Config) : Nat → Acquire → Prop
  | arriving : Late config 0 .arriving
  | popping : Late config 1 (.popping false)
  | exhausted : Late config 2 (.exhausted false)
  | failed {n : Nat} (hn : n ≤ 3) {f : Fault}
      (hf : f = .poolClosed ∨ f = .poolLimit ∧ config.refuses = true) : Late config n (.failed f)

/-- The call goes on as its number of steps says, or it is refused. -/
def Acquire.Refused (p : Pool) (next : Acquire) : Prop :=
  next = .popping false ∨ next = .exhausted false ∨ next = .failed p.refusal

section Steps
variable {p : Pool} {now : Instant} {ticket : Ticket} {n : Nat} {a : Acquire} {m : Step Acquire}
  {touch : Touch}

/-- A pool with a queue does not refuse callers at its bound. -/
theorem refusal_of_queues (h : p.config.queues = true) : p.refusal = .poolClosed := by
  have hr : p.config.refuses = false := by
    simp only [Config.queues, Bool.and_eq_true] at h
    simp [Config.refuses, h.1]
  simp [refusal, hr]

theorem refusal_cases (p : Pool) :
    p.refusal = .poolClosed ∨ p.refusal = .poolLimit ∧ p.config.refuses = true := by
  unfold refusal
  split
  next h => exact .inr ⟨rfl, h.1⟩
  next => exact .inl rfl

/-- A step of a call that came too late. Its context was not done when it came; what becomes of the
context later does not matter. -/
theorem Acquire.Late.step (hp : p.IsShut) (hq : p.slots.isSome = p.config.queues)
    (ha : a.Late p.config n) (h : a.Moves ticket p now m touch)
    (hdone : n = 0 → m = arrive p ticket none) :
    m.next.Late p.config (n + 1) ∧ m.next.Refused p := by
  have failed {n : Nat} (hn : n ≤ 3) (hm : m.next = .failed p.refusal) :
      m.next.Late p.config n ∧ m.next.Refused p := by
    rw [hm]
    exact ⟨.failed hn p.refusal_cases, .inr (.inr rfl)⟩
  cases ha with
  | arriving =>
    rw [hdone rfl] at failed ⊢
    cases hs : p.slots with
    | none =>
      have hm : (arrive p ticket none).next = .popping false := by simp [arrive, hs]
      rw [hm]
      exact ⟨.popping, .inl rfl⟩
    | some slots =>
      apply failed (by decide)
      have hclosed := hp.slots
      rw [hs] at hq hclosed
      rw [refusal_of_queues hq.symm]
      simp only [Option.all_some] at hclosed
      simp [arrive, hs, Slots.ask, hclosed]
  | popping =>
    cases h
    have hm : (pop p false).next = .exhausted false := by simp [pop, popIdle, hp.idle]
    rw [hm]
    exact ⟨.exhausted, .inr (.inl rfl)⟩
  | exhausted =>
    cases h with
    | beginDial attempt done remaining =>
      apply failed (by decide)
      simp [beginDial, beginDial_of_closed hp.closed, fail]
  | failed hn hf => cases h

/-- A call that came too late and is not refused yet can go on. -/
theorem Acquire.Late.moves {config : Config} (ha : a.Late config n) (hf : ∀ f, a ≠ .failed f)
    (ticket : Ticket) (p : Pool) (now : Instant) :
    ∃ m touch, a.Moves ticket p now m touch ∧ (n = 0 → m = arrive p ticket none) := by
  cases ha with
  | arriving => exact ⟨_, _, .arrive none, fun _ => rfl⟩
  | popping => exact ⟨_, _, .pop false, nofun⟩
  | exhausted => exact ⟨_, _, .beginDial false 0 none none, nofun⟩
  | failed hn hf' => exact absurd rfl (hf _)

end Steps

/-! ## A call among other operations -/

namespace Life
variable {config : Config} {lost : Nat} {s s' : Life} {ticket : Ticket} {wants : Acquire → Activity}
  {n : Nat} {a : Acquire}

/-- A call begins in the life `s`, under a context that is not done, and takes `n` steps; anything
else happens before and after each of them. -/
inductive Attends (ticket : Ticket) (wants : Acquire → Activity) (s : Life) :
    Nat → Life → Acquire → Prop
  | begin : Attends ticket wants s 0
      { s with activities := wants .arriving :: s.activities, tickets := ticket + 1 } .arriving
  | own {n : Nat} {s' : Life} {a : Acquire} {before after : List Activity} {m : Pool.Step Acquire}
      {touch : Touch} (h : Attends ticket wants s n s' a)
      (hs : s'.activities = before ++ wants a :: after) (hm : a.Moves ticket s'.pool s'.now m touch)
      (hdone : n = 0 → m = Acquire.arrive s'.pool ticket none)
      (hf : ∀ c ∈ touch.opened, c.id ∉ s'.opened) :
      Attends ticket wants s (n + 1) (s'.proceed before (m.map wants) touch after) m.next
  | others {n : Nat} {s' s'' : Life} {a : Acquire} {lost : Nat} (h : Attends ticket wants s n s' a)
      (he : s'.Event lost s'') (hs : wants a ∈ s''.activities) : Attends ticket wants s n s'' a

theorem step_begin (hw : Activity.Wants ticket wants) (ht : s.tickets ≤ ticket) :
    Step s { s with activities := wants .arriving :: s.activities, tickets := ticket + 1 } := by
  cases hw with
  | get => exact .get s ht
  | exchange e => exact .exchange s ht

theorem step_late {m : Pool.Step Acquire} {touch : Touch} (h : Leaky config lost s)
    (hc : s.pool.closed = true) (ha : a.Late config n) (hm : a.Moves ticket s.pool s.now m touch)
    (hdone : n = 0 → m = Acquire.arrive s.pool ticket none) :
    m.next.Late config (n + 1) ∧ m.next.Refused s.pool := by
  have hq := h.lent.queues
  have hconfig := h.tallied.configured
  rw [← hconfig] at ha hq ⊢
  exact ha.step (h.isShut hc) hq hm hdone

/-- A call that comes to a closed pool stays too late. -/
theorem Attends.late (h : Leaky config lost s) (hc : s.pool.closed = true)
    (hw : Activity.Wants ticket wants) (ht : s.tickets ≤ ticket)
    (ha : s.Attends ticket wants n s' a) :
    (∃ lost, Leaky config lost s') ∧ s'.pool.closed = true ∧ a.Late config n := by
  induction ha with
  | begin => exact ⟨⟨_, h.runs (.single (.step (step_begin hw ht)))⟩, hc, .arriving⟩
  | @own n s' a before after m touch _ hs hm hdone hf ih =>
    obtain ⟨⟨lost', hl⟩, hclosed, hlate⟩ := ih
    have hstep : s'.Event 0 (s'.proceed before (m.map wants) touch after) :=
      .step (.advance (.mk hs (hw.moves hm) hf))
    exact ⟨⟨_, hl.runs (.single hstep)⟩, hstep.closed hclosed,
      (step_late hl hclosed hlate hm hdone).1⟩
  | others _ he hs ih =>
    obtain ⟨⟨lost', hl⟩, hclosed, hlate⟩ := ih
    exact ⟨⟨_, hl.runs (.single he)⟩, he.closed hclosed, hlate⟩

/-- A call that comes to a closed pool under a context that is not done is refused after at most
three steps of its own, without waiting, dialing or being served, whatever else happens meanwhile.
It is told that the pool is full if callers are refused at the bound and as much as the bound is
still counted when it looks, and in every other case that the pool is closed. -/
theorem refused_of_closed (h : Leaky config lost s) (hc : s.pool.closed = true)
    (hw : Activity.Wants ticket wants) (ht : s.tickets ≤ ticket)
    (ha : s.Attends ticket wants n s' a) :
    n ≤ 3 ∧
    (n = 3 → ∃ f, a = .failed f) ∧
    ((∀ f, a ≠ .failed f) → ∃ m touch, a.Moves ticket s'.pool s'.now m touch ∧
      (n = 0 → m = Acquire.arrive s'.pool ticket none)) ∧
    (∀ m touch, a.Moves ticket s'.pool s'.now m touch →
      (n = 0 → m = Acquire.arrive s'.pool ticket none) →
      m.next = .popping false ∨ m.next = .exhausted false ∨
        m.next = .failed (if config.refuses ∧ config.maxActive ≤ s'.pool.active then .poolLimit
          else .poolClosed)) ∧
    (∀ f, a = .failed f → f = .poolClosed ∨ f = .poolLimit ∧ config.refuses = true) := by
  obtain ⟨⟨lost', hl⟩, hclosed, hlate⟩ := ha.late h hc hw ht
  refine ⟨?_, fun hn => ?_, fun hf => hlate.moves hf ticket _ _, fun m touch hm hdone => ?_,
    fun f hf => ?_⟩
  · cases hlate with
    | failed hn hf => exact hn
    | _ => decide
  · subst hn
    cases hlate with
    | @failed _ hn f hf => exact ⟨f, rfl⟩
  · have hrefused := (step_late hl hclosed hlate hm hdone).2
    rw [← hl.tallied.configured]
    exact hrefused
  · subst hf
    cases hlate with
    | failed hn hf => exact hf

/-- The call that began last takes a step. -/
theorem Attends.first {rest : List Activity} {m : Pool.Step Acquire}
    (h : s.Attends ticket wants n s' a) (hs : s'.activities = wants a :: rest)
    (hm : a.Moves ticket s'.pool s'.now m .nothing)
    (hdone : n = 0 → m = Acquire.arrive s'.pool ticket none) :
    ∃ s'', s''.pool = m.pool ∧ s''.activities = wants m.next :: rest ∧
      s.Attends ticket wants (n + 1) s'' m.next :=
  ⟨_, rfl, rfl, h.own (show s'.activities = [] ++ wants a :: rest from hs) hm hdone
    (List.forall_mem_nil _)⟩

/-- A call comes to a closed pool without a queue and takes its three steps. -/
theorem attends_refused (hs : s.pool.slots = none) (hi : s.pool.idle = [])
    (hc : s.pool.closed = true) :
    ∃ s', s.Attends s.tickets (.get s.tickets) 3 s' (.failed s.pool.refusal) := by
  have harrive : Acquire.arrive s.pool s.tickets none = .quiet s.pool (.popping false) := by
    simp [Acquire.arrive, hs]
  have hpop : Acquire.pop s.pool false = .quiet s.pool (.exhausted false) := by
    simp [Acquire.pop, popIdle, hi]
  have hdial (now : Instant) :
      (Acquire.beginDial s.pool false 0 none none now).next = .failed s.pool.refusal := by
    simp [Acquire.beginDial, beginDial_of_closed hc, Acquire.fail]
  obtain ⟨s1, hp1, hs1, h1⟩ := (Attends.begin (s := s)).first rfl (.arrive none) fun _ => rfl
  rw [harrive] at hp1 hs1 h1
  obtain ⟨s2, hp2, hs2, h2⟩ := h1.first hs1 (.pop false) fun h => absurd h (Nat.succ_ne_zero 0)
  rw [hp1, Step.quiet_pool, hpop] at hp2 hs2 h2
  obtain ⟨s3, -, -, h3⟩ :=
    h2.first hs2 (.beginDial false 0 none none) fun h => absurd h (Nat.succ_ne_zero 1)
  rw [hp2, Step.quiet_pool, hdial] at h3
  exact ⟨s3, h3⟩

/-- A pool without a bound says that it is closed. -/
theorem refused_of_closed_unbounded :
    ∃ s, Reachable {} s ∧ s.pool.closed = true ∧ (∃ s' a, s.Attends 0 (.get 0) 3 s' a) ∧
      ∀ s' a, s.Attends 0 (.get 0) 3 s' a → a = .failed .poolClosed := by
  let s : Life := (start "tcp" "10.0.0.1:80" {} 0).shut
  have hs : Reachable {} s := ⟨_, _, _, .single (step_shut _)⟩
  obtain ⟨s', hattends⟩ := attends_refused (s := s) rfl rfl rfl
  refine ⟨s, hs, rfl, ⟨s', _, hattends⟩, fun s' a ha => ?_⟩
  obtain ⟨-, hends, -, -, hfault⟩ := refused_of_closed hs.leaky rfl (.get 0) (Nat.le_refl 0) ha
  obtain ⟨f, rfl⟩ := hends rfl
  obtain rfl | ⟨-, hrefuses⟩ := hfault f rfl
  · rfl
  · cases hrefuses

/-- A closed pool for one connection, which is still checked out, says that it is full. -/
theorem full_of_closed :
    ∃ s s', Reachable { maxActive := 1 } s ∧ s.pool.closed = true ∧ s.tickets = 1 ∧
      s.Attends 1 (.get 1) 3 s' (.failed .poolLimit) := by
  let c : Conn := ⟨0, "10.0.0.1:80", none, 0, 0⟩
  let s : Life := ((start "tcp" "10.0.0.1:80" { maxActive := 1 } 0).served c).shut
  have hleads : (start "tcp" "10.0.0.1:80" { maxActive := 1 } 0).Leads s :=
    (leads_dialed rfl rfl rfl List.not_mem_nil).tail (step_shut _)
  obtain ⟨s', hattends⟩ := attends_refused (s := s) rfl rfl rfl
  exact ⟨s, s', ⟨_, _, _, hleads⟩, rfl, rfl, hattends⟩

end Life

end Courier.Pool

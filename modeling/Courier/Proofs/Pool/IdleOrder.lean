import Courier.Proofs.Pool.Shelving

/-!
# The order of the idle list

What carries the order of the idle list through a sweep is a longer list, the shelf: the idle list,
and behind it whatever a sweep has in hand. As long as no second sweep begins while one is under
way, the shelf changes only by what comes back at its front and by what is taken out anywhere. So it
stays sorted by the time of return, and with it what the pool cuts off at the end is what came back
first.
-/
namespace Courier.Pool

namespace Life
variable {config : Config} {lost more : Nat} {s s' : Life}

/-- How many sweeps are under way. -/
def sweeps (s : Life) : Nat := s.activities.countP Activity.isSweep

/-- The states that a pool can come to if at most one sweep is under way at any time. -/
inductive SweptOnce (config : Config) : Life → Prop
  | start (network address : String) (now : Instant) :
      SweptOnce config (start network address config now)
  | event {s s' : Life} {lost : Nat} (h : SweptOnce config s) (he : s.Event lost s')
      (hs : s'.sweeps ≤ 1) : SweptOnce config s'

theorem SweptOnce.leaky (h : SweptOnce config s) : ∃ lost, Leaky config lost s := by
  induction h with
  | start network address now => exact ⟨0, network, address, now, .refl _⟩
  | event _ he _ ih =>
    obtain ⟨lost, h⟩ := ih
    exact ⟨_, h.runs (.single he)⟩

theorem SweptOnce.sweeps_le (h : SweptOnce config s) : s.sweeps ≤ 1 := by
  cases h with
  | start => exact Nat.zero_le 1
  | event _ _ hs => exact hs

/-- The idle list, and behind it what a sweep has in hand. -/
def shelf (s : Life) : List Conn := s.pool.idle ++ s.activities.flatMap Activity.swept

/-- The shelf is sorted by the time of return, and nothing on it comes from the future. -/
structure InOrder (s : Life) : Prop where
  byReturn : ByReturn s.shelf
  past : ∀ c ∈ s.shelf, c.returned ≤ s.now

/-- In an event an operation goes on or is abandoned, or nothing comes to the shelf. -/
theorem Event.turns (h : s.Event more s') :
    (∃ before a after m touch, s.activities = before ++ a :: after ∧ a.Turns s.pool s.now m ∧
      s' = s.proceed before m touch after) ∨
    s'.shelf.Sublist s.shelf ∧ s'.pool.idle <:+ s.pool.idle ∧ s.now ≤ s'.now := by
  cases h with
  | step h =>
    cases h with
    | advance h =>
      obtain ⟨hs, hm, -⟩ := h
      exact .inl ⟨_, _, _, _, _, hs, .inl ⟨_, hm⟩, rfl⟩
    | tend h =>
      right
      cases h with
      | sweep hb =>
        unfold Sweep.begin at hb
        split at hb
        · cases hb
        · cases hb
          exact ⟨List.Sublist.refl _, List.nil_suffix, Nat.le_refl _⟩
      | topUp => exact ⟨List.Sublist.refl _, List.suffix_rfl, Nat.le_refl _⟩
      | close =>
        have hi : s.pool.close.1.idle <:+ s.pool.idle := by
          unfold Pool.close
          split
          · exact List.suffix_rfl
          · exact List.nil_suffix
        exact ⟨hi.sublist.append_right _, hi, Nat.le_refl _⟩
      | pass hl => exact ⟨List.Sublist.refl _, List.suffix_rfl, hl⟩
    | get ht => exact .inr ⟨List.Sublist.refl _, List.suffix_rfl, Nat.le_refl _⟩
    | exchange ht => exact .inr ⟨List.Sublist.refl _, List.suffix_rfl, Nat.le_refl _⟩
  | abandon hs hm => exact .inl ⟨_, _, _, _, .nothing, hs, .inr hm, rfl⟩

section Turn
variable {before after : List Activity} {a : Activity} {m : Pool.Step Activity}

/-- If the operation is a sweep, no other operation has swept connections. -/
theorem swept_among (hs : s.activities = before ++ a :: after) (hone : s.sweeps ≤ 1)
    (ha : a.isSweep = true) : before.flatMap Activity.swept = [] ∧
    after.flatMap Activity.swept = [] := by
  simp only [sweeps, hs, List.countP_append, List.countP_cons, ha] at hone
  have hnone (l : List Activity) (hl : l.countP Activity.isSweep = 0) :
      l.flatMap Activity.swept = [] := by
    rw [List.countP_eq_zero] at hl
    exact List.flatMap_eq_nil_iff.2 fun b hb => swept_of_isSweep (by simpa using hl b hb)
  exact ⟨hnone _ (by simp at hone; omega), hnone _ (by simp at hone; omega)⟩

/-- The shelf changes by what comes back at its front and by what is taken out anywhere. A sweep
ends behind the idle list, where it stands on the shelf: there is no other one whose connections are
between them. -/
theorem shelf_turn (hs : s.activities = before ++ a :: after) (hone : s.sweeps ≤ 1)
    (hm : a.Turns s.pool s.now m) (hshut : s.pool.closed = true → s.pool.idle = [])
    (hb : s.pool.idle.length ≤ s.pool.config.maxIdle) (touch : Touch) :
    ∃ fresh, (∀ c ∈ fresh, c.returned = s.now) ∧
      (s.proceed before m touch after).shelf.Sublist (fresh ++ s.shelf) := by
  obtain ⟨fresh, hfresh, hsub⟩ := hm.shelf hshut hb
  refine ⟨fresh, hfresh, ?_⟩
  have hshelf : s.shelf = s.pool.idle ++
      (before.flatMap Activity.swept ++ (a.swept ++ after.flatMap Activity.swept)) := by
    simp [shelf, hs]
  have hshelf' : (s.proceed before m touch after).shelf = m.pool.idle ++
      (before.flatMap Activity.swept ++ (m.next.swept ++ after.flatMap Activity.swept)) := by
    simp [shelf, proceed]
  rw [hshelf, hshelf']
  cases ha : a.isSweep with
  | true =>
    obtain ⟨hbefore, hafter⟩ := swept_among hs hone ha
    simpa only [hbefore, hafter, List.nil_append, List.append_nil] using hsub
  | false =>
    have hnone := swept_of_isSweep ha
    have hnext : m.next.swept = [] := List.eq_nil_of_sublist_nil (hnone ▸ hm.swept)
    rw [hnone, hnext, List.append_nil, List.append_nil] at hsub
    rw [hnone, hnext, ← List.append_assoc fresh]
    exact hsub.append_right _

end Turn

theorem inOrder_start (network address : String) (config : Config) (now : Instant) :
    (start network address config now).InOrder :=
  ⟨List.Pairwise.nil, List.forall_mem_nil _⟩

/-- The order is kept by what happens as long as at most one sweep is under way. -/
theorem InOrder.event (hs : s.InOrder) (ht : Leaky config lost s) (hone : s.sweeps ≤ 1)
    (h : s.Event more s') : s'.InOrder := by
  obtain ⟨before, a, after, m, touch, hact, hm, rfl⟩ | ⟨hsub, -, hnow⟩ := h.turns
  · have hb := ht.tallied.bounded
    rw [← ht.tallied.configured] at hb
    obtain ⟨fresh, hfresh, hsub⟩ :=
      shelf_turn hact hone hm (fun hc => (ht.isShut hc).idle) hb touch
    refine ⟨(hs.byReturn.fresh_append hfresh hs.past).sublist hsub, fun c hc => ?_⟩
    obtain hc | hc := List.mem_append.1 (hsub.subset hc)
    · exact Nat.le_of_eq (hfresh c hc)
    · exact hs.past c hc
  · exact ⟨hs.byReturn.sublist hsub, fun c hc => Nat.le_trans (hs.past c (hsub.subset hc)) hnow⟩

theorem SweptOnce.inOrder (h : SweptOnce config s) : s.InOrder := by
  induction h with
  | start network address now => exact inOrder_start network address config now
  | event h he _ ih =>
    obtain ⟨lost, hleaky⟩ := h.leaky
    exact ih.event hleaky h.sweeps_le he

/-- What is there for the idle list of an open pool is sorted: what is brought stands in front of
the shelf or on it. -/
theorem InOrder.brings {before after : List Activity} {a : Activity} {m : Pool.Step Activity}
    {all unhealthy : List Conn} (hs : s.InOrder) (hact : s.activities = before ++ a :: after)
    (h : a.Brings s.pool s.now all unhealthy m) : ByReturn all := by
  obtain ⟨fresh, hfresh, rfl, -⟩ := h.fresh
  have hsub : (s.pool.idle ++ a.swept).Sublist s.shelf := by
    refine (List.Sublist.refl _).append ?_
    rw [hact, List.flatMap_append, List.flatMap_cons]
    exact (List.sublist_append_left _ _).trans (List.sublist_append_right _ _)
  exact (hs.byReturn.sublist hsub).fresh_append hfresh fun c hc => hs.past c (hsub.subset hc)

/-- As long as at most one sweep is under way at any time, the idle list holds no more connections
than it may, the one that came back last at its front and so on. Connections come to it only from an
operation that brings them; whatever else happens leaves a part of its end. Of all that is there
then, in the order of return, the pool keeps as many from the front as it may and closes the rest,
so nothing is closed for being too much that came back after something that is kept. -/
theorem idle_by_return (h : SweptOnce config s) :
    s.pool.idle.length ≤ config.maxIdle ∧ ByReturn s.pool.idle ∧
    (∀ before a after m all unhealthy, s.activities = before ++ a :: after → s.pool.closed = false →
      a.Brings s.pool s.now all unhealthy m →
        ByReturn all ∧ m.pool.idle = all.take config.maxIdle ∧
        m.closes = unhealthy ++ (all.drop config.maxIdle).reverse ∧
        ∀ older ∈ all.drop config.maxIdle, ∀ newer ∈ m.pool.idle, older.returned ≤ newer.returned) ∧
    (∀ more s', s.Event more s' → s'.pool.idle <:+ s.pool.idle ∨
      ∃ before a after m touch all unhealthy, s.activities = before ++ a :: after ∧
        s.pool.closed = false ∧ a.Brings s.pool s.now all unhealthy m ∧
        s' = s.proceed before m touch after) := by
  obtain ⟨lost, hleaky⟩ := h.leaky
  have htallied := hleaky.tallied
  have horder := h.inOrder
  refine ⟨htallied.bounded, horder.byReturn.sublist (List.sublist_append_left _ _),
    fun before a after m all unhealthy hact hc hb => ?_, fun more s' he => ?_⟩
  · have hbounded := htallied.bounded
    rw [← htallied.configured] at hbounded ⊢
    obtain ⟨closes, hcloses, hstores⟩ := hb.stores hc hbounded
    have hall := horder.brings hact hb
    refine ⟨hall, hstores.idle, by rw [hcloses, hstores.closes], ?_⟩
    rw [hstores.idle]
    exact hall.le_of_drop _
  · obtain ⟨before, a, after, m, touch, hact, hm, rfl⟩ | ⟨-, hsuffix, -⟩ := he.turns
    · cases hc : s.pool.closed with
      | true =>
        left
        show m.pool.idle <:+ s.pool.idle
        rw [hm.keeps.idle hc (hleaky.isShut hc).idle]
        exact List.nil_suffix
      | false =>
        cases hm.shifts with
        | takes hi _ => exact .inl hi
        | brings hb => exact .inr ⟨_, _, _, _, _, _, _, hact, rfl, hb, rfl⟩
    · exact .inl hsuffix

/-- A step in which no sweep begins. -/
theorem SweptOnce.step (h : SweptOnce config s) (hstep : Step s s') (hs : s'.sweeps = s.sweeps) :
    SweptOnce config s' :=
  h.event (.step hstep) (hs ▸ h.sweeps_le)

/-- The life after a top-up that has opened one connection for an empty idle list. -/
def toppedUp (s : Life) (c : Conn) : Life :=
  { s with
    pool := { s.pool with active := s.pool.active + 1, idle := [c.back s.now] }
    activities := .over :: s.activities
    opened := s.opened ++ [c.id]
    counts := s.counts ++ [.newConnection] }

theorem SweptOnce.topUp {c : Conn} (h : SweptOnce config s) (hs : s.pool.shortfall = 1)
    (hc : s.pool.closed = false) (hr : s.pool.config.refuses = false) (hi : s.pool.idle = [])
    (hm : 0 < s.pool.config.maxIdle) (hf : c.id ∉ s.opened) : SweptOnce config (s.toppedUp c) := by
  let p : Pool := { s.pool with active := s.pool.active + 1 }
  let d : Dial := .start p 0 none s.now
  let s1 : Life := { s with activities := .topUp ⟨[.waiting]⟩ :: s.activities }
  let s2 : Life := { s with pool := p, activities := .topUp ⟨[.dialing d]⟩ :: s.activities }
  let s3 : Life :=
    { s2 with
      activities := .topUp ⟨[.ready c]⟩ :: s.activities
      opened := s.opened ++ [c.id]
      counts := s.counts ++ [.newConnection] }
  have hbegin : PreDial.Moves s.pool s.now .waiting (.quiet p (.dialing d)) .nothing := by
    have heq : PreDial.begin s.pool 0 s.now = .quiet p (.dialing d) := by
      simp [PreDial.begin, beginDial, hr, hc, p, d]
    exact heq ▸ .begin 0
  have hend : PreDial.Moves p s.now (.dialing d) ⟨p, .ready c, [], [.newConnection]⟩ (.opens c) :=
    .finish ⟨some (.ok c), none, .connected c, rfl⟩
  have hput : TopUp.finish ⟨[.ready c]⟩ p s.now = ({ p with idle := [c.back s.now] }, []) := by
    simp [TopUp.finish, TopUp.conns, TopUp.putAll, put, p, hc, hi, Conn.back, Nat.not_lt.2 hm]
  have h1 : Step s s1 := by
    simpa [TopUp.begin, hc, hs, s1] using Step.tend (.topUp s)
  have h2 : Step s1 s2 := by
    have hact : s1.activities = [] ++ .topUp ⟨[] ++ .waiting :: []⟩ :: s.activities := rfl
    have := Step.advance (.mk hact (.dial hbegin) (List.forall_mem_nil _))
    simpa [proceed, Touch.opened, s1, s2] using this
  have h3 : Step s2 s3 := by
    have hact : s2.activities = [] ++ .topUp ⟨[] ++ .dialing d :: []⟩ :: s.activities := rfl
    have := Step.advance (.mk hact (.dial hend) (by simpa [Touch.opened, s2] using hf))
    simpa [proceed, Touch.opened, s2, s3] using this
  have h4 : Step s3 (s.toppedUp c) := by
    have hact : s3.activities = [] ++ .topUp ⟨[.ready c]⟩ :: s.activities := rfl
    have := Step.advance (.mk hact (.finishTopUp rfl) (List.forall_mem_nil _))
    simpa [proceed, Touch.opened, hput, toppedUp, s2, s3, p] using this
  exact (((h.step h1 rfl).step h2 rfl).step h3 rfl).step h4 rfl

/-- A sweep has the only idle connection in hand when another one comes in; at its end the older one
goes. -/
theorem idle_by_return_overfull :
    ∃ s before after a m newer older,
      SweptOnce { minIdle := 1, maxIdle := 1 } s ∧ s.activities = before ++ a :: after ∧
      s.pool.closed = false ∧ a.Brings s.pool s.now [newer, older] [] m ∧ m.pool.idle = [newer] ∧
      m.closes = [older] ∧ older.returned < newer.returned := by
  let c : Conn := ⟨0, "10.0.0.1:80", none, 0, 0⟩
  let c' : Conn := ⟨1, "10.0.0.1:80", none, 0, 0⟩
  let s0 : Life := start "tcp" "10.0.0.1:80" { minIdle := 1, maxIdle := 1 } 0
  have h0 : SweptOnce { minIdle := 1, maxIdle := 1 } s0 := .start _ _ _
  let s1 : Life := s0.toppedUp c
  have h1 : SweptOnce { minIdle := 1, maxIdle := 1 } s1 :=
    h0.topUp rfl rfl rfl rfl Nat.one_pos List.not_mem_nil
  let s2 : Life :=
    { s1 with pool := { s1.pool with idle := [] }, activities := .sweep ⟨[c], [], []⟩ ::
      s1.activities }
  have h2 : SweptOnce { minIdle := 1, maxIdle := 1 } s2 :=
    h1.event (.step (.tend (.sweep rfl))) (Nat.le_refl 1)
  let s3 : Life := { s2 with now := 1 }
  have h3 : SweptOnce { minIdle := 1, maxIdle := 1 } s3 :=
    h2.step (.tend (.pass s2 Nat.one_pos.le)) rfl
  let s4 : Life := s3.toppedUp c'
  have h4 : SweptOnce { minIdle := 1, maxIdle := 1 } s4 :=
    h3.topUp rfl rfl rfl rfl Nat.one_pos (by decide)
  have hsweep : s4.activities = [.over] ++ .sweep ⟨[c], [], []⟩ :: s1.activities := rfl
  have hjudged : s4.Advance (.checks c) _ :=
    .mk hsweep (.judge rfl (.inr ⟨.healthy, rfl⟩)) (List.forall_mem_nil _)
  have h5 : SweptOnce { minIdle := 1, maxIdle := 1 } _ := h4.step (.advance hjudged) rfl
  obtain ⟨-, -, hbrings, -⟩ := idle_by_return h5
  obtain ⟨-, hidle, hcloses, -⟩ := hbrings [.over] _ [.over] _ _ _ rfl rfl (.sweep rfl)
  exact ⟨_, _, _, _, _, _, _, h5, rfl, rfl, .sweep rfl, hidle, hcloses, Nat.one_pos⟩

end Life

end Courier.Pool

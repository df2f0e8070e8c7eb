import Courier.Proofs.Pool.Serving
import Courier.Proofs.Pool.Shelving

/-!
# What a top-up leaves behind

A top-up that has the pool for itself and whose dials all succeed brings the idle list to its floor,
if the pool may keep as many idle connections. Then it closes none of those that were idle, and the
next top-up finds nothing to do. The bound goes before the floor: a pool keeps no more idle
connections than it may.
-/
namespace Courier.Pool

/-- A dial of a top-up changes nothing of the pool but the count, and closes nothing. -/
theorem PreDial.Moves.only_active {p : Pool} {now : Instant} {d : PreDial} {m : Step PreDial}
    {touch : Touch} (h : d.Moves p now m touch) : m.pool = { p with active := m.pool.active } ∧
    m.closes = [] := by
  cases h with
  | begin attempt =>
    unfold PreDial.begin
    cases hb : p.beginDial with
    | ok p' => exact ⟨by rw [beginDial_eq_ok hb]; rfl, rfl⟩
    | error f => exact ⟨rfl, rfl⟩
  | @finish d r hr =>
    cases r with
    | ok c => exact ⟨rfl, rfl⟩
    | error f => exact ⟨rfl, rfl⟩

namespace Life
variable {config : Config} {lost : Nat} {s s' : Life} {t : TopUp}

/-- A top-up goes on while nothing else happens to its pool but that time passes. -/
inductive Refills (s : Life) : Life → TopUp → Prop
  | begin : Refills s { s with activities := .topUp (.begin s.pool) :: s.activities }
      (.begin s.pool)
  | dial {s' : Life} {before after : List PreDial} {d : PreDial} {m : Pool.Step PreDial}
      {touch : Touch} (h : Refills s s' ⟨before ++ d :: after⟩)
      (hm : d.Moves s'.pool s'.now m touch) (hf : ∀ c ∈ touch.opened, c.id ∉ s'.opened) :
      Refills s (s'.proceed [] (m.map fun d => .topUp ⟨before ++ d :: after⟩) touch s.activities)
        ⟨before ++ m.next :: after⟩
  | pass {s' : Life} {t : TopUp} {later : Instant} (h : Refills s s' t) (hl : s'.now ≤ later) :
      Refills s { s' with now := later } t

/-- The top-up is over. -/
inductive Refilled (s : Life) (t : TopUp) : Life → Prop
  | mk {s' : Life} (h : Refills s s' t) (ht : t.isOver = true) :
      Refilled s t
        (s'.proceed [] ⟨(t.finish s'.pool s'.now).1, .over, (t.finish s'.pool s'.now).2, []⟩
          .nothing s.activities)

/-- What a top-up that is under way has done: it has begun with as many dials as idle connections
were missing, and has changed nothing of the pool but the count. -/
structure Dials (s s' : Life) (t : TopUp) : Prop where
  leads : s.Leads s'
  activities : s'.activities = .topUp t :: s.activities
  length : t.dials.length = (TopUp.begin s.pool).dials.length
  pool : s'.pool = { s.pool with active := s'.pool.active }
  closed : s'.closed = s.closed

theorem Refills.dials (h : Refills s s' t) : s.Dials s' t := by
  induction h with
  | begin => exact ⟨.single (.tend (.topUp s)), rfl, rfl, rfl, rfl⟩
  | @dial s' before after d m touch h hm hf ih =>
    obtain ⟨hpool, hcloses⟩ := hm.only_active
    have hact : s'.activities = [] ++ .topUp ⟨before ++ d :: after⟩ :: s.activities := ih.activities
    refine ⟨ih.leads.tail (.advance (.mk hact (.dial hm) hf)), rfl, ?_, ?_, ?_⟩
    · simpa using ih.length
    · show m.pool = { s.pool with active := m.pool.active }
      rw [hpool, ih.pool]
    · simp [proceed, hcloses, ih.closed]
  | pass h hl ih =>
    exact ⟨ih.leads.tail (.tend (.pass _ hl)), ih.activities, ih.length, ih.pool, ih.closed⟩

theorem Refilled.leads (hr : Refilled s t s') : s.Leads s' := by
  obtain ⟨h, ht⟩ := hr
  have hact : _ = [] ++ .topUp t :: s.activities := h.dials.activities
  exact h.dials.leads.tail (.advance (.mk hact (.finishTopUp ht) (List.forall_mem_nil _)))

theorem Refilled.closed_eq (hr : Refilled s t s') : s'.pool.closed = s.pool.closed := by
  obtain ⟨h, ht⟩ := hr
  refine (keeps_putAll _ _ _).closed.trans ?_
  rw [h.dials.pool]

/-- At the end of a top-up what it has opened stands in front of what was idle, and the pool keeps
as much of it as it may. -/
theorem Refilled.stores (h : Leaky config lost s) (ho : s.pool.closed = false)
    (hr : Refilled s t s') : ∃ moment closes,
      s.pool.Stores ((t.conns.map (·.back moment)).reverse ++ s.pool.idle) s'.pool closes ∧
      s'.closed = s.closed ++ numbers closes := by
  obtain ⟨hrefills, ht⟩ := hr
  rename_i s₁
  have hdials := hrefills.dials
  have hidle : s₁.pool.idle = s.pool.idle := by rw [hdials.pool]
  have hconfig : s₁.pool.config = s.pool.config := by rw [hdials.pool]
  have hopen : s₁.pool.closed = false := by rw [hdials.pool, ho]
  have hbound : s₁.pool.idle.length ≤ s₁.pool.config.maxIdle := by
    rw [hidle, hconfig, h.tallied.configured]
    exact h.tallied.bounded
  have hput : s₁.pool.Stores _ (TopUp.putAll s₁.pool s₁.now t.conns).1 _ :=
    stores_putAll t.conns hopen hbound
  refine ⟨s₁.now, (TopUp.putAll s₁.pool s₁.now t.conns).2, ⟨?_, ?_⟩, ?_⟩
  · rw [← hidle, ← hconfig]
    exact hput.idle
  · rw [← hidle, ← hconfig]
    exact hput.closes
  · rw [← hdials.closed]
    rfl

/-- If all dials have succeeded, there are as many of them as idle connections were missing. -/
theorem Refilled.length_conns {conns : List Conn} (ho : s.pool.closed = false)
    (hr : Refilled s ⟨conns.map .ready⟩ s') : conns.length = s.pool.shortfall := by
  obtain ⟨hrefills, -⟩ := hr
  simpa [TopUp.begin, ho] using hrefills.dials.length

/-! ## Where nothing is missing -/

theorem begin_of_shortfall {p : Pool} (hp : p.shortfall = 0) : TopUp.begin p = ⟨[]⟩ := by
  rw [TopUp.begin, hp]
  exact ite_self _

theorem Refills.rests (hs : s.pool.shortfall = 0) (h : Refills s s' t) :
    t = ⟨[]⟩ ∧ s' = { s with activities := .topUp ⟨[]⟩ :: s.activities, now := s'.now } := by
  have hbegin := begin_of_shortfall hs
  induction h with
  | begin => exact ⟨hbegin, by rw [hbegin]⟩
  | dial h hm hf ih =>
    have hnone := congrArg TopUp.dials ih.1
    simp at hnone
  | pass h hl ih =>
    obtain ⟨ht, hs'⟩ := ih
    exact ⟨ht, by rw [hs']⟩

theorem exists_refilled (hs : s.pool.shortfall = 0) : ∃ s', Refilled s ⟨[]⟩ s' := by
  have hbegin : Refills s _ (TopUp.begin s.pool) := .begin
  rw [begin_of_shortfall hs] at hbegin
  exact ⟨_, .mk hbegin rfl⟩

theorem Refilled.rests (hs : s.pool.shortfall = 0) (hr : Refilled s t s') :
    t = ⟨[]⟩ ∧ s' = { s with activities := .over :: s.activities, now := s'.now } := by
  obtain ⟨h, ht⟩ := hr
  obtain ⟨rfl, hs'⟩ := h.rests hs
  refine ⟨rfl, ?_⟩
  rw [hs']
  simp [proceed, TopUp.finish, TopUp.conns, TopUp.putAll, Touch.opened]

/-! ## The floor -/

/-- A top-up that has the pool for itself and whose dials all succeed opens as many connections as
are missing, and afterwards there are as many idle ones as the floor wants, as far as the pool may
keep them. If it may keep as many as the floor, none is closed, the new ones stand in front of the
others, and the next top-up dials nothing and changes nothing. -/
theorem refill_rests {conns : List Conn} (h : Leaky config lost s) (ho : s.pool.closed = false)
    (hr : Refilled s ⟨conns.map .ready⟩ s') :
    s.Leads s' ∧ conns.length = config.minIdle - s.pool.idle.length ∧
    s'.pool.idle.length = max s.pool.idle.length (min config.minIdle config.maxIdle) ∧
    (config.minIdle ≤ config.maxIdle →
      s'.closed = s.closed ∧
      (∃ fresh, s'.pool.idle = fresh ++ s.pool.idle ∧ numbers fresh = (numbers conns).reverse) ∧
      (∃ s'', Refilled s' ⟨[]⟩ s'') ∧
      ∀ t s'', Refilled s' t s'' →
        t = ⟨[]⟩ ∧ s'' = { s' with activities := .over :: s'.activities, now := s''.now }) := by
  have hready : TopUp.conns ⟨conns.map .ready⟩ = conns := by simp [TopUp.conns, List.filterMap_map]
  have hconfig := h.tallied.configured
  have hbounded := h.tallied.bounded
  have hlength : conns.length = config.minIdle - s.pool.idle.length := by
    rw [← hconfig]
    exact hr.length_conns ho
  obtain ⟨moment, closes, hstores, hclosed⟩ := hr.stores h ho
  rw [hready] at hstores
  have hidle := hstores.idle
  have hcloses := hstores.closes
  rw [hconfig] at hidle hcloses
  have hall : ((conns.map (·.back moment)).reverse ++ s.pool.idle).length =
      max s.pool.idle.length config.minIdle := by
    simp
    omega
  have hsize :
      s'.pool.idle.length = max s.pool.idle.length (min config.minIdle config.maxIdle) := by
    rw [hidle, List.length_take, hall]
    omega
  refine ⟨hr.leads, hlength, hsize, fun hle => ?_⟩
  have hroom : ((conns.map (·.back moment)).reverse ++ s.pool.idle).length ≤ config.maxIdle := by
    rw [hall]
    omega
  rw [List.drop_of_length_le hroom, List.reverse_nil] at hcloses
  rw [List.take_of_length_le hroom] at hidle
  have hfull : s'.pool.shortfall = 0 := by
    have hconfig' := (h.runs hr.leads.runs).tallied.configured
    rw [shortfall, hconfig', hsize]
    omega
  refine ⟨?_, ⟨_, hidle, ?_⟩, exists_refilled hfull, fun t s'' => Refilled.rests hfull⟩
  · rw [hclosed, hcloses]
    exact List.append_nil _
  · simp [numbers, Conn.back, Function.comp_def]

/-! ## Two connections wanted, one idle -/

section Sample
variable {n : Nat}

def sampleConn (id : Nat) : Conn := ⟨id, "10.0.0.1:80", none, 0, 0⟩

/-- The only connection of a pool was used and has come back. -/
theorem exists_returned (hn : 0 < n) : ∃ s, Reachable { minIdle := 2, maxIdle := n } s ∧
    s.pool.closed = false ∧ s.pool.idle = [sampleConn 0] ∧ s.opened = [0] ∧ s.closed = [] ∧
    s.pool.config = { minIdle := 2, maxIdle := n } := by
  let s : Life := start "tcp" "10.0.0.1:80" { minIdle := 2, maxIdle := n } 0
  let p : Pool := { s.pool with active := 1 }
  let h : Handle := .ofConn p false (sampleConn 0)
  have h1 : s.Leads (s.served (sampleConn 0)) := leads_served rfl rfl rfl rfl List.not_mem_nil
  have hact : (s.served (sampleConn 0)).activities = [] ++ .get 0 (.served h) :: [] := rfl
  have h2 := h1.tail (.advance (.mk hact (.handOut 0 h) (List.forall_mem_nil _)))
  have h3 := h2.tail (.advance (.mk rfl (.close h) (List.forall_mem_nil _)))
  have hput : p.put (sampleConn 0) false 0 = ({ p with idle := [sampleConn 0] }, []) := by
    have hroom : ¬ n < [sampleConn 0].length := Nat.not_lt.2 hn
    exact if_neg hroom
  have hclose :
      h.close p 0 = ⟨{ p with idle := [sampleConn 0] }, ⟨none, false, none, false⟩, [], []⟩ := by
    rw [Handle.close, Handle.release_eq]
    show (⟨(p.put (sampleConn 0) false 0).1, _, (p.put (sampleConn 0) false 0).2, []⟩ :
      Pool.Step Handle) = _
    rw [hput]
    rfl
  refine ⟨_, ⟨_, _, _, h3⟩, ?_, ?_, rfl, ?_, ?_⟩
  · show (h.close p 0).pool.closed = false
    rw [hclose]
    rfl
  · show (h.close p 0).pool.idle = _
    rw [hclose]
  · show [] ++ numbers (h.close p 0).closes = []
    rw [hclose]
    rfl
  · show (h.close p 0).pool.config = _
    rw [hclose]
    rfl

theorem exists_refilled_one (hs : s.pool.shortfall = 1) (ho : s.pool.closed = false)
    (hr : s.pool.config.refuses = false) {c : Conn} (hf : c.id ∉ s.opened) :
    ∃ s', Refilled s ⟨[c].map .ready⟩ s' := by
  let p : Pool := { s.pool with active := s.pool.active + 1 }
  let d : Dial := .start p 0 none s.now
  have hbegin : Refills s _ (TopUp.begin s.pool) := .begin
  have hwaits : TopUp.begin s.pool = ⟨[] ++ .waiting :: []⟩ := by
    rw [TopUp.begin, ho, hs]
    rfl
  rw [hwaits] at hbegin
  have hdial : PreDial.Moves s.pool s.now .waiting (.quiet p (.dialing d)) .nothing := by
    have heq : PreDial.begin s.pool 0 s.now = .quiet p (.dialing d) := by
      simp [PreDial.begin, beginDial, hr, ho, p, d]
    exact heq ▸ .begin 0
  have hend : PreDial.Moves p s.now (.dialing d) ⟨p, .ready c, [], [.newConnection]⟩ (.opens c) :=
    .finish ⟨some (.ok c), none, .connected c, rfl⟩
  have hdialing := hbegin.dial hdial (List.forall_mem_nil _)
  have hready := hdialing.dial hend (by simpa [Touch.opened, proceed] using hf)
  exact ⟨_, .mk hready rfl⟩

end Sample

/-- A pool that wants two idle connections and may keep two: the old one stays behind the new
one. -/
theorem refill_rests_two :
    ∃ (s s' : Life) (conns : List Conn), Leaky { minIdle := 2, maxIdle := 2 } 0 s ∧
    s.pool.closed = false ∧ Refilled s ⟨conns.map .ready⟩ s' ∧ s.pool.idle.length = 1 ∧
    s'.pool.idle.length = 2 ∧ s'.closed = s.closed ∧ s.pool.idle <:+ s'.pool.idle := by
  obtain ⟨s, hs, ho, hidle, hopened, -, hconfig⟩ := exists_returned Nat.two_pos
  have hone : s.pool.shortfall = 1 := by rw [shortfall, hconfig, hidle]; rfl
  have hnew : (sampleConn 1).id ∉ s.opened := by rw [hopened]; decide
  obtain ⟨s', hr⟩ := exists_refilled_one hone ho (by rw [hconfig]; rfl) hnew
  obtain ⟨-, -, hsize, hrest⟩ := refill_rests hs.leaky ho hr
  obtain ⟨hclosed, ⟨fresh, hfresh, -⟩, -, -⟩ := hrest (Nat.le_refl 2)
  rw [hidle] at hsize
  exact ⟨s, s', _, hs.leaky, ho, hr, by rw [hidle]; rfl, hsize, hclosed, fresh, hfresh.symm⟩

/-- A pool that wants two idle connections and may keep one: the new one takes the place of the old
one, which is closed, and the next top-up dials again. -/
theorem refill_over_bound :
    ∃ (s s' : Life) (conns : List Conn), Leaky { minIdle := 2, maxIdle := 1 } 0 s ∧
    s.pool.closed = false ∧ Refilled s ⟨conns.map .ready⟩ s' ∧
    (∃ c ∈ s.pool.idle, c.id ∉ s.closed ∧ c.id ∈ s'.closed) ∧
    s'.pool.idle.length ≠ max s.pool.idle.length 2 ∧ TopUp.begin s'.pool ≠ ⟨[]⟩ := by
  obtain ⟨s, hs, ho, hidle, hopened, hclosed, hconfig⟩ := exists_returned Nat.one_pos
  have hone : s.pool.shortfall = 1 := by rw [shortfall, hconfig, hidle]; rfl
  have hnew : (sampleConn 1).id ∉ s.opened := by rw [hopened]; decide
  obtain ⟨s', hr⟩ := exists_refilled_one hone ho (by rw [hconfig]; rfl) hnew
  obtain ⟨moment, closes, hstores, hcloses⟩ := hr.stores hs.leaky ho
  have hidle' : s'.pool.idle = [(sampleConn 1).back moment] := by
    rw [hstores.idle, hidle, hconfig]
    rfl
  have hgone : s'.closed = [0] := by
    rw [hcloses, hstores.closes, hidle, hconfig, hclosed]
    rfl
  refine ⟨s, s', [sampleConn 1], hs.leaky, ho, hr, ⟨sampleConn 0, ?_, ?_, ?_⟩, ?_, ?_⟩
  · rw [hidle]
    exact List.mem_cons_self
  · rw [hclosed]
    exact List.not_mem_nil
  · rw [hgone]
    exact List.mem_cons_self
  · rw [hidle', hidle]
    exact (by decide : 1 ≠ max 1 2)
  · have hconfig' := (hs.leaky.runs hr.leads.runs).tallied.configured
    rw [TopUp.begin, hr.closed_eq, ho, shortfall, hconfig', hidle']
    exact nofun

end Life

end Courier.Pool

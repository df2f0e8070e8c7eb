import Mathlib.Logic.Relation
import Courier.Proofs.Exchange.Moves

/-!
# The life of a pool

A pool together with all operations under way on it: calls that want a connection, connections in
use, exchanges, sweeps and top-ups. In every step one operation goes on, or begins, or the pool is
closed, or time passes, in any order. The numbers of the connections opened and closed so far are
written down.
-/
namespace Courier.Pool

/-- An operation under way on a pool: a call that wants a connection, a caller that has one, an
exchange, a sweep or a top-up. -/
inductive Activity
  | get (ticket : Ticket) (a : Acquire)
  | use (h : Handle)
  | exchange (e : Errand) (x : Exchange)
  | sweep (s : Sweep)
  | topUp (t : TopUp)
  | over

namespace Activity

/-- A step of an operation. A caller that is done with its handle closes it. -/
inductive Moves (p : Pool) (now : Instant) : Activity → Step Activity → Touch → Prop
  | get {ticket : Ticket} {a : Acquire} {s : Step Acquire} {touch : Touch}
      (h : a.Moves ticket p now s touch) :
      Moves p now (.get ticket a) (s.map (.get ticket)) touch
  | handOut (ticket : Ticket) (h : Handle) :
      Moves p now (.get ticket (.served h)) (.quiet p (.use h)) .nothing
  | use {h : Handle} {s : Step Handle} (hs : h.Moves p now s) :
      Moves p now (.use h) (s.map .use) .nothing
  | close (h : Handle) : Moves p now (.use h) ((h.close p now).map fun _ => .over) .nothing
  | exchange {e : Errand} {x : Exchange} {s : Step Exchange} {touch : Touch}
      (h : x.Moves e p now s touch) :
      Moves p now (.exchange e x) (s.map (.exchange e)) touch
  | judge {s : Sweep} {c : Conn} {rest : List Conn} {v : Verdict} (hs : s.pending = c :: rest)
      (hv : p.Judges c false now v) :
      Moves p now (.sweep s) ⟨p, .sweep (s.judge v.healthy), [], v.counts⟩ (.checks c)
  | finishSweep {s : Sweep} (hs : s.pending = []) :
      Moves p now (.sweep s) ⟨(s.finish p).1, .over, (s.finish p).2, []⟩ .nothing
  | dial {before after : List PreDial} {d : PreDial} {s : Step PreDial} {touch : Touch}
      (h : d.Moves p now s touch) :
      Moves p now (.topUp ⟨before ++ d :: after⟩)
        (s.map fun d => .topUp ⟨before ++ d :: after⟩) touch
  | finishTopUp {t : TopUp} (ht : t.isOver = true) :
      Moves p now (.topUp t) ⟨(t.finish p now).1, .over, (t.finish p now).2, []⟩ .nothing

end Activity

/-- A pool and the operations under way on it, with the numbers of all connections that were opened
and closed so far, and the counters that went up. Calls that begin from now on have the number
`tickets` in the queue or a higher one. -/
structure Life where
  pool : Pool
  activities : List Activity
  now : Instant
  tickets : Ticket
  opened : List Nat
  closed : List Nat
  counts : List Counter

namespace Life

def start (network address : String) (config : Config) (now : Instant) : Life :=
  ⟨.new network address config, [], now, 0, [], [], []⟩

/-- The life after a step of one of its operations. -/
def proceed (s : Life) (before : List Activity) (m : Pool.Step Activity) (touch : Touch)
    (after : List Activity) : Life :=
  { s with
    pool := m.pool
    activities := before ++ m.next :: after
    opened := s.opened ++ numbers touch.opened
    closed := s.closed ++ numbers m.closes
    counts := s.counts ++ m.counts }

/-- An operation goes on. The number of a new connection was not used before. -/
inductive Advance : Life → Touch → Life → Prop
  | mk {s : Life} {before after : List Activity} {a : Activity} {m : Pool.Step Activity}
      {touch : Touch} (hs : s.activities = before ++ a :: after) (hm : a.Moves s.pool s.now m touch)
      (hf : ∀ c ∈ touch.opened, c.id ∉ s.opened) : Advance s touch (s.proceed before m touch after)

/-- What happens to a pool besides: a sweep or a top-up begins, the pool is closed, time passes. -/
inductive Tend : Life → Life → Prop
  | sweep {s : Life} {p : Pool} {w : Sweep} (h : Sweep.begin s.pool = some (p, w)) :
      Tend s { s with pool := p, activities := .sweep w :: s.activities }
  | topUp (s : Life) : Tend s { s with activities := .topUp (.begin s.pool) :: s.activities }
  | close (s : Life) :
      Tend s { s with pool := s.pool.close.1, closed := s.closed ++ numbers s.pool.close.2 }
  | pass (s : Life) {later : Instant} (h : s.now ≤ later) : Tend s { s with now := later }

def enlist (s : Life) (e : Errand) : Life :=
  { s with activities := .exchange e (.acquiring .arriving) ::
    s.activities, tickets := e.ticket + 1 }

/-- What can happen to a pool. -/
inductive Step : Life → Life → Prop
  | advance {s s' : Life} {touch : Touch} (h : s.Advance touch s') : Step s s'
  | tend {s s' : Life} (h : s.Tend s') : Step s s'
  | get (s : Life) {ticket : Ticket} (ht : s.tickets ≤ ticket) :
      Step s { s with activities := .get ticket .arriving :: s.activities, tickets := ticket + 1 }
  | exchange (s : Life) {e : Errand} (ht : s.tickets ≤ e.ticket) : Step s (s.enlist e)

/-- Any number of steps. -/
abbrev Leads : Life → Life → Prop := Relation.ReflTransGen Step

/-- The states that a pool with some configuration can come to. -/
def Reachable (config : Config) (s : Life) : Prop :=
  ∃ network address now, (start network address config now).Leads s

/-- What holds at the start and is kept by every step holds in every state. -/
theorem Reachable.induct {config : Config} {motive : Life → Prop} {s : Life}
    (h : Reachable config s)
    (start : ∀ network address now, motive (start network address config now))
    (step : ∀ s s', motive s → Step s s' → motive s') : motive s := by
  obtain ⟨network, address, now, h⟩ := h
  induction h with
  | refl => exact start network address now
  | tail _ h ih => exact step _ _ ih h

theorem Reachable.leads {config : Config} {s s' : Life} (h : Reachable config s) (hs : s.Leads s') :
    Reachable config s' := by
  obtain ⟨network, address, now, h⟩ := h
  exact ⟨network, address, now, h.trans hs⟩

/-- What holds of operations when they begin and is kept by their steps goes on to hold of all of
them. -/
theorem forall_step {P : Activity → Prop} {s s' : Life} (h : Step s s')
    (hs : ∀ a ∈ s.activities, P a)
    (move : ∀ {a m touch}, a.Moves s.pool s.now m touch → P a → P m.next)
    (sweep : ∀ w, P (.sweep w)) (topUp : ∀ t, P (.topUp t))
    (get : ∀ ticket, P (.get ticket .arriving))
    (exchange : ∀ e, P (.exchange e (.acquiring .arriving))) : ∀ a ∈ s'.activities, P a := by
  cases h with
  | advance h =>
    obtain ⟨hact, hm, -⟩ := h
    rw [hact] at hs
    intro b hb
    obtain hb | hb := List.mem_append.1 hb
    · exact hs b (List.mem_append_left _ hb)
    · obtain rfl | hb := List.mem_cons.1 hb
      · exact move hm (hs _ (by simp))
      · exact hs b (by simp [hb])
  | tend h =>
    cases h with
    | sweep => exact List.forall_mem_cons.2 ⟨sweep _, hs⟩
    | topUp => exact List.forall_mem_cons.2 ⟨topUp _, hs⟩
    | close => exact hs
    | pass => exact hs
  | get => exact List.forall_mem_cons.2 ⟨get _, hs⟩
  | exchange => exact List.forall_mem_cons.2 ⟨exchange _, hs⟩

def withGet (s : Life) (pool : Pool) (a : Acquire) : Life :=
  { s with pool, activities := .get s.tickets a :: s.activities, tickets := s.tickets + 1 }

theorem step_withGet {s : Life} {p p' : Pool} {a a' : Acquire}
    (h : a.Moves s.tickets p s.now (.quiet p' a') .nothing) :
    Step (s.withGet p a) (s.withGet p' a') := by
  have hs : Step (s.withGet p a) ((s.withGet p a).proceed [] _ .nothing s.activities) :=
    .advance (.mk rfl (.get h) (by simp [Touch.opened]))
  simpa [proceed, Touch.opened, withGet] using hs

def served (s : Life) (c : Conn) : Life :=
  { s.withGet { s.pool with active := s.pool.active + 1 } (.served (.ofConn s.pool false c)) with
    opened := s.opened ++ [c.id], counts := s.counts ++ [.newConnection] }

/-- A call that finds no idle connection dials, if the pool lets a dial begin. -/
theorem leads_dialing {s : Life} (hs : s.pool.slots = none) (hi : s.pool.idle = [])
    (hd : s.pool.beginDial = .ok { s.pool with active := s.pool.active + 1 }) :
    s.Leads (s.withGet { s.pool with active := s.pool.active + 1 }
      (.dialing false (.start { s.pool with active := s.pool.active + 1 } 0 none s.now))) := by
  let p : Pool := { s.pool with active := s.pool.active + 1 }
  let d : Dial := .start p 0 none s.now
  have ha : Acquire.arrive s.pool s.tickets none = .quiet s.pool (.popping false) := by
    simp [Acquire.arrive, hs]
  have hp : Acquire.pop s.pool false = .quiet s.pool (.exhausted false) := by
    simp [Acquire.pop, popIdle, hi]
  have hb : Acquire.beginDial s.pool false 0 none none s.now = .quiet p (.dialing false d) := by
    simp [Acquire.beginDial, hd, p, d]
  have h1 : Step s (s.withGet s.pool .arriving) := .get s (Nat.le_refl _)
  have h2 : Step (s.withGet s.pool .arriving) (s.withGet s.pool (.popping false)) :=
    step_withGet (ha ▸ .arrive none)
  have h3 : Step (s.withGet s.pool (.popping false)) (s.withGet s.pool (.exhausted false)) :=
    step_withGet (hp ▸ .pop false)
  have h4 : Step (s.withGet s.pool (.exhausted false)) (s.withGet p (.dialing false d)) :=
    step_withGet (hb ▸ .beginDial false 0 none none)
  exact .head h1 (.head h2 (.head h3 (.single h4)))

/-- A call that finds no idle connection is served by a dial that the pool lets begin. -/
theorem leads_dialed {s : Life} {c : Conn} (hs : s.pool.slots = none) (hi : s.pool.idle = [])
    (hd : s.pool.beginDial = .ok { s.pool with active := s.pool.active + 1 })
    (hf : c.id ∉ s.opened) : s.Leads (s.served c) := by
  let p : Pool := { s.pool with active := s.pool.active + 1 }
  let d : Dial := .start p 0 none s.now
  have he : d.Ends s.now (.ok c) := ⟨some (.ok c), none, .connected c, rfl⟩
  have hend : Step (s.withGet p (.dialing false d))
      ((s.withGet p (.dialing false d)).proceed [] _ (.opens c) s.activities) :=
    .advance (.mk rfl (.get (.endDial false he)) (by simpa [Touch.opened, withGet] using hf))
  have := (leads_dialing hs hi hd).tail hend
  simpa [proceed, Touch.opened, served, withGet, Acquire.endDial, Handle.ofConn, p] using this

/-- A pool without a bound that is open lets every dial begin. -/
theorem leads_served {s : Life} {c : Conn} (hs : s.pool.slots = none) (hi : s.pool.idle = [])
    (hr : s.pool.config.refuses = false) (hc : s.pool.closed = false) (hf : c.id ∉ s.opened) :
    s.Leads (s.served c) := by
  refine leads_dialed hs hi ?_ hf
  simp [beginDial, hr, hc]

def reused (s : Life) (c : Conn) (rest : List Conn) : Life :=
  s.withGet { s.pool with idle := rest } (.served (.ofConn s.pool false c))

/-- A call is served by the first idle connection if its check finds nothing to read. -/
theorem leads_reused {s : Life} {c : Conn} {rest : List Conn} (hs : s.pool.slots = none)
    (hi : s.pool.idle = c :: rest) : s.Leads (s.reused c rest) := by
  let p : Pool := { s.pool with idle := rest }
  have ha : Acquire.arrive s.pool s.tickets none = .quiet s.pool (.popping false) := by
    simp [Acquire.arrive, hs]
  have hp : Acquire.pop s.pool false = .quiet p (.checking false c) := by
    simp [Acquire.pop, popIdle, hi, p]
  have hv : p.Judges c true s.now ⟨true, []⟩ := .inr ⟨.healthy, rfl⟩
  have h1 : Step s (s.withGet s.pool .arriving) := .get s (Nat.le_refl _)
  have h2 : Step (s.withGet s.pool .arriving) (s.withGet s.pool (.popping false)) :=
    step_withGet (ha ▸ .arrive none)
  have h3 : Step (s.withGet s.pool (.popping false)) (s.withGet p (.checking false c)) :=
    step_withGet (hp ▸ .pop false)
  have h4 : Step (s.withGet p (.checking false c))
      ((s.withGet p (.checking false c)).proceed [] _ (.checks c) s.activities) :=
    .advance (.mk rfl (.get (.judge false c hv)) (List.forall_mem_nil _))
  have := Relation.ReflTransGen.head h1 (.head h2 (.head h3 (.single h4)))
  simpa [proceed, Touch.opened, reused, withGet, Acquire.judge, Handle.ofConn, Step.quiet, p]
    using this

end Life

/-! ## Numbers of calls -/

/-- The exchange that an operation is, if it is one. -/
def Activity.errand? : Activity → Option Errand
  | .exchange e _ => some e
  | .get _ _ | .use _ | .sweep _ | .topUp _ | .over => none

def Life.errands (s : Life) : List Errand := s.activities.filterMap Activity.errand?

/-- No two exchanges have one number. -/
structure Life.Numbered (s : Life) : Prop where
  nodup : (s.errands.map Errand.ticket).Nodup
  below : ∀ e ∈ s.errands, e.ticket < s.tickets

theorem Activity.errand?_step {p : Pool} {now : Instant} {a : Activity} {m : Step Activity}
    {touch : Touch} (h : a.Moves p now m touch) : m.next.errand? = a.errand? := by
  cases h <;> rfl

theorem Life.numbered_of_errands {s s' : Life} (hs : s.Numbered) (he : s'.errands = s.errands)
    (ht : s.tickets ≤ s'.tickets) : s'.Numbered where
  nodup := he ▸ hs.nodup
  below e h := Nat.lt_of_lt_of_le (hs.below e (he ▸ h)) ht

theorem Life.Numbered.step {s s' : Life} (hs : s.Numbered) (h : Life.Step s s') : s'.Numbered := by
  cases h with
  | advance h =>
    obtain ⟨hact, hm, -⟩ := h
    refine numbered_of_errands hs ?_ (Nat.le_refl _)
    simp [errands, proceed, hact, List.filterMap_cons, Activity.errand?_step hm]
  | tend h => cases h <;> exact numbered_of_errands hs rfl (Nat.le_refl _)
  | get ht => exact numbered_of_errands hs rfl (Nat.le_succ_of_le ht)
  | @exchange e ht =>
    refine ⟨List.nodup_cons.2 ⟨fun h => ?_, hs.nodup⟩, fun e' he => ?_⟩
    · obtain ⟨e', he, hn⟩ := List.mem_map.1 h
      have := hs.below e' he
      rw [hn] at this
      exact absurd ht (Nat.not_le_of_lt this)
    · obtain rfl | he := List.mem_cons.1 he
      · exact Nat.lt_succ_self _
      · have := hs.below e' he
        exact Nat.lt_succ_of_lt (Nat.lt_of_lt_of_le this ht)

end Courier.Pool

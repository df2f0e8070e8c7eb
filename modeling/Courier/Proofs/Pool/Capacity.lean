import Mathlib.Algebra.Order.BigOperators.Group.List
import Mathlib.Algebra.Order.Group.Nat
import Courier.Proofs.Pool.Admission

/-!
# The bound on open connections

In a step of an operation dials end, or a dial begins that the pool lets begin, or a call runs out
of idle connections. So a pool that refuses callers at its bound never has more connections and
dials than the bound says. Where callers queue, the bound holds of what callers have in hand; what
is idle, swept or dialed ahead comes on top, and the whole stays within the bound as long as nothing
gets round the queue.
-/
namespace Courier.Pool

/-! ## What a step does to dials -/

/-- The call has found no idle connection and has not begun to dial. -/
def Acquire.isExhausted : Acquire → Bool
  | .exhausted _ => true
  | .arriving | .queued _ | .popping _ | .checking _ _ | .dialing _ _ | .served _ | .failed _ =>
    false

namespace Activity

/-- The operation is a call that is going to dial. -/
def isExhausted : Activity → Bool
  | .get _ a | .exchange _ (.acquiring a) => a.isExhausted
  | .exchange _ (.writing _ _ _) | .exchange _ (.reading _ _ _) | .exchange _ (.finished _)
  | .use _ | .sweep _ | .topUp _ | .over => false

/-- What a step does to the dials of an operation, and to what it will dial. Dials end, if anything;
or one begins, of a call that was going to dial or of a top-up; or a call takes the next idle
connection and there is none. -/
inductive Demand (p : Pool) (a : Activity) (opened : List Conn) (m : Step Activity) : Prop
  | settles (hd : opened.length + m.next.dials ≤ a.dials)
      (he : m.next.isExhausted.toNat ≤ a.isExhausted.toNat)
  | dials {p' : Pool} (hp : p.beginDial = .ok p') (ho : opened = [])
      (hd : m.next.dials = a.dials + 1)
      (he : m.next.isExhausted.toNat + 1 = a.isExhausted.toNat ∨ ∃ t, m.next = .topUp t)
  | runsOut (hi : m.pool.idle = []) (ho : opened = []) (hd : m.next.dials = 0)
      (he : m.next.isExhausted = true)

end Activity

/-- A call does this on its own or as a part of an exchange. -/
theorem Acquire.demand {ticket : Ticket} {p : Pool} {now : Instant} {a : Acquire} {m : Step Acquire}
    {touch : Touch} {f : Acquire → Activity} (hd : ∀ a, (f a).dials = a.dials)
    (he : ∀ a, (f a).isExhausted = a.isExhausted) (h : a.Moves ticket p now m touch) :
    Activity.Demand p (f a) touch.opened (m.map f) := by
  have settles {a : Acquire} {m : Step Acquire} {opened : List Conn}
      (hdials : opened.length + m.next.dials ≤ a.dials) (hexhausted : m.next.isExhausted = false) :
      Activity.Demand p (f a) opened (m.map f) := by
    refine .settles ?_ ?_
    · rwa [Step.map_next, hd, hd]
    · rw [Step.map_next, he, hexhausted]
      exact Nat.zero_le _
  cases h.does with
  | passes ha hs => exact settles (Nat.zero_le _) rfl
  | enters ha hs hn => exact settles (Nat.zero_le _) rfl
  | waits t ha hs hn => exact settles (Nat.zero_le _) rfl
  | leaves ha hs hn hf => exact settles (Nat.zero_le _) rfl
  | takes slot hp => exact settles (Nat.zero_le _) rfl
  | runsOut slot hi => exact .runsOut hi rfl (hd _) (he _)
  | keeps slot c counts => exact settles (Nat.zero_le _) rfl
  | drops slot c counts => exact settles (Nat.zero_le _) rfl
  | refused slot hp => exact settles (Nat.zero_le _) rfl
  | stops slot hp why => exact settles (Nat.zero_le _) rfl
  | dials slot hp d =>
    refine .dials hp rfl ?_ (.inl ?_)
    · rw [Step.map_next, hd, hd]
      rfl
    · rw [Step.map_next, he, he]
      rfl
  | connects slot d c => exact settles (Nat.le_refl 1) rfl
  | fails slot hr => exact settles (Nat.zero_le 1) rfl

theorem PreDial.demand {p : Pool} {now : Instant} {d : PreDial} {m : Step PreDial} {touch : Touch}
    (h : d.Moves p now m touch) :
    touch.opened.length + m.next.dials ≤ d.dials ∨
      (∃ p', p.beginDial = .ok p') ∧ touch.opened = [] ∧ m.next.dials = d.dials + 1 := by
  cases h with
  | begin attempt =>
    unfold PreDial.begin
    cases hp : p.beginDial with
    | error f => exact .inl (Nat.le_refl _)
    | ok p' => exact .inr ⟨⟨p', rfl⟩, rfl, rfl⟩
  | @finish d r hr =>
    cases r with
    | ok c => exact .inl (Nat.le_refl _)
    | error f => exact .inl (Nat.zero_le _)

/-- An exchange with a connection neither dials nor is going to. -/
theorem Activity.demand_of_handle {x : Exchange} {h : Handle} (hx : x.handle? = some h)
    (e : Errand) :
    (Activity.exchange e x).dials = 0 ∧ (Activity.exchange e x).isExhausted = false := by
  obtain rfl | ⟨remote, w, rfl⟩ | ⟨remote, r, rfl⟩ := Exchange.handle?_cases hx <;> exact ⟨rfl, rfl⟩

theorem Activity.demand {p : Pool} {now : Instant} {a : Activity} {m : Step Activity}
    {touch : Touch} (h : a.Moves p now m touch) : a.Demand p touch.opened m := by
  cases h with
  | @get ticket _ _ _ h => exact Acquire.demand (f := .get ticket) (fun _ => rfl) (fun _ => rfl) h
  | @exchange e _ _ _ h =>
    cases h.does with
    | acquires hx ha hm =>
      rw [hx, hm]
      exact Acquire.demand (f := fun a => .exchange e (.acquiring a)) (fun _ => rfl)
        (fun _ => rfl) ha
    | refused f hx hm ht =>
      rw [hm, ht]
      exact .settles (Nat.zero_le _) (Nat.zero_le _)
    | keeps hx hy hh hm ht =>
      obtain ⟨hd, he⟩ := demand_of_handle hy e
      rw [hm, ht]
      refine .settles ?_ ?_
      · simp [hd]
      · simp [he]
    | gives force hx hforce hu hm ht =>
      rw [hm, ht]
      exact .settles (Nat.zero_le _) (Nat.zero_le _)
  | dial h =>
    obtain hd | ⟨⟨p', hp⟩, ho, hd⟩ := PreDial.demand h
    · refine .settles ?_ (Nat.le_refl _)
      simp only [Step.map_next, dials, List.map_append, List.map_cons, List.sum_append,
        List.sum_cons]
      omega
    · refine .dials hp ho ?_ (.inr ⟨_, rfl⟩)
      simp only [Step.map_next, dials, List.map_append, List.map_cons, List.sum_append,
        List.sum_cons]
      omega
  | _ => exact .settles (Nat.zero_le _) (Nat.zero_le _)

/-- A pool that refuses callers at its bound lets a dial begin only below it. -/
theorem active_lt_of_beginDial {p p' : Pool} (h : p.beginDial = .ok p')
    (hr : p.config.refuses = true) : p.active < p.config.maxActive := by
  unfold beginDial at h
  split at h
  · cases h
  next hb =>
    by_contra hle
    exact hb ⟨hr, Nat.le_of_not_lt hle⟩

namespace Life

/-- The calls that are going to dial. -/
def exhausted (s : Life) : Nat := (s.activities.map fun a => a.isExhausted.toNat).sum

/-- What a step does to all dials and to all calls that are going to dial. -/
inductive Demand (s s' : Life) (new : List Nat) : Prop
  | settles (hd : new.length + s'.dials ≤ s.dials) (he : s'.exhausted ≤ s.exhausted)
  | dials {p : Pool} (hp : s.pool.beginDial = .ok p) (hn : new = []) (hd : s'.dials = s.dials + 1)
      (he : s'.exhausted + 1 = s.exhausted ∨
        ∃ t, .topUp t ∈ s'.activities ∧ 0 < (Activity.topUp t).dials)
  | runsOut (hi : s'.pool.idle = []) (hn : new = []) (hd : s'.dials ≤ s.dials)
      (he : ∃ a ∈ s'.activities, a.isExhausted = true)

theorem demand_begin (s : Life) (pool : Pool) {a : Activity} (hd : a.dials = 0)
    (he : a.isExhausted = false) (tickets : Ticket) :
    s.Demand { s with pool, activities := a :: s.activities, tickets } [] := by
  constructor
  · simp [Life.dials, hd]
  · simp [exhausted, he]

theorem Advance.demand {s s' : Life} {touch : Touch} (h : s.Advance touch s') :
    s.Demand s' (numbers touch.opened) := by
  obtain ⟨hs, hm, -⟩ := h
  cases Activity.demand hm with
  | settles hd he =>
    refine .settles ?_ ?_
    · simp only [Life.dials, hs, proceed, List.map_append, List.map_cons, List.sum_append,
        List.sum_cons, length_numbers]
      omega
    · simp only [exhausted, hs, proceed, List.map_append, List.map_cons, List.sum_append,
        List.sum_cons]
      omega
  | dials hp ho hd he =>
    refine .dials hp (by simp [ho]) ?_ ?_
    · simp only [Life.dials, hs, proceed, List.map_append, List.map_cons, List.sum_append,
        List.sum_cons]
      omega
    · obtain he | ⟨t, ht⟩ := he
      · left
        simp only [exhausted, hs, proceed, List.map_append, List.map_cons, List.sum_append,
          List.sum_cons]
        omega
      · right
        rw [ht] at hd
        exact ⟨t, by simp [proceed, ht], by omega⟩
  | runsOut hi ho hd he =>
    refine .runsOut hi (by simp [ho]) ?_ ⟨_, List.mem_append_right _ List.mem_cons_self, he⟩
    simp only [Life.dials, hs, proceed, List.map_append, List.map_cons, List.sum_append,
      List.sum_cons]
    omega

theorem Step.demand {s s' : Life} (h : Step s s') :
    ∃ new gone, s.Recorded s' new gone ∧ s.Demand s' new := by
  cases h with
  | advance h =>
    obtain ⟨gone, hr⟩ := h.recorded
    exact ⟨_, gone, hr, h.demand⟩
  | tend h =>
    obtain ⟨gone, hr⟩ := h.recorded
    refine ⟨[], gone, hr, ?_⟩
    cases h with
    | sweep hb => exact demand_begin s _ rfl rfl s.tickets
    | topUp =>
      have hd : (Activity.topUp (.begin s.pool)).dials = 0 :=
        congrArg Stock.dials (stock_topUp_begin s.pool)
      exact demand_begin s _ hd rfl s.tickets
    | close => exact .settles (Nat.le_of_eq (Nat.zero_add _)) (Nat.le_refl _)
    | pass => exact .settles (Nat.le_of_eq (Nat.zero_add _)) (Nat.le_refl _)
  | @get ticket ht =>
    exact ⟨[], [], recorded_begin (ticket + 1) (.refl _ _), demand_begin s _ rfl rfl _⟩
  | @exchange e ht =>
    exact ⟨[], [], recorded_begin (e.ticket + 1) (.refl _ _), demand_begin s _ rfl rfl _⟩

/-- The count of open connections goes up only where a dial begins, and by one. -/
theorem Conserved.active_step {s s' : Life} (hs : s.Conserved) (h : Step s s') :
    s'.pool.active ≤ s.pool.active ∨
      (∃ p, s.pool.beginDial = .ok p) ∧ s'.pool.active ≤ s.pool.active + 1 := by
  obtain ⟨new, gone, hr, hdemand⟩ := h.demand
  have hc := hs.exact hr
  cases hdemand with
  | settles hd he => exact .inl (by omega)
  | dials hp hn hd he =>
    rw [hn, List.length_nil] at hc
    exact .inr ⟨⟨_, hp⟩, by omega⟩
  | runsOut hi hn hd he =>
    rw [hn, List.length_nil] at hc
    exact .inl (by omega)

/-! ## Where callers are refused -/

/-- In every state of a pool that refuses callers at its bound, the connections that are open,
wherever they are, and the dials in progress are no more than the bound says, and neither is the
count. -/
theorem open_le_bound {config : Config} {s : Life} (h : Reachable config s)
    (hwait : config.wait = false) (hbound : 0 < config.maxActive) :
    s.opens.length + s.dials ≤ config.maxActive ∧ s.places.length + s.dials ≤ config.maxActive ∧
      s.pool.active ≤ config.maxActive := by
  have hr : config.refuses = true := by simp [Config.refuses, hwait, hbound]
  have hactive : s.pool.active ≤ config.maxActive := by
    have hall : s.Conserved ∧ s.pool.config = config ∧ s.pool.active ≤ config.maxActive := by
      refine h.induct
        (motive := fun s => s.Conserved ∧ s.pool.config = config ∧ s.pool.active ≤ config.maxActive)
        (fun network address now => ⟨conserved_start _ _ _ _, rfl, Nat.zero_le _⟩)
          fun s s' hs hstep => ?_
      obtain ⟨hc, hconfig, hle⟩ := hs
      obtain ⟨new, gone, hrec⟩ := hstep.recorded
      refine ⟨hc.step hstep, hrec.balanced.config.trans hconfig, ?_⟩
      obtain hdown | ⟨⟨p, hp⟩, hup⟩ := hc.active_step hstep
      · exact Nat.le_trans hdown hle
      · have hlt := active_lt_of_beginDial hp (hconfig ▸ hr)
        rw [hconfig] at hlt
        omega
    exact hall.2.2
  have hc := h.conserved
  have hcount := hc.count
  have hopens := hc.perm_opens.length_eq
  rw [length_located] at hcount hopens
  exact ⟨by omega, by omega, hactive⟩

/-- A pool for one connection has it checked out, and lets no other dial begin. -/
theorem open_le_bound_served :
    ∃ s, Reachable { maxActive := 1 } s ∧ s.opens = [0] ∧ s.pool.beginDial = .error .poolLimit ∧
      s.opens.length + s.dials ≤ 1 ∧ s.pool.active ≤ 1 := by
  let c : Conn := ⟨0, "10.0.0.1:80", none, 0, 0⟩
  have hs : Reachable { maxActive := 1 }
    ((start "tcp" "10.0.0.1:80" { maxActive := 1 } 0).served c) :=
    ⟨_, _, _, leads_dialed rfl rfl rfl List.not_mem_nil⟩
  obtain ⟨hopen, -, hactive⟩ := open_le_bound hs rfl Nat.one_pos
  exact ⟨_, hs, rfl, rfl, hopen, hactive⟩

end Life

/-! ## Where callers queue -/

/-- Sweeps and top-ups work for no caller and hold no slot. -/
def Activity.isUpkeep : Activity → Bool
  | .sweep _ | .topUp _ => true
  | .get _ _ | .use _ | .exchange _ _ | .over => false

def Activity.size (a : Activity) : Nat := a.holds.length + a.dials

/-- The connections and dials of a caller. -/
def Activity.ofCaller (a : Activity) : Nat := if a.isUpkeep then 0 else a.size

/-- The connections and dials of a sweep or a top-up. -/
def Activity.ofUpkeep (a : Activity) : Nat := if a.isUpkeep then a.size else 0

/-- A call that has a connection, dials, or is going to dial needs a slot. -/
theorem Activity.ofCaller_le_need (a : Activity) : a.ofCaller + a.isExhausted.toNat ≤ a.need := by
  have acquiring (a : Acquire) : a.holds.length + a.dials + a.isExhausted.toNat ≤ a.need := by
    cases a with
    | served h =>
      simp [Acquire.holds, Acquire.dials, Acquire.isExhausted, Acquire.need, Handle.need]
    | arriving | queued _ | failed _ => exact Nat.le_refl 0
    | popping _ => exact Nat.zero_le 1
    | checking _ _ | exhausted _ | dialing _ _ => exact Nat.le_refl 1
  cases a with
  | get ticket a => exact acquiring a
  | use h => simp [ofCaller, isUpkeep, size, holds, dials, isExhausted, need, Handle.need]
  | exchange e x =>
    cases x with
    | acquiring a => exact acquiring a
    | writing remote h w =>
      simp [ofCaller, isUpkeep, size, holds, dials, isExhausted, need, Exchange.need, Handle.need]
    | reading remote h r =>
      simp [ofCaller, isUpkeep, size, holds, dials, isExhausted, need, Exchange.need, Handle.need]
    | finished result => exact Nat.le_refl 0
  | _ => exact Nat.le_refl 0

namespace Life

/-- The connections and dials of callers. -/
def ofCallers (s : Life) : Nat := (s.activities.map Activity.ofCaller).sum

def ofUpkeep (s : Life) : Nat := (s.activities.map Activity.ofUpkeep).sum

/-- The count is made up of what is idle, what callers have, and what sweeps and top-ups have. -/
theorem Conserved.active_eq {s : Life} (hs : s.Conserved) :
    s.pool.active = s.pool.idle.length + s.ofCallers + s.ofUpkeep := by
  have hsize : s.ofCallers + s.ofUpkeep = (s.activities.map Activity.size).sum := by
    rw [ofCallers, ofUpkeep, ← List.sum_map_add]
    congr 2
    funext a
    rw [Activity.ofCaller, Activity.ofUpkeep]
    cases a.isUpkeep <;> simp
  have hparts : (s.activities.map Activity.size).sum =
      (s.activities.map fun a => a.holds.length).sum + s.dials := List.sum_map_add
  have hc := hs.count
  rw [length_located, places, List.length_append, length_all, List.length_flatMap] at hc
  omega

/-- What callers have and what they are going to dial is within the bound, by the slots that they
hold. -/
theorem Lent.ofCallers_le {config : Config} {s : Life} (hs : s.Lent config)
    (hq : config.queues = true) : s.ofCallers + s.exhausted ≤ config.maxActive := by
  have hslots := hs.count
  rw [if_pos hq] at hslots
  have hheld : s.ofCallers + s.exhausted ≤ s.held := by
    rw [ofCallers, exhausted, ← List.sum_map_add]
    refine List.sum_le_sum fun a ha => ?_
    rw [hs.need hq a ha]
    exact a.ofCaller_le_need
  omega

/-- Nothing gets round the queue: no top-up has begun to dial, and no sweep has connections in hand
while a call is going to dial. -/
structure IsOrderly (s : Life) : Prop where
  topUps : ∀ t, .topUp t ∈ s.activities → (Activity.topUp t).size = 0
  sweeps : (∃ a ∈ s.activities, a.isExhausted = true) → s.ofUpkeep = 0

/-- The states that a pool can come to while nothing gets round the queue. -/
def Orderly (config : Config) (s : Life) : Prop :=
  ∃ network address now,
    Relation.ReflTransGen (fun s s' => Step s s' ∧ s'.IsOrderly)
      (start network address config now) s

theorem Orderly.reachable {config : Config} {s : Life} (h : Orderly config s) :
    Reachable config s := by
  obtain ⟨network, address, now, h⟩ := h
  exact ⟨network, address, now, Relation.ReflTransGen.mono (fun _ _ hs => hs.1) _ _ h⟩

/-- While nothing gets round the queue, the count and the calls that are going to dial stay within
the bound together. A call that runs out of idle connections finds none with the upkeep either, so
all that is counted is with callers. -/
theorem active_le_of_orderly {config : Config} {s : Life} (h : Orderly config s)
    (hq : config.queues = true) : s.pool.active + s.exhausted ≤ config.maxActive := by
  obtain ⟨network, address, now, h⟩ := h
  induction h with
  | refl => exact Nat.zero_le _
  | @tail s s' hrun hstep ih =>
    have hs : Reachable config s := Orderly.reachable ⟨network, address, now, hrun⟩
    have hs' : Reachable config s' := hs.leads (.single hstep.1)
    obtain ⟨new, gone, hr, hdemand⟩ := hstep.1.demand
    have hc := hs.conserved.exact hr
    cases hdemand with
    | settles hd he => omega
    | dials hp hn hd he =>
      rw [hn, List.length_nil] at hc
      obtain he | ⟨t, ht, hpos⟩ := he
      · omega
      · have hz := hstep.2.topUps t ht
        rw [Activity.size] at hz
        omega
    | runsOut hi hn hd he =>
      have hactive := hs'.conserved.active_eq
      have hupkeep := hstep.2.sweeps he
      have hcallers := hs'.lent.ofCallers_le hq
      rw [hi, List.length_nil] at hactive
      omega

/-- What the bound is worth where callers queue. The connections and dials of callers are within it.
Idle connections and what sweeps and top-ups have in hand come on top, and only as long as nothing
gets round the queue the whole is within the bound too. -/
theorem callers_le_bound {config : Config} {s : Life} (h : Reachable config s)
    (hwait : config.wait = true) (hbound : 0 < config.maxActive) :
    s.pool.active = s.pool.idle.length + s.ofCallers + s.ofUpkeep ∧
    s.ofCallers ≤ config.maxActive ∧
    s.pool.idle.length ≤ config.maxIdle ∧
    (Orderly config s → s.pool.active ≤ config.maxActive) := by
  have hq : config.queues = true := by simp [Config.queues, hwait, hbound]
  have hcallers := h.lent.ofCallers_le hq
  refine ⟨h.conserved.active_eq, by omega, h.configured.2, fun ho => ?_⟩
  have hall := active_le_of_orderly ho hq
  omega

theorem isOrderly_withGet {s : Life} (hs : s.activities = []) (p : Pool) (a : Acquire) :
    (s.withGet p a).IsOrderly := by
  constructor
  · intro t ht
    simp [withGet, hs] at ht
  · intro _
    simp [ofUpkeep, withGet, hs, Activity.ofUpkeep, Activity.isUpkeep]

/-- A call that was given the only slot dials, and nothing gets round the queue. -/
theorem orderly_dialing :
    ∃ s, Orderly { maxActive := 1, wait := true } s ∧ s.pool.idle = [] ∧ s.ofCallers = 1 := by
  let s : Life := start "tcp" "10.0.0.1:80" { maxActive := 1, wait := true } 0
  let p : Pool := { s.pool with slots := some ⟨0, [], [], false⟩ }
  let p' : Pool := { p with active := 1 }
  let d : Dial := .start p' 0 none 0
  have goes {p p' : Pool} {a a' : Acquire} (h : a.Moves 0 p 0 (.quiet p' a') .nothing) :
      Step (s.withGet p a) (s.withGet p' a') ∧ (s.withGet p' a').IsOrderly :=
    ⟨step_withGet h, isOrderly_withGet rfl p' a'⟩
  have ha : Acquire.Moves 0 s.pool 0 .arriving (.quiet p (.popping true)) .nothing := .arrive none
  have hp : Acquire.Moves 0 p 0 (.popping true) (.quiet p (.exhausted true)) .nothing := .pop true
  have hb : Acquire.Moves 0 p 0 (.exhausted true) (.quiet p' (.dialing true d)) .nothing :=
    .beginDial true 0 none none
  have hg : Step s (s.withGet s.pool .arriving) ∧ (s.withGet s.pool .arriving).IsOrderly :=
    ⟨.get s (Nat.le_refl _), isOrderly_withGet rfl _ _⟩
  exact ⟨_, ⟨_, _, _, .head hg (.head (goes ha) (.head (goes hp) (.single (goes hb))))⟩, rfl, rfl⟩

theorem callers_le_bound_dialing :
    ∃ s, Reachable { maxActive := 1, wait := true } s ∧ s.ofCallers = 1 ∧
      s.pool.active = 1 + s.ofUpkeep ∧ s.pool.active ≤ 1 := by
  obtain ⟨s, ho, hi, hone⟩ := orderly_dialing
  obtain ⟨hactive, -, -, hle⟩ := callers_le_bound ho.reachable rfl Nat.one_pos
  rw [hi, hone, List.length_nil, Nat.zero_add] at hactive
  exact ⟨s, ho.reachable, hone, hactive, hle ho⟩

/-- The life in which a top-up, the only operation, has opened one more connection. -/
def preDialed (s : Life) (before : List PreDial) (c : Conn) (after : List PreDial) : Life :=
  { s with
    pool := { s.pool with active := s.pool.active + 1 }
    activities := [.topUp ⟨before ++ .ready c :: after⟩]
    opened := s.opened ++ [c.id]
    counts := s.counts ++ [.newConnection] }

/-- A dial of a top-up is not kept back by slots. -/
theorem leads_preDialed {s : Life} {before after : List PreDial} {c : Conn}
    (hs : s.activities = [.topUp ⟨before ++ .waiting :: after⟩])
    (hd : s.pool.beginDial = .ok { s.pool with active := s.pool.active + 1 })
    (hf : c.id ∉ s.opened) : s.Leads (s.preDialed before c after) := by
  let p : Pool := { s.pool with active := s.pool.active + 1 }
  let d : Dial := .start p 0 none s.now
  let dialing : Activity := .topUp ⟨before ++ .dialing d :: after⟩
  have hb : PreDial.Moves s.pool s.now .waiting (.quiet p (.dialing d)) .nothing := by
    have hbegin : PreDial.begin s.pool 0 s.now = .quiet p (.dialing d) := by
      simp [PreDial.begin, hd, p, d]
    exact hbegin ▸ .begin 0
  have he : PreDial.Moves p s.now (.dialing d) ⟨p, .ready c, [], [.newConnection]⟩ (.opens c) :=
    .finish ⟨some (.ok c), none, .connected c, rfl⟩
  have hs' : s.activities = [] ++ .topUp ⟨before ++ .waiting :: after⟩ :: [] := hs
  have h1 : Step s (s.proceed [] (.quiet p dialing) .nothing []) :=
    .advance (.mk hs' (.dial hb) (List.forall_mem_nil _))
  have h2 : Step (s.proceed [] (.quiet p dialing) .nothing []) _ :=
    .advance (.mk rfl (.dial he) (by simpa [Touch.opened, proceed] using hf))
  have := Relation.ReflTransGen.head h1 (.single h2)
  simpa [proceed, Touch.opened, preDialed, Step.map, p] using this

theorem leads_toppedUp :
    ∃ s, (start "tcp" "10.0.0.1:80" { minIdle := 2, maxActive := 1, wait := true } 0).Leads s ∧
      s.opens = [0, 1] ∧ s.pool.stats = ⟨2, 2, false⟩ := by
  let s : Life := start "tcp" "10.0.0.1:80" { minIdle := 2, maxActive := 1, wait := true } 0
  let c : Conn := ⟨0, "10.0.0.1:80", none, 0, 0⟩
  let c' : Conn := ⟨1, "10.0.0.1:80", none, 0, 0⟩
  have h1 : s.Leads { s with activities := [.topUp (.begin s.pool)] } := .single (.tend (.topUp s))
  have h2 := h1.trans (@leads_preDialed _ [] [.waiting] c rfl rfl List.not_mem_nil)
  have h3 := h2.trans (@leads_preDialed _ [.ready c] [] c' rfl rfl (by decide))
  have h4 := h3.tail (.advance (.mk
    (show _ = [] ++ .topUp ⟨[.ready c, .ready c']⟩ :: [] from rfl) (.finishTopUp rfl)
    (List.forall_mem_nil _)))
  exact ⟨_, h4, rfl, rfl⟩

/-- A pool for one connection has two that are open. -/
theorem active_above_bound :
    ∃ s, Reachable { minIdle := 2, maxActive := 1, wait := true } s ∧ s.opens.length = 2 ∧
      s.pool.active = 2 := by
  obtain ⟨s, hs, hopens, hstats⟩ := leads_toppedUp
  exact ⟨s, ⟨_, _, _, hs⟩, by rw [hopens]; rfl, congrArg Stats.active hstats⟩

end Life

end Courier.Pool

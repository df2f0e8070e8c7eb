import Courier.Proofs.Pool.Capacity
import Courier.Proofs.Pool.Operating

/-!
# Dials that are abandoned

Whatever waits can be abandoned: a call, an exchange, a handle, and a top-up whose dials are not all
over. The slot of a caller goes back with it. The count of open connections does not: it went up
when a dial began, and only the end of the dial and the pool itself lower it. So a dial that is
abandoned stays counted for good, and with a top-up the connections that it has opened. What is lost
in this way is written down beside the life of a pool; the count is what there is to count and what
was lost.
-/
namespace Courier.Pool

namespace Activity

/-- An operation is abandoned. A top-up waits until all its dials are over; with it the connections
go that it has opened, and the pool does not hear of it. -/
inductive Abandons (p : Pool) (now : Instant) : Activity → Step Activity → Prop
  | drop {a : Activity} {m : Step Activity} (h : a.Drops p now m) : Abandons p now a m
  | topUp {t : TopUp} (ht : t.isOver = false) : Abandons p now (.topUp t) ⟨p, .over, t.conns, []⟩

/-- An operation goes on or is abandoned. -/
def Turns (p : Pool) (now : Instant) (a : Activity) (m : Step Activity) : Prop :=
  (∃ touch, a.Moves p now m touch) ∨ a.Abandons p now m

/-- What stays counted when an operation is abandoned: its dials, and the connections of a
top-up. -/
def forfeit : Activity → Nat
  | .topUp t => (Activity.topUp t).size
  | .get _ a | .exchange _ (.acquiring a) => a.dials
  | .exchange _ (.writing _ _ _) | .exchange _ (.reading _ _ _) | .exchange _ (.finished _)
  | .use _ | .sweep _ | .over => 0

end Activity

/-! ## What is abandoned -/

section Abandons
variable {p : Pool} {now : Instant} {a : Activity} {m : Step Activity}

theorem Activity.Abandons.next_eq (h : a.Abandons p now m) : m.next = .over := by
  cases h with
  | drop h => cases h <;> rfl
  | topUp ht => rfl

/-- No connection is lost. -/
theorem Activity.Abandons.moved (h : a.Abandons p now m) :
    Moved p a.stock.conns [] m.pool [] (numbers m.closes) := by
  cases h with
  | drop h =>
    have hm := moved_drop h
    rwa [next_eq (.drop h), stock_over] at hm
  | @topUp t ht =>
    refine ⟨?_, rfl, id⟩
    rw [conns_topUp, List.append_nil, List.append_nil]

@[simp] theorem active_abandon (a : Acquire) (p : Pool) : (a.abandon p).active = p.active := by
  unfold Acquire.abandon
  split
  · rfl
  · split <;> rfl
  · rfl

/-- A handle that is dropped takes its connection off the count as far as the connection is
closed. -/
theorem count_close {h : Handle} (hc : p.idle.length + (Handle.stock h).conns.length ≤ p.active) :
    (h.close p now).pool.active + (h.close p now).closes.length = p.active := by
  have hb := (balanced_release h p h.forceClose now).count hc
  rw [length_numbers] at hb
  exact hb

theorem Activity.Drops.forfeit_eq (h : a.Drops p now m) : a.forfeit = a.dials := by
  cases h with
  | get ticket ha => rfl
  | @exchange e x hx => cases x <;> rfl
  | use h => rfl

/-- The count goes down with the connections that are closed, but not with dials, and not with the
connections of a top-up. -/
theorem Activity.Abandons.count (h : a.Abandons p now m)
    (hc : p.idle.length + a.stock.conns.length + a.stock.dials ≤ p.active) :
    m.pool.active + m.closes.length + a.dials = p.active + a.forfeit := by
  cases h with
  | drop h =>
    rw [h.forfeit_eq, Nat.add_right_cancel_iff]
    cases h.lets with
    | call hw ha => exact active_abandon _ p
    | handle ha =>
      rw [(owns_of_handle ha).stock] at hc
      exact count_close hc
  | @topUp t ht =>
    show p.active + t.conns.length + (Activity.topUp t).dials = p.active + (Activity.topUp t).size
    simp [Activity.size, Activity.holds, Nat.add_assoc]

/-- A slot that a caller was given while it waited goes on to the next one. -/
theorem lends_leave (p : Pool) (ticket : Ticket) :
    p.Lends 0 { p with slots := p.slots.map (·.leave ticket) } 0 := by
  constructor
  · simp
  · intro _
    cases hs : p.slots <;> simp [spare, hs]

theorem Acquire.lends_abandon {a : Acquire} (ha : a.isSuspended = true) (p : Pool) :
    p.Lends a.slots (a.abandon p) 0 := by
  cases a with
  | arriving => exact .of_eq rfl 0
  | queued ticket => exact lends_leave p ticket
  | dialing slot d => exact .giveBack p slot
  | _ => cases ha

/-- The slot of an operation that is abandoned goes back. -/
theorem Activity.Abandons.lends (h : a.Abandons p now m) : p.Lends a.slots m.pool 0 := by
  cases h with
  | drop h =>
    cases h.lets with
    | call hw ha =>
      rw [(hw.owns _).slots]
      exact Acquire.lends_abandon ha p
    | handle ha =>
      rw [(owns_of_handle ha).slots]
      exact lends_release p now _ _
  | topUp ht => exact .of_eq rfl 0

end Abandons

/-! ## Lives with losses -/

namespace Life
variable {config : Config} {s s' s'' : Life} {lost more : Nat} {new gone : List Nat}

/-- What can happen to a pool, and how much is lost to its count. -/
inductive Event : Life → Nat → Life → Prop
  | step {s s' : Life} (h : Step s s') : Event s 0 s'
  | abandon {s : Life} {before after : List Activity} {a : Activity} {m : Pool.Step Activity}
      (hs : s.activities = before ++ a :: after) (hm : a.Abandons s.pool s.now m) :
      Event s a.forfeit (s.proceed before m .nothing after)

/-- Any number of events, with all that is lost. -/
inductive Runs : Life → Nat → Life → Prop
  | refl (s : Life) : Runs s 0 s
  | tail {s s' s'' : Life} {lost more : Nat} (h : Runs s lost s') (he : s'.Event more s'') :
      Runs s (lost + more) s''

/-- The states that a pool can come to with so much lost to its count. -/
def Leaky (config : Config) (lost : Nat) (s : Life) : Prop :=
  ∃ network address now, (start network address config now).Runs lost s

theorem Runs.trans (h : s.Runs lost s') (h' : s'.Runs more s'') : s.Runs (lost + more) s'' := by
  induction h' with
  | refl => exact h
  | tail _ he ih =>
    rw [← Nat.add_assoc]
    exact ih.tail he

theorem Runs.single (he : s.Event lost s') : s.Runs lost s' := by
  have h := (Runs.refl s).tail he
  rwa [Nat.zero_add] at h

/-- Nothing is lost where nothing is abandoned. -/
theorem Leads.runs (h : s.Leads s') : s.Runs 0 s' := by
  induction h with
  | refl => exact .refl s
  | tail _ h ih => exact ih.tail (.step h)

theorem Leaky.runs (h : Leaky config lost s) (hr : s.Runs more s') :
    Leaky config (lost + more) s' := by
  obtain ⟨network, address, now, h⟩ := h
  exact ⟨network, address, now, h.trans hr⟩

theorem Reachable.leaky (h : Reachable config s) : Leaky config 0 s := by
  obtain ⟨network, address, now, h⟩ := h
  exact ⟨network, address, now, Leads.runs h⟩

/-- What holds at the start and is kept by every event holds in every state. -/
theorem Leaky.induct {motive : Nat → Life → Prop} (h : Leaky config lost s)
    (start : ∀ network address now, motive 0 (start network address config now))
    (event : ∀ lost more s s', motive lost s → s.Event more s' → motive (lost + more) s') :
    motive lost s := by
  obtain ⟨network, address, now, h⟩ := h
  induction h with
  | refl => exact start network address now
  | tail _ he ih => exact event _ _ _ _ ih he

/-- The records of an event. If the count was not too low, it changes with the connections and dials
that come and go, and by what is lost. -/
structure Spent (s s' : Life) (lost : Nat) (new gone : List Nat) : Prop where
  shifted : s.Shifted s' new gone
  count : s.pool.idle.length + s.stock.conns.length + s.stock.dials ≤ s.pool.active →
    s'.pool.active + gone.length + s.dials = s.pool.active + new.length + s'.dials + lost

section Abandon
variable {before after : List Activity} {a : Activity} {m : Pool.Step Activity}

theorem dials_abandon (hs : s.activities = before ++ a :: after) (hm : a.Abandons s.pool s.now m) :
    s.dials = (s.proceed before m .nothing after).dials + a.dials := by
  have hover : Activity.over.dials = 0 := rfl
  simp only [Life.dials, proceed, hs, hm.next_eq, List.map_append, List.map_cons, List.sum_append,
    List.sum_cons]
  omega

theorem spent_abandon (hs : s.activities = before ++ a :: after) (hm : a.Abandons s.pool s.now m) :
    s.Spent (s.proceed before m .nothing after) a.forfeit [] (numbers m.closes) := by
  refine ⟨⟨?_, rfl, rfl, .nil, List.forall_mem_nil _⟩, fun hc => ?_⟩
  · rw [stock_among hs, stock_among rfl, hm.next_eq]
    exact hm.moved.frame _ _
  · have hdials := dials_abandon hs hm
    rw [stock_among hs] at hc
    simp only [List.length_append] at hc
    have hcount := hm.count (by omega)
    show m.pool.active + _ + _ = _
    rw [length_numbers, List.length_nil]
    omega

end Abandon

theorem Event.spent (h : s.Event lost s') : ∃ new gone, s.Spent s' lost new gone := by
  cases h with
  | step h =>
    obtain ⟨new, gone, hr⟩ := h.recorded
    exact ⟨new, gone, hr.shifted, hr.balanced.count⟩
  | abandon hs hm => exact ⟨_, _, spent_abandon hs hm⟩

/-- What holds in every state whatever is abandoned: everything that was opened is somewhere or was
closed, nothing is in two places, and the count is what there is to count and what was lost. -/
structure Tallied (config : Config) (lost : Nat) (s : Life) : Prop where
  perm : (located s.places ++ s.closed).Perm s.opened
  nodup : s.opened.Nodup
  configured : s.pool.config = config
  bounded : s.pool.idle.length ≤ config.maxIdle
  count : s.pool.active = (located s.places).length + s.dials + lost

theorem tallied_start (network address : String) (config : Config) (now : Instant) :
    (start network address config now).Tallied config 0 :=
  ⟨.refl _, .nil, rfl, Nat.zero_le _, rfl⟩

/-- The count is not too low. -/
theorem Tallied.le_active (hs : s.Tallied config lost) :
    s.pool.idle.length + s.stock.conns.length + s.stock.dials ≤ s.pool.active := by
  have hc := hs.count
  rw [located_places, List.length_append, length_numbers] at hc
  simp only [stock] at hc ⊢
  omega

/-- So no lowering of the count is cut short. -/
theorem Tallied.exact (hs : s.Tallied config lost) (h : s.Spent s' more new gone) :
    s'.pool.active + gone.length + s.dials = s.pool.active + new.length + s'.dials + more :=
  h.count hs.le_active

theorem Tallied.spent (hs : s.Tallied config lost) (h : s.Spent s' more new gone) :
    s'.Tallied config (lost + more) := by
  have hm := h.shifted.moved
  have hbounded := hm.bounded
  rw [hs.configured] at hbounded
  refine ⟨perm_opened hs.perm hm.perm h.shifted.opened h.shifted.closed, ?_,
    hm.config.trans hs.configured, hbounded hs.bounded, ?_⟩
  · rw [h.shifted.opened]
    exact nodup_opened hs.nodup h.shifted.nodup h.shifted.fresh
  · have he := hs.exact h
    have hc := hs.count
    have hl := hm.perm.length_eq
    simp only [located_places, List.length_append] at hc hl ⊢
    omega

theorem Tallied.event (hs : s.Tallied config lost) (h : s.Event more s') :
    s'.Tallied config (lost + more) := by
  obtain ⟨new, gone, h⟩ := h.spent
  exact hs.spent h

theorem Leaky.tallied (h : Leaky config lost s) : s.Tallied config lost :=
  h.induct (fun network address now => tallied_start network address config now)
    fun _ _ _ _ hs he => hs.event he

theorem Tallied.active_eq (hs : s.Tallied config lost) :
    s.pool.active = s.opens.length + s.dials + lost := by
  rw [hs.count, (perm_opens_of_perm hs.perm hs.nodup).length_eq]

/-! ## Slots and losses -/

theorem Event.lends (h : s.Event lost s') : s.pool.Lends s.held s'.pool s'.held := by
  cases h with
  | step h => exact h.lends
  | abandon hs hm =>
    have hl := hm.lends.frame
    simpa [held, hs, proceed, hm.next_eq, Activity.slots, Nat.add_assoc] using hl _ _

/-- In an event of a pool whose callers queue, an operation has the slots that it needs. -/
theorem Event.need (h : s.Event lost s') (hp : s.pool.slots.isSome = true)
    (hs : ∀ a ∈ s.activities, a.slots = a.need) : ∀ a ∈ s'.activities, a.slots = a.need := by
  cases h with
  | step h => exact h.need hp hs
  | abandon hact hm =>
    rw [hact] at hs
    intro b hb
    obtain hb | hb := List.mem_append.1 hb
    · exact hs b (List.mem_append_left _ hb)
    · obtain rfl | hb := List.mem_cons.1 hb
      · rw [hm.next_eq]
        rfl
      · exact hs b (List.mem_append_right _ (List.mem_cons_of_mem _ hb))

theorem Lent.event (hs : s.Lent config) (h : s.Event lost s') : s'.Lent config := by
  obtain ⟨hqueues, hcount⟩ := Lent.lends hs.queues hs.count h.lends
  exact ⟨hqueues, hcount, fun hq => h.need (hs.queues.trans hq) (hs.need hq)⟩

/-- No slot is lost, whatever is abandoned. -/
theorem Leaky.lent (h : Leaky config lost s) : s.Lent config :=
  h.induct (motive := fun _ s => s.Lent config)
    (fun network address now => lent_start network address config now) fun _ _ _ _ hs he =>
      hs.event he

end Life

/-! ## What is lost is lost for good -/

theorem beginDial_eq_poolLimit {p : Pool} :
    p.beginDial = .error .poolLimit ↔ p.config.refuses = true ∧ p.config.maxActive ≤ p.active := by
  unfold beginDial
  split
  next h => exact ⟨fun _ => h, fun _ => rfl⟩
  next h =>
    refine ⟨fun hb => ?_, fun hb => absurd hb h⟩
    split at hb <;> cases hb

/-- A call that is abandoned at its dial leaves the pool as if the dial had failed, but for the
count. -/
theorem endDial_eq_lower_abandon (p : Pool) (slot : Bool) (d : Dial) (f : Fault) :
    (Acquire.endDial p slot (.error f)).pool = ((Acquire.dialing slot d).abandon p).lower 1 := by
  cases slot <;> rfl

namespace Life

/-- The count is what is open, the dials in progress, and what was lost. It is lost with every call
that is abandoned at its dial, one for each, and with every top-up, one for each dial in progress
and each connection that it has opened; nothing else is lost, and what is lost does not come back.
So a pool that refuses callers at its bound and has nothing open refuses them if and only if it has
lost as much as its bound, and then it refuses them for ever. -/
theorem count_with_losses {config : Config} {lost : Nat} {s : Life} (h : Leaky config lost s) :
    s.pool.active = s.opens.length + s.dials + lost ∧
    (∀ before a after m, s.activities = before ++ a :: after → a.Abandons s.pool s.now m →
      (s.proceed before m .nothing after).pool.active =
        (s.proceed before m .nothing after).opens.length +
          (s.proceed before m .nothing after).dials + (lost + a.forfeit)) ∧
    (∀ slot d f, (Acquire.endDial s.pool slot (.error f)).pool =
      ((Acquire.dialing slot d).abandon s.pool).lower 1) ∧
    (config.refuses = true → s.opens = [] → s.dials = 0 →
      (s.pool.beginDial = .error .poolLimit ↔ config.maxActive ≤ lost)) ∧
    (config.refuses = true → config.maxActive ≤ lost →
      ∀ more s', s.Runs more s' → s'.pool.beginDial = .error .poolLimit) := by
  have hs := h.tallied
  refine ⟨hs.active_eq, fun before a after m hact hm => ?_, ?_, fun hr ho hd => ?_,
    fun hr hle more s' hruns => ?_⟩
  · exact (hs.event (.abandon hact hm)).active_eq
  · exact endDial_eq_lower_abandon s.pool
  · have hactive := hs.active_eq
    rw [ho, hd, List.length_nil, Nat.zero_add] at hactive
    rw [beginDial_eq_poolLimit, hs.configured, hactive]
    exact and_iff_right hr
  · have hs' := (h.runs hruns).tallied
    have hactive := hs'.active_eq
    rw [beginDial_eq_poolLimit, hs'.configured]
    exact ⟨hr, by omega⟩

/-- The only call of a pool for one connection is abandoned at its dial. -/
theorem event_abandoned_dial :
    ∃ s s', Reachable { maxActive := 1 } s ∧ s.dials = 1 ∧ s.Event 1 s' ∧ s'.opens = [] ∧
    s'.dials = 0 := by
  let s : Life := start "tcp" "10.0.0.1:80" { maxActive := 1 } 0
  let p : Pool := { s.pool with active := 1 }
  let d : Dial := .start p 0 none 0
  have hs : s.Leads (s.withGet p (.dialing false d)) := leads_dialing rfl rfl rfl
  have he : (s.withGet p (.dialing false d)).Event 1 _ :=
    .abandon (show _ = [] ++ .get 0 (.dialing false d) :: [] from rfl) (.drop (.get 0 rfl))
  exact ⟨_, _, ⟨_, _, _, hs⟩, rfl, he, rfl, rfl⟩

/-- What that pool counts is the dial that nobody waits for. -/
theorem count_with_losses_dial :
    ∃ s, Leaky { maxActive := 1 } 1 s ∧ s.pool.active = 1 ∧
      ∀ more s', s.Runs more s' → s'.pool.beginDial = .error .poolLimit := by
  obtain ⟨s, s', hs, -, he, ho, hd⟩ := event_abandoned_dial
  have hs' : Leaky { maxActive := 1 } 1 s' := hs.leaky.runs (.single he)
  obtain ⟨hactive, -, -, -, hforever⟩ := count_with_losses hs'
  rw [ho, hd] at hactive
  exact ⟨s', hs', hactive, hforever rfl (Nat.le_refl 1)⟩

/-- A pool without a connection and without a dial says that it has too many. -/
theorem limit_without_connections :
    ∃ s s', Reachable { maxActive := 1 } s ∧ s.Event 1 s' ∧ s'.opens = [] ∧ s'.dials = 0 ∧
      s'.pool.active ≠ s'.opens.length + s'.dials ∧ s'.pool.beginDial = .error .poolLimit := by
  obtain ⟨s, s', hs, -, he, ho, hd⟩ := event_abandoned_dial
  have hs' := (hs.leaky.runs (.single he)).tallied
  have hactive : s'.pool.active = 1 := by
    rw [hs'.active_eq, ho, hd]
    rfl
  refine ⟨s, s', hs, he, ho, hd, ?_, ?_⟩
  · rw [hactive, ho, hd]
    decide
  · rw [beginDial_eq_poolLimit, hs'.configured, hactive]
    exact ⟨rfl, Nat.le_refl 1⟩

end Life

end Courier.Pool

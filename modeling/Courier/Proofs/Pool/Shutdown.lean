import Courier.Proofs.Pool.Queue

/-!
# Pools that are closed

Closing is final: no function of a pool opens it again, and none puts a connection into the idle
list of a closed pool. A closed pool lets no dial begin and refuses everybody in its queue. What
operations have in hand when it is closed is closed when it comes back, and then nothing is counted
but what was lost.
-/
namespace Courier

namespace Slots
variable (s : Slots) (t : Ticket)

@[simp] theorem closed_giveBack : s.giveBack.closed = s.closed := by
  unfold giveBack
  split <;> rfl

@[simp] theorem closed_leave : (s.leave t).closed = s.closed := by
  unfold leave
  split
  · exact closed_giveBack _
  · rfl

@[simp] theorem closed_ask : (s.ask t).2.closed = s.closed := by
  unfold ask
  split
  · rfl
  · split <;> rfl

@[simp] theorem closed_resume : (s.resume t).2.closed = s.closed := by
  unfold resume
  split
  · exact s.closed_leave t
  · split <;> rfl

end Slots

namespace Pool

/-! ## What no operation undoes -/

/-- The pool is closed, nothing is idle, and its queue is closed. -/
structure IsShut (p : Pool) : Prop where
  closed : p.closed = true
  idle : p.idle = []
  slots : p.slots.all Slots.closed = true

/-- The pool is as open as it was, and if it is closed, nothing becomes idle and nobody enters. -/
structure Keeps (p p' : Pool) : Prop where
  closed : p'.closed = p.closed
  idle : p.closed = true → p.idle = [] → p'.idle = []
  slots : p'.slots.map Slots.closed = p.slots.map Slots.closed

namespace Keeps
variable {p p' p'' : Pool}

theorem refl (p : Pool) : p.Keeps p := ⟨rfl, fun _ hi => hi, rfl⟩

theorem trans (h : p.Keeps p') (h' : p'.Keeps p'') : p.Keeps p'' where
  closed := h'.closed.trans h.closed
  idle hc hi := h'.idle (h.closed.trans hc) (h.idle hc hi)
  slots := h'.slots.trans h.slots

theorem lower (p : Pool) (n : Nat) : p.Keeps (p.lower n) := ⟨rfl, fun _ hi => hi, rfl⟩

theorem answer {slots slots' : Slots} (hs : p.slots = some slots)
    (h : slots'.closed = slots.closed) : p.Keeps { p with slots := some slots' } :=
  ⟨rfl, fun _ hi => hi, by simp [hs, h]⟩

theorem giveBack (h : p.Keeps p') (slot : Bool) :
    p.Keeps (if slot then p'.giveBackSlot else p') := by
  cases slot with
  | false => exact h
  | true =>
    refine h.trans ⟨rfl, fun _ hi => hi, ?_⟩
    cases hs : p'.slots <;> simp [giveBackSlot, hs]

theorem isShut (h : p.Keeps p') (hp : p.IsShut) : p'.IsShut := by
  refine ⟨h.closed.trans hp.closed, h.idle hp.closed hp.idle, ?_⟩
  have hslots := h.slots
  have hclosed := hp.slots
  cases hs : p.slots <;> cases hs' : p'.slots <;> simp_all

end Keeps

section Functions
variable (p : Pool) (now : Instant)

theorem keeps_put (c : Conn) (force : Bool) : p.Keeps (p.put c force now).1 := by
  unfold put
  split
  · exact .lower p 1
  next h =>
    have hopen : p.closed ≠ true := fun hc => h (.inl hc)
    dsimp only
    split
    · exact ⟨rfl, fun hc _ => absurd hc hopen, rfl⟩
    · exact ⟨rfl, fun hc _ => absurd hc hopen, rfl⟩

theorem keeps_putAll (conns : List Conn) : p.Keeps (TopUp.putAll p now conns).1 := by
  induction conns generalizing p with
  | nil => exact .refl p
  | cons c rest ih => exact (keeps_put p now c false).trans (ih (p.put c false now).1)

theorem keeps_popIdle {p p' : Pool} {c : Conn} (h : p.popIdle = some (c, p')) : p.Keeps p' := by
  unfold popIdle at h
  split at h
  · cases h
  next _ rest hi =>
    cases h
    exact ⟨rfl, fun _ hn => absurd hn (by simp [hi]), rfl⟩

theorem keeps_beginDial {p p' : Pool} (h : p.beginDial = .ok p') : p.Keeps p' := by
  unfold beginDial at h
  split at h
  · cases h
  · split at h
    · cases h
    · cases h
      exact ⟨rfl, fun _ hi => hi, rfl⟩

theorem keeps_sweep {p p' : Pool} {s : Sweep} (h : Sweep.begin p = some (p', s)) : p.Keeps p' := by
  unfold Sweep.begin at h
  split at h
  · cases h
  · cases h
    exact ⟨rfl, fun _ _ => rfl, rfl⟩

theorem keeps_finish (s : Sweep) : p.Keeps (s.finish p).1 := by
  unfold Sweep.finish
  split
  · exact .lower p _
  next h => exact ⟨rfl, fun hc _ => absurd hc h, rfl⟩

theorem keeps_release (h : Handle) (force : Bool) : p.Keeps (h.release p force now).pool := by
  rw [Handle.release_eq]
  cases h.conn with
  | none => exact (Keeps.refl p).giveBack h.slot
  | some c => exact (keeps_put p now c force).giveBack h.slot

/-- Closing closes the pool for good, and closing it again does nothing. -/
theorem isShut_close (h : p.closed = true → p.IsShut) : p.close.1.IsShut := by
  unfold close
  split
  next hc => exact h hc
  next =>
    refine ⟨rfl, rfl, ?_⟩
    cases p.slots <;> simp [lower, Slots.close]

theorem closed_close : p.close.1.closed = true := by
  unfold close
  split
  next h => exact h
  next => rfl

theorem close_of_closed {p : Pool} (h : p.closed = true) : p.close = (p, []) := if_pos h

/-- What a closed pool says to a call that would dial: at its bound that it is full, and otherwise
that it is closed. -/
def refusal (p : Pool) : Fault :=
  if p.config.refuses ∧ p.config.maxActive ≤ p.active then .poolLimit else .poolClosed

/-- A closed pool lets no dial begin. -/
theorem beginDial_of_closed {p : Pool} (h : p.closed = true) : p.beginDial = .error p.refusal := by
  unfold beginDial refusal
  split <;> rfl

end Functions

/-! ## Steps on a closed pool -/

section Steps
variable {p : Pool} {now : Instant}

theorem Acquire.keeps_arrive (p : Pool) (ticket : Ticket) (done : Option Done) :
    p.Keeps (arrive p ticket done).pool := by
  unfold arrive
  split
  next => exact .refl p
  next slots hs =>
    split
    next => exact .refl p
    next =>
      have hc := slots.closed_ask ticket
      split
      next he => exact .answer hs (by rwa [he] at hc)
      next he => exact .answer hs (by rwa [he] at hc)
      next he => exact .answer hs (by rwa [he] at hc)

theorem Acquire.keeps_resume (p : Pool) (ticket : Ticket) (done : Option Done) :
    p.Keeps (resume p ticket done).pool := by
  unfold resume
  split
  next => exact .refl p
  next slots hs =>
    have hc := slots.closed_resume ticket
    split
    next he => exact .answer hs (by rwa [he] at hc)
    next he => exact .answer hs (by rwa [he] at hc)
    next slots' he =>
      rw [he] at hc
      split
      next => exact .answer hs ((slots'.closed_leave ticket).trans hc)
      next => exact .answer hs hc

theorem Acquire.keeps {ticket : Ticket} {a : Acquire} {m : Step Acquire} {touch : Touch}
    (h : a.Moves ticket p now m touch) : p.Keeps m.pool := by
  cases ho : a.isOutside with
  | true =>
    cases h with
    | arrive done => exact keeps_arrive p ticket done
    | resume t done => exact keeps_resume p t done
    | _ => cases ho
  | false =>
    cases h.does with
    | passes ha => simp [ho] at ha
    | enters ha => simp [ho] at ha
    | waits t ha => simp [ho] at ha
    | leaves ha => simp [ho] at ha
    | takes slot hp => exact keeps_popIdle hp
    | runsOut slot hi => exact .refl p
    | keeps slot c counts => exact .refl p
    | drops slot c counts => exact .lower p 1
    | refused slot hd => exact (Keeps.refl p).giveBack slot
    | @stops slot p' hd why => exact ((keeps_beginDial hd).trans (.lower p' 1)).giveBack slot
    | dials slot hd d => exact keeps_beginDial hd
    | connects slot d c => exact .refl p
    | fails slot hr => exact (Keeps.lower p 1).giveBack slot

theorem PreDial.keeps {d : PreDial} {m : Step PreDial} {touch : Touch} (h : d.Moves p now m touch) :
    p.Keeps m.pool := by
  cases h with
  | begin attempt =>
    unfold PreDial.begin
    split
    next hd => exact keeps_beginDial hd
    next => exact .refl p
  | @finish d r hr =>
    cases r with
    | ok c => exact .refl p
    | error f => exact .lower p 1

theorem Activity.keeps {a : Activity} {m : Step Activity} {touch : Touch}
    (h : a.Moves p now m touch) : p.Keeps m.pool := by
  cases h.does with
  | acquires hw h => exact Acquire.keeps h
  | rests counts ha hb ht => exact .refl p
  | keeps ha hb hc hslot ht => exact .refl p
  | gives force ha hb ht => exact keeps_release p now _ force
  | judges hp hv => exact .refl p
  | @sweeps s hp => exact keeps_finish p s
  | dials h => exact PreDial.keeps h
  | tops ht => exact keeps_putAll p now _

theorem Acquire.keeps_abandon (a : Acquire) (p : Pool) : p.Keeps (a.abandon p) := by
  cases a with
  | queued ticket =>
    refine ⟨rfl, fun _ hi => hi, ?_⟩
    cases hs : p.slots <;> simp [abandon, hs]
  | dialing slot d => exact (Keeps.refl p).giveBack slot
  | _ => exact .refl p

theorem Activity.Abandons.keeps {a : Activity} {m : Step Activity} (h : a.Abandons p now m) :
    p.Keeps m.pool := by
  cases h with
  | drop h =>
    cases h.lets with
    | call hw ha => exact Acquire.keeps_abandon _ p
    | handle ha => exact keeps_release p now _ _
  | topUp ht => exact .refl p

/-- What is lost to the count with an operation is a dial of its own or a connection that is
closed. -/
theorem Activity.Abandons.forfeit_le {a : Activity} {m : Step Activity} (h : a.Abandons p now m) :
    a.forfeit ≤ m.closes.length + a.dials := by
  cases h with
  | drop h =>
    rw [h.forfeit_eq]
    exact Nat.le_add_left _ _
  | @topUp t ht =>
    refine Nat.le_of_eq ?_
    simp [Activity.forfeit, Activity.size, Activity.holds]

end Steps

/-! ## Lives of closed pools -/

namespace Life
variable {config : Config} {lost more : Nat} {s s' s'' : Life}

/-- The life in which the pool has just been closed. -/
def shut (s : Life) : Life :=
  { s with pool := s.pool.close.1, closed := s.closed ++ numbers s.pool.close.2 }

theorem step_shut (s : Life) : Step s s.shut := .tend (.close s)

/-- Whatever happens to a pool, it is closed or it stays as open as it was. -/
theorem Event.keeps_or_closes (h : s.Event more s') :
    s.pool.Keeps s'.pool ∨ s'.pool = s.pool.close.1 := by
  cases h with
  | step h =>
    cases h with
    | advance h =>
      obtain ⟨-, hm, -⟩ := h
      exact .inl (Activity.keeps hm)
    | tend h =>
      cases h with
      | sweep hb => exact .inl (keeps_sweep hb)
      | topUp => exact .inl (.refl _)
      | close => exact .inr rfl
      | pass => exact .inl (.refl _)
    | get => exact .inl (.refl _)
    | exchange => exact .inl (.refl _)
  | abandon hact hm => exact .inl hm.keeps

theorem Event.isShut (h : s.Event more s') (hs : s.pool.closed = true → s.pool.IsShut) :
    s'.pool.closed = true → s'.pool.IsShut := by
  obtain hk | hp := h.keeps_or_closes
  · exact fun hc => hk.isShut (hs (hk.closed.symm.trans hc))
  · rw [hp]
    exact fun _ => isShut_close s.pool hs

/-- In no state a closed pool has idle connections or an open queue. -/
theorem Leaky.isShut (h : Leaky config lost s) : s.pool.closed = true → s.pool.IsShut :=
  h.induct (motive := fun _ s => s.pool.closed = true → s.pool.IsShut) (fun _ _ _ => nofun)
    fun _ _ _ _ hs he => he.isShut hs

theorem Event.closed (h : s.Event more s') (hs : s.pool.closed = true) : s'.pool.closed = true := by
  obtain hk | hp := h.keeps_or_closes
  · exact hk.closed.trans hs
  · rw [hp, close_of_closed hs]
    exact hs

/-- On a closed pool dials end and none begins, and what is lost is a dial or a connection that is
closed. -/
theorem Event.settles (h : s.Event more s') (hc : s.pool.closed = true) :
    ∃ new gone, s.Spent s' more new gone ∧ new.length + s'.dials ≤ s.dials ∧
      more + new.length + s'.dials ≤ gone.length + s.dials := by
  cases h with
  | step h =>
    obtain ⟨new, gone, hr, hd⟩ := h.demand
    refine ⟨new, gone, ⟨hr.shifted, hr.balanced.count⟩, ?_⟩
    cases hd with
    | settles hd he => omega
    | dials hp hn hd he =>
      rw [beginDial_of_closed hc] at hp
      cases hp
    | runsOut hi hn hd he =>
      rw [hn, List.length_nil]
      omega
  | @abandon before after a m hact hm =>
    have hlost := hm.forfeit_le
    have hdials := dials_abandon hact hm
    refine ⟨_, _, spent_abandon hact hm, ?_⟩
    rw [List.length_nil, length_numbers]
    omega

theorem closed_shut (s : Life) : s.shut.pool.closed = true := closed_close s.pool

end Life

end Pool

end Courier

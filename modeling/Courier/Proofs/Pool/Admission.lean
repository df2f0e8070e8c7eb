import Courier.Proofs.Pool.Conservation

/-!
# Slots are neither lost nor doubled

What a step takes from the slots of a pool its operation holds, and what the operation gives up
comes back. So in every state of a pool whose callers queue, the slots that nobody holds and those
that operations hold are as many as the pool began with. An operation holds a slot from its
admission until the connection that it was given has come back: while it looks for one, while it
dials, and while a caller has it.
-/
namespace Courier

namespace Pool

/-- The slots of a pool that nobody holds. -/
def spare (p : Pool) : Nat := (p.slots.map Slots.spare).getD 0

/-- What is taken from the slots of a pool is held, and what is given up comes back: `n` slots are
held before and `n'` afterwards. Without slots nobody can hold one. -/
structure Lends (p : Pool) (n : Nat) (p' : Pool) (n' : Nat) : Prop where
  queues : p'.slots.isSome = p.slots.isSome
  count : (p.slots = none → n = 0) → p'.spare + n' = p.spare + n

namespace Lends
variable {p p' p'' : Pool} {n n' n'' : Nat}

theorem of_eq (h : p'.slots = p.slots) (n : Nat) : Lends p n p' n :=
  ⟨by rw [h], fun _ => by rw [spare, spare, h]⟩

theorem lower (p : Pool) (k n : Nat) : Lends p n (p.lower k) n :=
  ⟨rfl, fun _ => rfl⟩

/-- The slots that others hold stay where they are. -/
theorem frame (h : Lends p n p' n') (before after : Nat) :
    Lends p (before + n + after) p' (before + n' + after) where
  queues := h.queues
  count hn := by
    have hc := h.count fun hs => by have := hn hs; omega
    omega

theorem trans (h : Lends p n p' n') (h' : Lends p' n' p'' n'') : Lends p n p'' n'' where
  queues := h'.queues.trans h.queues
  count hn := by
    have hc := h.count hn
    have hc' : p''.spare + n'' = p'.spare + n' := by
      apply h'.count
      intro hs
      have hp : p.slots = none := by simpa [hs] using h.queues
      have hz : p.spare = 0 := by simp [spare, hp]
      have := hn hp
      omega
    omega

/-- A caller is told something about its slot. -/
theorem answer {slots slots' : Slots} (hs : p.slots = some slots)
    (h : slots'.spare + n = slots.spare) : Lends p 0 { p with slots := some slots' } n :=
  ⟨by simp [hs], fun _ => by simpa [spare, hs] using h⟩

/-- A slot that was held comes back. -/
theorem giveBack (p : Pool) (slot : Bool) :
    Lends p slot.toNat (if slot then p.giveBackSlot else p) 0 := by
  cases slot with
  | false => exact of_eq rfl 0
  | true =>
    constructor
    · simp [giveBackSlot]
    · intro hn
      cases hs : p.slots with
      | none => simpa using hn hs
      | some s => simp [spare, giveBackSlot, hs]

end Lends

/-! ## Functions of the pool -/

section Functions
variable (p : Pool) (now : Instant)

@[simp] theorem slots_lower (n : Nat) : (p.lower n).slots = p.slots := rfl

@[simp] theorem slots_put (c : Conn) (force : Bool) : (p.put c force now).1.slots = p.slots := by
  unfold put
  split
  · rfl
  · dsimp only
    split <;> rfl

@[simp] theorem slots_putAll (conns : List Conn) :
    (TopUp.putAll p now conns).1.slots = p.slots := by
  induction conns generalizing p with
  | nil => rfl
  | cons c rest ih => simp [TopUp.putAll, ih]

@[simp] theorem slots_finish (s : Sweep) : (s.finish p).1.slots = p.slots := by
  unfold Sweep.finish
  split <;> rfl

theorem slots_popIdle {p p' : Pool} {c : Conn} (h : p.popIdle = some (c, p')) :
    p'.slots = p.slots := by
  unfold popIdle at h
  split at h
  · cases h
  · cases h
    rfl

theorem slots_beginDial {p p' : Pool} (h : p.beginDial = .ok p') : p'.slots = p.slots := by
  unfold beginDial at h
  split at h
  · cases h
  · split at h
    · cases h
    · cases h
      rfl

theorem slots_sweep {p p' : Pool} {s : Sweep} (h : Sweep.begin p = some (p', s)) :
    p'.slots = p.slots := by
  unfold Sweep.begin at h
  split at h
  · cases h
  · cases h
    rfl

/-- Whoever waits is refused; no slot is lost by that. -/
theorem lends_close (n : Nat) : p.Lends n p.close.1 n := by
  unfold close
  split
  · exact .of_eq rfl n
  · constructor
    · simp [lower]
    · intro _
      cases hs : p.slots <;> simp [spare, lower, hs]

/-- The slot of a handle comes back when the handle is given up. -/
theorem lends_release (h : Handle) (force : Bool) :
    p.Lends h.slot.toNat (h.release p force now).pool 0 := by
  rw [Handle.release_eq]
  cases h.conn with
  | none => exact .giveBack p h.slot
  | some c =>
    have hput : p.Lends h.slot.toNat (p.put c force now).1 h.slot.toNat :=
      .of_eq (slots_put p now c force) _
    exact hput.trans (.giveBack _ h.slot)

end Functions

/-! ## Slots in the hands of operations -/

/-- The slots that a call holds. -/
def Acquire.slots : Acquire → Nat
  | .popping slot | .checking slot _ | .exhausted slot | .dialing slot _ => slot.toNat
  | .served h => h.slot.toNat
  | .arriving | .queued _ | .failed _ => 0

end Pool

/-- The slots that an exchange holds. -/
def Exchange.slots : Exchange → Nat
  | .acquiring a => a.slots
  | .writing _ h _ | .reading _ h _ => h.slot.toNat
  | .finished _ => 0

namespace Pool

/-- The slots that an operation holds. Sweeps and top-ups need none. -/
def Activity.slots : Activity → Nat
  | .get _ a => a.slots
  | .use h => h.slot.toNat
  | .exchange _ x => x.slots
  | .sweep _ | .topUp _ | .over => 0

theorem Acquire.lends_fail (p : Pool) (slot : Bool) (f : Fault) :
    p.Lends slot.toNat (fail p slot f).pool (fail p slot f).next.slots :=
  .giveBack p slot

theorem Acquire.lends {ticket : Ticket} {p : Pool} {now : Instant} {a : Acquire} {m : Step Acquire}
    {touch : Touch} (h : a.Moves ticket p now m touch) : p.Lends a.slots m.pool m.next.slots := by
  have outside {a : Acquire} (ha : a.isOutside = true) : a.slots = 0 := by
    cases a <;> first | rfl | cases ha
  cases h.does with
  | passes ha hs =>
    rw [outside ha]
    exact .of_eq rfl 0
  | enters ha hs hn =>
    rw [outside ha]
    exact .answer hs hn
  | waits t ha hs hn =>
    rw [outside ha]
    exact .answer hs hn
  | leaves ha hs hn hf =>
    rw [outside ha]
    exact .answer hs hn
  | takes slot hp => exact .of_eq (slots_popIdle hp) _
  | runsOut slot hi => exact .of_eq rfl _
  | keeps slot c counts => exact .of_eq rfl _
  | drops slot c counts => exact .lower p 1 _
  | refused slot hd => exact lends_fail p slot _
  | @stops slot p' hd why =>
    have hl : p.Lends slot.toNat p' slot.toNat := .of_eq (slots_beginDial hd) _
    exact (hl.trans (.lower p' 1 _)).trans (lends_fail _ slot _)
  | dials slot hd d => exact .of_eq (slots_beginDial hd) _
  | connects slot d c => exact .of_eq rfl _
  | fails slot hr => exact (Lends.lower p 1 _).trans (lends_fail _ slot _)

theorem PreDial.slots_step {p : Pool} {now : Instant} {d : PreDial} {m : Step PreDial}
    {touch : Touch} (h : d.Moves p now m touch) : m.pool.slots = p.slots := by
  cases h with
  | begin attempt =>
    unfold PreDial.begin
    split
    next hd => exact slots_beginDial hd
    next => rfl
  | @finish d r hr => cases r <;> rfl

theorem lends_handle {h : Handle} {p : Pool} {now : Instant} {m : Step Handle}
    (hm : h.Moves p now m) : p.Lends h.slot.toNat m.pool m.next.slot.toNat := by
  cases hm with
  | setDeadline deadline => exact .of_eq rfl _
  | setForceClose forceClose => exact .of_eq rfl _
  | io r =>
    cases r with
    | ok _ => exact .of_eq rfl _
    | error f => exact lends_release p now h true
  | discard => exact lends_release p now h true

end Pool

theorem Exchange.slots_of_handle {x : Exchange} {h : Handle} (hx : x.handle? = some h) :
    x.slots = h.slot.toNat := by
  obtain rfl | ⟨remote, w, rfl⟩ | ⟨remote, r, rfl⟩ := handle?_cases hx <;> rfl

/-- The slot of an exchange goes where its connection goes. -/
theorem Exchange.lends {e : Errand} {p : Pool} {now : Instant} {x : Exchange}
    {m : Pool.Step Exchange} {touch : Touch} (h : x.Moves e p now m touch) :
    p.Lends x.slots m.pool m.next.slots := by
  cases h.does with
  | acquires hx ha hm =>
    rw [hx, hm]
    exact Pool.Acquire.lends ha
  | refused f hx hm ht =>
    rw [hx, hm]
    exact .of_eq rfl 0
  | keeps hx hy hh hm ht =>
    rw [hm, Pool.Step.quiet_next, slots_of_handle hx, slots_of_handle hy, hh]
    exact .of_eq rfl _
  | gives force hx hforce hu hm ht =>
    rw [hm, slots_of_handle hx]
    exact Pool.lends_release p now _ force

namespace Pool

theorem Activity.lends {p : Pool} {now : Instant} {a : Activity} {m : Step Activity} {touch : Touch}
    (h : a.Moves p now m touch) : p.Lends a.slots m.pool m.next.slots := by
  cases h with
  | get h => exact Acquire.lends h
  | handOut ticket h => exact .of_eq rfl _
  | use hs => exact lends_handle hs
  | close h => exact lends_release p now h h.forceClose
  | exchange h => exact Exchange.lends h
  | judge hs hv => exact .of_eq rfl 0
  | @finishSweep s hs => exact .of_eq (slots_finish p s) 0
  | dial h => exact .of_eq (PreDial.slots_step h) 0
  | finishTopUp ht => exact .of_eq (slots_putAll p now _) 0

/-! ## States of a pool -/

namespace Life

/-- The slots that operations hold. -/
def held (s : Life) : Nat := (s.activities.map Activity.slots).sum

/-- An operation begins without a slot. -/
theorem held_begin (s : Life) (pool : Pool) {a : Activity} (ha : a.slots = 0) (tickets : Ticket) :
    held { s with pool, activities := a :: s.activities, tickets } = s.held := by
  simp [held, ha]

theorem lends_begin {s : Life} {p : Pool} {a : Activity} (hp : p.slots = s.pool.slots)
    (ha : a.slots = 0) (tickets : Ticket) :
    s.pool.Lends s.held p
      (held { s with pool := p, activities := a :: s.activities, tickets }) := by
  rw [held_begin s p ha tickets]
  exact .of_eq hp _

theorem Step.lends {s s' : Life} (h : Step s s') : s.pool.Lends s.held s'.pool s'.held := by
  cases h with
  | advance h =>
    obtain ⟨hs, hm, -⟩ := h
    have hl := (Activity.lends hm).frame
    simpa [held, hs, proceed, Nat.add_assoc] using hl _ _
  | tend h =>
    cases h with
    | sweep hb => exact lends_begin (slots_sweep hb) rfl s.tickets
    | topUp => exact lends_begin rfl rfl s.tickets
    | close => exact lends_close _ _
    | pass => exact .of_eq rfl _
  | @get ticket ht => exact lends_begin rfl rfl (ticket + 1)
  | @exchange e ht => exact lends_begin rfl rfl (e.ticket + 1)

end Life

end Pool

/-! ## Who needs a slot -/

/-- The slots that the owner of a handle needs: one as long as it has the connection. -/
def Handle.need (h : Handle) : Nat := h.conn.toList.length

/-- The slots that a call needs: one while it looks for a connection or dials. -/
def Pool.Acquire.need : Acquire → Nat
  | .popping _ | .checking _ _ | .exhausted _ | .dialing _ _ => 1
  | .served h => h.need
  | .arriving | .queued _ | .failed _ => 0

def Exchange.need : Exchange → Nat
  | .acquiring a => a.need
  | .writing _ h _ | .reading _ h _ => h.need
  | .finished _ => 0

theorem Exchange.need_of_handle {x : Exchange} {h : Handle} (hx : x.handle? = some h) :
    x.need = h.need := by
  obtain rfl | ⟨remote, w, rfl⟩ | ⟨remote, r, rfl⟩ := handle?_cases hx <;> rfl

namespace Pool

/-- The slots that an operation needs where callers queue. -/
def Activity.need : Activity → Nat
  | .get _ a => a.need
  | .use h => h.need
  | .exchange _ x => x.need
  | .sweep _ | .topUp _ | .over => 0

theorem need_release (h : Handle) (p : Pool) (force : Bool) (now : Instant) :
    (h.release p force now).next.slot.toNat = (h.release p force now).next.need := by
  rw [Handle.release_eq]
  cases h.conn <;> rfl

/-- A call is told that it has a slot before it does anything else. -/
theorem Acquire.need_step {ticket : Ticket} {p : Pool} {now : Instant} {a : Acquire}
    {m : Step Acquire} {touch : Touch} (h : a.Moves ticket p now m touch)
    (hp : p.slots.isSome = true) (ha : a.slots = a.need) : m.next.slots = m.next.need := by
  cases h.does with
  | passes ho hs => simp [hs] at hp
  | takes slot ht => exact ha
  | runsOut slot hi => exact ha
  | keeps slot c counts => exact ha
  | drops slot c counts => exact ha
  | dials slot hd d => exact ha
  | connects slot d c => exact ha
  | _ => rfl

theorem need_handle {h : Handle} {p : Pool} {now : Instant} {m : Step Handle} (hm : h.Moves p now m)
    (ha : h.slot.toNat = h.need) : m.next.slot.toNat = m.next.need := by
  cases hm with
  | setDeadline deadline => exact ha
  | setForceClose forceClose => exact ha
  | io r =>
    cases r with
    | ok _ => exact ha
    | error f => exact need_release h p true now
  | discard => exact need_release h p true now

theorem Activity.need_step {p : Pool} {now : Instant} {a : Activity} {m : Step Activity}
    {touch : Touch} (h : a.Moves p now m touch) (hp : p.slots.isSome = true)
    (ha : a.slots = a.need) : m.next.slots = m.next.need := by
  cases h with
  | get h => exact Acquire.need_step h hp ha
  | handOut ticket h => exact ha
  | use hs => exact need_handle hs ha
  | @exchange e x m touch h =>
    cases h.does with
    | acquires hx hacquire hm =>
      rw [hx] at ha
      rw [hm]
      exact Acquire.need_step hacquire hp ha
    | refused f hx hm ht =>
      rw [hm]
      rfl
    | @keeps y h h' hx hy hh hm ht =>
      have hneed : h.slot.toNat = h.need := by
        rw [← Exchange.slots_of_handle hx, ← Exchange.need_of_handle hx]
        exact ha
      rw [hm]
      show y.slots = y.need
      rw [Exchange.slots_of_handle hy, Exchange.need_of_handle hy, hh]
      exact hneed
    | gives force hx hforce hu hm ht =>
      rw [hm]
      rfl
  | _ => rfl

namespace Life

/-- The slots that nobody holds and those that operations hold are as many as the pool began with,
and where callers queue, an operation holds just the slots that it needs. -/
structure Lent (config : Config) (s : Life) : Prop where
  queues : s.pool.slots.isSome = config.queues
  count : s.pool.spare + s.held = if config.queues then config.maxActive else 0
  need : config.queues = true → ∀ a ∈ s.activities, a.slots = a.need

theorem lent_start (network address : String) (config : Config) (now : Instant) :
    (start network address config now).Lent config := by
  refine ⟨?_, ?_, fun _ => nofun⟩
  · cases hq : config.queues <;> simp [start, new, hq]
  · cases hq : config.queues <;> simp [start, new, hq, spare, held]

/-- Where there are no slots, nobody holds one. -/
theorem Lent.held_eq_zero {config : Config} {p : Pool} {n : Nat}
    (hq : p.slots.isSome = config.queues)
    (hc : p.spare + n = if config.queues then config.maxActive else 0) (hn : p.slots = none) :
    n = 0 := by
  have hnone : config.queues = false := by simpa [hn] using hq.symm
  rw [hnone] at hc
  exact Nat.eq_zero_of_add_eq_zero_left hc

/-- What is taken from the slots is held, so the number of all slots stays. -/
theorem Lent.lends {config : Config} {p p' : Pool} {n n' : Nat}
    (hq : p.slots.isSome = config.queues)
    (hc : p.spare + n = if config.queues then config.maxActive else 0) (h : p.Lends n p' n') :
    p'.slots.isSome = config.queues ∧
      p'.spare + n' = if config.queues then config.maxActive else 0 :=
  ⟨h.queues.trans hq, (h.count (held_eq_zero hq hc)).trans hc⟩

/-- In a step of a pool whose callers queue, an operation has the slots that it needs. -/
theorem Step.need {s s' : Life} (h : Step s s') (hp : s.pool.slots.isSome = true)
    (hs : ∀ a ∈ s.activities, a.slots = a.need) : ∀ a ∈ s'.activities, a.slots = a.need :=
  forall_step h hs (fun hm ha => Activity.need_step hm hp ha) (fun _ => rfl) (fun _ => rfl)
    (fun _ => rfl) fun _ => rfl

theorem Lent.step {config : Config} {s s' : Life} (hs : s.Lent config) (h : Step s s') :
    s'.Lent config := by
  obtain ⟨hqueues, hcount⟩ := Lent.lends hs.queues hs.count h.lends
  exact ⟨hqueues, hcount, fun hq => h.need (hs.queues.trans hq) (hs.need hq)⟩

theorem Reachable.lent {config : Config} {s : Life} (h : Reachable config s) : s.Lent config :=
  h.induct (fun network address now => lent_start network address config now)
    fun _ _ hs hstep => hs.step hstep

end Life

end Pool

end Courier

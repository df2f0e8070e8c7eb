import Courier.Proofs.Pool.Losses

/-!
# The queue for slots

Those who stand in the queue of a pool are the callers that wait and the callers that were given a
slot and have not resumed. Nobody waits while a slot is free. Whoever leaves the queue without a
slot takes none along, and whoever gives a slot back has put its connection back before, or closed
it, or never had one.
-/
namespace Courier

/-! ## The slots and their queue -/

/-- Who stands in the queue behind an answer. -/
def Admission.queue (t : Ticket) : Admission → List Ticket
  | .queued => [t]
  | .admitted | .refused => []

namespace Slots

/-- The callers in the queue wait or were given a slot, and nobody waits while a slot is free. -/
structure Serves (s : Slots) (queue : List Ticket) : Prop where
  perm : queue.Perm (s.waiting ++ s.granted)
  busy : s.waiting ≠ [] → s.free = 0

namespace Serves
variable {s : Slots} {t : Ticket} {queue : List Ticket}

theorem giveBack (h : s.Serves queue) : s.giveBack.Serves queue := by
  unfold Slots.giveBack
  split
  next hw =>
    refine ⟨?_, fun hn => absurd hw hn⟩
    exact h.perm
  next t rest hw =>
    constructor
    · have hp := h.perm
      rw [hw] at hp
      rw [← List.append_assoc]
      exact hp.trans (List.perm_append_singleton t (rest ++ s.granted)).symm
    · intro _
      exact h.busy (by simp [hw])

theorem erase_granted (h : s.Serves (t :: queue)) (ht : t ∈ s.granted) :
    Serves { s with granted := s.granted.erase t } queue := by
  refine ⟨?_, h.busy⟩
  have hp : (t :: queue).Perm (t :: (s.waiting ++ s.granted.erase t)) :=
    h.perm.trans (((List.perm_cons_erase ht).append_left s.waiting).trans List.perm_middle)
  exact hp.cons_inv

theorem leave (h : s.Serves (t :: queue)) : (s.leave t).Serves queue := by
  unfold Slots.leave
  split
  next ht => exact (h.erase_granted ht).giveBack
  next ht =>
    have hw : t ∈ s.waiting := by
      have hmem := h.perm.subset List.mem_cons_self
      exact (List.mem_append.1 hmem).resolve_right ht
    constructor
    · have hp : (t :: queue).Perm (t :: (s.waiting.erase t ++ s.granted)) :=
        h.perm.trans ((List.perm_cons_erase hw).append_right s.granted)
      exact hp.cons_inv
    · intro _
      exact h.busy (List.ne_nil_of_mem hw)

theorem ask (h : s.Serves queue) (t : Ticket) :
    (s.ask t).2.Serves ((s.ask t).1.queue t ++ queue) := by
  unfold Slots.ask
  split
  · exact h
  · split
    next hf =>
      refine ⟨h.perm, fun hw => ?_⟩
      have := h.busy hw
      omega
    next hf =>
      constructor
      · rw [List.append_assoc]
        exact (h.perm.cons t).trans List.perm_middle.symm
      · intro _
        exact Nat.eq_zero_of_not_pos hf

theorem resume (h : s.Serves (t :: queue)) :
    (s.resume t).2.Serves ((s.resume t).1.queue t ++ queue) := by
  unfold Slots.resume
  split
  · exact h.leave
  · split
    next ht => exact h.erase_granted ht
    next ht => exact h

end Serves

end Slots

namespace Pool

/-- The queue of a pool is served; without slots there is none. -/
def Serves (p : Pool) (queue : List Ticket) : Prop :=
  match p.slots with
  | none => queue = []
  | some slots => slots.Serves queue

namespace Serves
variable {p p' : Pool} {queue queue' : List Ticket}

theorem of_eq (h : p.Serves queue) (hs : p'.slots = p.slots) : p'.Serves queue := by
  unfold Serves at h ⊢
  rwa [hs]

theorem perm (h : p.Serves queue) (hq : queue'.Perm queue) : p.Serves queue' := by
  unfold Serves at h ⊢
  split at h
  · rw [h] at hq
    exact hq.eq_nil
  · exact ⟨hq.trans h.perm, h.busy⟩

/-- Something happens to the slots, if there are any. -/
theorem map (h : p.Serves queue) (f : Slots → Slots)
    (hf : ∀ {s : Slots}, s.Serves queue → (f s).Serves queue') (hn : queue = [] → queue' = []) :
    Serves { p with slots := p.slots.map f } queue' := by
  unfold Serves at h ⊢
  cases hp : p.slots with
  | none =>
    rw [hp] at h
    exact hn h
  | some slots =>
    rw [hp] at h
    exact hf h

theorem giveBack (h : p.Serves queue) (slot : Bool) :
    (if slot then p.giveBackSlot else p).Serves queue := by
  cases slot with
  | false => exact h
  | true => exact h.map _ Slots.Serves.giveBack id

theorem release (h : p.Serves queue) (hd : Handle) (force : Bool) (now : Instant) :
    (hd.release p force now).pool.Serves queue := by
  rw [Handle.release_eq]
  cases hd.conn with
  | none => exact h.giveBack hd.slot
  | some c => exact (h.of_eq (slots_put p now c force)).giveBack hd.slot

end Serves

/-! ## Operations in the queue -/

section Steps
variable {p : Pool} {now : Instant} {others : List Ticket}

theorem Acquire.serves_arrive (hs : p.Serves others) (ticket : Ticket) (done : Option Done) :
    (arrive p ticket done).pool.Serves ((arrive p ticket done).next.queue ++ others) := by
  unfold arrive
  split
  next => exact hs
  next slots hp =>
    split
    next why => exact hs
    next =>
      have hslots : slots.Serves others := by
        unfold Serves at hs
        rwa [hp] at hs
      have ha := hslots.ask ticket
      split
      next he =>
        rw [he] at ha
        exact ha
      next he =>
        rw [he] at ha
        exact ha
      next he =>
        rw [he] at ha
        exact ha

theorem Acquire.serves_resume {ticket : Ticket} (hs : p.Serves (ticket :: others))
    (done : Option Done) :
    (resume p ticket done).pool.Serves ((resume p ticket done).next.queue ++ others) := by
  unfold resume
  split
  next hp =>
    unfold Serves at hs
    rw [hp] at hs
    cases hs
  next slots hp =>
    have hslots : slots.Serves (ticket :: others) := by
      unfold Serves at hs
      rwa [hp] at hs
    have hr := hslots.resume
    split
    next he =>
      rw [he] at hr
      exact hr
    next he =>
      rw [he] at hr
      exact hr
    next he =>
      rw [he] at hr
      split
      · exact Slots.Serves.leave hr
      · exact hr

theorem Acquire.serves {ticket : Ticket} {a : Acquire} {m : Step Acquire} {touch : Touch}
    (h : a.Moves ticket p now m touch) (hs : p.Serves (a.queue ++ others)) :
    m.pool.Serves (m.next.queue ++ others) := by
  cases ho : a.isOutside with
  | true =>
    cases h with
    | arrive done => exact serves_arrive hs ticket done
    | resume t done => exact serves_resume hs done
    | _ => cases ho
  | false =>
    cases h.does with
    | passes ha => simp [ho] at ha
    | enters ha => simp [ho] at ha
    | waits t ha => simp [ho] at ha
    | leaves ha => simp [ho] at ha
    | takes slot hp => exact hs.of_eq (slots_popIdle hp)
    | runsOut slot hi => exact hs
    | keeps slot c counts => exact hs
    | drops slot c counts => exact hs.of_eq (slots_lower p 1)
    | refused slot hd => exact hs.giveBack slot
    | @stops slot p' hd why =>
      exact (hs.of_eq ((slots_lower p' 1).trans (slots_beginDial hd))).giveBack slot
    | dials slot hd d => exact hs.of_eq (slots_beginDial hd)
    | connects slot d c => exact hs
    | fails slot hr => exact (hs.of_eq (slots_lower p 1)).giveBack slot

/-- A step of an operation keeps the queue in order, whoever else stands in it. -/
theorem Activity.serves {a : Activity} {m : Step Activity} {touch : Touch}
    (h : a.Moves p now m touch) (hs : p.Serves (a.queue ++ others)) :
    m.pool.Serves (m.next.queue ++ others) := by
  cases h.does with
  | acquires hw h =>
    rw [(hw.owns _).queue] at hs
    rw [Step.map_next, (hw.owns _).queue]
    exact Acquire.serves h hs
  | rests counts ha hb ht =>
    rw [ha.queue] at hs
    rw [hb.queue]
    exact hs
  | keeps ha hb hc hslot ht =>
    rw [(owns_of_handle ha).queue] at hs
    rw [Step.quiet_next, (owns_of_handle hb).queue]
    exact hs
  | gives force ha hb ht =>
    rw [(owns_of_handle ha).queue] at hs
    rw [Step.map_next, hb.queue]
    exact hs.release _ force now
  | judges hp hv => exact hs
  | @sweeps s hp => exact hs.of_eq (slots_finish p s)
  | dials h => exact hs.of_eq (PreDial.slots_step h)
  | tops ht => exact hs.of_eq (slots_putAll p now _)

theorem Acquire.serves_abandon {a : Acquire} (ha : a.isSuspended = true)
    (hs : p.Serves (a.queue ++ others)) : (a.abandon p).Serves others := by
  cases a with
  | arriving => exact hs
  | queued ticket => exact hs.map _ Slots.Serves.leave nofun
  | dialing slot d => exact hs.giveBack slot
  | _ => cases ha

theorem Activity.Abandons.serves {a : Activity} {m : Step Activity} (h : a.Abandons p now m)
    (hs : p.Serves (a.queue ++ others)) : m.pool.Serves others := by
  cases h with
  | drop h =>
    cases h.lets with
    | call hw ha =>
      rw [(hw.owns _).queue] at hs
      exact Acquire.serves_abandon ha hs
    | handle ha =>
      rw [(owns_of_handle ha).queue] at hs
      exact hs.release _ _ now
  | topUp ht => exact hs

end Steps

namespace Life
variable {config : Config} {lost : Nat} {s s' : Life}

/-- All who stand in the queue. -/
def queue (s : Life) : List Ticket := s.activities.flatMap Activity.queue

/-- One operation among others in the queue. -/
theorem queue_among {before after : List Activity} {a : Activity}
    (h : s.activities = before ++ a :: after) :
    (a.queue ++ (before.flatMap Activity.queue ++ after.flatMap Activity.queue)).Perm s.queue := by
  rw [queue, h, List.flatMap_append, List.flatMap_cons]
  exact List.perm_append_comm_assoc _ _ _

theorem serves_start (network address : String) (config : Config) (now : Instant) :
    (start network address config now).pool.Serves (start network address config now).queue := by
  show (Pool.new network address config).Serves []
  unfold Serves Pool.new
  cases config.queues with
  | false => rfl
  | true => exact ⟨.refl _, fun h => absurd rfl h⟩

theorem serves_tend (h : s.Tend s') (hs : s.pool.Serves s.queue) : s'.pool.Serves s'.queue := by
  cases h with
  | sweep hb => exact hs.of_eq (slots_sweep hb)
  | topUp => exact hs
  | close =>
    unfold Pool.close
    split
    · exact hs
    · exact (hs.map Slots.close (fun h => ⟨h.perm, h.busy⟩) id).of_eq rfl
  | pass => exact hs

theorem Event.serves (h : s.Event lost s') (hs : s.pool.Serves s.queue) :
    s'.pool.Serves s'.queue := by
  cases h with
  | step h =>
    cases h with
    | advance h =>
      obtain ⟨hact, hm, -⟩ := h
      exact ((Activity.serves hm) (hs.perm (queue_among hact))).perm (queue_among rfl).symm
    | tend h => exact serves_tend h hs
    | get => exact hs
    | exchange => exact hs
  | abandon hact hm =>
    have h := hm.serves (hs.perm (queue_among hact))
    refine h.perm (.trans (queue_among rfl).symm ?_)
    rw [hm.next_eq]
    exact .refl _

theorem Leaky.serves (h : Leaky config lost s) : s.pool.Serves s.queue :=
  h.induct (motive := fun _ s => s.pool.Serves s.queue)
    (fun network address now => serves_start network address config now)
    fun _ _ _ _ hs he => he.serves hs

end Life

end Pool

end Courier

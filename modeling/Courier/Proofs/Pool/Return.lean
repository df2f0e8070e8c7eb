import Courier.Proofs.Pool.Conservation

/-!
# Connections that come back

The handles of calls and exchanges are marked as the configuration of their pool says, whoever else
uses the pool. A connection that comes back is closed, for good, or it becomes the first idle one.
-/
namespace Courier

namespace Pool

/-! ## The mark of a handle -/

def Acquire.Marked (force : Bool) : Acquire → Prop
  | .served h => h.forceClose = force
  | .arriving | .queued _ | .popping _ | .checking _ _ | .exhausted _ | .dialing _ _ | .failed _ =>
    True

/-- The handles of calls that want a connection and of exchanges are marked as the pool says. -/
def Activity.Marked (force : Bool) : Activity → Prop
  | .get _ a | .exchange _ (.acquiring a) => a.Marked force
  | .exchange _ (.writing _ h _) | .exchange _ (.reading _ h _) => h.forceClose = force
  | .use _ | .exchange _ (.finished _) | .sweep _ | .topUp _ | .over => True

theorem Acquire.marked_step {ticket : Ticket} {p : Pool} {now : Instant} {a : Acquire}
    {m : Step Acquire} {touch : Touch} (h : a.Moves ticket p now m touch) :
    m.next.Marked p.config.forceClose := by
  cases h.does with
  | keeps slot c counts => rfl
  | connects slot d c => rfl
  | _ => trivial

/-- An exchange is marked as its handle is. -/
theorem Activity.marked_of_handle {x : Exchange} {h : Handle} (hx : x.handle? = some h) (e : Errand)
    (force : Bool) : (Activity.exchange e x).Marked force ↔ h.forceClose = force := by
  obtain rfl | ⟨remote, w, rfl⟩ | ⟨remote, r, rfl⟩ := Exchange.handle?_cases hx <;> rfl

theorem Activity.marked_step {p : Pool} {now : Instant} {a : Activity} {m : Step Activity}
    {touch : Touch} (h : a.Moves p now m touch) (ha : a.Marked p.config.forceClose) :
    m.next.Marked p.config.forceClose := by
  cases h with
  | get h => exact Acquire.marked_step h
  | @exchange e x m touch h =>
    cases h.does with
    | acquires hx hacquire hm =>
      rw [hm]
      exact Acquire.marked_step hacquire
    | refused f hx hm ht =>
      rw [hm]
      trivial
    | keeps hx hy hh hm ht =>
      rw [marked_of_handle hx] at ha
      rw [hm, Step.map_next, Step.quiet_next, marked_of_handle hy, hh]
      exact ha
    | gives force hx hforce hu hm ht =>
      rw [hm]
      trivial
  | _ => trivial

theorem Life.Step.marked {s s' : Life} (h : Step s s')
    (hs : ∀ a ∈ s.activities, a.Marked s.pool.config.forceClose) :
    ∀ a ∈ s'.activities, a.Marked s.pool.config.forceClose := by
  exact forall_step h hs Activity.marked_step (fun _ => trivial) (fun _ => trivial)
    (fun _ => trivial) fun _ => trivial

theorem Life.Reachable.marked {config : Config} {s : Life} (h : Reachable config s) :
    ∀ a ∈ s.activities, a.Marked config.forceClose := by
  have hall : s.pool.config = config ∧ ∀ a ∈ s.activities, a.Marked config.forceClose := by
    refine h.induct
      (motive := fun s => s.pool.config = config ∧ ∀ a ∈ s.activities, a.Marked config.forceClose)
      (fun network address now => ⟨rfl, nofun⟩) fun s s' hs hstep => ?_
    obtain ⟨rfl, hall⟩ := hs
    obtain ⟨new, gone, hr⟩ := hstep.recorded
    exact ⟨hr.balanced.config, hstep.marked hall⟩
  exact hall.2

/-! ## Connections that come back -/

/-- A connection that comes back is closed if it is forced to, if the pool is closed, or if the pool
keeps no idle connections. -/
theorem mem_closes_put {p : Pool} {force : Bool} (hb : p.idle.length ≤ p.config.maxIdle)
    (h : p.closed = true ∨ force = true ∨ p.config.maxIdle = 0) (c : Conn) (now : Instant) :
    c.id ∈ numbers (p.put c force now).2 := by
  unfold put
  by_cases hc : p.closed = true ∨ force = true
  · rw [if_pos hc]
    exact List.mem_cons_self
  · have hz : p.config.maxIdle = 0 := by tauto
    have hi : p.idle = [] := List.eq_nil_of_length_eq_zero (by omega)
    rw [if_neg hc]
    simp [hz, hi]

/-- Otherwise it becomes the first idle one. -/
theorem head_put {p : Pool} (hc : p.closed = false) (hm : p.config.maxIdle ≠ 0) (c : Conn)
    (now : Instant) : (p.put c false now).1.idle.head? = some { c with returned := now } := by
  unfold put
  rw [if_neg (by simp [hc])]
  dsimp only
  split
  next hl =>
    obtain ⟨d, rest, hi⟩ : ∃ d rest, p.idle = d :: rest := by
      cases hi : p.idle with
      | nil =>
        rw [hi] at hl
        simp at hl
        exact absurd hl hm
      | cons d rest => exact ⟨d, rest, rfl⟩
    simp [lower, hi]
  next => rfl

/-- What becomes of the connection of a handle that is given up: it is lost, if what is closed is
lost and what is the first idle one is not, or it is the first idle one. -/
theorem fate_release {h : Handle} {c : Conn} (hc : h.conn = some c) {p : Pool}
    (hb : p.idle.length ≤ p.config.maxIdle) {force : Bool} {now : Instant} {lost : Prop}
    (hclosed : c.id ∈ numbers (h.release p force now).closes → lost)
    (hkept : (h.release p force now).pool.idle.head? = some { c with returned := now } → ¬ lost) :
    (lost ↔ p.closed = true ∨ force = true ∨ p.config.maxIdle = 0) ∧
    (¬ lost → (h.release p force now).pool.idle.head? = some { c with returned := now }) := by
  rw [closes_release hc] at hclosed
  rw [idle_release hc] at hkept ⊢
  by_cases hfate : p.closed = true ∨ force = true ∨ p.config.maxIdle = 0
  · have hlost : lost := hclosed (mem_closes_put hb hfate c now)
    exact ⟨iff_of_true hlost hfate, fun hn => absurd hlost hn⟩
  · have hhead : (p.put c force now).1.idle.head? = some { c with returned := now } := by
      simp only [not_or, Bool.not_eq_true] at hfate
      obtain ⟨hopen, rfl, hkeeps⟩ := hfate
      exact head_put hopen hkeeps c now
    exact ⟨iff_of_false (hkept hhead) hfate, fun _ => hhead⟩

namespace Life

/-- The connection is closed, and no operation ever has it again. -/
def Retired (s : Life) (id : Nat) : Prop :=
  id ∈ s.closed ∧ ∀ s', s.Leads s' → id ∉ located s'.places

theorem Conserved.retired {s : Life} (hs : s.Conserved) {id : Nat} (hid : id ∈ s.closed) :
    s.Retired id :=
  ⟨hid, fun _ h => (hs.leads h).not_located (closed_subset h hid)⟩

theorem not_retired {s : Life} {c : Conn} (h : s.pool.idle.head? = some c) : ¬ s.Retired c.id := by
  intro hr
  refine hr.2 s .refl ?_
  rw [located_places]
  exact List.mem_append_left _ (List.mem_map_of_mem (List.mem_of_head? h))

end Life

end Pool

end Courier

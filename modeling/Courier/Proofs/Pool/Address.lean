import Courier.Proofs.Pool.Losses

/-!
# What a pool is for

A pool is created for a network and an address, and whatever happens to it, it is for these. Its
dials are dials to them: on a network that there is not they all fail, wherever they lead, before
anything is reached.
-/
namespace Courier.Pool

/-- The network and the address of the pool. -/
def pair (p : Pool) : String × String := (p.network, p.address)

section Pair
variable {p p' : Pool} {now : Instant}

@[simp] theorem pair_giveBack (p : Pool) (slot : Bool) :
    (if slot then p.giveBackSlot else p).pair = p.pair := by
  cases slot <;> rfl

theorem pair_put (p : Pool) (c : Conn) (force : Bool) (now : Instant) :
    (p.put c force now).1.pair = p.pair := by
  unfold put
  dsimp only
  split
  · rfl
  · split <;> rfl

theorem pair_putAll (p : Pool) (now : Instant) (conns : List Conn) :
    (TopUp.putAll p now conns).1.pair = p.pair := by
  induction conns generalizing p with
  | nil => rfl
  | cons c rest ih => exact (ih _).trans (pair_put p c false now)

theorem pair_release (h : Handle) (p : Pool) (force : Bool) (now : Instant) :
    (h.release p force now).pool.pair = p.pair := by
  rw [Handle.release_eq]
  cases h.conn with
  | none => exact pair_giveBack p h.slot
  | some c => exact (pair_giveBack _ h.slot).trans (pair_put p c force now)

theorem pair_popIdle {c : Conn} (h : p.popIdle = some (c, p')) : p'.pair = p.pair := by
  unfold popIdle at h
  split at h <;> cases h
  rfl

theorem pair_beginDial (h : p.beginDial = .ok p') : p'.pair = p.pair := by
  unfold beginDial at h
  split at h
  · cases h
  · split at h <;> cases h
    rfl

theorem pair_sweep {s : Sweep} (h : Sweep.begin p = some (p', s)) : p'.pair = p.pair := by
  unfold Sweep.begin at h
  split at h <;> cases h
  rfl

theorem pair_finish (s : Sweep) (p : Pool) : (s.finish p).1.pair = p.pair := by
  unfold Sweep.finish
  split <;> rfl

theorem pair_close (p : Pool) : p.close.1.pair = p.pair := by
  unfold close
  split <;> rfl

theorem Acquire.pair_moves {ticket : Ticket} {a : Acquire} {m : Step Acquire} {touch : Touch}
    (h : a.Moves ticket p now m touch) : m.pool.pair = p.pair := by
  cases h.does with
  | takes slot hp => exact pair_popIdle hp
  | refused slot hd => exact pair_giveBack p slot
  | @stops slot p' hd why =>
    have hpair := pair_beginDial hd
    exact (pair_giveBack (p'.lower 1) slot).trans hpair
  | dials slot hd d => exact pair_beginDial hd
  | fails slot hr => exact pair_giveBack (p.lower 1) slot
  | _ => rfl

theorem PreDial.pair_moves {d : PreDial} {m : Step PreDial} {touch : Touch}
    (h : d.Moves p now m touch) : m.pool.pair = p.pair := by
  cases h with
  | begin attempt =>
    unfold PreDial.begin
    split
    next hd => exact pair_beginDial hd
    next => rfl
  | @finish d r hr => cases r <;> rfl

theorem Activity.pair_moves {a : Activity} {m : Step Activity} {touch : Touch}
    (h : a.Moves p now m touch) : m.pool.pair = p.pair := by
  cases h.does with
  | acquires hw h => exact Acquire.pair_moves h
  | gives force ha hb ht => exact pair_release _ p force now
  | @sweeps s hs => exact pair_finish s p
  | dials h => exact PreDial.pair_moves h
  | tops ht => exact pair_putAll p now _
  | _ => rfl

theorem Activity.Abandons.pair {a : Activity} {m : Step Activity} (h : a.Abandons p now m) :
    m.pool.pair = p.pair := by
  cases h with
  | drop h =>
    cases h.lets with
    | @call ticket wants a hw ha =>
      cases a with
      | dialing slot d => exact pair_giveBack p slot
      | _ => rfl
    | handle ha => exact pair_release _ p _ now
  | topUp ht => rfl

/-- A pool is for one network and one address as long as it is there. -/
theorem Life.Event.pair {s s' : Life} {lost : Nat} (h : s.Event lost s') :
    s'.pool.pair = s.pool.pair := by
  cases h with
  | step h =>
    cases h with
    | advance h =>
      obtain ⟨-, hm, -⟩ := h
      exact Activity.pair_moves hm
    | tend h =>
      cases h with
      | sweep hb => exact pair_sweep hb
      | topUp => rfl
      | close => exact pair_close _
      | pass => rfl
    | get => rfl
    | exchange => rfl
  | abandon hs hm => exact hm.pair

end Pair

/-! ## Networks that there are not -/

/-- There is no way to connect on such a network. -/
def IsUnsupported (network : String) : Prop := Dial.families network = none ∧ network ≠ "unix"

instance (network : String) : Decidable (IsUnsupported network) :=
  inferInstanceAs (Decidable (_ ∧ _))

/-- Every dial of a pool on such a network ends at once, and in the same way. -/
theorem poll_of_isUnsupported {α : Type} {p : Pool} (h : IsUnsupported p.network) (attempt : Nat)
    (remaining : Option Span) (begun now : Instant) (reach : Reach α) (done : Option Done) :
    (Dial.start p attempt remaining begun).poll
      ((Dial.start p attempt remaining begun).connect reach) done now =
      some (.error (.dial ("unsupported network " ++ Text.Quoted.quote p.network))) := by
  have hconnect : (Dial.start p attempt remaining begun).connect reach =
      some (.error (.dial ("unsupported network " ++ Text.Quoted.quote p.network))) := by
    simp only [Dial.start, Dial.connect, h.1]
    exact if_neg h.2
  rw [hconnect, Dial.poll]

end Courier.Pool

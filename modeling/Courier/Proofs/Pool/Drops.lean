import Courier.Proofs.Pool.Return

/-!
# Operations that are dropped

A caller can drop what it waits for before it is over: a call in the queue or at its dial, an
exchange at any point where it waits, a handle. What is dropped lets go of what it holds and takes
no other step. A dial that is dropped stays counted, so the count of open connections is not exact
any more; but no connection is lost or doubled, and none that was closed comes back.
-/
namespace Courier

namespace Pool

/-! ## What is dropped -/

/-- A call that waits: it has not begun, or is in the queue, or dials. -/
def Acquire.isSuspended : Acquire → Bool
  | .arriving | .queued _ | .dialing _ _ => true
  | .popping _ | .checking _ _ | .exhausted _ | .served _ | .failed _ => false

end Pool

/-- An exchange that waits: for its connection, or while it writes or reads. -/
def Exchange.isSuspended : Exchange → Bool
  | .acquiring a => a.isSuspended
  | .writing _ _ _ | .reading _ _ _ => true
  | .finished _ => false

namespace Pool

/-- An operation is dropped. A handle may be dropped after a write or a read through it was dropped,
which leaves it as it is. -/
inductive Activity.Drops (p : Pool) (now : Instant) : Activity → Step Activity → Prop
  | get (ticket : Ticket) {a : Acquire} (ha : a.isSuspended = true) :
      Drops p now (.get ticket a) (.quiet (a.abandon p) .over)
  | exchange (e : Errand) {x : Exchange} (hx : x.isSuspended = true) :
      Drops p now (.exchange e x) ((x.abandon p now).map fun _ => .over)
  | use (h : Handle) : Drops p now (.use h) ((h.close p now).map fun _ => .over)

/-! ## Connections that come and go -/

/-- Connections that were opened meanwhile have come into the idle list or into the hands of an
operation, and those that were closed have gone from there. Of the count nothing is said. -/
structure Moved (p : Pool) (conns opened : List Nat) (p' : Pool) (conns' closes : List Nat) :
    Prop where
  perm : (numbers p'.idle ++ conns' ++ closes).Perm (numbers p.idle ++ conns ++ opened)
  config : p'.config = p.config
  bounded : p.idle.length ≤ p.config.maxIdle → p'.idle.length ≤ p.config.maxIdle

theorem Balanced.moved {p p' : Pool} {a a' : Stock} {opened closes : List Nat}
    (h : Balanced p a opened p' a' closes) : Moved p a.conns opened p' a'.conns closes :=
  ⟨h.perm, h.config, h.bounded⟩

/-- The other connections stay where they are. -/
theorem Moved.frame {p p' : Pool} {conns conns' opened closes : List Nat}
    (h : Moved p conns opened p' conns' closes) (before after : List Nat) :
    Moved p (before ++ conns ++ after) opened p' (before ++ conns' ++ after) closes where
  perm := by
    rw [List.perm_iff_count]
    intro id
    have hc := h.perm.count_eq id
    simp only [List.count_append] at hc ⊢
    omega
  config := h.config
  bounded := h.bounded

theorem moved_abandon {a : Acquire} (ha : a.isSuspended = true) (p : Pool) :
    Moved p a.stock.conns [] (a.abandon p) [] [] := by
  cases a with
  | arriving => exact ⟨.refl _, rfl, id⟩
  | queued ticket => exact ⟨.refl _, rfl, id⟩
  | dialing slot d => cases slot <;> exact ⟨.refl _, rfl, id⟩
  | _ => cases ha

theorem Activity.moved_drop {p : Pool} {now : Instant} {a : Activity} {m : Step Activity}
    (h : a.Drops p now m) :
    Moved p a.stock.conns [] m.pool m.next.stock.conns (numbers m.closes) := by
  cases h with
  | get ticket ha => exact moved_abandon ha p
  | @exchange e x hx =>
    cases x with
    | acquiring a => exact moved_abandon hx p
    | writing remote h w =>
      rw [stock_writing]
      exact (balanced_release h p h.forceClose now).moved
    | reading remote h r =>
      rw [stock_reading]
      exact (balanced_release h p h.forceClose now).moved
    | finished result => cases hx
  | use h =>
    rw [stock_use]
    exact (balanced_release h p h.forceClose now).moved

/-! ## Lives with drops -/

namespace Life

/-- One operation among others is dropped. -/
inductive Drop : Life → Life → Prop
  | mk {s : Life} {before after : List Activity} {a : Activity} {m : Pool.Step Activity}
      (hs : s.activities = before ++ a :: after) (hm : a.Drops s.pool s.now m) :
      Drop s (s.proceed before m .nothing after)

/-- What can happen to a pool whose callers may drop their operations. -/
def Happens (s s' : Life) : Prop := Step s s' ∨ s.Drop s'

/-- Any number of steps and drops. -/
abbrev Drifts : Life → Life → Prop := Relation.ReflTransGen Happens

/-- The states that a pool with some configuration can come to if operations are dropped. -/
def Attainable (config : Config) (s : Life) : Prop :=
  ∃ network address now, (start network address config now).Drifts s

theorem Reachable.attainable {config : Config} {s : Life} (h : Reachable config s) :
    Attainable config s := by
  obtain ⟨network, address, now, h⟩ := h
  exact ⟨network, address, now, Relation.ReflTransGen.mono (fun _ _ hs => .inl hs) _ _ h⟩

/-- The connections of a step or a drop: what is opened was not there before, and what is opened and
closed is written down. -/
structure Shifted (s s' : Life) (new gone : List Nat) : Prop where
  moved : Moved s.pool s.stock.conns new s'.pool s'.stock.conns gone
  opened : s'.opened = s.opened ++ new
  closed : s'.closed = s.closed ++ gone
  nodup : new.Nodup
  fresh : ∀ id ∈ new, id ∉ s.opened

theorem Recorded.shifted {s s' : Life} {new gone : List Nat} (h : s.Recorded s' new gone) :
    s.Shifted s' new gone :=
  ⟨h.balanced.moved, h.opened, h.closed, h.nodup, h.fresh⟩

theorem Drop.shifted {s s' : Life} (h : s.Drop s') : ∃ gone, s.Shifted s' [] gone := by
  obtain ⟨hs, hm⟩ := h
  refine ⟨_, ?_, rfl, rfl, .nil, List.forall_mem_nil _⟩
  rw [stock_among hs, stock_among rfl]
  exact (Activity.moved_drop hm).frame _ _

theorem Happens.shifted {s s' : Life} (h : s.Happens s') : ∃ new gone, s.Shifted s' new gone := by
  obtain h | h := h
  · obtain ⟨new, gone, hr⟩ := h.recorded
    exact ⟨new, gone, hr.shifted⟩
  · exact ⟨[], h.shifted⟩

/-- What holds in every state whatever is dropped: everything that was opened is somewhere or was
closed, nothing is in two places, and handles are marked as the pool says. -/
structure Settled (config : Config) (s : Life) : Prop where
  perm : (located s.places ++ s.closed).Perm s.opened
  nodup : s.opened.Nodup
  configured : s.pool.config = config
  bounded : s.pool.idle.length ≤ config.maxIdle
  marked : ∀ a ∈ s.activities, a.Marked config.forceClose

theorem settled_start (network address : String) (config : Config) (now : Instant) :
    (start network address config now).Settled config :=
  ⟨.refl _, .nil, rfl, Nat.zero_le _, nofun⟩

theorem Drop.marked {force : Bool} {s s' : Life} (h : s.Drop s')
    (hs : ∀ a ∈ s.activities, a.Marked force) : ∀ a ∈ s'.activities, a.Marked force := by
  obtain @⟨before, after, a, m, hact, hm⟩ := h
  rw [hact] at hs
  have hnext : m.next = .over := by cases hm <;> rfl
  intro b hb
  obtain hb | hb := List.mem_append.1 hb
  · exact hs b (List.mem_append_left _ hb)
  · obtain rfl | hb := List.mem_cons.1 hb
    · rw [hnext]
      trivial
    · exact hs b (List.mem_append_right _ (List.mem_cons_of_mem _ hb))

theorem Settled.step {config : Config} {s s' : Life} (hs : s.Settled config) (h : s.Happens s') :
    s'.Settled config := by
  obtain ⟨new, gone, hshift⟩ := h.shifted
  have hbounded := hshift.moved.bounded
  rw [hs.configured] at hbounded
  refine ⟨perm_opened hs.perm hshift.moved.perm hshift.opened hshift.closed, ?_,
    hshift.moved.config.trans hs.configured, hbounded hs.bounded, ?_⟩
  · rw [hshift.opened]
    exact nodup_opened hs.nodup hshift.nodup hshift.fresh
  · have hmarked := hs.marked
    rw [← hs.configured] at hmarked ⊢
    obtain h | h := h
    · exact h.marked hmarked
    · exact h.marked hmarked

theorem Settled.drifts {config : Config} {s s' : Life} (hs : s.Settled config) (h : s.Drifts s') :
    s'.Settled config := by
  induction h with
  | refl => exact hs
  | tail _ h ih => exact ih.step h

theorem Attainable.settled {config : Config} {s : Life} (h : Attainable config s) :
    s.Settled config := by
  obtain ⟨network, address, now, h⟩ := h
  exact (settled_start network address config now).drifts h

theorem Drifts.closed_subset {s s' : Life} (h : s.Drifts s') : s.closed ⊆ s'.closed := by
  induction h with
  | refl => exact List.Subset.refl _
  | tail _ h ih =>
    obtain ⟨new, gone, hshift⟩ := h.shifted
    rw [hshift.closed]
    exact fun id hid => List.mem_append_left _ (ih hid)

/-- The connection is closed, and whatever is dropped, no operation ever has it again. -/
def Gone (s : Life) (id : Nat) : Prop := id ∈ s.closed ∧ ∀ s', s.Drifts s' → id ∉ located s'.places

theorem Settled.gone {config : Config} {s : Life} (hs : s.Settled config) {id : Nat}
    (hid : id ∈ s.closed) : s.Gone id := by
  refine ⟨hid, fun s' h => ?_⟩
  have hs' := hs.drifts h
  exact not_located_of_perm hs'.perm hs'.nodup (Drifts.closed_subset h hid)

theorem not_gone {s : Life} {c : Conn} (h : s.pool.idle.head? = some c) : ¬ s.Gone c.id := by
  intro hg
  refine hg.2 s .refl ?_
  rw [located_places]
  exact List.mem_append_left _ (List.mem_map_of_mem (List.mem_of_head? h))

end Life

end Pool

end Courier

import Mathlib.Data.List.Basic
import Courier.Proofs.Pool.Moves

/-!
# The functions of a pool are balanced

An operation has connections and dials in hand. What a pool does moves connections between the idle
list and the operation, opens some and closes some, and the count of open connections follows.
`Balanced` says this of two states of a pool and of what an operation has in hand; every function of
the pool is shown to be balanced.
-/
namespace Courier.Pool

/-- What an operation has in hand: the numbers of connections, and dials. -/
structure Stock where
  conns : List Nat
  dials : Nat

/-- Connections that were opened meanwhile have come into the idle list or into the hands of an
operation, and those that were closed have gone from there. If the count of open connections was
right, it has been changed by as much as there is to change. No more connections become idle than
the pool keeps. -/
structure Balanced (p : Pool) (a : Stock) (opened : List Nat) (p' : Pool) (a' : Stock)
    (closes : List Nat) : Prop where
  perm : (numbers p'.idle ++ a'.conns ++ closes).Perm (numbers p.idle ++ a.conns ++ opened)
  count : p.idle.length + a.conns.length + a.dials ≤ p.active →
    p'.active + closes.length + a.dials = p.active + opened.length + a'.dials
  config : p'.config = p.config
  bounded : p.idle.length ≤ p.config.maxIdle → p'.idle.length ≤ p.config.maxIdle

namespace Balanced
variable {p p' p'' : Pool} {a a' a'' : Stock} {opened closes more : List Nat}

theorem refl (p : Pool) (a : Stock) : Balanced p a [] p a [] :=
  ⟨.refl _, fun _ => by simp, rfl, id⟩

/-- Slots are not connections. -/
theorem slots (p : Pool) (slots : Option Slots) (a : Stock) :
    Balanced p a [] { p with slots } a [] :=
  ⟨.refl _, fun _ => by simp, rfl, id⟩

theorem reorder (p : Pool) {conns conns' : List Nat} (h : conns'.Perm conns) (dials : Nat) :
    Balanced p ⟨conns, dials⟩ [] p ⟨conns', dials⟩ [] :=
  ⟨(h.append_left _).append_right _, fun _ => by simp, rfl, id⟩

/-- The other connections and dials stay as they are. -/
theorem frame (h : Balanced p a opened p' a' closes) (before after : List Nat) (n m : Nat) :
    Balanced p ⟨before ++ a.conns ++ after, n + a.dials + m⟩ opened
      p' ⟨before ++ a'.conns ++ after, n + a'.dials + m⟩ closes where
  perm := by
    rw [List.perm_iff_count]
    intro id
    have := h.perm.count_eq id
    simp only [List.count_append] at this ⊢
    omega
  count hc := by
    simp only [List.length_append] at hc ⊢
    have := h.count (by omega)
    omega
  config := h.config
  bounded := h.bounded

/-- One thing after the other; the count stays right in between. -/
theorem trans (h : Balanced p a [] p' a' closes) (h' : Balanced p' a' [] p'' a'' more) :
    Balanced p a [] p'' a'' (closes ++ more) where
  perm := by
    rw [List.perm_iff_count]
    intro id
    have := h.perm.count_eq id
    have := h'.perm.count_eq id
    simp only [List.count_append, List.count_nil] at *
    omega
  count hc := by
    have hl := h.perm.length_eq
    have := h.count hc
    simp only [List.length_append, List.length_nil, length_numbers] at hl this
    have := h'.count (by omega)
    simp only [List.length_append, List.length_nil] at this ⊢
    omega
  config := h'.config.trans h.config
  bounded hb := by
    have := h'.bounded (h.config.symm ▸ h.bounded hb)
    rwa [h.config] at this

/-- Whether a slot comes back does not matter. -/
theorem slot (h : Balanced p a opened p' a' closes) (slot : Bool) :
    Balanced p a opened (if slot then p'.giveBackSlot else p') a' closes := by
  cases slot
  · exact h
  · exact ⟨h.perm, h.count, h.config, h.bounded⟩

end Balanced

/-! ## Functions of the pool -/

theorem balanced_popIdle {p p' : Pool} {c : Conn} (h : p.popIdle = some (c, p')) :
    Balanced p ⟨[], 0⟩ [] p' ⟨[c.id], 0⟩ [] := by
  unfold popIdle at h
  split at h
  · cases h
  next _ rest hi =>
    obtain ⟨rfl, rfl⟩ := Prod.mk.inj (Option.some.inj h)
    refine ⟨?_, fun _ => by simp, rfl, fun hb => ?_⟩
    · simp only [hi, numbers_cons, List.append_nil]
      exact List.perm_append_singleton _ _
    · rw [hi, List.length_cons] at hb
      exact Nat.le_of_succ_le hb

theorem balanced_beginDial {p p' : Pool} (h : p.beginDial = .ok p') :
    Balanced p ⟨[], 0⟩ [] p' ⟨[], 1⟩ [] := by
  unfold beginDial at h
  split at h
  · cases h
  · split at h
    · cases h
    · cases h
      exact ⟨.refl _, fun _ => by simp, rfl, id⟩

/-- A dial that fails is not counted any more. -/
theorem balanced_undial (p : Pool) : Balanced p ⟨[], 1⟩ [] (p.lower 1) ⟨[], 0⟩ [] := by
  refine ⟨.refl _, fun h => ?_, rfl, id⟩
  simp only [lower, List.length_nil] at h ⊢
  omega

theorem balanced_dialed (p : Pool) (c : Conn) : Balanced p ⟨[], 1⟩ [c.id] p ⟨[c.id], 0⟩ [] :=
  ⟨by simp, fun _ => by simp, rfl, id⟩

/-- A connection that is in hand is closed. -/
theorem balanced_drop (p : Pool) (c : Conn) :
    Balanced p ⟨[c.id], 0⟩ [] (p.lower 1) ⟨[], 0⟩ [c.id] := by
  refine ⟨by simp [lower], fun h => ?_, rfl, id⟩
  simp only [lower, List.length_cons, List.length_nil] at h ⊢
  omega

theorem balanced_put (p : Pool) (c : Conn) (force : Bool) (now : Instant) :
    Balanced p ⟨[c.id], 0⟩ [] (p.put c force now).1 ⟨[], 0⟩ (numbers (p.put c force now).2) := by
  unfold put
  split
  · exact balanced_drop p c
  · dsimp only
    split
    · have hl := List.take_append_getLast? ({ c with returned := now } :: p.idle)
      rw [← List.dropLast_eq_take] at hl
      have hp := congrArg numbers hl
      have hn := congrArg List.length hp
      simp only [numbers_append, numbers_cons] at hp
      simp only [numbers_append, numbers_cons, List.length_append, List.length_cons,
        length_numbers] at hn
      refine ⟨?_, fun h => ?_, rfl, fun hb => ?_⟩
      · simp only [lower, List.append_nil, hp]
        exact (List.perm_append_singleton _ _).symm
      · simp only [lower, List.length_cons, List.length_nil, List.length_dropLast,
          length_numbers] at h hn ⊢
        omega
      · simpa [lower] using hb
    next hmax =>
      refine ⟨?_, fun _ => by simp, rfl, fun _ => Nat.le_of_not_lt hmax⟩
      simp only [numbers_cons, numbers_nil, List.append_nil]
      exact (List.perm_append_singleton _ _).symm

theorem balanced_putAll (p : Pool) (now : Instant) (conns : List Conn) :
    Balanced p ⟨numbers conns, 0⟩ [] (TopUp.putAll p now conns).1 ⟨[], 0⟩
      (numbers (TopUp.putAll p now conns).2) := by
  induction conns generalizing p with
  | nil => exact .refl p _
  | cons c rest ih =>
    have hc := (balanced_put p c false now).frame [] (numbers rest) 0 0
    have hr := ih (p.put c false now).1
    simp only [TopUp.putAll, numbers_append]
    exact hc.trans hr

theorem balanced_close (p : Pool) :
    Balanced p ⟨[], 0⟩ [] p.close.1 ⟨[], 0⟩ (numbers p.close.2) := by
  unfold close
  split
  · exact .refl p _
  · refine ⟨by simp [lower], fun h => ?_, rfl, fun _ => Nat.zero_le _⟩
    simp only [lower, List.length_nil, length_numbers] at h ⊢
    omega

/-! ## Handles -/

theorem balanced_release (h : Handle) (p : Pool) (force : Bool) (now : Instant) :
    Balanced p ⟨numbers h.conn.toList, 0⟩ [] (h.release p force now).pool ⟨[], 0⟩
      (numbers (h.release p force now).closes) := by
  rw [Handle.release_eq]
  cases h.conn with
  | none => exact (Balanced.refl p _).slot h.slot
  | some c => exact (balanced_put p c force now).slot h.slot

theorem closes_release {h : Handle} {c : Conn} (hc : h.conn = some c) (p : Pool) (force : Bool)
    (now : Instant) : (h.release p force now).closes = (p.put c force now).2 := by
  simp [Handle.release_eq, hc]

theorem idle_release {h : Handle} {c : Conn} (hc : h.conn = some c) (p : Pool) (force : Bool)
    (now : Instant) : (h.release p force now).pool.idle = (p.put c force now).1.idle := by
  rw [Handle.release_eq]
  cases h.slot <;> simp [hc, giveBackSlot]

theorem active_release {h : Handle} {c : Conn} (hc : h.conn = some c) (p : Pool) (force : Bool)
    (now : Instant) : (h.release p force now).pool.active = (p.put c force now).1.active := by
  rw [Handle.release_eq]
  cases h.slot <;> simp [hc, giveBackSlot]

/-- A connection that is discarded does not become idle. -/
@[simp] theorem idle_discard (h : Handle) (p : Pool) (now : Instant) :
    (h.discard p now).pool.idle = p.idle := by
  rw [Handle.discard, Handle.release_eq]
  cases h.conn <;> cases h.slot <;> simp [put, lower, giveBackSlot]

/-! ## Sweeps -/

/-- The connections that a sweep has in hand. -/
def Sweep.conns (s : Sweep) : List Conn := s.pending ++ s.kept ++ s.dropped

theorem balanced_sweep {p p' : Pool} {s : Sweep} (h : Sweep.begin p = some (p', s)) :
    Balanced p ⟨[], 0⟩ [] p' ⟨numbers s.conns, 0⟩ [] := by
  unfold Sweep.begin at h
  split at h
  · cases h
  · cases h
    exact ⟨by simp [Sweep.conns], fun _ => by simp, rfl, fun _ => Nat.zero_le _⟩

/-- A check moves a connection inside the sweep. -/
theorem conns_judge (s : Sweep) (healthy : Bool) : (s.judge healthy).conns.Perm s.conns := by
  cases hp : s.pending with
  | nil => rw [Sweep.judge, hp]
  | cons c rest =>
    rw [List.perm_iff_count]
    intro x
    cases healthy <;>
    · simp only [Sweep.judge, Sweep.conns, hp, Bool.false_eq_true, if_false, if_true,
        List.count_append, List.count_cons, List.count_nil]
      omega

theorem balanced_finish (s : Sweep) (p : Pool) (hs : s.pending = []) :
    Balanced p ⟨numbers s.conns, 0⟩ [] (s.finish p).1 ⟨[], 0⟩ (numbers (s.finish p).2) := by
  unfold Sweep.finish Sweep.conns
  rw [hs]
  split
  · refine ⟨?_, fun h => ?_, rfl, id⟩
    · rw [List.perm_iff_count]
      intro id
      simp only [lower, numbers_append, List.count_append, List.count_nil, List.nil_append]
      omega
    · simp only [lower, List.length_append, List.nil_append, length_numbers, List.length_nil] at h ⊢
      omega
  · have hl := List.take_append_drop p.config.maxIdle (p.idle ++ s.kept)
    have hp := congrArg numbers hl
    have hn := congrArg List.length hl
    refine ⟨?_, fun h => ?_, rfl, fun _ => List.length_take_le _ _⟩
    · rw [List.perm_iff_count]
      intro id
      have hr :=
        ((List.reverse_perm ((p.idle ++ s.kept).drop p.config.maxIdle)).map Conn.id).count_eq id
      have hc := congrArg (List.count id) hp
      simp only [numbers, List.map_append, List.count_append] at hr hc
      simp only [lower, numbers, List.map_append, List.count_append, List.count_nil,
        List.nil_append]
      omega
    · simp only [lower, List.length_append, List.length_reverse, List.nil_append, length_numbers,
        List.length_nil, numbers_append] at h hn ⊢
      omega

end Courier.Pool

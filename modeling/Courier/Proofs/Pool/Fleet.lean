import Courier.Proofs.Pool.Shutdown
import Courier.Scenario.World

/-!
# All the pools of a registry

A registry together with every pool that was ever created for it. As long as it is open it finds all
of them, so closing it closes all; afterwards it finds none and creates none. The registry and the
pools of a scenario are such a fleet.
-/
namespace Courier.Pool
open Scenario (World PoolCell)

/-- A registry, the configuration of its pools, and all pools that were created, by their
numbers. -/
structure Fleet where
  registry : Registry
  config : Config
  pools : List Life

namespace Fleet

def start (config : Config) : Fleet := ⟨.empty, config, []⟩

/-- The numbers of the pools that the registry finds. -/
def filed (f : Fleet) : List PoolId := f.registry.entries.map Prod.snd

/-- The registry is closed with all the pools that it finds. -/
def shut (f : Fleet) : Fleet :=
  { f with
    registry := f.registry.close
    pools := f.pools.mapIdx fun id s => if id ∈ f.filed then s.shut else s }

/-- A pool is created and filed. -/
def create (f : Fleet) (network address : String) (now : Instant) : Fleet :=
  { f with
    registry := f.registry.add network address f.pools.length
    pools := f.pools ++ [Life.start network address f.config now] }

/-- Something happens to one of the pools, a call that finds none has one created, or the registry
is closed. -/
inductive Step : Fleet → Fleet → Prop
  | pool {f : Fleet} {id : PoolId} {s s' : Life} {lost : Nat} (hp : f.pools[id]? = some s)
      (h : s.Event lost s') : Step f { f with pools := f.pools.set id s' }
  | create {f : Fleet} {network address : String} (now : Instant)
      (h : f.registry.lookup network address = .missing) : Step f (f.create network address now)
  | close (f : Fleet) : Step f f.shut

abbrev Leads : Fleet → Fleet → Prop := Relation.ReflTransGen Step

def Reachable (config : Config) (f : Fleet) : Prop := (start config).Leads f

/-- As long as the registry is open, it finds every pool. Once it is closed, it finds none, and all
pools are closed. -/
structure Kept (config : Config) (f : Fleet) : Prop where
  configured : f.config = config
  leaky : ∀ s ∈ f.pools, ∃ lost, Life.Leaky config lost s
  filed : f.registry.closed = false → ∀ id < f.pools.length, id ∈ f.filed
  entries : f.registry.closed = true → f.registry.entries = []
  closed : f.registry.closed = true → ∀ s ∈ f.pools, s.pool.closed = true

variable {config : Config} {f f' : Fleet}

theorem closed_of_missing {network address : String}
    (h : f.registry.lookup network address = .missing) : f.registry.closed = false := by
  unfold Registry.lookup at h
  split at h
  · cases h
  next hc => exact Bool.eq_false_of_not_eq_true hc

theorem shut_of_closed {s : Life} (h : s.pool.closed = true) : s.shut = s := by
  unfold Life.shut
  rw [close_of_closed h, numbers_nil, List.append_nil]

/-- Closing the registry closes every pool that was ever created. -/
theorem Kept.pools_shut (h : f.Kept config) : f.shut.pools = f.pools.map Life.shut := by
  apply List.ext_getElem?
  intro id
  rw [shut, List.getElem?_mapIdx, List.getElem?_map]
  cases hs : f.pools[id]? with
  | none => rfl
  | some s =>
    rw [Option.map_some, Option.map_some]
    split
    next => rfl
    next hid =>
      have hclosed : f.registry.closed = true := by
        cases hc : f.registry.closed with
        | true => rfl
        | false => exact absurd (h.filed hc id (List.getElem?_eq_some_iff.1 hs).1) hid
      rw [shut_of_closed (h.closed hclosed s (List.mem_of_getElem? hs))]

theorem Kept.step (h : f.Kept config) (hstep : Step f f') : f'.Kept config := by
  cases hstep with
  | @pool id s s' lost hp he =>
    have hmem := List.mem_of_getElem? hp
    refine ⟨h.configured, fun t ht => ?_, fun hc => ?_, h.entries, fun hc t ht => ?_⟩
    · obtain ht | rfl := List.mem_or_eq_of_mem_set ht
      · exact h.leaky t ht
      · obtain ⟨before, hs⟩ := h.leaky s hmem
        exact ⟨_, hs.runs (.single he)⟩
    · rw [List.length_set]
      exact h.filed hc
    · obtain ht | rfl := List.mem_or_eq_of_mem_set ht
      · exact h.closed hc t ht
      · exact he.closed (h.closed hc s hmem)
  | @create network address now hm =>
    have hopen := closed_of_missing hm
    have hnot : ¬ f.registry.closed = true := by simp [hopen]
    refine ⟨h.configured, fun t ht => ?_, fun _ id hid => ?_, fun hc => absurd hc hnot,
      fun hc => absurd hc hnot⟩
    · obtain ht | ht := List.mem_append.1 ht
      · exact h.leaky t ht
      · obtain rfl := List.mem_singleton.1 ht
        rw [h.configured]
        exact ⟨0, network, address, now, .refl _⟩
    · rw [create, List.length_append, List.length_singleton] at hid
      obtain hlt | rfl := Nat.lt_succ_iff_lt_or_eq.1 hid
      · exact List.mem_cons_of_mem _ (h.filed hopen id hlt)
      · exact List.mem_cons_self
  | close =>
    refine ⟨h.configured, fun t ht => ?_, nofun, fun _ => rfl, fun _ t ht => ?_⟩
    · rw [h.pools_shut] at ht
      obtain ⟨s, hs, rfl⟩ := List.mem_map.1 ht
      obtain ⟨lost, hl⟩ := h.leaky s hs
      exact ⟨_, hl.runs (.single (.step s.step_shut))⟩
    · rw [h.pools_shut] at ht
      obtain ⟨s, hs, rfl⟩ := List.mem_map.1 ht
      exact s.closed_shut

theorem Reachable.kept (h : Reachable config f) : f.Kept config := by
  induction h with
  | refl => exact ⟨rfl, nofun, nofun, nofun, nofun⟩
  | tail _ hstep ih => exact ih.step hstep

/-! ## After the end -/

/-- The registry was closed, and since then every pool has gone on by itself. -/
structure Ended (f f' : Fleet) : Prop where
  registry : f'.registry = ⟨[], true⟩
  length : f'.pools.length = f.pools.length
  pools : ∀ (id : PoolId) (s' : Life), f'.pools[id]? = some s' →
    ∃ s more, f.pools[id]? = some s ∧ s.shut.Runs more s'

theorem Kept.ended (h : f.Kept config) : f.Ended f.shut := by
  refine ⟨rfl, List.length_mapIdx, fun id s' hs => ?_⟩
  rw [h.pools_shut, List.getElem?_map] at hs
  obtain ⟨s, hfirst, rfl⟩ := Option.map_eq_some_iff.1 hs
  exact ⟨s, 0, hfirst, .refl _⟩

theorem Ended.step {f'' : Fleet} (h : f.Ended f') (hstep : Step f' f'') : f.Ended f'' := by
  cases hstep with
  | @pool id s s' lost hp he =>
    refine ⟨h.registry, (List.length_set).trans h.length, fun i t ht => ?_⟩
    rw [List.getElem?_set] at ht
    split at ht
    next hid =>
      subst hid
      split at ht
      · cases ht
        obtain ⟨first, more, hfirst, hruns⟩ := h.pools id s hp
        exact ⟨first, _, hfirst, hruns.tail he⟩
      · cases ht
    next => exact h.pools i t ht
  | create now hm =>
    have hc := closed_of_missing hm
    rw [h.registry] at hc
    cases hc
  | close =>
    have hnone : f'.filed = [] := by
      rw [filed, h.registry]
      rfl
    have hpools : f'.shut.pools = f'.pools := by
      apply List.ext_getElem?
      intro id
      rw [shut, List.getElem?_mapIdx, hnone]
      cases f'.pools[id]? <;> rfl
    refine ⟨rfl, ?_, ?_⟩
    · rw [hpools]
      exact h.length
    · rw [hpools]
      exact h.pools

/-- The registry and the pools of a scenario are those of the fleet. -/
structure Shows (f : Fleet) (w : World) : Prop where
  registry : w.registry = f.registry
  config : w.config = f.config
  size : w.pools.size = f.pools.length
  pools : ∀ id, w.pool? id = f.pools[id]?.map Life.pool

section World
variable (w : World)

theorem closeConns_eq (conns : List Conn) :
    ∃ sessions, w.closeConns conns = { w with sessions } := by
  unfold World.closeConns
  induction conns generalizing w with
  | nil => exact ⟨w.sessions, rfl⟩
  | cons c rest ih => exact ih _

theorem startPool_eq (id : PoolId) : ∃ tasks, w.startPool id = { w with tasks } := by
  unfold World.startPool
  dsimp only
  split <;> split <;> exact ⟨_, rfl⟩

theorem closePool_eq (id : PoolId) :
    ∃ sessions, w.closePool id = { w.setPool id (w.poolAt id).close.1 with sessions } :=
  closeConns_eq _ _

/-- Closing one pool closes that pool. -/
theorem pool?_closePool (id i : PoolId) :
    (w.closePool id).pool? i = (w.pool? i).map fun p => if i = id then p.close.1 else p := by
  obtain ⟨sessions, hw⟩ := closePool_eq w id
  rw [hw, World.pool?, World.pool?, World.setPool, Array.getElem?_modify]
  by_cases hid : id = i
  · subst hid
    cases hc : w.pools[id]? with
    | none => simp
    | some cell => simp [World.poolAt, World.pool?, hc]
  · have hne : ¬ i = id := fun h => hid h.symm
    cases w.pools[i]? <;> simp [hid, hne]

/-- Closing all pools that were filed closes each of them, however often it was filed. -/
theorem foldl_closePool (entries : List (String × PoolId)) :
    (entries.foldl (fun w entry => w.closePool entry.2) w).config = w.config ∧
    (entries.foldl (fun w entry => w.closePool entry.2) w).pools.size = w.pools.size ∧
    ∀ i, (entries.foldl (fun w entry => w.closePool entry.2) w).pool? i =
      (w.pool? i).map fun p => if i ∈ entries.map Prod.snd then p.close.1 else p := by
  induction entries generalizing w with
  | nil => simp
  | cons entry rest ih =>
    obtain ⟨hconfig, hsize, hpools⟩ := ih (w.closePool entry.2)
    obtain ⟨sessions, hw⟩ := closePool_eq w entry.2
    refine ⟨hconfig.trans ?_, hsize.trans ?_, fun i => (hpools i).trans ?_⟩
    · rw [hw]
      rfl
    · rw [hw, World.setPool, Array.size_modify]
    · rw [pool?_closePool, Option.map_map]
      congr 1
      funext p
      have htwice : p.close.1.close.1 = p.close.1 := by rw [close_of_closed p.closed_close]
      by_cases hid : i = entry.2 <;> by_cases hmem : i ∈ rest.map Prod.snd <;>
        simp [hid, hmem, htwice]

end World

/-- A scenario that has changed neither its registry nor its pools. -/
theorem Shows.same {w w' : World} (h : f.Shows w) (hr : w'.registry = w.registry)
    (hc : w'.config = w.config) (hp : w'.pools = w.pools) : f.Shows w' where
  registry := hr.trans h.registry
  config := hc.trans h.config
  size := hp ▸ h.size
  pools id := by rw [← h.pools, World.pool?, World.pool?, hp]

/-- A scenario carries out a step of one pool. -/
theorem Shows.commit {w : World} (h : f.Shows w) {σ : Type} {m : Pool.Step σ} {id : PoolId}
    {s s' : Life} (hs : f.pools[id]? = some s) (hp : s'.pool = m.pool) :
    Shows { f with pools := f.pools.set id s' } (w.commit id m).1 := by
  obtain ⟨sessions, hw⟩ := closeConns_eq (w.setPool id m.pool) m.closes
  rw [World.commit, hw]
  refine ⟨h.registry, h.config, ?_, fun i => ?_⟩
  · show (w.pools.modify id _).size = (f.pools.set id s').length
    rw [Array.size_modify, List.length_set]
    exact h.size
  · show ((w.pools.modify id fun cell => { cell with pool := m.pool })[i]?).map PoolCell.pool = _
    have hi : (w.pools[i]?).map PoolCell.pool = f.pools[i]?.map Life.pool := h.pools i
    rw [Array.getElem?_modify]
    by_cases hid : id = i
    · subst hid
      rw [hs] at hi
      obtain ⟨cell, hcell, -⟩ := Option.map_eq_some_iff.1 hi
      rw [if_pos rfl, hcell, List.getElem?_set_self (List.getElem?_eq_some_iff.1 hs).1]
      exact congrArg some hp.symm
    · rw [if_neg hid, List.getElem?_set_ne hid]
      exact hi

/-- The registry of a scenario closes just as that of a fleet. -/
theorem Shows.close {w : World} (h : f.Shows w) : f.shut.Shows w.closeFiled := by
  obtain ⟨hconfig, hsize, hpools⟩ := foldl_closePool w w.registry.entries
  refine ⟨rfl, hconfig.trans h.config, ?_, fun id => (hpools id).trans ?_⟩
  · rw [shut, List.length_mapIdx, ← h.size]
    exact hsize
  · rw [h.pools, h.registry, shut, List.getElem?_mapIdx, Option.map_map, Option.map_map]
    congr 1
    funext s
    show (if id ∈ f.filed then s.pool.close.1 else s.pool) =
      (if id ∈ f.filed then s.shut else s).pool
    split <;> rfl

/-- A call that finds no pool has one created, as in a fleet. -/
theorem Shows.create {w : World} (h : f.Shows w) {network address : String} (now : Instant)
    (hm : f.registry.lookup network address = .missing) :
    (f.create network address now).Shows (w.fetchPool network address).2 := by
  unfold World.fetchPool
  rw [h.registry, hm]
  dsimp only
  obtain ⟨tasks, hw⟩ := startPool_eq { (w.createPool network address w.config w.check).2 with
    registry := (w.createPool network address w.config w.check).2.registry.add network address
      (w.createPool network address w.config w.check).1 }
        (w.createPool network address w.config w.check).1
  rw [hw]
  refine ⟨?_, h.config, ?_, fun id => ?_⟩
  · show w.registry.add network address w.pools.size = f.registry.add network address f.pools.length
    rw [h.registry, h.size]
  · show (w.pools.push _).size = (f.pools ++ [_]).length
    rw [Array.size_push, List.length_append, h.size]
    rfl
  · show ((w.pools.push _)[id]?).map _ = (f.pools ++ [_])[id]?.map _
    rw [Array.getElem?_push, h.size, List.getElem?_append]
    split
    next heq => simp [heq, h.config, Life.start]
    next hne =>
      split
      next => exact h.pools id
      next hlt =>
        have hsize := h.size
        rw [List.getElem?_eq_none (by simp; omega), Array.getElem?_eq_none (by omega)]
        rfl

/-- A closed registry refuses every call and leaves everything as it is. -/
theorem Shows.refused {w : World} (h : f.Shows w) (hc : f.registry.closed = true)
    (network address : String) :
    w.fetchPool network address = (.error .poolClosed, w.count [.getConnectionErr]) := by
  unfold World.fetchPool
  rw [h.registry, Registry.lookup, if_pos hc]

/-! ## Closing for good -/

end Fleet

end Courier.Pool

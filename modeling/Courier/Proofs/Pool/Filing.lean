import Courier.Proofs.Pool.Address
import Courier.Proofs.Pool.Fleet

/-!
# Which pool a registry gives out

A registry files its pools under names that are made of a network and an address with an underscore
between them. Whoever asks for a pool gets the one of the name, which was created for the first who
asked for that name. Two pairs can have one name, if one of the networks has an underscore itself;
then whoever asks for the second pair gets the pool of the first one.
-/
namespace Courier.Pool
open Scenario (World)

/-! ## Names -/

/-- Two lists with a separator in them are the same if they are so on both sides of it, or if the
separator of each is a part of the other one's front or back. -/
theorem append_cons_eq_iff {α : Type} {sep : α} {front back front' back' : List α} :
    front ++ sep :: back = front' ++ sep :: back' ↔
      (front = front' ∧ back = back') ∨
      (∃ x, front' = front ++ sep :: x ∧ back = x ++ sep :: back') ∨
      (∃ x, front = front' ++ sep :: x ∧ back' = x ++ sep :: back) := by
  constructor
  · intro h
    obtain ⟨x, rfl, hx⟩ | ⟨x, rfl, hx⟩ := List.append_eq_append_iff.1 h
    · cases x with
      | nil =>
        left
        simpa using hx
      | cons c x =>
        obtain ⟨rfl, rfl⟩ := List.cons.inj hx
        exact .inr (.inl ⟨x, rfl, rfl⟩)
    · cases x with
      | nil =>
        left
        simpa using hx.symm
      | cons c x =>
        obtain ⟨rfl, rfl⟩ := List.cons.inj hx
        exact .inr (.inr ⟨x, rfl, rfl⟩)
  · rintro (⟨rfl, rfl⟩ | ⟨x, rfl, rfl⟩ | ⟨x, rfl, rfl⟩) <;> simp

namespace Registry

theorem toList_key (network address : String) :
    (key network address).toList = network.toList ++ '_' :: address.toList := by
  simp [key]

/-- Two pairs have one name just if they are the same, or if some text between two underscores
belongs to the network of one of them and to the address of the other. -/
theorem key_eq_iff {network address network' address' : String} :
    key network address = key network' address' ↔
      (network = network' ∧ address = address') ∨
      (∃ x, network' = network ++ "_" ++ x ∧ address = x ++ "_" ++ address') ∨
      (∃ x, network = network' ++ "_" ++ x ∧ address' = x ++ "_" ++ address) := by
  have hsep (front back whole : String) :
      whole = front ++ "_" ++ back ↔ whole.toList = front.toList ++ '_' :: back.toList := by
    rw [← toList_key, String.toList_inj]
    rfl
  have hexists {P : List Char → Prop} : (∃ x : String, P x.toList) ↔ ∃ x, P x :=
    ⟨fun ⟨x, hx⟩ => ⟨_, hx⟩, fun ⟨x, hx⟩ => ⟨.ofList x, by rwa [String.toList_ofList]⟩⟩
  rw [← String.toList_inj, toList_key, toList_key, append_cons_eq_iff, String.toList_inj,
    String.toList_inj, ← hexists, ← hexists]
  simp only [hsep]

/-- Pairs whose networks have no underscore have different names. -/
theorem pair_eq_of_key_eq {network address network' address' : String} (hn : '_' ∉ network.toList)
    (hn' : '_' ∉ network'.toList) (h : key network address = key network' address') :
    (network, address) = (network', address') := by
  obtain ⟨rfl, rfl⟩ | ⟨x, rfl, -⟩ | ⟨x, rfl, -⟩ := key_eq_iff.1 h
  · rfl
  · exact absurd (by simp) hn'
  · exact absurd (by simp) hn

end Registry

namespace Fleet

/-! ## Requests -/

/-- Someone asked for a pool and got one. -/
structure Served where
  network : String
  address : String
  id : PoolId

namespace Served

def pair (r : Served) : String × String := (r.network, r.address)

/-- The name of the pool that was asked for. -/
def name (r : Served) : String := Registry.key r.network r.address

end Served

/-- Someone asks for a pool and gets the one that is filed, or a new one. -/
inductive Serves (f : Fleet) (network address : String) : PoolId → Fleet → Prop
  | found {id : PoolId} (h : f.registry.lookup network address = .found id) :
      Serves f network address id f
  | created (now : Instant) (h : f.registry.lookup network address = .missing) :
      Serves f network address f.pools.length (f.create network address now)

/-- The states that a fleet can come to, with all who were served so far, in their order. -/
inductive Course (config : Config) : List Served → Fleet → Prop
  | start : Course config [] (start config)
  | pool {log : List Served} {f : Fleet} {id : PoolId} {s s' : Life} {lost : Nat}
      (h : Course config log f) (hp : f.pools[id]? = some s) (he : s.Event lost s') :
      Course config log { f with pools := f.pools.set id s' }
  | close {log : List Served} {f : Fleet} (h : Course config log f) : Course config log f.shut
  | serve {log : List Served} {f f' : Fleet} {r : Served} (h : Course config log f)
      (hs : f.Serves r.network r.address r.id f') : Course config (log ++ [r]) f'

/-- For which network and which address each pool is. -/
def pairs (f : Fleet) : List (String × String) := f.pools.map fun s => s.pool.pair

section Pairs
variable {f : Fleet}

theorem getElem?_pairs (f : Fleet) (id : PoolId) :
    f.pairs[id]? = f.pools[id]?.map fun s => s.pool.pair :=
  List.getElem?_map

theorem pairs_set {id : PoolId} {s s' : Life} {lost : Nat} (hp : f.pools[id]? = some s)
    (he : s.Event lost s') : pairs { f with pools := f.pools.set id s' } = f.pairs := by
  apply List.ext_getElem?
  intro i
  rw [getElem?_pairs, getElem?_pairs, List.getElem?_set]
  split
  next hi =>
    subst hi
    rw [hp, if_pos (List.getElem?_eq_some_iff.1 hp).1]
    exact congrArg some he.pair
  next => rfl

theorem pairs_shut (f : Fleet) : f.shut.pairs = f.pairs := by
  apply List.ext_getElem?
  intro i
  rw [getElem?_pairs, getElem?_pairs, shut, List.getElem?_mapIdx, Option.map_map]
  congr 1
  funext s
  show (if i ∈ f.filed then s.shut else s).pool.pair = s.pool.pair
  split
  · exact pair_close s.pool
  · rfl

theorem pairs_create (f : Fleet) (network address : String) (now : Instant) :
    (f.create network address now).pairs = f.pairs ++ [(network, address)] := by
  simp only [pairs, create, List.map_append]
  rfl

end Pairs

/-! ## What is filed -/

/-- The first who asked for a pool of the name. -/
def first? (log : List Served) (name : String) : Option Served := log.find? fun r => r.name = name

section First
variable {log : List Served} {r : Served} {name : String}

theorem of_first? (h : first? log name = some r) : r ∈ log ∧ r.name = name :=
  ⟨List.mem_of_find?_eq_some h, by simpa using List.find?_some h⟩

theorem first?_append_of_some (more : List Served) (h : first? log name = some r) :
    first? (log ++ more) name = some r := by
  rw [first?, List.find?_append, ← first?, h]
  rfl

theorem first?_append_of_none (h : first? log r.name = none) :
    first? (log ++ [r]) r.name = some r := by
  rw [first?, List.find?_append, ← first?, h]
  simp

theorem first?_append_of_ne (hn : r.name ≠ name) : first? (log ++ [r]) name = first? log name := by
  rw [first?, List.find?_append, ← first?]
  simp [hn]

end First

/-- Whoever was served got the pool that was created for the first who asked for its name, and as
long as the registry is open, it finds these pools and no others. -/
structure Filed (log : List Served) (f : Fleet) : Prop where
  given :
    ∀ r ∈ log, ∃ r₀, first? log r.name = some r₀ ∧ r₀.id = r.id ∧ f.pairs[r.id]? = some r₀.pair
  finds : f.registry.closed = false →
    ∀ name, f.registry.entries.lookup name = (first? log name).map Served.id

section Filed
variable {config : Config} {log : List Served} {f f' : Fleet} {r : Served}

theorem lookup_of_found {network address : String} {id : PoolId}
    (h : f.registry.lookup network address = .found id) :
    f.registry.closed = false ∧ f.registry.get? network address = some id := by
  unfold Registry.lookup at h
  split at h
  · cases h
  next hc =>
    refine ⟨Bool.eq_false_of_not_eq_true hc, ?_⟩
    split at h
    next id' hg =>
      cases h
      exact hg
    · cases h

theorem get?_of_missing {network address : String}
    (h : f.registry.lookup network address = .missing) :
    f.registry.get? network address = none := by
  unfold Registry.lookup at h
  split at h
  · cases h
  · split at h
    · cases h
    next hg => exact hg

/-- What is filed under a name is given out to all who ask for it. -/
theorem Filed.found (h : Filed log f) (hl : f.registry.lookup r.network r.address = .found r.id) :
    Filed (log ++ [r]) f := by
  obtain ⟨hopen, hget⟩ := lookup_of_found hl
  obtain ⟨r₀, hfirst, hid⟩ := Option.map_eq_some_iff.1 ((h.finds hopen r.name).symm.trans hget)
  obtain ⟨hmem, hname⟩ := of_first? hfirst
  refine ⟨fun r' hr' => ?_, fun _ name => ?_⟩
  · obtain hr' | hr' := List.mem_append.1 hr'
    · obtain ⟨r₁, hfirst', hrest⟩ := h.given r' hr'
      exact ⟨r₁, first?_append_of_some _ hfirst', hrest⟩
    · obtain rfl := List.mem_singleton.1 hr'
      obtain ⟨r₁, hfirst', -, hpair⟩ := h.given r₀ hmem
      rw [hname, hfirst] at hfirst'
      cases hfirst'
      rw [hid] at hpair
      exact ⟨r₀, first?_append_of_some _ hfirst, hid, hpair⟩
  · rw [h.finds hopen]
    by_cases hn : r.name = name
    · rw [← hn, hfirst, first?_append_of_some _ hfirst]
    · rw [first?_append_of_ne hn]

/-- The first who asks for a name has a pool created. -/
theorem Filed.created (h : Filed log f) (now : Instant) (hid : r.id = f.pools.length)
    (hl : f.registry.lookup r.network r.address = .missing) :
    Filed (log ++ [r]) (f.create r.network r.address now) := by
  have hopen := closed_of_missing hl
  have hnone : first? log r.name = none :=
    Option.map_eq_none_iff.1 ((h.finds hopen r.name).symm.trans (get?_of_missing hl))
  have hlength : f.pairs.length = r.id := (List.length_map _).trans hid.symm
  refine ⟨fun r' hr' => ?_, fun _ name => ?_⟩
  · rw [pairs_create]
    obtain hr' | hr' := List.mem_append.1 hr'
    · obtain ⟨r₀, hfirst, hid', hpair⟩ := h.given r' hr'
      have hlt := (List.getElem?_eq_some_iff.1 hpair).1
      exact ⟨r₀, first?_append_of_some _ hfirst, hid', (List.getElem?_append_left hlt).trans hpair⟩
    · obtain rfl := List.mem_singleton.1 hr'
      refine ⟨r', first?_append_of_none hnone, rfl, ?_⟩
      rw [← hlength, List.getElem?_concat_length]
      rfl
  · show ((r.name, f.pools.length) :: f.registry.entries).lookup name = _
    by_cases hn : r.name = name
    · rw [← hn, List.lookup_cons_self, first?_append_of_none hnone, ← hid]
      rfl
    · have hbeq : (name == r.name) = false := by simpa using Ne.symm hn
      rw [List.lookup_cons, hbeq, first?_append_of_ne hn]
      exact h.finds hopen name

theorem Course.filed (h : Course config log f) : Filed log f := by
  induction h with
  | start => exact ⟨List.forall_mem_nil _, fun _ _ => rfl⟩
  | pool _ hp he ih => exact ⟨by rw [pairs_set hp he]; exact ih.given, ih.finds⟩
  | close _ ih => exact ⟨by rw [pairs_shut]; exact ih.given, nofun⟩
  | @serve log f f' r _ hs ih =>
    generalize hid : r.id = id at hs
    cases hs with
    | found h => exact ih.found (hid ▸ h)
    | created now h => exact ih.created now hid h

theorem Course.reachable (h : Course config log f) : Reachable config f := by
  induction h with
  | start => exact .refl
  | pool _ hp he ih => exact ih.tail (.pool hp he)
  | close _ ih => exact ih.tail (.close _)
  | @serve log f f' r _ hs ih =>
    generalize r.id = id at hs
    cases hs with
    | found h => exact ih
    | created now h => exact ih.tail (.create now h)

/-- A scenario gives out the pools of a fleet. -/
theorem Shows.serves {w w' : World} (h : f.Shows w) {network address : String} {id : PoolId}
    (hw : w.fetchPool network address = (.ok id, w')) :
    ∃ f', f.Serves network address id f' ∧ f'.Shows w' := by
  cases hl : f.registry.lookup network address with
  | refused =>
    rw [World.fetchPool, h.registry, hl] at hw
    cases hw
  | found id' =>
    rw [World.fetchPool, h.registry, hl] at hw
    cases hw
    exact ⟨f, .found hl, h⟩
  | missing =>
    have hshows := h.create 0 hl
    rw [hw] at hshows
    rw [World.fetchPool, h.registry, hl] at hw
    cases hw
    exact ⟨_, by rw [h.size]; exact .created 0 hl, hshows⟩

end Filed

/-- No two of the pairs that were asked for have one name. -/
def Distinct (log : List Served) : Prop :=
  ∀ r ∈ log, ∀ r' ∈ log, r.name = r'.name → r.pair = r'.pair

theorem distinct_of_plain {log : List Served} (h : ∀ r ∈ log, '_' ∉ r.network.toList) :
    Distinct log :=
  fun r hr r' hr' hn => Registry.pair_eq_of_key_eq (h r hr) (h r' hr') hn

theorem Served.name_of_pair {r r' : Served} (h : r.pair = r'.pair) : r.name = r'.name := by
  obtain ⟨hn, ha⟩ := Prod.mk.inj h
  rw [name, name, hn, ha]

section Filed
variable {config : Config} {log : List Served} {f : Fleet}

theorem Filed.exists_pool (h : Filed log f) {r : Served} (hr : r ∈ log) :
    ∃ r₀ s, first? log r.name = some r₀ ∧ f.pools[r.id]? = some s ∧ s.pool.pair = r₀.pair := by
  obtain ⟨r₀, hfirst, -, hpair⟩ := h.given r hr
  rw [getElem?_pairs] at hpair
  obtain ⟨s, hs, hp⟩ := Option.map_eq_some_iff.1 hpair
  exact ⟨r₀, s, hfirst, hs, hp⟩

/-- There is one pool for each name. -/
theorem Filed.id_eq_iff (h : Filed log f) {r r' : Served} (hr : r ∈ log) (hr' : r' ∈ log) :
    r.id = r'.id ↔ r.name = r'.name := by
  obtain ⟨r₀, hfirst, hid, hpair⟩ := h.given r hr
  obtain ⟨r₀', hfirst', hid', hpair'⟩ := h.given r' hr'
  constructor
  · intro heq
    rw [heq, hpair'] at hpair
    rw [← (of_first? hfirst).2, ← (of_first? hfirst').2]
    exact Served.name_of_pair (Option.some.inj hpair).symm
  · intro heq
    rw [heq, hfirst'] at hfirst
    cases hfirst
    exact hid.symm.trans hid'

/-- The pools are those of the pairs just if no two pairs have one name. -/
theorem Filed.distinct_iff (h : Filed log f) :
    Distinct log ↔ ∀ r ∈ log, (∃ s, f.pools[r.id]? = some s ∧ s.pool.pair = r.pair) ∧
      ∀ r' ∈ log, (r.id = r'.id ↔ r.pair = r'.pair) := by
  constructor
  · intro hd r hr
    obtain ⟨r₀, s, hfirst, hs, hp⟩ := h.exists_pool hr
    obtain ⟨hmem, hname⟩ := of_first? hfirst
    refine ⟨⟨s, hs, hp.trans (hd r₀ hmem r hr hname)⟩, fun r' hr' => ?_⟩
    rw [h.id_eq_iff hr hr']
    exact ⟨hd r hr r' hr', Served.name_of_pair⟩
  · intro hall r hr r' hr' hname
    exact ((hall r hr).2 r' hr').1 ((h.id_eq_iff hr hr').2 hname)

theorem Course.get?_eq (h : Course config log f) (network address : String) :
    f.registry.get? network address =
      if f.registry.closed then none
      else (first? log (Registry.key network address)).map Served.id := by
  split
  next hc =>
    rw [Registry.get?, h.reachable.kept.entries hc]
    rfl
  next hc => exact h.filed.finds (Bool.eq_false_of_not_eq_true hc) _

end Filed

/-- Whoever asks for a pool gets the one that was created for the first who asked for a pair of the
same name, and until the registry is closed all who ask for one name get one pool. So each pool is
for the pair that was asked for, and two pairs never share one, just if no two of the pairs that
were asked for have one name; this is so if no network has an underscore. A pool that is for a
network that there is not says so at every dial. -/
theorem filed_by_name {config : Config} {log : List Served} {f : Fleet} (h : Course config log f) :
    (∀ r ∈ log, ∃ r₀ s, first? log r.name = some r₀ ∧ f.pools[r.id]? = some s ∧
      s.pool.pair = r₀.pair) ∧
    (∀ r ∈ log, ∀ r' ∈ log, r.id = r'.id ↔ r.name = r'.name) ∧
    (∀ network address, f.registry.get? network address =
      if f.registry.closed then none
      else (first? log (Registry.key network address)).map Served.id) ∧
    (Distinct log ↔ ∀ r ∈ log, (∃ s, f.pools[r.id]? = some s ∧ s.pool.pair = r.pair) ∧
      ∀ r' ∈ log, (r.id = r'.id ↔ r.pair = r'.pair)) ∧
    ((∀ r ∈ log, '_' ∉ r.network.toList) → Distinct log) ∧
    (∀ s ∈ f.pools, IsUnsupported s.pool.network →
      ∀ attempt remaining begun now done (α : Type) (reach : Reach α),
        let d := Dial.start s.pool attempt remaining begun
        d.poll (d.connect reach) done now =
          some (.error (.dial ("unsupported network " ++ Text.Quoted.quote s.pool.network)))) ∧
    (∀ w w' : World, f.Shows w → ∀ network address id, w.fetchPool network address = (.ok id, w') →
      ∃ f', f.Serves network address id f' ∧ f'.Shows w') := by
  have hfiled := h.filed
  refine ⟨fun r hr => hfiled.exists_pool hr, fun r hr r' hr' => hfiled.id_eq_iff hr hr', h.get?_eq,
    hfiled.distinct_iff, distinct_of_plain, ?_, fun w w' hw network address id hf => hw.serves hf⟩
  exact fun s _ hs attempt remaining begun now done α reach =>
    poll_of_isUnsupported hs attempt remaining begun now reach done

/-- A pool for a socket file and one for an address of TCP. -/
theorem filed_by_name_plain : ∃ f,
    Course {} [⟨"unix", "a_b", 0⟩, ⟨"tcp", "b", 1⟩] f ∧
    ∃ s, f.pools[1]? = some s ∧ s.pool.pair = ("tcp", "b") := by
  have h1 : Course {} ([] ++ [⟨"unix", "a_b", 0⟩]) _ := .serve .start (.created 0 rfl)
  have h2 : Course {} ([⟨"unix", "a_b", 0⟩] ++ [⟨"tcp", "b", 1⟩]) _ :=
    .serve h1 (.created 0 (by decide))
  obtain ⟨-, -, -, hdistinct, hplain, -, -⟩ := filed_by_name h2
  exact ⟨_, h2, (hdistinct.1 (hplain (by decide)) ⟨"tcp", "b", 1⟩ (by simp)).1⟩

/-- Someone asks for a pool on a network that there is not, and gets the pool of a socket file. -/
theorem pool_of_another_pair : ∃ f s,
    Course {} [⟨"unix", "a_b", 0⟩, ⟨"unix_a", "b", 0⟩] f ∧ IsUnsupported "unix_a" ∧
    f.pools[0]? = some s ∧ s.pool.pair = ("unix", "a_b") := by
  have h1 : Course {} ([] ++ [⟨"unix", "a_b", 0⟩]) _ := .serve .start (.created 0 rfl)
  have h2 : Course {} ([⟨"unix", "a_b", 0⟩] ++ [⟨"unix_a", "b", 0⟩]) _ :=
    .serve h1 (.found (by decide))
  exact ⟨_, _, h2, by decide, rfl, rfl⟩

end Fleet

end Courier.Pool

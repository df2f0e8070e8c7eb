import Courier.Proofs.Pool.Account
import Courier.Proofs.Pool.Fleet
import Courier.Scenario.Run

/-!
# The counters of a registry

All pools of a registry count into one table, and the registry counts besides in it the calls that
it refuses itself. The books have an account for every pool, also for those that the registry does
not find any more. In every state the table is the sum of the accounts, up to the width of its
words, so what holds of one account holds of all of them together.
-/
namespace Courier

/-- Words wrap around as often as they must. -/
theorem Counters.get_foldl (counts : List Counter) (t : Counters) (counter : Counter) :
    (counts.foldl increment t).get counter = t.get counter +
      UInt64.ofNat (counts.count counter) := by
  induction counts generalizing t with
  | nil => exact (UInt64.add_zero _).symm
  | cons first rest ih =>
    rw [List.foldl_cons, ih, increment]
    by_cases h : counter = first
    · rw [h, get_add_self, List.count_cons_self, UInt64.add_assoc, Nat.add_comm, UInt64.ofNat_add]
      rfl
    · rw [get_add_of_ne _ _ h, List.count_cons_of_ne (Ne.symm h)]

namespace Pool
open Scenario (World)

/-- A registry, the configuration of its pools, the accounts of all pools that were created, by
their numbers, the table of counters, and how many calls the registry has refused. -/
structure Books where
  registry : Registry
  config : Config
  accounts : List Account
  table : Counters
  refused : Nat

namespace Books

def start (config : Config) : Books := ⟨.empty, config, [], .zero, 0⟩

/-- The registry and its pools. -/
def fleet (b : Books) : Fleet := ⟨b.registry, b.config, b.accounts.map Account.life⟩

/-- Something is counted in one of the accounts. -/
def book (b : Books) (id : PoolId) (counts : List Counter) (x : Account) : Books :=
  { b with accounts := b.accounts.set id x, table := counts.foldl Counters.increment b.table }

/-- A pool is created and filed. -/
def create (b : Books) (network address : String) (now : Instant) : Books :=
  { b with
    registry := b.registry.add network address b.accounts.length
    accounts := b.accounts ++ [.start network address b.config now] }

/-- The registry refuses a call. -/
def refuse (b : Books) : Books :=
  { b with table := b.table.increment .getConnectionErr, refused := b.refused + 1 }

/-- The registry is closed with all pools that it finds. -/
def shut (b : Books) : Books :=
  { b with
    registry := b.registry.close
    accounts := b.accounts.mapIdx fun id x =>
      if id ∈ b.fleet.filed then { x with life := x.life.shut } else x }

/-- What can happen to a registry and its pools. -/
inductive Step : Books → Books → Prop
  | book {b : Books} {id : PoolId} {x x' : Account} {counts : List Counter}
      (hx : b.accounts[id]? = some x) (h : x.Step counts x') : Step b (b.book id counts x')
  | create {b : Books} {network address : String} (now : Instant)
      (h : b.registry.lookup network address = .missing) : Step b (b.create network address now)
  | refuse {b : Books} {network address : String}
      (h : b.registry.lookup network address = .refused) : Step b b.refuse
  | close (b : Books) : Step b b.shut

def Reachable (config : Config) (b : Books) : Prop := Relation.ReflTransGen Step (start config) b

/-- The sum over all accounts. -/
def total (b : Books) (f : Account → Nat) : Nat := (b.accounts.map f).sum

section Total
variable {b : Books} {f g : Account → Nat}

theorem sum_set {α : Type} {l : List α} {i : Nat} {x x' : α} {f : α → Nat} {n : Nat}
    (h : l[i]? = some x) (hf : f x' = f x + n) : ((l.set i x').map f).sum = (l.map f).sum + n := by
  induction l generalizing i with
  | nil => cases h
  | cons y rest ih =>
    cases i with
    | zero =>
      cases h
      rw [List.set_cons_zero, List.map_cons, List.map_cons, List.sum_cons, List.sum_cons, hf,
        Nat.add_right_comm]
    | succ i =>
      rw [List.set_cons_succ, List.map_cons, List.map_cons, List.sum_cons, List.sum_cons, ih h,
        Nat.add_assoc]

theorem total_add : b.total (fun x => f x + g x) = b.total f + b.total g := List.sum_map_add

theorem total_congr (h : ∀ x ∈ b.accounts, f x = g x) : b.total f = b.total g :=
  congrArg List.sum (List.map_congr_left h)

theorem total_le (h : ∀ x ∈ b.accounts, f x ≤ g x) : b.total f ≤ b.total g := List.sum_le_sum h

end Total

/-! ## What holds of the books -/

/-- Every account is right, and the table is the sum of the accounts. -/
structure Kept (config : Config) (b : Books) : Prop where
  configured : b.config = config
  sound : ∀ x ∈ b.accounts, x.Sound config
  table : ∀ counter, b.table.get counter =
    .ofNat ((b.total fun x => x.counts.count counter) +
      if counter = .getConnectionErr then b.refused else 0)

section Kept
variable {config : Config} {b b' : Books}

theorem Kept.book (h : b.Kept config) {id : PoolId} {x x' : Account} {counts : List Counter}
    (hx : b.accounts[id]? = some x) (hs : x.Step counts x') :
    (b.book id counts x').Kept config where
  configured := h.configured
  sound y hy := by
    obtain hy | rfl := List.mem_or_eq_of_mem_set hy
    · exact h.sound y hy
    · exact (h.sound x (List.mem_of_getElem? hx)).step hs
  table counter := by
    have hcount : x'.counts.count counter = x.counts.count counter + counts.count counter := by
      rw [hs.counts_eq, List.count_append]
    show (counts.foldl Counters.increment b.table).get counter =
      .ofNat (((b.accounts.set id x').map fun x => x.counts.count counter).sum + _)
    rw [Counters.get_foldl, h.table, sum_set hx hcount, ← UInt64.ofNat_add, Nat.add_right_comm]
    rfl

theorem Kept.create (h : b.Kept config) (network address : String) (now : Instant) :
    (b.create network address now).Kept config where
  configured := h.configured
  sound y hy := by
    obtain hy | hy := List.mem_append.1 hy
    · exact h.sound y hy
    · rw [List.mem_singleton.1 hy, h.configured]
      exact Account.sound_start network address config now
  table counter := by
    rw [total, Books.create, List.map_append, List.sum_append]
    exact h.table counter

theorem Kept.refuse (h : b.Kept config) : b.refuse.Kept config where
  configured := h.configured
  sound := h.sound
  table counter := by
    show (b.table.add .getConnectionErr 1).get counter = .ofNat (b.total _ + _)
    by_cases hc : counter = .getConnectionErr
    · rw [hc, Counters.get_add_self, h.table, if_pos rfl, if_pos rfl, Books.refuse, ← Nat.add_assoc,
        UInt64.ofNat_add (_ + _)]
      rfl
    · rw [Counters.get_add_of_ne _ _ hc, h.table, if_neg hc, if_neg hc]

theorem counts_shut (b : Books) (counter : Counter) :
    (b.shut.total fun x => x.counts.count counter) = b.total fun x => x.counts.count counter := by
  refine congrArg List.sum (List.ext_getElem? fun id => ?_)
  rw [List.getElem?_map, List.getElem?_map, shut, List.getElem?_mapIdx, Option.map_map]
  congr 1
  funext x
  show (if id ∈ b.fleet.filed then _ else x).counts.count counter = _
  split <;> rfl

theorem Kept.shut (h : b.Kept config) : b.shut.Kept config where
  configured := h.configured
  sound y hy := by
    obtain ⟨id, hid, rfl⟩ := List.mem_mapIdx.1 hy
    have hx := h.sound _ (List.getElem_mem hid)
    split
    · exact hx.step (.tend (.close _))
    · exact hx
  table counter := by
    rw [counts_shut]
    exact h.table counter

theorem Kept.step (h : b.Kept config) (hstep : Step b b') : b'.Kept config := by
  cases hstep with
  | book hx hs => exact h.book hx hs
  | create now hm => exact h.create _ _ now
  | refuse => exact h.refuse
  | close => exact h.shut

theorem Reachable.kept (h : Reachable config b) : b.Kept config := by
  induction h with
  | refl =>
    refine ⟨rfl, List.forall_mem_nil _, fun counter => ?_⟩
    rw [start, Counters.get_zero]
    cases counter <;> rfl
  | tail _ hstep ih => exact ih.step hstep

/-- No sweep of any pool is under way. -/
def IsUnswept (b : Books) : Prop := ∀ x ∈ b.accounts, x.life.sweeps = 0

/-- The table says how often each thing has happened. Each connection that was closed because it had
failed a check has failed it for one cause, and the counter of that cause says so; those whose peer
had closed them are among them. -/
structure Reconciles (config : Config) (b : Books) : Prop where
  newConnection : b.table.get .newConnection =
    .ofNat (b.total fun x => x.life.opens.length + x.life.closed.length)
  getConnectionErr : b.table.get .getConnectionErr = .ofNat (b.total (·.faults.length) + b.refused)
  evicted : b.IsUnswept →
    b.table.get .remoteErr + b.table.get .idleTimeout + b.table.get .lifetimeExceed =
      .ofNat (b.total fun x => (x.evicted config fun _ => true).length)
  cause : ∀ x ∈ b.accounts, ∀ id ∈ x.evicted config fun _ => true,
    ∃! cause, cause ∈ Checkup.causes ∧ id ∈ x.evicted config (·.isFor config cause)
  found : b.IsUnswept → ∀ cause ∈ Checkup.causes, b.table.get cause =
    .ofNat (b.total fun x => (x.evicted config (·.isFor config cause)).length)
  ended : b.IsUnswept → b.table.get .remoteEof =
    .ofNat (b.total fun x => (x.evicted config (·.isEnded)).length)
  ended_le : b.total (fun x => (x.evicted config (·.isEnded)).length) ≤
    b.total fun x => (x.evicted config (·.isFor config .remoteErr)).length

theorem Kept.get_eq (h : b.Kept config) (counter : Counter) (hc : counter ≠ .getConnectionErr)
    {f : Account → Nat} (hf : ∀ x ∈ b.accounts, x.counts.count counter = f x) :
    b.table.get counter = .ofNat (b.total f) := by
  rw [h.table, if_neg hc, Nat.add_zero, total_congr hf]

theorem Kept.reconciles (h : b.Kept config) : b.Reconciles config where
  newConnection := h.get_eq .newConnection nofun fun x hx => (h.sound x hx).count_newConnection
  getConnectionErr := by
    rw [h.table, if_pos rfl, total_congr fun x hx => (h.sound x hx).tallies.returned]
  evicted hs := by
    rw [h.get_eq .remoteErr nofun fun x _ => rfl, h.get_eq .idleTimeout nofun fun x _ => rfl,
      h.get_eq .lifetimeExceed nofun fun x _ => rfl, ← UInt64.ofNat_add, ← UInt64.ofNat_add,
      ← total_add,
      ← total_add, total_congr fun x hx => (h.sound x hx).length_evicted_all (hs x hx)]
  cause x hx id hid := (h.sound x hx).existsUnique_cause hid
  found hs cause hc := by
    refine h.get_eq cause ?_ fun x hx => (h.sound x hx).count_found (hs x hx)
      (List.mem_cons_of_mem _ hc)
    rintro rfl
    exact absurd hc (by decide)
  ended hs := by
    refine h.get_eq .remoteEof nofun fun x hx =>
      ((h.sound x hx).count_found (hs x hx) (by decide)).trans ?_
    simp only [Checkup.isFor_remoteEof]
  ended_le := total_le fun x _ => x.length_evicted_le fun _ => Checkup.isFor_remoteErr_of_isEnded

end Kept

/-! ## The books of a scenario -/

section Fleet
variable (b : Books)

theorem fleet_book (id : PoolId) (counts : List Counter) (x : Account) :
    (b.book id counts x).fleet = { b.fleet with pools := b.fleet.pools.set id x.life } := by
  simp [fleet, book]

theorem fleet_create (network address : String) (now : Instant) :
    (b.create network address now).fleet = b.fleet.create network address now := by
  simp [fleet, create, Fleet.create, Account.start]

theorem fleet_shut : b.shut.fleet = b.fleet.shut := by
  simp only [fleet, shut, Fleet.shut, Fleet.mk.injEq, true_and]
  apply List.ext_getElem?
  intro id
  simp only [List.getElem?_map, List.getElem?_mapIdx, Option.map_map]
  congr 1
  funext x
  show (if id ∈ b.fleet.filed then { x with life := x.life.shut } else x).life =
    if id ∈ b.fleet.filed then x.life.shut else x.life
  split <;> rfl

theorem getElem?_fleet (id : PoolId) : b.fleet.pools[id]? = b.accounts[id]?.map Account.life :=
  List.getElem?_map

end Fleet

/-- The pools of a scenario are those of the books, and so is its table. -/
structure Shows (b : Books) (w : World) : Prop where
  fleet : b.fleet.Shows w
  table : w.counters = b.table

section Shows
variable {b : Books} {w : World} {id : PoolId} {x x' : Account} {counts : List Counter}

theorem Shows.poolAt (h : b.Shows w) (hx : b.accounts[id]? = some x) :
    w.poolAt id = x.life.pool := by
  rw [World.poolAt, h.fleet.pools, getElem?_fleet, hx]
  rfl

/-- A scenario begins as the books do. -/
theorem shows_start (s : Scenario.Setup) : (start s.config).Shows (.ofSetup s) :=
  ⟨⟨rfl, rfl, rfl, fun _ => rfl⟩, rfl⟩

theorem counters_startPool (w : World) (id : PoolId) : (w.startPool id).counters = w.counters := by
  obtain ⟨tasks, hw⟩ := Fleet.startPool_eq w id
  rw [hw]

theorem counters_closePool (w : World) (id : PoolId) : (w.closePool id).counters = w.counters := by
  obtain ⟨sessions, hw⟩ := Fleet.closePool_eq w id
  rw [hw]
  rfl

theorem Shows.close (h : b.Shows w) : b.shut.Shows w.closeFiled where
  fleet := by
    rw [fleet_shut]
    exact h.fleet.close
  table := by
    have hfold (entries : List (String × PoolId)) (w : World) :
        (entries.foldl (fun w entry => w.closePool entry.2) w).counters = w.counters := by
      induction entries generalizing w with
      | nil => rfl
      | cons entry rest ih => exact (ih _).trans (counters_closePool _ _)
    exact (hfold _ w).trans h.table

theorem Shows.fetch (h : b.Shows w) (network address : String) :
    ∃ b', (b' = b ∨ b.Step b') ∧ b'.Shows (w.fetchPool network address).2 := by
  have hregistry : w.registry = b.registry := h.fleet.registry
  cases hl : b.registry.lookup network address with
  | refused =>
    refine ⟨b.refuse, .inr (.refuse hl), ?_⟩
    rw [World.fetchPool, hregistry, hl]
    exact ⟨h.fleet.same rfl rfl rfl, congrArg (Counters.increment · .getConnectionErr) h.table⟩
  | found id =>
    refine ⟨b, .inl rfl, ?_⟩
    rw [World.fetchPool, hregistry, hl]
    exact h
  | missing =>
    refine ⟨b.create network address 0, .inr (.create 0 hl), ?_, ?_⟩
    · rw [fleet_create]
      exact h.fleet.create 0 hl
    · rw [World.fetchPool, hregistry, hl]
      exact (counters_startPool _ _).trans h.table

/-- A step of a pool is carried out that has counted, or counts now, what is booked. -/
theorem shows_commit (h : b.fleet.Shows w) {σ : Type} {m : Pool.Step σ}
    (ht : m.counts.foldl Counters.increment w.counters = counts.foldl Counters.increment b.table)
    (hx : b.accounts[id]? = some x) (hp : x'.life.pool = m.pool) :
    (b.book id counts x').Shows (w.commit id m).1 where
  fleet := by
    rw [fleet_book]
    exact h.commit (by rw [getElem?_fleet, hx, Option.map_some]) hp
  table := by
    obtain ⟨sessions, hw⟩ := Fleet.closeConns_eq (w.setPool id m.pool) m.closes
    rw [World.commit, hw]
    exact ht

theorem probe_eq (w : World) (c : Conn) :
    ∃ found sessions, w.probe c = (found, { w with sessions }) := by
  unfold World.probe
  split
  · exact ⟨_, w.sessions, rfl⟩
  · exact ⟨_, _, rfl⟩

/-- A scenario checks a connection and counts what it finds, as the books say, before it carries out
the step. -/
def Notes (b : Books) (w : World) (id : PoolId) (x : Account) (c : Conn) (fast : Bool) : Prop :=
  ∃ k : Checkup, k.conn = c ∧ k.fast = fast ∧ k.moment = w.now ∧
    (w.builtInCheck id c fast).1 = (k.verdict x.life.pool.config).healthy ∧
    ∀ {x' : Account} {σ : Type} {m : Pool.Step σ}, x'.life.pool = m.pool → m.counts = [] →
      (b.book id (k.verdict x.life.pool.config).counts x').Shows
        ((w.builtInCheck id c fast).2.commit id m).1

theorem Shows.notes (h : b.Shows w) (hx : b.accounts[id]? = some x) (c : Conn) (fast : Bool) :
    b.Notes w id x c fast := by
  obtain ⟨found, sessions, hprobe⟩ := probe_eq w c
  have hpool : World.poolAt { w with sessions } id = x.life.pool := h.poolAt hx
  refine ⟨⟨c, fast, found, w.now⟩, rfl, rfl, rfl, ?_⟩
  rw [World.builtInCheck, hprobe]
  dsimp only
  rw [hpool]
  refine ⟨rfl, fun hp hm => shows_commit ?_ ?_ hx hp⟩
  · exact h.fleet.same rfl rfl rfl
  · rw [hm, ← h.table]
    rfl

theorem Shows.report (h : b.Shows w) (hx : b.accounts[id]? = some x) (hl : x'.life = x.life)
    {conn : String} {context : Context} {ticket : Ticket} {f : Fault} :
    (b.book id [.getConnectionErr] x').Shows
      (w.turnGet conn true id context ticket (.failed f)).1 where
  fleet := by
    have hlife : b.fleet.pools[id]? = some x.life := by rw [getElem?_fleet, hx, Option.map_some]
    obtain ⟨hlt, hget⟩ := List.getElem?_eq_some_iff.1 hlife
    rw [fleet_book, hl, ← hget, List.set_getElem_self]
    exact h.fleet.same rfl rfl rfl
  table := congrArg (Counters.increment · .getConnectionErr) h.table

end Shows

/-- A scenario goes on to show the books, whatever it does with the registry and its pools. A step
of an operation is carried out with all that it counts, and a call through the registry is told that
it has failed. -/
structure Follows (b : Books) (w : World) : Prop where
  fetch : ∀ network address, ∃ b', (b' = b ∨ b.Step b') ∧ b'.Shows (w.fetchPool network address).2
  close : b.shut.Shows w.closeFiled
  commit : ∀ {id : PoolId} {x x' : Account} {σ : Type} {m : Pool.Step σ}, b.accounts[id]? = some x →
    x'.life.pool = m.pool → (b.book id m.counts x').Shows (w.commit id m).1
  check : ∀ {id : PoolId} {x : Account}, b.accounts[id]? = some x → ∀ c fast, b.Notes w id x c fast
  report : ∀ {id : PoolId} {x x' : Account}, b.accounts[id]? = some x → x'.life = x.life →
    ∀ conn context ticket f, (b.book id [.getConnectionErr] x').Shows
      (w.turnGet conn true id context ticket (.failed f)).1

theorem Shows.follows {b : Books} {w : World} (h : b.Shows w) : b.Follows w where
  fetch := h.fetch
  close := h.close
  commit hx hp := shows_commit h.fleet (by rw [h.table]) hx hp
  check hx := h.notes hx
  report hx hl _ _ _ _ := h.report hx hl

/-- What happens to one of the pools is in the books. -/
theorem Kept.exists_step {config : Config} {b : Books} (h : b.Kept config)
    (hc : config.customCheck = false) {id : PoolId} {s s' : Life} (hs : b.fleet.pools[id]? = some s)
    (hstep : s.Step s') :
    ∃ b', b.Step b' ∧ b'.fleet = { b.fleet with pools := b.fleet.pools.set id s' } := by
  rw [getElem?_fleet] at hs
  obtain ⟨x, hx, rfl⟩ := Option.map_eq_some_iff.1 hs
  have hconfig : x.life.pool.config = config :=
    (h.sound x (List.mem_of_getElem? hx)).reachable.configured.1
  obtain ⟨counts, x', hx', rfl⟩ := Account.exists_step (by rw [hconfig, hc]) hstep
  exact ⟨_, .book hx hx', fleet_book b id counts x'⟩

/-- The counters of a registry agree with what has happened in its pools. The connections opened are
those that are open and those that were closed. As long as no sweep is under way, three counters
together are the number of connections that were closed because they had failed a check, each of
them being counted by one of the three, and those whose peer had closed them are a part of one of
these. The calls that have failed are those through the registry that have returned a fault. Every
step of a pool with the built-in check is in the books, and a scenario shows them from its beginning
and goes on to do so. -/
theorem counters_reconcile {config : Config} {b : Books} (h : Reachable config b) :
    b.Reconciles config ∧
    (config.customCheck = false → ∀ id s s', b.fleet.pools[id]? = some s → s.Step s' →
      ∃ b', b.Step b' ∧ b'.fleet = { b.fleet with pools := b.fleet.pools.set id s' }) ∧
    (∀ setup : Scenario.Setup, (start setup.config).Shows (.ofSetup setup)) ∧
    ∀ w, b.Shows w → b.Follows w :=
  ⟨h.kept.reconciles, fun hc _ _ _ hs hstep => h.kept.exists_step hc hs hstep, shows_start,
    fun _ hw => hw.follows⟩

/-- A registry with one pool, whose account goes on. -/
theorem exists_books {config : Config} {network address : String} {x : Account}
    (h : Account.Leads (.start network address config 0) x) :
    ∃ b, Reachable config b ∧ b.accounts = [x] ∧ b.refused = 0 := by
  induction h with
  | refl => exact ⟨_, .single (.create 0 rfl), rfl, rfl⟩
  | @tail x x' _ hstep ih =>
    obtain ⟨b, hb, haccounts, hrefused⟩ := ih
    obtain ⟨counts, hstep⟩ := hstep
    have hx : b.accounts[0]? = some x := by rw [haccounts, List.getElem?_cons_zero]
    refine ⟨_, hb.tail (.book hx hstep), ?_, hrefused⟩
    rw [book, haccounts, List.set_cons_zero]

/-- A top-up opens the only connection of a pool, its peer closes it, and a sweep finds this out.
Then the pool is closed, and someone calls. -/
theorem exists_evicted : ∃ x : Account,
    Account.Leads (.start "tcp" "10.0.0.1:80" { minIdle := 1 } 0) x ∧
    x.life.sweeps = 0 ∧ x.life.opens = [] ∧ x.life.closed = [0] ∧ x.faults = [.poolClosed] ∧
    x.evicted { minIdle := 1 } (fun _ => true) = [0] ∧ x.evicted { minIdle := 1 }
      (·.isEnded) = [0] := by
  let c : Conn := ⟨0, "10.0.0.1:80", none, 0, 0⟩
  let x : Account := .start "tcp" "10.0.0.1:80" { minIdle := 1 } 0
  let d : Dial := .start { x.life.pool with active := 1 } 0 none 0
  have hd : d.Ends 0 (.ok c) := ⟨some (.ok c), none, .connected c, rfl⟩
  have h1 : x.Leads _ := .single ⟨_, .tend (.topUp x.life)⟩
  have h2 := h1.tail ⟨_, .advance (show _ = [] ++ .topUp ⟨[] ++ .waiting :: []⟩ :: [] from rfl)
    (.dial (.begin 0)) (List.forall_mem_nil _) (.nothing nofun)⟩
  have h3 := h2.tail ⟨_, .advance (show _ = [] ++ .topUp ⟨[] ++ .dialing d :: []⟩ :: [] from rfl)
    (.dial (.finish hd)) (fun _ _ => List.not_mem_nil) (.nothing nofun)⟩
  have h4 := h3.tail ⟨_, .advance (show _ = [] ++ .topUp ⟨[.ready c]⟩ :: [] from rfl)
    (.finishTopUp rfl) (List.forall_mem_nil _) (.nothing nofun)⟩
  have h5 := h4.tail ⟨_, .tend (.sweep rfl)⟩
  have h6 := h5.tail ⟨_, .advance (show _ = [] ++ .sweep ⟨[c], [], []⟩ :: [.over] from rfl)
    (.judge rfl (.inr ⟨.ended, rfl⟩)) (List.forall_mem_nil _)
    (.checkup ⟨c, false, .ended, 0⟩ rfl (.full rfl _))⟩
  let counts : List Counter := [.newConnection, .remoteEof, .remoteErr]
  let life : Life :=
    { x.life with activities := [.over, .over], opened := [0], closed := [0], counts }
  have h7 : x.Leads { x with life, counts, checkups := [⟨c, false, .ended, 0⟩] } :=
    h6.tail ⟨_, .advance (show _ = [] ++ .sweep ⟨[], [], [c]⟩ :: [.over] from rfl)
      (.finishSweep rfl) (List.forall_mem_nil _) (.nothing nofun)⟩
  have h8 := (h7.tail ⟨_, .tend (.close _)⟩).tail ⟨_, .call _ (Nat.le_refl 0)⟩
  have h9 := h8.tail ⟨_, .advance (show _ = [] ++ .get 0 .arriving :: [.over, .over] from rfl)
    (.get (.arrive none)) (List.forall_mem_nil _) (.nothing nofun)⟩
  have h10 := h9.tail
    ⟨_, .advance (show _ = [] ++ .get 0 (.popping false) :: [.over, .over] from rfl)
      (.get (.pop false)) (List.forall_mem_nil _) (.nothing nofun)⟩
  have h11 := h10.tail
    ⟨_, .advance (show _ = [] ++ .get 0 (.exhausted false) :: [.over, .over] from rfl)
      (.get (.beginDial false 0 none none)) (List.forall_mem_nil _) (.nothing nofun)⟩
  have hfailed :
      Activity.get 0 (.failed .poolClosed) ∈ [.get 0 (.failed .poolClosed), .over, .over] :=
    List.mem_cons_self
  exact ⟨_, h11.tail ⟨_, .report hfailed List.mem_cons_self⟩, rfl, rfl, rfl, rfl, rfl, rfl⟩

/-- One connection was opened and closed because its peer had closed it, and one call has failed. -/
theorem counters_reconcile_evicted :
    ∃ b, Reachable { minIdle := 1 } b ∧ b.table.get .newConnection = 1 ∧
      b.table.get .remoteErr + b.table.get .idleTimeout + b.table.get .lifetimeExceed = 1 ∧
      b.table.get .remoteEof = 1 ∧ b.table.get .getConnectionErr = 1 := by
  obtain ⟨x, hx, hsweeps, hopens, hclosed, hfaults, hevicted, hended⟩ := exists_evicted
  obtain ⟨b, hb, haccounts, hrefused⟩ := exists_books hx
  obtain ⟨hr, -, -, -⟩ := counters_reconcile hb
  have htotal (f : Account → Nat) : b.total f = f x := by simp [total, haccounts]
  have hunswept : b.IsUnswept := by simpa [IsUnswept, haccounts] using hsweeps
  refine ⟨b, hb, ?_, ?_, ?_, ?_⟩
  · rw [hr.newConnection, htotal, hopens, hclosed]
    rfl
  · rw [hr.evicted hunswept, htotal, hevicted]
    rfl
  · rw [hr.ended hunswept, htotal, hended]
    rfl
  · rw [hr.getConnectionErr, htotal, hfaults, hrefused]
    rfl

end Books

end Pool

end Courier

import Courier.Counter.Snapshot
import Mathlib.Algebra.BigOperators.Group.Finset.Basic
import Mathlib.Algebra.Ring.Nat
import Mathlib.Data.Fintype.Defs
import Mathlib.Data.List.DropRight

/-!
# Histories of a table of counts

A table is counted in, reset and put into snapshots in any order. A count is the sum of what was
added to its counter since the last reset, up to the width of a word. A snapshot shows every counter
once, under its name and with its count at that moment, and keeps what it shows. What is counted at
a sink without a table leaves no trace.
-/
namespace Courier

namespace Counter

theorem nodup_all : all.Nodup := by decide

instance : Fintype Counter := ⟨⟨all, nodup_all⟩, mem_all⟩

theorem name_injective {a b : Counter} (h : a.name = b.name) : a = b := by
  cases a <;> cases b <;> simp [name] at h ⊢

end Counter

/-! ## What a snapshot shows -/

namespace Snapshot

/-- Every counter stands in the snapshot just once, under its name and with its count in the table,
and nothing else does. The counts are found by their counters, and they add up as words do. -/
structure Shows (s : Snapshot) (t : Counters) : Prop where
  once : ∀ c : Counter, (s.counters.entries.filter fun e => e.1 = c.name) = [(c.name, t.get c)]
  only : ∀ e ∈ s.counters.entries, ∃ c : Counter, e.1 = c.name
  get : ∀ c, s.get c = t.get c
  total : s.total.toNat = (∑ c, (t.get c).toNat) % 2 ^ 64

variable (t : Counters) (uptime timestamp : UInt64)

theorem entries_ofCounters :
    (ofCounters t uptime timestamp).counters.entries.Perm
      (Counter.all.map fun c => (c.name, t.get c)) := by
  refine TextMap.entries_ofList_perm ?_
  rw [List.map_map]
  exact Counter.nodup_all.map fun _ _ h => Counter.name_injective h

/-- The sum of words is the sum of their numbers, up to the width of a word. -/
theorem toNat_foldl_add (l : List (String × UInt64)) (n : UInt64) :
    (l.foldl (fun n e => n + e.2) n).toNat =
      (n.toNat + (l.map fun e => e.2.toNat).sum) % 2 ^ 64 := by
  induction l generalizing n with
  | nil => exact (Nat.mod_eq_of_lt n.toNat_lt).symm
  | cons e l ih => simp [ih, UInt64.toNat_add, Nat.add_assoc]

theorem shows_ofCounters : (ofCounters t uptime timestamp).Shows t := by
  have hperm := entries_ofCounters t uptime timestamp
  constructor
  case once =>
    intro c
    have hone : Counter.all.filter (fun d => d.name = c.name) = [c] := by cases c <;> decide
    refine List.perm_singleton.1 ((hperm.filter _).trans (.of_eq ?_))
    rw [List.filter_map]
    exact congrArg (List.map _) hone
  case only =>
    intro e he
    obtain ⟨c, -, rfl⟩ := List.mem_map.1 (hperm.mem_iff.1 he)
    exact ⟨c, rfl⟩
  case get =>
    intro c
    have hmem := hperm.mem_iff.2 (List.mem_map_of_mem (Counter.mem_all c))
    rw [get, TextMap.get?_eq_some_iff.2 hmem, Option.getD_some]
  case total =>
    have hsum := (hperm.map fun e => e.2.toNat).sum_eq
    rw [List.map_map] at hsum
    rw [total, toNat_foldl_add, hsum, UInt64.toNat_zero, Nat.zero_add]
    rfl

end Snapshot

/-! ## Histories -/

namespace Counters

/-- What is done to a table, or to a sink beside it that counts nothing. -/
inductive Operation
  | increment (c : Counter)
  | add (c : Counter) (n : UInt64)
  | reset
  | snapshot (uptimeMillis timestampMillis : UInt64)
  | ignore (c : Counter)
  deriving DecidableEq

namespace Operation

/-- What is added to a counter. -/
def amount (c : Counter) : Operation → Nat
  | increment d => if d = c then 1 else 0
  | add d n => if d = c then n.toNat else 0
  | reset | snapshot _ _ | ignore _ => 0

/-- Whether it is about a counter, as all counters are reset together. -/
def concerns (c : Counter) : Operation → Bool
  | increment d | add d _ => d = c
  | reset => true
  | snapshot _ _ | ignore _ => false

def isSnapshot : Operation → Bool
  | snapshot _ _ => true
  | increment _ | add _ _ | reset | ignore _ => false

def isIgnored : Operation → Bool
  | ignore _ => true
  | increment _ | add _ _ | reset | snapshot _ _ => false

end Operation

/-- A table, the snapshots that were taken of it in their order, and a sink beside it. -/
structure Tally where
  table : Counters
  taken : List Snapshot
  beside : Sink

namespace Tally

def start : Tally := ⟨zero, [], .ignore⟩

def apply (s : Tally) : Operation → Tally
  | .increment c => { s with table := s.table.increment c }
  | .add c n => { s with table := s.table.add c n }
  | .reset => { s with table := zero }
  | .snapshot uptime timestamp =>
    { s with taken := s.taken ++ [.ofCounters s.table uptime timestamp] }
  | .ignore c => { s with beside := s.beside.increment c }

def run (ops : List Operation) : Tally := ops.foldl apply start

/-- What was done since the last reset. -/
def sinceReset (ops : List Operation) : List Operation := ops.rtakeWhile (· ≠ .reset)

theorem sinceReset_concat (ops : List Operation) (op : Operation) :
    sinceReset (ops ++ [op]) = if op = .reset then [] else sinceReset ops ++ [op] := by
  rw [sinceReset, List.rtakeWhile_concat]
  split <;> simp_all [sinceReset]

theorem run_concat (ops : List Operation) (op : Operation) :
    run (ops ++ [op]) = (run ops).apply op := by
  simp [run]

/-! ## Counts -/

theorem toNat_get_add (t : Counters) (c d : Counter) (n : UInt64) :
    ((t.add d n).get c).toNat = ((t.get c).toNat + if d = c then n.toNat else 0) % 2 ^ 64 := by
  by_cases h : d = c
  · rw [h, get_add_self, if_pos rfl, UInt64.toNat_add]
  · rw [get_add_of_ne t n (Ne.symm h), if_neg h]
    exact (Nat.mod_eq_of_lt (t.get c).toNat_lt).symm

/-- A count goes back to zero, or goes up by what is added to its counter. -/
theorem toNat_get_apply (s : Tally) (op : Operation) (c : Counter) :
    ((s.apply op).table.get c).toNat =
      if op = .reset then 0 else ((s.table.get c).toNat + op.amount c) % 2 ^ 64 := by
  have hsame : (s.table.get c).toNat = ((s.table.get c).toNat + 0) % 2 ^ 64 :=
    (Nat.mod_eq_of_lt (s.table.get c).toNat_lt).symm
  cases op with
  | increment d => exact toNat_get_add s.table c d 1
  | add d n => exact toNat_get_add s.table c d n
  | reset => exact congrArg UInt64.toNat (get_zero c)
  | snapshot _ _ => exact hsame
  | ignore _ => exact hsame

theorem toNat_get_run (ops : List Operation) (c : Counter) :
    ((run ops).table.get c).toNat = ((sinceReset ops).map (Operation.amount c)).sum % 2 ^ 64 := by
  induction ops using List.reverseRecOn with
  | nil => exact congrArg UInt64.toNat (get_zero c)
  | append_singleton ops op ih =>
    rw [run_concat, toNat_get_apply, ih, sinceReset_concat]
    split <;> simp

/-! ## What leaves no trace -/

/-- What goes on unseen can be left out: a view that some operations leave as it is, and of which
the next view depends on nothing else, is the same without these operations. -/
theorem view_run_filter {α : Type} (view : Tally → α) (seen : Operation → Bool)
    (hkeep : ∀ ops op, seen op = false → view ((run ops).apply op) = view (run ops))
    (hnext : ∀ s t op, view s = view t → view (s.apply op) = view (t.apply op))
    (ops : List Operation) : view (run (ops.filter seen)) = view (run ops) := by
  induction ops using List.reverseRecOn with
  | nil => rfl
  | append_singleton ops op ih =>
    rw [List.filter_append, run_concat]
    cases h : seen op with
    | true =>
      rw [List.filter_cons_of_pos h, List.filter_nil, run_concat]
      exact hnext _ _ op ih
    | false =>
      rw [List.filter_cons_of_neg (by simp [h]), List.filter_nil, List.append_nil, hkeep _ op h]
      exact ih

theorem amount_of_not_concerns {op : Operation} {c : Counter} (h : op.concerns c = false) :
    op ≠ .reset ∧ op.amount c = 0 := by
  cases op <;> simp_all [Operation.concerns, Operation.amount]

theorem get_run_filter (ops : List Operation) (c : Counter) :
    (run (ops.filter (Operation.concerns c))).table.get c = (run ops).table.get c := by
  refine view_run_filter (fun s => s.table.get c) _ (fun before op h => ?_) (fun s t op h => ?_) ops
  · obtain ⟨hop, hamount⟩ := amount_of_not_concerns h
    refine UInt64.toNat_inj.1 ?_
    rw [toNat_get_apply, if_neg hop, hamount]
    exact Nat.mod_eq_of_lt ((run before).table.get c).toNat_lt
  · refine UInt64.toNat_inj.1 ?_
    have h : s.table.get c = t.table.get c := h
    rw [toNat_get_apply, toNat_get_apply, h]

theorem beside_run (ops : List Operation) : (run ops).beside = .ignore := by
  induction ops using List.reverseRecOn with
  | nil => rfl
  | append_singleton ops op ih =>
    rw [run_concat]
    cases op with
    | ignore c => exact congrArg (Sink.increment · c) ih
    | increment _ | add _ _ | reset | snapshot _ _ => exact ih

theorem run_filter_isIgnored (ops : List Operation) :
    run (ops.filter (!·.isIgnored)) = run ops := by
  refine view_run_filter id _ (fun before op h => ?_) (fun s t op h => congrArg (apply · op) h) ops
  cases op with
  | ignore c =>
    show { run before with beside := (run before).beside.increment c } = run before
    rw [beside_run, Sink.increment, ← beside_run before]
  | increment _ | add _ _ | reset | snapshot _ _ => cases h

/-! ## Snapshots -/

theorem taken_prefix (s : Tally) (later : List Operation) :
    s.taken <+: (later.foldl apply s).taken := by
  induction later generalizing s with
  | nil => exact List.prefix_refl _
  | cons op later ih =>
    refine List.IsPrefix.trans ?_ (ih (s.apply op))
    cases op with
    | snapshot _ _ => exact List.prefix_append _ _
    | increment _ | add _ _ | reset | ignore _ => exact List.prefix_refl _

theorem length_taken (ops : List Operation) :
    (run ops).taken.length = ops.countP Operation.isSnapshot := by
  induction ops using List.reverseRecOn with
  | nil => rfl
  | append_singleton ops op ih =>
    rw [run_concat, List.countP_append, ← ih]
    cases op <;> simp [apply, Operation.isSnapshot]

/-- A snapshot stays at its place, and shows the table as it was then. -/
theorem taken_at (ops later : List Operation) (uptime timestamp : UInt64) :
    (run (ops ++ .snapshot uptime timestamp :: later)).taken[ops.countP Operation.isSnapshot]? =
      some (.ofCounters (run ops).table uptime timestamp) := by
  have hrun : run (ops ++ .snapshot uptime timestamp :: later) =
      later.foldl apply ((run ops).apply (.snapshot uptime timestamp)) := by
    rw [run, List.foldl_append, List.foldl_cons, ← run]
  obtain ⟨more, hmore⟩ := taken_prefix ((run ops).apply (.snapshot uptime timestamp)) later
  rw [hrun, ← hmore, ← length_taken]
  simp [apply]

/-! ## The law of counts -/

/-- Whatever was done to a table, each of its counts is the sum of what was added to that counter
since the last reset, up to the width of a word, and it would be the same if only what concerns that
counter had been done. A snapshot shows the table as it was when it was taken, and still does after
whatever is done later. What is counted at the sink beside the table changes nothing at all. -/
theorem counts_of_history (ops : List Operation) :
    (∀ c, ((run ops).table.get c).toNat =
      ((sinceReset ops).map (Operation.amount c)).sum % 2 ^ 64) ∧
    (∀ c, (run (ops.filter (Operation.concerns c))).table.get c = (run ops).table.get c) ∧
    (∀ uptime timestamp later, ∃ s : Snapshot,
      (run (ops ++ .snapshot uptime timestamp :: later)).taken[ops.countP Operation.isSnapshot]? =
        some s ∧
        s.Shows (run ops).table) ∧
    run (ops.filter (!·.isIgnored)) = run ops ∧ (run ops).beside = .ignore := by
  refine ⟨toNat_get_run ops, get_run_filter ops, fun uptime timestamp later => ?_,
    run_filter_isIgnored ops, beside_run ops⟩
  exact ⟨_, taken_at ops later uptime timestamp, Snapshot.shows_ofCounters _ _ _⟩

/-- A count that wraps around after a reset. -/
example :
    (run [.increment .remoteEof, .reset, .add .remoteEof 18446744073709551615, .add .remoteErr 7,
      .ignore .remoteEof, .add .remoteEof 3]).table.get .remoteEof = 2 := by decide

end Tally

end Counters

end Courier

/-!
# Counters

What a client counts, and the table of counts. Counts are words of 64 bits and wrap around.
-/
namespace Courier

/-- What is counted: connections that were dialed, callers that got none, refusals at the bound of a
pool, connections that were unused or open for too long, those that failed their probe and those
whose peer had closed them, calls without a codec, and calls for which no node was found. -/
inductive Counter
  | newConnection
  | getConnectionErr
  | poolOverLimit
  | idleTimeout
  | lifetimeExceed
  | remoteErr
  | remoteEof
  | codecEmpty
  | selectNodeFail
  deriving DecidableEq, Repr

namespace Counter

/-- All counters in their order. -/
def all : List Counter :=
  [newConnection, getConnectionErr, poolOverLimit, idleTimeout, lifetimeExceed, remoteErr,
    remoteEof, codecEmpty, selectNodeFail]

def index : Counter → Fin 9
  | newConnection => 0
  | getConnectionErr => 1
  | poolOverLimit => 2
  | idleTimeout => 3
  | lifetimeExceed => 4
  | remoteErr => 5
  | remoteEof => 6
  | codecEmpty => 7
  | selectNodeFail => 8

def name : Counter → String
  | newConnection => "new_connection"
  | getConnectionErr => "get_connection_err"
  | poolOverLimit => "pool_over_limit"
  | idleTimeout => "idle_timeout"
  | lifetimeExceed => "lifetime_exceed"
  | remoteErr => "remote_err"
  | remoteEof => "remote_eof"
  | codecEmpty => "codec_empty"
  | selectNodeFail => "select_node_fail"

theorem mem_all (c : Counter) : c ∈ all := by
  cases c <;> decide

theorem index_injective {a b : Counter} (h : a.index = b.index) : a = b := by
  cases a <;> cases b <;> simp [index] at h ⊢

end Counter

/-- The counts of all counters. -/
structure Counters where
  values : Vector UInt64 9

namespace Counters

def zero : Counters := ⟨Vector.replicate 9 0⟩

def get (t : Counters) (c : Counter) : UInt64 := t.values[c.index]

def add (t : Counters) (c : Counter) (n : UInt64) : Counters :=
  ⟨t.values.set c.index (t.get c + n)⟩

def increment (t : Counters) (c : Counter) : Counters := t.add c 1

@[simp] theorem get_zero (c : Counter) : zero.get c = 0 := by
  simp [get, zero]

@[simp] theorem get_add_self (t : Counters) (c : Counter) (n : UInt64) :
    (t.add c n).get c = t.get c + n := by
  simp [get, add]

@[simp] theorem get_add_of_ne (t : Counters) {c d : Counter} (n : UInt64) (h : d ≠ c) :
    (t.add c n).get d = t.get d := by
  have : c.index.val ≠ d.index.val := fun e => h (Counter.index_injective (Fin.ext e.symm))
  simp [get, add, Vector.getElem_set_ne, this]

end Counters

/-- Where counts go: to a table, or nowhere. -/
inductive Sink
  | table (t : Counters)
  | ignore

namespace Sink

def increment : Sink → Counter → Sink
  | table t, c => table (t.increment c)
  | ignore, _ => ignore

end Sink

end Courier

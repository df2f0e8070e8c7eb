import Courier.Fault
import Courier.Pool.Conn
import Courier.Pool.Slots

/-!
# The pool of one address

A pool keeps idle connections, the most recently returned one first, and counts the open ones. Each
operation here is done in one go; what calls do between them is in the modules on acquisition, on
the sweep and on the top-up. The count is lowered in step with each connection that is closed.
-/
namespace Courier

/-- A pool. The connection that was returned last is the first of the idle ones, and the active ones
are the open connections and the dials in progress. -/
structure Pool where
  network : String
  address : String
  config : Pool.Config
  idle : List Conn
  active : Nat
  closed : Bool
  slots : Option Slots
  deriving DecidableEq, Repr

/-- What a step of an operation leaves behind: the pool, what the operation does next, the
connections that are closed and the counters that go up. -/
structure Pool.Step (σ : Type) where
  pool : Pool
  next : σ
  closes : List Conn
  counts : List Counter

namespace Pool

def new (network address : String) (config : Config) : Pool where
  network := network
  address := address
  config := config
  idle := []
  active := 0
  closed := false
  slots := if config.queues then some (.ofCapacity config.maxActive) else none

/-- A step that closes and counts nothing. -/
def Step.quiet {σ : Type} (pool : Pool) (next : σ) : Step σ := ⟨pool, next, [], []⟩

def giveBackSlot (p : Pool) : Pool := { p with slots := p.slots.map Slots.giveBack }

def popIdle (p : Pool) : Option (Conn × Pool) :=
  match p.idle with
  | [] => none
  | c :: rest => some (c, { p with idle := rest })

def lower (p : Pool) (n : Nat) : Pool := { p with active := p.active - n }

/-- A new dial counts as open from its start. A pool at its bound refuses it, and a closed one. -/
def beginDial (p : Pool) : Except Fault Pool :=
  if p.config.refuses ∧ p.config.maxActive ≤ p.active then .error .poolLimit
  else if p.closed then .error .poolClosed
  else .ok { p with active := p.active + 1 }

def refusalCounts : Fault → List Counter
  | .poolLimit => [.poolOverLimit]
  | _ => []

/-- A connection comes back. It becomes the first idle one, and the oldest idle one is closed if
there are too many; if it is not to be used again, or the pool is closed, it is closed itself. -/
def put (p : Pool) (c : Conn) (force : Bool) (now : Instant) : Pool × List Conn :=
  if p.closed ∨ force then (p.lower 1, [c])
  else
    let idle := { c with returned := now } :: p.idle
    if p.config.maxIdle < idle.length then
      ({ p with idle := idle.dropLast }.lower 1, idle.getLast?.toList)
    else ({ p with idle }, [])

/-- Closes the pool and its idle connections and refuses everybody who waits. -/
def close (p : Pool) : Pool × List Conn :=
  if p.closed then (p, [])
  else
    ({ p with closed := true, idle := [], slots := p.slots.map Slots.close }.lower p.idle.length,
      p.idle)

def shortfall (p : Pool) : Nat := p.config.minIdle - p.idle.length

structure Stats where
  active : Nat
  idle : Nat
  closed : Bool
  deriving DecidableEq, Repr

def stats (p : Pool) : Stats := ⟨p.active, p.idle.length, p.closed⟩

end Pool

end Courier

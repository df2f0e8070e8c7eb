import Courier.Pool.Config
import Courier.Counter

/-!
# Connections and their health

An open connection and what a pool remembers of it, and the built-in health check. The check reads
nothing that a request waits for: a connection is healthy if nothing is there to read. The full
check also looks at how long a connection was unused and how old it is.
-/
namespace Courier

/-- An open connection, with the moment when it last came back to the pool, or was opened. No two
connections have one number. -/
structure Conn where
  id : Nat
  remote : String
  localAddress : Option String
  created : Instant
  returned : Instant
  deriving DecidableEq, Repr

/-- What a read that does not wait finds: nothing to read, the end, bytes that nobody asked for, or
a failure. -/
inductive Probe
  | healthy
  | ended
  | unexpectedData
  | failed
  deriving DecidableEq, Repr

structure Verdict where
  healthy : Bool
  counts : List Counter
  deriving DecidableEq

namespace Pool

/-- The built-in check; the fast one looks at the probe alone. -/
def builtInCheck (config : Config) (probe : Probe) (c : Conn) (fast : Bool) (now : Instant) :
    Verdict :=
  match probe with
  | .ended => ⟨false, [.remoteEof, .remoteErr]⟩
  | .unexpectedData | .failed => ⟨false, [.remoteErr]⟩
  | .healthy =>
    if fast then ⟨true, []⟩
    else if config.idleTimeout ≠ 0 ∧ now - c.returned > config.idleTimeout then
      ⟨false, [.idleTimeout]⟩
    else if config.maxLifetime ≠ 0 ∧ now - c.created > config.maxLifetime then
      ⟨false, [.lifetimeExceed]⟩
    else ⟨true, []⟩

end Pool

end Courier

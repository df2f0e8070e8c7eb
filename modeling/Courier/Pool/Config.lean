import Courier.Time

/-!
# Pool configuration

The bounds and times of a pool, with the values of a pool that sets none, and the text that shows a
configuration. A bound of zero open connections and a time of zero mean no bound.
-/
namespace Courier.Pool

/-- The configuration of a pool. The maintenance runs at the check interval and keeps `minIdle`
connections ready; beyond `maxIdle` the oldest goes when another comes back. `maxActive` bounds the
open connections, where callers queue if they `wait` and fail otherwise. A connection may stay
unused and get old for so long, and is closed when it comes back under `forceClose`. The time limit
of a dial is for callers without a deadline. Another check may replace the built-in one. -/
structure Config where
  minIdle : Nat := 0
  maxIdle : Nat := 65536
  maxActive : Nat := 0
  wait : Bool := false
  idleTimeout : Span := Span.ofMillis 50000
  maxLifetime : Span := 0
  dialTimeout : Span := Span.ofMillis 200
  forceClose : Bool := false
  checkInterval : Span := Span.ofMillis 3000
  customCheck : Bool := false
  deriving DecidableEq, Repr

namespace Config

/-- Callers queue for a slot. -/
def queues (c : Config) : Bool := c.wait && c.maxActive > 0

/-- Callers are refused at the bound. -/
def refuses (c : Config) : Bool := !c.wait && c.maxActive > 0

/-- The fields by name. -/
def fields (c : Config) : List (String × String) :=
  [("min_idle", toString c.minIdle), ("max_idle", toString c.maxIdle),
    ("max_active", toString c.maxActive), ("wait", toString c.wait),
    ("idle_timeout", c.idleTimeout.text), ("max_conn_lifetime", c.maxLifetime.text),
    ("dial_timeout", c.dialTimeout.text), ("force_close", toString c.forceClose),
    ("check_interval", c.checkInterval.text),
    ("checker", if c.customCheck then "Some(\"custom\")" else "None")]

def text (c : Config) : String :=
  "PoolConfig \x7b " ++ ", ".intercalate (c.fields.map fun f => f.1 ++ ": " ++ f.2) ++ " \x7d"

end Config

end Courier.Pool

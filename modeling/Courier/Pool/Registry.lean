import Courier.Pool.Basic

/-!
# Pools by network and address

A registry finds the pool of a network and an address by a name made of both, and has a new one
created on first use. To look for a pool, to file a new one where there is none and to start it is
one step, so nobody closes the registry in between. Once closed it gives no pool out.
-/
namespace Courier.Pool

abbrev PoolId := Nat

structure Registry where
  entries : List (String × PoolId)
  closed : Bool

namespace Registry

def empty : Registry := ⟨[], false⟩

/-- The name of a pool. -/
def key (network address : String) : String := network ++ "_" ++ address

def get? (r : Registry) (network address : String) : Option PoolId :=
  r.entries.lookup (key network address)

def add (r : Registry) (network address : String) (id : PoolId) : Registry :=
  { r with entries := (key network address, id) :: r.entries }

inductive Lookup
  | refused
  | found (id : PoolId)
  | missing
  deriving DecidableEq

def lookup (r : Registry) (network address : String) : Lookup :=
  if r.closed then .refused
  else
    match r.get? network address with
    | some id => .found id
    | none => .missing

def close (_ : Registry) : Registry := ⟨[], true⟩

end Registry

end Courier.Pool

import Courier.Pool.Basic

/-!
# The sweep

A sweep takes all idle connections out of the pool, checks them one after the other, and puts the
healthy ones behind those that came back in the meantime. The pool keeps no more than its bound of
idle connections, the most recently returned ones; a pool that was closed in the meantime keeps
none.
-/
namespace Courier.Pool

/-- A sweep under way: what is not checked yet, what is healthy, each in order, and what is to be
closed at the end. -/
structure Sweep where
  pending : List Conn
  kept : List Conn
  dropped : List Conn
  deriving DecidableEq

namespace Sweep

/-- Takes the idle connections; a closed pool is not swept. -/
def begin (p : Pool) : Option (Pool × Sweep) :=
  if p.closed then none else some ({ p with idle := [] }, ⟨p.idle, [], []⟩)

/-- The next connection has been checked. -/
def judge (s : Sweep) (healthy : Bool) : Sweep :=
  match s.pending with
  | [] => s
  | c :: rest =>
    if healthy then { s with pending := rest, kept := s.kept ++ [c] }
    else { s with pending := rest, dropped := s.dropped ++ [c] }

/-- Puts the healthy connections back and closes the others. -/
def finish (s : Sweep) (p : Pool) : Pool × List Conn :=
  if p.closed then
    let closes := s.dropped ++ s.kept
    (p.lower closes.length, closes)
  else
    let idle := p.idle ++ s.kept
    let closes := s.dropped ++ (idle.drop p.config.maxIdle).reverse
    ({ p with idle := idle.take p.config.maxIdle }.lower closes.length, closes)

end Sweep

end Courier.Pool

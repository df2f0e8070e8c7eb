import Courier.Context
import Courier.Network.Address
import Courier.Pool.Basic
import Courier.Text.Quoted

/-!
# Dials

A dial finds the addresses behind a name, tries those of the wanted family one after the other, and
takes the first connection. Its time limit is what the caller has left, or else the limit of the
pool. A connection that is there counts before the time limit, and the time limit before the
caller's context.
-/
namespace Courier

/-- How one attempt to connect stands; `α` tells what a connection leads to. -/
inductive Attempt (α : Type)
  | connected (a : α)
  | failed (e : IoError)
  | pending

/-- What the surroundings do with attempts to connect: which names are addresses in figures, the
families of the addresses behind the others, and what comes of a socket or a path. -/
structure Reach (α : Type) where
  isLiteral : String → Bool
  resolve : String → Except Network.Address.Problem (List Network.Family)
  socket : String → Network.Family → Attempt α
  path : String → Attempt α

namespace Pool

/-- A dial in progress; the surroundings know the attempt by its number. -/
structure Dial where
  attempt : Nat
  network : String
  address : String
  limit : Option Span
  deadline : Option Instant
  deriving DecidableEq, Repr

namespace Dial

def limitOf (config : Config) (remaining : Option Span) : Option Span :=
  match remaining with
  | some left => some left
  | none => if config.dialTimeout = 0 then none else some config.dialTimeout

def start (p : Pool) (attempt : Nat) (remaining : Option Span) (now : Instant) : Dial :=
  let limit := limitOf p.config remaining
  ⟨attempt, p.network, p.address, limit, limit.map (now + ·)⟩

/-- The families that a network takes, if it is one of those with socket addresses. -/
def families (network : String) : Option (List Network.Family) :=
  if network = "tcp" then some [.v4, .v6]
  else if network = "tcp4" then some [.v4]
  else if network = "tcp6" then some [.v6]
  else none

/-- The first attempt that connects, or the failure of the last one. -/
def firstOf {α : Type} (failure : String) : List (Attempt α) → Option (Except String α)
  | [] => some (.error failure)
  | .connected a :: _ => some (.ok a)
  | .failed e :: rest => firstOf e.text rest
  | .pending :: _ => none

/-- How the dial stands, its limits aside. -/
def connect {α : Type} (d : Dial) (reach : Reach α) : Option (Except Fault α) :=
  match families d.network with
  | some wanted =>
    match reach.resolve d.address with
    | .error problem =>
      some (.error (.dial ("resolve " ++ d.network ++ " " ++ d.address ++ ": " ++ problem.message)))
    | .ok found =>
      (firstOf "no address of the requested family"
        ((found.filter (· ∈ wanted)).map (reach.socket d.address))).map fun r =>
          r.mapError fun why => .dial ("dial " ++ d.network ++ " " ++ d.address ++ ": " ++ why)
  | none =>
    if d.network = "unix" then
      (firstOf "" [reach.path d.address]).map fun r =>
        r.mapError fun why => .dial ("dial unix " ++ d.address ++ ": " ++ why)
    else some (.error (.dial ("unsupported network " ++ Text.Quoted.quote d.network)))

def overdue (d : Dial) : Fault :=
  .timeout .dial ("dial " ++ d.network ++ " " ++ d.address ++ " timed out after " ++
    (d.limit.getD 0).text)

/-- How the dial ends, if it does. -/
def poll {α : Type} (d : Dial) (reached : Option (Except Fault α)) (done : Option Done)
    (now : Instant) : Option (Except Fault α) :=
  match reached with
  | some r => some r
  | none =>
    if d.deadline.any (· ≤ now) then some (.error d.overdue)
    else done.map fun why => .error (why.fault .dial)

end Dial

end Pool

end Courier

import Courier.Pool.Dial

/-!
# The top-up

A top-up dials as many connections as idle ones are missing, all at the same time, waits until every
dial has ended, and then puts the connections into the pool one after the other.
-/
namespace Courier.Pool

inductive PreDial
  | waiting
  | dialing (d : Dial)
  | ready (c : Conn)
  | failed (f : Fault)
  deriving DecidableEq, Repr

namespace PreDial

def isOver : PreDial → Bool
  | ready _ | failed _ => true
  | waiting | dialing _ => false

def begin (p : Pool) (attempt : Nat) (now : Instant) : Step PreDial :=
  match p.beginDial with
  | .ok p => .quiet p (.dialing (.start p attempt none now))
  | .error f => ⟨p, .failed f, [], refusalCounts f⟩

def finish (p : Pool) : Except Fault Conn → Step PreDial
  | .ok c => ⟨p, .ready c, [], [.newConnection]⟩
  | .error f => .quiet (p.lower 1) (.failed f)

end PreDial

/-- The dials of a top-up in their order. -/
structure TopUp where
  dials : List PreDial
  deriving DecidableEq, Repr

namespace TopUp

/-- As many dials as idle connections are missing; a closed pool is not topped up. -/
def begin (p : Pool) : TopUp :=
  if p.closed then ⟨[]⟩ else ⟨List.replicate p.shortfall .waiting⟩

def isOver (t : TopUp) : Bool := t.dials.all PreDial.isOver

def conns (t : TopUp) : List Conn := t.dials.filterMap fun | .ready c => some c | _ => none

/-- Puts connections into the pool one after the other. -/
def putAll (p : Pool) (now : Instant) : List Conn → Pool × List Conn
  | [] => (p, [])
  | c :: rest =>
    let (p, closes) := p.put c false now
    let (p, more) := putAll p now rest
    (p, closes ++ more)

def finish (t : TopUp) (p : Pool) (now : Instant) : Pool × List Conn := putAll p now t.conns

end TopUp

end Courier.Pool

import Courier.Pool.Dial
import Courier.Pool.Handle

/-!
# Acquiring a connection

A call gets a slot if the pool has slots, then takes idle connections one by one until one passes
the fast check, and dials if none does. Each function is what one step of a call does; the
surroundings say whether the context is done, how a check comes out, and how a dial ends.
-/
namespace Courier.Pool

/-- How far a call has come. It gets a slot, waiting for it if need be, takes and checks idle
connections, and dials when there are no more. -/
inductive Acquire
  | arriving
  | queued (ticket : Ticket)
  | popping (slot : Bool)
  | checking (slot : Bool) (conn : Conn)
  | exhausted (slot : Bool)
  | dialing (slot : Bool) (d : Dial)
  | served (h : Handle)
  | failed (f : Fault)
  deriving DecidableEq, Repr

namespace Acquire

/-- A call that fails gives its slot back. -/
def fail (p : Pool) (slot : Bool) (f : Fault) : Step Acquire :=
  .quiet (if slot then p.giveBackSlot else p) (.failed f)

def arrive (p : Pool) (ticket : Ticket) (done : Option Done) : Step Acquire :=
  match p.slots with
  | none => .quiet p (.popping false)
  | some slots =>
    match done with
    | some why => .quiet p (.failed (why.fault .dial))
    | none =>
      match slots.ask ticket with
      | (.admitted, slots) => .quiet { p with slots := some slots } (.popping true)
      | (.queued, slots) => .quiet { p with slots := some slots } (.queued ticket)
      | (.refused, slots) => .quiet { p with slots := some slots } (.failed .poolClosed)

/-- A call that waits looks again; a slot comes before the end of its context. -/
def resume (p : Pool) (ticket : Ticket) (done : Option Done) : Step Acquire :=
  match p.slots with
  | none => .quiet p (.popping false)
  | some slots =>
    match slots.resume ticket with
    | (.admitted, slots) => .quiet { p with slots := some slots } (.popping true)
    | (.refused, slots) => .quiet { p with slots := some slots } (.failed .poolClosed)
    | (.queued, slots) =>
      match done with
      | some why => .quiet { p with slots := some (slots.leave ticket) } (.failed (why.fault .dial))
      | none => .quiet { p with slots := some slots } (.queued ticket)

def pop (p : Pool) (slot : Bool) : Step Acquire :=
  match p.popIdle with
  | some (c, p) => .quiet p (.checking slot c)
  | none => .quiet p (.exhausted slot)

/-- The check is done: a healthy connection is handed out, another one is closed. -/
def judge (p : Pool) (slot : Bool) (c : Conn) (healthy : Bool) : Step Acquire :=
  if healthy then .quiet p (.served (.ofConn p slot c))
  else ⟨p.lower 1, .popping slot, [c], []⟩

/-- Begins to dial, if the pool lets it and the context is not done. -/
def beginDial (p : Pool) (slot : Bool) (attempt : Nat) (done : Option Done)
    (remaining : Option Span) (now : Instant) : Step Acquire :=
  match p.beginDial with
  | .error f => { fail p slot f with counts := refusalCounts f }
  | .ok p =>
    match done with
    | some why => fail (p.lower 1) slot (why.fault .dial)
    | none => .quiet p (.dialing slot (.start p attempt remaining now))

def endDial (p : Pool) (slot : Bool) : Except Fault Conn → Step Acquire
  | .ok c => ⟨p, .served (.ofConn p slot c), [], [.newConnection]⟩
  | .error f => fail (p.lower 1) slot f

/-- A call that is dropped while it waits leaves the queue, and one that dials gives its slot
back. -/
def abandon (a : Acquire) (p : Pool) : Pool :=
  match a with
  | .queued ticket => { p with slots := p.slots.map (·.leave ticket) }
  | .dialing slot _ => if slot then p.giveBackSlot else p
  | _ => p

end Acquire

end Courier.Pool

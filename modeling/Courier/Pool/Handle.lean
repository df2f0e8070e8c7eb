import Courier.Pool.Basic

/-!
# Connections in use

A handle is what a caller gets: the connection, its slot, a deadline for reads and writes, and
whether the connection is closed when it comes back. The connection goes back once; the slot follows
it. After a failure the handle is empty.
-/
namespace Courier

/-- What a caller has in hand: a connection, unless it was given up, and perhaps a slot. -/
structure Handle where
  conn : Option Conn
  slot : Bool
  deadline : Option Instant
  forceClose : Bool
  deriving DecidableEq, Repr

namespace Handle

def ofConn (p : Pool) (slot : Bool) (c : Conn) : Handle := ⟨some c, slot, none, p.config.forceClose⟩

def isClosed (h : Handle) : Bool := h.conn.isNone

/-- What a handle that is given up does to its pool, one access after the other. -/
inductive Act
  | put (c : Conn) (force : Bool)
  | giveBackSlot
  deriving DecidableEq, Repr

/-- The connection goes back, then the slot: whoever gets the slot finds the connection counted. -/
def acts (h : Handle) (force : Bool) : List Act :=
  h.conn.toList.map (.put · force) ++ if h.slot then [.giveBackSlot] else []

def Act.perform (p : Pool) (now : Instant) : Act → Pool × List Conn
  | .put c force => p.put c force now
  | .giveBackSlot => (p.giveBackSlot, [])

/-- All accesses, with nothing in between. -/
def Act.performAll (p : Pool) (now : Instant) : List Act → Pool × List Conn
  | [] => (p, [])
  | act :: rest =>
    let (p, closes) := act.perform p now
    let (p, more) := performAll p now rest
    (p, closes ++ more)

def release (h : Handle) (p : Pool) (force : Bool) (now : Instant) : Pool.Step Handle :=
  let (p, closes) := Act.performAll p now (h.acts force)
  ⟨p, { h with conn := none, slot := false, deadline := none }, closes, []⟩

theorem release_eq (h : Handle) (p : Pool) (force : Bool) (now : Instant) :
    h.release p force now =
      let back := match h.conn with
        | some c => p.put c force now
        | none => (p, [])
      ⟨if h.slot then back.1.giveBackSlot else back.1,
        { h with conn := none, slot := false, deadline := none }, back.2, []⟩ := by
  unfold release acts
  cases h.conn <;> cases h.slot <;> simp [Act.performAll, Act.perform]

/-- Gives the connection back, to be closed if the handle is marked so. -/
def close (h : Handle) (p : Pool) (now : Instant) : Pool.Step Handle := h.release p h.forceClose now

def discard (h : Handle) (p : Pool) (now : Instant) : Pool.Step Handle := h.release p true now

/-- How a write or a read through the handle ends, if it does: by itself or by the deadline. -/
def await {α : Type} (h : Handle) (stage : Stage) (io : Option (Except Fault α)) (now : Instant) :
    Option (Except Fault α) :=
  match io with
  | some r => some r
  | none =>
    if h.deadline.any (· ≤ now) then some (.error (.timeout stage "i/o deadline exceeded"))
    else none

/-- After a read or a write the handle keeps its connection if all went well and loses it
otherwise. -/
def afterIo {α : Type} (h : Handle) (p : Pool) (now : Instant) : Except Fault α → Pool.Step Handle
  | .ok _ => .quiet p h
  | .error _ => h.discard p now

end Handle

end Courier

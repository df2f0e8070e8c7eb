import Courier.Scenario.World

/-!
# Attempts to connect

How the peers of a scenario are reached. An attempt that fails without asking anybody is over at
once; all others are in flight until the tasks wait, and are then completed in the order of their
start.
-/
namespace Courier.Scenario

namespace World

/-- What becomes of an attempt to connect to peer number `i`, if there is one. -/
def attempt (w : World) (i : Nat) : Attempt Nat :=
  match (w.peers[i]?).elim .missing Network.Peer.listening with
  | .accepts => .connected i
  | .refuses => .failed (.ofNumber 111)
  | .missing => .failed (.ofNumber 2)
  | .stuck => .pending

/-- The peer at an address of TCP. -/
def peerAt? (w : World) (address : String) : Option Nat :=
  w.peers.findIdx? fun p => !p.isPath && p.address == address

/-- The peer whose socket is at a place. -/
def peerIn? (w : World) (place : Network.Place) : Option Nat :=
  w.peers.findIdx? fun p => p.isPath && Network.FileTree.placeOf p.address == place

/-- How the peers are reached. Where there is no peer, nobody listens. -/
def reach (w : World) : Reach Nat where
  isLiteral := Network.Address.isLiteral
  resolve := fun address => (Network.Address.parse address).map ([·])
  socket := fun address _ =>
    if w.hasRoute then (w.peerAt? address).elim (.failed (.ofNumber 111)) w.attempt
    else .failed (.ofNumber 101)
  path := fun address =>
    match w.files.socket? address with
    | .error e => .failed e
    | .ok place => (place.bind w.peerIn?).elim (.failed (.ofNumber 111)) w.attempt

/-- Opens a connection to a peer. -/
def connect (w : World) (address : String) (peer : Nat) : Conn × World :=
  let isPath := (w.peers[peer]?).any Network.Peer.isPath
  let c : Conn :=
    { id := w.sessions.size, remote := address, localAddress := if isPath then none else some ""
      created := w.now, returned := w.now }
  (c, { w with sessions := w.sessions.push { peer, link := { isPath } } })

/-- Whether a dial that fails does so without waiting: nothing has to be looked up, and no answer
comes over the network. -/
def failsAtOnce (w : World) (d : Pool.Dial) : Bool :=
  (Pool.Dial.families d.network).isNone || (w.reach.isLiteral d.address && !w.hasRoute)

/-- How a dial ends when its attempt is completed, if that happens. -/
def complete (w : World) (d : Pool.Dial) : Option (Except Fault Conn × World) :=
  match d.connect w.reach with
  | none => none
  | some (.error f) => some (.error f, w)
  | some (.ok peer) =>
    let (c, w) := w.connect d.address peer
    some (.ok c, w)

/-- Starts the attempt of a dial. -/
def startAttempt (w : World) (d : Pool.Dial) : World :=
  let state : Connecting :=
    match d.connect w.reach with
    | some (.error f) => if w.failsAtOnce d then .ended (.error f) else .inFlight d
    | some (.ok _) | none => .inFlight d
  { w with attempts := w.attempts.push state }

/-- Completes an attempt, if it can be completed. -/
def completeAttempt (w : World) (i : Nat) : Option World :=
  match w.attempts[i]? with
  | some (.inFlight d) =>
    (w.complete d).map fun (r, w) =>
      { w with attempts := w.attempts.modify i fun _ => .ended r }
  | _ => none

end World

end Courier.Scenario

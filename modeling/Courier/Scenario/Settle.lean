import Courier.Scenario.Task

/-!
# Settling

Tasks run in turn, in the order in which they were spawned, until all of them wait. Then the peers
do one thing, and the tasks run again. The state is settled when neither can do anything before time
passes. In the end the pools that nobody knows any more close their idle connections.
-/
namespace Courier.Scenario
open Pool (PoolId)
open Network (Session Peer)

/-- A bound on the turns of a task in one go, and on the rounds until a state is settled; real
scenarios need a few dozen. -/
def patience : Nat := 100000

namespace World

/-! ## Tasks -/

def workAt (w : World) (i : Nat) : World × Bool :=
  match w.tasks[i]? with
  | some ⟨name, .inl job⟩ =>
    let (w, moved, state) := w.work patience false job
    ({ w with tasks := w.tasks.set i ⟨name, state⟩ }, moved)
  | _ => (w, false)

/-- Every task works once. -/
def round (w : World) : World × Bool :=
  (List.range w.tasks.length).foldl (fun (w, moved) i =>
    let (w, more) := w.workAt i
    (w, moved || more)) (w, false)

/-! ## Peers -/

/-- The first session that `p` picks, with its number and its peer. -/
def findSession (w : World) (p : Session → Peer → Bool) : Option (Nat × Session × Peer) :=
  w.sessions.toList.zipIdx.findSome? fun (s, i) =>
    match w.peers[s.peer]? with
    | some peer => if p s peer then some (i, s, peer) else none
    | none => none

def setSession (w : World) (i : Nat) (s : Session) : World :=
  w.modifySession i fun _ => s

/-- A peer accepts the connection that waits longest. -/
def acceptNext (w : World) : Option World :=
  (w.findSession fun s _ => !s.accepted).map fun (i, s, peer) =>
    w.setSession i (s.accept peer.manner)

/-- A peer that holds a connection reads. -/
def absorbNext (w : World) : Option World :=
  let holds (peer : Peer) : Bool :=
    match peer.manner with
    | .hold _ => true
    | _ => false
  (w.findSession fun s peer => holds peer && s.hasNews).map fun (i, s, _) => w.setSession i s.absorb

/-- A server does the next of the things it has to do. -/
def performNext (w : World) : Option World :=
  (w.findSession fun s _ => !s.acts.isEmpty).map fun (i, s, _) =>
    match s.acts with
    | [] => w
    | act :: rest =>
      let w := w.setSession i ({ s with acts := rest }.perform act)
      match act with
      | .pause span => w.advance span
      | .cancel context => w.cancelNamed (some context)
      | .send _ | .close | .reset => w

/-- A server reads on. -/
def serveNext (w : World) : Option World :=
  let serves (peer : Peer) : Bool :=
    match peer.manner with
    | .serve _ _ => true
    | _ => false
  (w.findSession fun s peer => serves peer && s.hasNews).map fun (i, s, peer) =>
    match peer.manner with
    | .serve token plans =>
      let (peer, t) := peer.serve s token plans w.nonce
      { w.setSession i t with peers := w.peers.modify s.peer fun _ => peer }
    | _ => w

/-- All attempts to connect that can be completed are, in the order in which they were started. -/
def completeAttempts (w : World) : Option World :=
  (List.range w.attempts.size).foldl (fun found i =>
    match (found.getD w).completeAttempt i with
    | some w => some w
    | none => found) none

/-- The peers do one thing, if there is one to do. -/
def actPeers (w : World) : Option World :=
  w.completeAttempts <|> w.acceptNext <|> w.absorbNext <|> w.performNext <|> w.serveNext

/-! ## Pools that nobody knows -/

/-- The pools that a task keeps from being forgotten. The maintenance only knows its pool while it
works. -/
def poolsOf : Job → List PoolId
  | .get _ _ id _ _ _ | .topUp id _ | .upkeep id _ (some _) => [id]
  | .write _ held _ | .read _ held _ => [held.pool]
  | .exchange t | .call _ _ _ t => [t.pool]
  | .select _ _ | .await _ _ | .upkeep _ _ none => []

def knownPools (w : World) : List PoolId :=
  w.registry.entries.map Prod.snd ++ w.own.map Prod.snd ++ w.held.map (·.2.pool) ++
    w.tasks.flatMap fun t =>
      match t.state with
      | .inl job => poolsOf job
      | .inr _ => []

/-- Forgets the pools that nobody knows; their idle connections are closed. -/
def forgetPools (w : World) : World :=
  let known := w.knownPools
  (List.range w.pools.size).foldl (fun w id =>
    match w.pools[id]? with
    | some cell =>
      if cell.isGone ∨ id ∈ known then w
      else
        let w := (w.closeConns cell.pool.idle).setPool id { cell.pool with idle := [] }
        { w with pools := w.pools.modify id fun cell => { cell with isGone := true } }
    | none => w) w

/-! ## Settling -/

def settleTasks (fuel : Nat) (w : World) : World :=
  match fuel with
  | 0 => w
  | fuel + 1 =>
    let (w, moved) := w.round
    if moved then settleTasks fuel w
    else
      match w.actPeers with
      | some w => settleTasks fuel w
      | none => w

/-- Lets everything run that can run without time passing. -/
def settleAll (w : World) : World := (w.settleTasks patience).forgetPools.settleTasks patience

/-- Tasks that are over and that nobody can join are forgotten. -/
def forgetTasks (w : World) : World :=
  { w with tasks := w.tasks.filter fun t => t.name.isSome || t.state.isLeft }

def settle (w : World) : World := w.settleAll.forgetTasks

end World

end Courier.Scenario

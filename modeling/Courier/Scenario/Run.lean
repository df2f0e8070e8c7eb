import Courier.Scenario.Operation

/-!
# Running a scenario

A scenario is a list of steps, and every step has one answer. After each step the state is settled.
-/
namespace Courier.Scenario
open Pool (PoolId)
open Network (Session)

/-- What a scenario starts from. -/
structure Setup where
  config : Pool.Config
  check : Option CheckPlan
  client : Client Selector
  peers : List Network.Peer
  hasRoute : Bool
  nonce : ByteArray

namespace World

/-- The socket of a peer at a path is there unless the peer is missing. -/
def plant (t : Network.FileTree) (p : Network.Peer) : Network.FileTree :=
  if p.isPath ∧ p.listening ≠ .missing then t.add (Network.FileTree.placeOf p.address) else t

def ofSetup (s : Setup) : World where
  time := .start
  counters := .zero
  config := s.config
  check := s.check
  client := s.client
  registry := .empty
  pools := #[]
  own := []
  latest := none
  peers := s.peers.toArray
  sessions := #[]
  attempts := #[]
  held := []
  tasks := []
  nextTicket := 0
  hasReleased := false
  checkLog := []
  selectorLog := []
  hasRoute := s.hasRoute
  files := s.peers.foldl plant .standard
  nonce := s.nonce

/-! ## Tasks -/

def task? (w : World) (name : String) : Option Task := w.tasks.find? (·.name == some name)

def dropTask (w : World) (name : String) : World :=
  { w with tasks := w.tasks.filter (·.name != some name) }

/-- The answer of a task, which is then gone. -/
def join (w : World) (name : String) : Answer × World :=
  match w.task? name with
  | none => (.missing .task, w)
  | some ⟨_, .inl _⟩ => (.pending, w)
  | some ⟨_, .inr a⟩ => (a, w.dropTask name)

def abort (w : World) (name : String) : Answer × World :=
  match w.task? name with
  | none => (.missing .task, w)
  | some ⟨_, .inl job⟩ => (.nothing, ((w.dropTask name).abandon job).settle)
  | some ⟨_, .inr _⟩ => (.nothing, w.dropTask name)

/-! ## Held connections -/

def withHeld (w : World) (conn : String) (f : Holding → Answer × World) : Answer × World :=
  match w.held.lookup conn with
  | none => (.missing .conn, w)
  | some h => f h

def updateHeld (w : World) (conn : String) (h : Holding) : World :=
  { w with held := w.held.map fun (name, old) => (name, if name = conn then h else old) }

def release (w : World) (conn : String) (how : Release) : Answer × World :=
  w.withHeld conn fun h =>
    match how with
    | .close => (.nothing, ((w.unhold conn).giveBack h .close).2.settle)
    | .discard =>
      let (handle, w) := w.giveBack h .discard
      (.nothing, (w.updateHeld conn { h with handle }).settle)

def info (w : World) (conn : String) : Answer :=
  match w.held.lookup conn with
  | none => .nothing
  | some h =>
    .info ⟨h.handle.isClosed, h.handle.conn.map Conn.remote,
      (h.handle.conn.bind Conn.localAddress).isSome, h.handle.slot⟩

/-! ## Pools -/

def withPool (w : World) (ref : PoolRef) (f : PoolId → Answer × World) : Answer × World :=
  match w.resolve? ref with
  | none => (.missing .pool, w)
  | some id => f id

def newPool (w : World) (name network address : String)
    (config : Option (Pool.Config × Option CheckPlan)) : World :=
  let (config, check) := config.getD (w.config, w.check)
  let (id, w) := w.createPool network address config check
  { w with own := (name, id) :: w.own.filter (·.1 != name), latest := some id }.settle

def closeRegistry (w : World) : World := w.closeFiled.settle

/-! ## Peers -/

/-- The sessions of a peer in the order in which it accepted them. -/
def sessionsOf (w : World) (peer : Nat) : List (Nat × Session) :=
  (w.sessions.toList.zipIdx.map Prod.swap).filter fun (_, s) => s.peer == peer && s.accepted

def peerNamed? (w : World) (peer : String) : Option Nat := w.peers.findIdx? (·.name == peer)

/-- A peer does something with one of its connections, unless it has closed it. -/
def actOn (w : World) (peer : String) (conn : Nat) (act : Network.Act) : Answer × World :=
  match (w.peerNamed? peer).bind fun i => (w.sessionsOf i)[conn]? with
  | none => (.missing .conn, w)
  | some (i, s) =>
    if s.link.peerOpen then (.flag true, (w.setSession i (s.perform act)).settle)
    else (.flag false, w)

def peerInfo (w : World) (peer : String) : Answer :=
  match w.peerNamed? peer with
  | none => .nothing
  | some i =>
    .peer ⟨(w.sessionsOf i).map fun (_, s) => (s.received, s.sawEnd),
      (w.peers[i]?).elim [] Network.Peer.log⟩

/-- Nobody listens any more where the peer was. -/
def stopPeer (w : World) (peer : String) : World :=
  match w.peerNamed? peer with
  | none => w
  | some i => { w with peers := w.peers.modify i fun p => { p with listening := .refuses } }

/-! ## Steps -/

def step (w : World) : Step → Answer × World
  | .run op u none => w.runNow op u
  | .run op u (some task) => w.runTask op u task
  | .join task => w.join task
  | .abort task => w.abort task
  | .context name u child =>
    let (c, w) := w.contextOf u
    let (c, time) := if child then w.time.withCancel c else (c, w.time)
    (.nothing, { w with time := time.put name c })
  | .cancel context => (.nothing, (w.cancelNamed (some context)).settle)
  | .advance span => (.nothing, (w.advance span).settle)
  | .settle => (.nothing, w.settle)
  | .release conn how => w.release conn how
  | .force conn value =>
    w.withHeld conn fun h =>
      (.nothing, w.updateHeld conn { h with handle := { h.handle with forceClose := value } })
  | .deadline conn span =>
    w.withHeld conn fun h =>
      (.nothing, w.updateHeld conn
        { h with handle := { h.handle with deadline := span.map (w.now + ·) } })
  | .info conn => (w.info conn, w)
  | .stats ref => ((w.resolve? ref).elim .nothing fun id => .stats (w.poolAt id).stats, w)
  | .newPool name network address config => (.nothing, w.newPool name network address config)
  | .start ref => w.withPool ref fun id => (.nothing, (w.startPool id).settle)
  | .dropPool name =>
    if (w.own.lookup name).isSome then
      (.nothing, { w with own := w.own.filter (·.1 != name) }.settle)
    else (.missing .pool, w)
  | .closePool ref => w.withPool ref fun id => (.nothing, (w.closePool id).settle)
  | .isPoolClosed ref => w.withPool ref fun id => (.flag (w.poolAt id).closed, w)
  | .closeRegistry => (.nothing, w.closeRegistry)
  | .isRegistryClosed => (.flag w.registry.closed, w)
  | .counters => (.counters w.counters, w)
  | .peerSend peer conn bytes => w.actOn peer conn (.send bytes)
  | .peerClose peer conn => w.actOn peer conn .close
  | .peerReset peer conn => w.actOn peer conn .reset
  | .peerStop peer => (.nothing, w.stopPeer peer)
  | .peer peer => (w.peerInfo peer, w)
  | .checkLog => (.checks w.checkLog, { w with checkLog := [] })
  | .selectorLog => (.selections w.selectorLog, { w with selectorLog := [] })

/-- The answers of all steps, one after the other. -/
def runAll (w : World) : List Step → List Answer
  | [] => []
  | s :: rest =>
    let (a, w) := w.step s
    a :: runAll w rest

end World

/-- The answers of a scenario. -/
def run (setup : Setup) (steps : List Step) : List Answer := (World.ofSetup setup).runAll steps

end Courier.Scenario

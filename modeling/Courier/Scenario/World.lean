import Courier.Network.FileTree
import Courier.Scenario.Script
import Courier.Pool.TopUp

/-!
# The state of a scenario

One clock, one registry of pools, one table of counters, the peers with their links, the connections
that are held, and the tasks. The functions here do one thing in one go.
-/
namespace Courier.Scenario
open Pool (PoolId)

/-- A pool with its health check. It is gone when nobody knows it any more. -/
structure PoolCell where
  pool : Pool
  check : Option CheckPlan
  isGone : Bool := false

/-- A connection in use. -/
structure Holding where
  pool : PoolId
  handle : Handle

/-- An exchange under way. -/
structure Trip where
  pool : PoolId
  context : Context
  address : String
  request : ByteArray
  ticket : Ticket
  exchange : Exchange

/-- What a task is doing. A selector that never comes to an end is awaited; nothing has begun yet if
there is no top-up; the maintenance of a pool has its next turn at `next`. -/
inductive Job
  | get (conn : String) (filed : Bool) (pool : PoolId) (context : Context) (ticket : Ticket)
      (a : Pool.Acquire)
  | write (conn : String) (held : Holding) (w : Frame.Writer)
  | read (conn : String) (held : Holding) (r : Frame.Reader)
  | exchange (t : Trip)
  | select (call : Call Selector) (learn : Bool)
  | await (call : Call Selector) (learn : Bool)
  | call (call : Call Selector) (learn : Bool) (node : Node) (t : Trip)
  | topUp (pool : PoolId) (t : Option Pool.TopUp)
  | upkeep (pool : PoolId) (next : Instant) (t : Option Pool.TopUp)

/-- A task that nobody can join has no name. -/
structure Task where
  name : Option String
  state : Job ⊕ Answer

/-- How an attempt to connect stands. Nobody waits for one that was dropped. -/
inductive Connecting
  | inFlight (d : Pool.Dial)
  | ended (r : Except Fault Conn)
  | dropped

/-- The state of a scenario. The configuration and the check are those of pools that are not given
any; the scenario has pools of its own, the latest of which it created last. Attempts to connect are
known by their numbers, and the sockets of peers stand in the tree of files. The nonce is that of
frames that are encrypted. -/
structure World where
  time : Timeline
  counters : Counters
  config : Pool.Config
  check : Option CheckPlan
  client : Client Selector
  registry : Pool.Registry
  pools : Array PoolCell
  own : List (String × PoolId)
  latest : Option PoolId
  peers : Array Network.Peer
  sessions : Array Network.Session
  attempts : Array Connecting
  held : List (String × Holding)
  tasks : List Task
  nextTicket : Ticket
  hasReleased : Bool
  checkLog : List CheckEntry
  selectorLog : List SelectorEntry
  hasRoute : Bool
  files : Network.FileTree
  nonce : ByteArray

namespace World

/-! ## Time, counters, pools -/

def now (w : World) : Instant := w.time.now

def done? (w : World) (c : Context) : Option Done := w.time.done? c

def advance (w : World) (span : Span) : World := { w with time := w.time.advance span }

/-- Cancels the context of a name, if there is one to cancel. -/
def cancelNamed (w : World) : Option String → World
  | none => w
  | some name => { w with time := w.time.cancel (w.time.get name) }

def count (w : World) (cs : List Counter) : World :=
  { w with counters := cs.foldl Counters.increment w.counters }

def pool? (w : World) (id : PoolId) : Option Pool := (w.pools[id]?).map PoolCell.pool

/-- The pool of a number; numbers are only given out for pools that are there. -/
def poolAt (w : World) (id : PoolId) : Pool := (w.pool? id).getD (Pool.new "" "" w.config)

def setPool (w : World) (id : PoolId) (p : Pool) : World :=
  { w with pools := w.pools.modify id fun cell => { cell with pool := p } }

def modifySession (w : World) (id : Nat) (f : Network.Session → Network.Session) : World :=
  { w with sessions := w.sessions.modify id f }

def closeConns (w : World) (conns : List Conn) : World :=
  conns.foldl (fun w c =>
    w.modifySession c.id fun s => { s with link := s.link.closeClient }) w

/-- Carries out what a step of a pool leaves behind. -/
def commit {σ : Type} (w : World) (id : PoolId) (s : Pool.Step σ) : World × σ :=
  (((w.setPool id s.pool).closeConns s.closes).count s.counts, s.next)

def closePool (w : World) (id : PoolId) : World :=
  let (p, closes) := (w.poolAt id).close
  (w.setPool id p).closeConns closes

def newTicket (w : World) : Ticket × World :=
  (w.nextTicket, { w with nextTicket := w.nextTicket + 1 })

def spawn (w : World) (name : Option String) (job : Job) : World :=
  { w with tasks := w.tasks ++ [⟨name, .inl job⟩] }

/-- Starts the maintenance of a pool, and its first top-up. -/
def startPool (w : World) (id : PoolId) : World :=
  let config := (w.poolAt id).config
  let w :=
    if config.checkInterval = 0 then w
    else w.spawn none (.upkeep id (w.now + config.checkInterval) none)
  if config.minIdle = 0 then w else w.spawn none (.topUp id none)

def createPool (w : World) (network address : String) (config : Pool.Config)
    (check : Option CheckPlan) : PoolId × World :=
  (w.pools.size, { w with pools := w.pools.push ⟨Pool.new network address config, check, false⟩ })

/-- The pool of the registry for a network and an address, created and started if it is new. -/
def fetchPool (w : World) (network address : String) : Except Fault PoolId × World :=
  match w.registry.lookup network address with
  | .refused => (.error .poolClosed, w.count [.getConnectionErr])
  | .found id => (.ok id, w)
  | .missing =>
    let (id, w) := w.createPool network address w.config w.check
    (.ok id, { w with registry := w.registry.add network address id }.startPool id)

/-- Closes the registry and, one after the other, all pools that it finds. -/
def closeFiled (w : World) : World :=
  let w := w.registry.entries.foldl (fun w entry => w.closePool entry.2) w
  { w with registry := w.registry.close }

def resolve? (w : World) : PoolRef → Option PoolId
  | .own name => w.own.lookup name
  | .filed network address => w.registry.get? network address

/-! ## Held connections -/

/-- Gives a connection back. -/
def giveBack (w : World) (h : Holding) (how : Release) : Handle × World :=
  let p := w.poolAt h.pool
  let step :=
    match how with
    | .close => h.handle.close p w.now
    | .discard => h.handle.discard p w.now
  let (w, handle) := w.commit h.pool step
  (handle, w)

/-- Holds a connection under a name; one that was held under it before is given back. -/
def hold (w : World) (name : String) (h : Holding) : World :=
  match w.held.lookup name with
  | none => { w with held := (name, h) :: w.held }
  | some old =>
    let w := { w with held := (name, h) :: w.held.filter (·.1 != name) }
    (w.giveBack old .close).2

def unhold (w : World) (name : String) : World :=
  { w with held := w.held.filter (·.1 != name) }

end World

end Courier.Scenario

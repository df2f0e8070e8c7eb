import Courier.Call
import Courier.Context.Timeline
import Courier.Network.Peer
import Courier.Pool.Registry

/-!
# Scripts

What a scenario is told: the steps to take, the health check and the selectors to use, and what it
answers. Connections, pools, contexts and tasks go by the names that steps give them.
-/
namespace Courier.Scenario

/-- A health check that does what it is told. It has a verdict for a fast and for a full check,
unless it leaves that to the built-in check of the latest pool of its own; it may look at that pool,
or close it in a full check, cancel a context, and give a held connection back, once. -/
structure CheckPlan where
  fast : Bool := true
  full : Bool := true
  probe : Bool := false
  advance : Span := 0
  cancel : Option String := none
  release : Option String := none
  stats : Bool := false
  builtIn : Bool := false
  closePool : Bool := false

/-- What a health check writes down, with the time since the connection was opened and since it was
last given back. -/
structure CheckEntry where
  fast : Bool
  remote : String
  hasLocal : Bool
  age : Span
  idle : Span
  keep : Bool
  probe : Option Probe
  stats : Option Pool.Stats

/-- A selector that does what it is told: it may cancel a context, fail, or never come to an end. -/
structure SelectorPlan where
  node : Node := {}
  advance : Span := 0
  cancel : Option String := none
  hang : Bool := false
  fault : Option Fault := none

/-- A selector takes an address of the endpoint, or does what it is told. -/
inductive Selector
  | addresses
  | scripted (plan : SelectorPlan)

/-- What a selector writes down. -/
inductive SelectorEntry
  | select (endpoint : String) (remaining : Option Span) (location : Location)
  | report (r : Report)

/-- Names a pool: one of the scenario's own, or one of the registry. -/
inductive PoolRef
  | own (name : String)
  | filed (network address : String)

/-- What a task can do. With `learn` the answer to a call tells about the node. -/
inductive Operation
  | get (pool : PoolRef) (conn : String)
  | write (conn : String) (bytes : ByteArray)
  | read (conn : String)
  | exchange (network address : String) (request : ByteArray)
  | call (query : Query) (learn : Bool)
  | sweep (pool : PoolRef)
  | topUp (pool : PoolRef)

/-- The context of an operation: a named one or a new one, with a time limit if there is one. -/
structure Under where
  context : Option String := none
  timeout : Option Span := none

/-- How a connection is given up. -/
inductive Release
  | close
  | discard

inductive Step
  | run (op : Operation) (under : Under) (task : Option String)
  | join (task : String)
  | abort (task : String)
  | context (name : String) (under : Under) (child : Bool)
  | cancel (context : String)
  | advance (span : Span)
  | settle
  | release (conn : String) (how : Release)
  | force (conn : String) (value : Bool)
  | deadline (conn : String) (span : Option Span)
  | info (conn : String)
  | stats (pool : PoolRef)
  | newPool (name network address : String) (config : Option (Pool.Config × Option CheckPlan))
  | start (pool : PoolRef)
  | dropPool (name : String)
  | closePool (pool : PoolRef)
  | isPoolClosed (pool : PoolRef)
  | closeRegistry
  | isRegistryClosed
  | counters
  | peerSend (peer : String) (conn : Nat) (bytes : ByteArray)
  | peerClose (peer : String) (conn : Nat)
  | peerReset (peer : String) (conn : Nat)
  | peerStop (peer : String)
  | peer (peer : String)
  | checkLog
  | selectorLog

/-- What a step can name without there being one. -/
inductive Missing
  | conn
  | task
  | pool

/-- What a held connection shows of itself. -/
structure HandleInfo where
  closed : Bool
  remote : Option String
  hasLocal : Bool
  holdsSlot : Bool

/-- What a peer shows of itself: what was received on each connection, whether the client was seen
to close it, and what the peer has written down. -/
structure PeerInfo where
  conns : List (ByteArray × Bool)
  log : List Network.LogEntry

/-- What a step answers. A task that is not done yet is pending. -/
inductive Answer
  | nothing
  | missing (what : Missing)
  | flag (value : Bool)
  | pending
  | fault (f : Fault)
  | got (id : Option Nat) (remote : String)
  | written
  | frame (buf : ByteArray)
  | exchanged (trip : RoundTrip)
  | replied (result : Except Fault Reply) (learned : Option (Option CallResult))
  | info (h : HandleInfo)
  | stats (s : Pool.Stats)
  | counters (c : Counters)
  | peer (p : PeerInfo)
  | checks (entries : List CheckEntry)
  | selections (entries : List SelectorEntry)

end Courier.Scenario

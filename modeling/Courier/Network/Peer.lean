import Courier.Message
import Courier.Network.Link

/-!
# Peers

The other ends of connections, as scripted for a scenario. Some never listen. Others accept and then
hold the connection, hang up, or serve: they read requests and react to each as their plan says.
-/
namespace Courier.Network

/-- What becomes of an attempt to connect to a peer. There may be nothing at the path, or nobody who
takes the connection or refuses it. -/
inductive Listening
  | accepts
  | refuses
  | missing
  | stuck
  deriving DecidableEq, Repr

/-- How a server sends a frame: the envelope around it, of workspace 1, a pause after so many bytes,
and whether it closes the connection afterwards. -/
structure Delivery where
  envelope : FrameType := .plain
  cut : Option Nat := none
  close : Bool := false

/-- What a server does about a request. Number, mode and body of an answer are those of the request
where none are given. -/
inductive Reaction
  | respond (header : ResponseHeader) (id : Option UInt64) (mode : Option QueryMode)
      (body : Option ByteArray) (delivery : Delivery)
  | raw (bytes : ByteArray) (delivery : Delivery)
  | hangUp
  | reset
  | stall

/-- What a server does about a request, and what it does before: it waits, and cancels a context. -/
structure Plan where
  delay : Option Span := none
  cancel : Option String := none
  reaction : Reaction := .respond {} none none none {}

/-- One thing that a server does; between two of them the client can react. -/
inductive Act
  | pause (span : Span)
  | cancel (context : String)
  | send (bytes : ByteArray)
  | close
  | reset

/-- What a server writes down about a request. -/
inductive LogEntry
  | request (type : FrameType) (workspace : Option UInt32) (size : Nat) (header : RequestHeader)
      (body : ByteArray)
  | fault (f : Fault)

/-- How a peer treats the connections it accepts; one that holds them greets, and keeps what it
reads. -/
inductive Manner
  | hold (greeting : ByteArray)
  | ignore
  | hangUp
  | serve (token : String) (plans : List Plan)

namespace Manner

def reads : Manner → Bool
  | hold _ | serve _ _ => true
  | ignore | hangUp => false

end Manner

/-- A peer, which has decoded so many requests. -/
structure Peer where
  name : String
  address : String
  isPath : Bool
  manner : Manner
  listening : Listening
  decoded : Nat := 0
  log : List LogEntry := []

/-- A link and what its peer knows of it: whether it saw the client close, and what it has still to
do. -/
structure Session where
  peer : Nat
  link : Link
  accepted : Bool := false
  received : ByteArray := .empty
  sawEnd : Bool := false
  reader : Frame.Reader := .start Frame.maxSize
  acts : List Act := []

namespace Delivery

def wrap (d : Delivery) (token : String) (nonce frame : ByteArray) : Except Fault ByteArray :=
  match d.envelope with
  | .plain => .ok frame
  | .signature => Envelope.sign 1 token frame
  | .encrypt => Envelope.encrypt 1 token nonce frame

/-- Nothing is sent of a frame that cannot be built. -/
def acts (d : Delivery) (token : String) (nonce frame : ByteArray) : List Act :=
  let sends :=
    match d.wrap token nonce frame, d.cut with
    | .error _, _ => []
    | .ok bytes, none => [.send bytes]
    | .ok bytes, some n => [.send (bytes.extract 0 n), .send (bytes.extract n bytes.size)]
  sends ++ if d.close then [.close] else []

end Delivery

namespace Plan

/-- What a server with a plan does about a request. -/
def acts (plan : Plan) (token : String) (nonce : ByteArray) (request : RequestHeader)
    (body : ByteArray) : List Act :=
  let before := (plan.delay.map Act.pause).toList ++ (plan.cancel.map Act.cancel).toList
  let reaction :=
    match plan.reaction with
    | .respond header id mode answer delivery =>
      let header := { header with id := id.getD request.id, mode := mode.getD request.mode }
      match Message.encodeResponse header (answer.getD body) with
      | .ok frame => delivery.acts token nonce frame
      | .error _ => []
    | .raw bytes delivery => delivery.acts token nonce bytes
    | .hangUp => [.close]
    | .reset => [.reset]
    | .stall => []
  before ++ reaction

/-- The plan for request number `n`; the last plan holds for all further requests. -/
def pick (plans : List Plan) (n : Nat) : Plan :=
  match plans[n]? with
  | some plan => plan
  | none => plans.getLast?.getD {}

end Plan

namespace Session

/-- What a session comes to when its peer does one thing; the two acts on the surroundings are not
here. -/
def perform (s : Session) (act : Act) : Session :=
  match act with
  | .pause _ | .cancel _ => s
  | .send bytes => if s.link.peerOpen then { s with link := s.link.send bytes } else s
  | .close => { s with link := s.link.closePeer, acts := [] }
  | .reset => { s with link := s.link.resetPeer, acts := [] }

/-- A peer accepts a connection. -/
def accept (s : Session) (manner : Manner) : Session :=
  let s := { s with accepted := true }
  match manner with
  | .hold greeting => s.perform (.send greeting)
  | .hangUp => s.perform .close
  | .ignore | .serve _ _ => s

/-- Whether there is something for a peer that holds the connection to read. -/
def hasNews (s : Session) : Bool :=
  s.accepted && s.link.peerOpen && (0 < s.link.toPeer.size || (s.link.isOver && !s.sawEnd))

/-- A peer that holds the connection reads. -/
def absorb (s : Session) : Session :=
  let (bytes, link) := s.link.drain
  { s with link, received := s.received ++ bytes, sawEnd := !link.clientOpen }

end Session

namespace Peer

/-- A server reads on in a session. A request is written down and its plan becomes what the server
has to do; a bad one is written down and ends the session. -/
def serve (p : Peer) (s : Session) (token : String) (plans : List Plan) (nonce : ByteArray) :
    Peer × Session :=
  let (next, left) := s.reader.feed s.link.toPeer
  let s := { s with link := { s.link with toPeer := left } }
  match next with
  | .more reader =>
    if s.link.isOver then
      (p, { s with reader, sawEnd := true, link := s.link.closePeer })
    else (p, { s with reader })
  | .fault _ => (p, { s.perform .close with sawEnd := true })
  | .frame frame =>
    let s := { s with reader := .start Frame.maxSize }
    match Envelope.remove frame token, Message.decodeRequest frame token with
    | .ok content, .ok (header, body) =>
      let entry := .request content.type content.workspace frame.size header body
      ({ p with decoded := p.decoded + 1, log := p.log ++ [entry] },
        { s with acts := (Plan.pick plans p.decoded).acts token nonce header body })
    | .error f, _ | _, .error f => ({ p with log := p.log ++ [.fault f] }, s.perform .close)

end Peer

end Courier.Network

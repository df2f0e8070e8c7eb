import Courier.Exchange
import Courier.Message
import Courier.Selector.Registry

/-!
# Calls

A call decides its time limit, finds a node, exchanges one request for one response and checks that
the response belongs to the request. Whatever becomes of the exchange, the selector gets one report
about the node, and the caller can learn which node it was. There are no retries here.
-/
namespace Courier

/-- A client; its selectors are of some kind `σ`. The network is for nodes that name none and the
endpoint for calls without a target. Without a codec every call fails. -/
structure Client (σ : Type) where
  network : String := "tcp"
  endpoint : String := ""
  selectors : SelectorRegistry σ
  hasCodec : Bool := true

/-- Where the caller is, as selectors see it. -/
structure Location where
  region : String := ""
  zone : String := ""
  campus : String := ""

/-- What a caller asks for. Without a target it goes to the endpoint of the client. -/
structure Query where
  header : RequestHeader
  body : ByteArray
  packing : Message.Packing := {}
  target : String := ""
  location : Location := {}

/-- What a selector is told about a call. -/
structure Report where
  node : Node
  cost : Span
  fault : Option Fault

/-- A call that knows its selector, with the header as it goes on the wire. -/
structure Call (σ : Type) where
  client : Client σ
  query : Query
  header : RequestHeader
  selector : σ
  endpoint : String
  context : Context
  start : Instant

abbrev Reply := ResponseHeader × ByteArray

namespace Call
variable {σ : Type}

/-- The scheme of calls without a target. -/
def defaultScheme : String := "ip"

def resolve (client : Client σ) (target : String) : Except Fault (σ × String) :=
  if target = "" then
    match client.selectors.get? defaultScheme with
    | some selector => .ok (selector, client.endpoint)
    | none =>
      .error (.route ("default selector " ++ Text.Quoted.quote defaultScheme ++ " not registered"))
  else client.selectors.resolve target

/-- The limit of a call: its own, or what its caller has left if that is less. -/
def limit (h : RequestHeader) (remaining : Option Span) : Span :=
  TimeLimit.effective (h.timeout.getD 0) remaining

/-- The header as it goes on the wire: it promises no more time than the caller has. -/
def wireHeader (h : RequestHeader) (remaining : Option Span) : RequestHeader :=
  { h with timeoutMillis := TimeLimit.wire (limit h remaining) remaining.isSome }

/-- A limit of zero is none. -/
def limitContext (c : Context) (now : Instant) (limit : Span) : Context :=
  if limit = 0 then c else c.withTimeout now limit

def begin (client : Client σ) (query : Query) (c : Context) (now : Instant) :
    Except Fault (Call σ) :=
  let remaining := c.remaining now
  match resolve client query.target with
  | .error f => .error f
  | .ok (selector, endpoint) =>
    .ok { client, query, selector, endpoint
          header := wireHeader query.header remaining
          context := limitContext c now (limit query.header remaining)
          start := now }

/-- Whether the call goes to the selected node, and the counters that go up. -/
def judgeNode (call : Call σ) (selected : Except Fault Node) (done : Option Done) :
    Except Fault Node × List Counter :=
  match selected with
  | .error f => (.error f, [.selectNodeFail])
  | .ok node =>
    if node.address = "" then
      (.error (.route ("selector returned a node with empty address for endpoint " ++
        Text.Quoted.quote call.endpoint)), [.selectNodeFail])
    else
      match done with
      | some why => (.error (why.fault .select), [])
      | none => (.ok node, [])

def network (call : Call σ) (node : Node) : String :=
  if node.network = "" then call.client.network else node.network

/-- The request frame, and the counters that go up. -/
def request (call : Call σ) (nonce : ByteArray) : Except Fault ByteArray × List Counter :=
  if call.client.hasCodec then
    (Message.encodeRequest call.query.packing nonce call.header call.query.body, [])
  else (.error (.encode "codec empty"), [.codecEmpty])

/-- Where a call goes when its selector has answered: it may end without having used a node, or have
a node and nothing to send there. -/
inductive Onward
  | failed (f : Fault)
  | unsent (node : Node) (f : Fault)
  | exchange (node : Node) (request : ByteArray)

def onward (call : Call σ) (nonce : ByteArray) (selected : Except Fault Node)
    (done : Option Done) : Onward × List Counter :=
  match call.judgeNode selected done with
  | (.error f, counts) => (.failed f, counts)
  | (.ok node, counts) =>
    match call.request nonce with
    | (.error f, more) => (.unsent node f, counts ++ more)
    | (.ok frame, more) => (.exchange node frame, counts ++ more)

/-- The reply in a response frame, if it is one to this request. -/
def check (h : RequestHeader) (response : ByteArray) : Except Fault Reply :=
  match Message.decodeResponse response with
  | .error f => .error f
  | .ok (reply, body) =>
    match reply.error with
    | some e => .error (.server e.code e.message)
    | none =>
      if reply.id ≠ h.id then .error (.requestIdMismatch h.id reply.id)
      else if reply.mode ≠ h.mode then .error (.queryModeMismatch h.mode reply.mode)
      else .ok (reply, body)

structure Conclusion where
  result : Except Fault Reply
  report : Report
  learned : CallResult

def faultOf {α : Type} : Except Fault α → Option Fault
  | .error f => some f
  | .ok _ => none

/-- What follows from how the exchange with a node came out. -/
def conclude (call : Call σ) (node : Node) (exchanged : Except Fault RoundTrip) (now : Instant) :
    Conclusion :=
  let cost := now - call.start
  let result :=
    match exchanged with
    | .error f => .error (f.withCost cost)
    | .ok trip => (check call.header trip.response).mapError (·.withCost cost)
  let remote :=
    match exchanged with
    | .error _ => node.address
    | .ok trip => trip.remote
  { result
    report := ⟨node, cost, faultOf result⟩
    learned := ⟨{ node with cost := some cost }, remote, cost⟩ }

end Call

end Courier

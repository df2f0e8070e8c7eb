import Courier.Scenario.Turn

/-!
# Turns of exchanges and calls

The steps of an exchange over the peers of a scenario, and those of a call: it asks its selector,
goes through an exchange, and reports to the selector if it had a node.
-/
namespace Courier.Scenario

namespace World

/-! ## Exchanges -/

/-- One step of an exchange; the result is there at its end. -/
def turnTrip (w : World) (t : Trip) : World × (Turn Trip ⊕ Except Fault RoundTrip) :=
  let done := w.done? t.context
  let go (w : World) (s : Pool.Step Exchange) : World × (Turn Trip ⊕ Except Fault RoundTrip) :=
    let (w, exchange) := w.commit t.pool s
    (w, .inl (.ready { t with exchange }))
  match t.exchange with
  | .finished r => (w, .inr r)
  | .acquiring (.served h) =>
    go w (Exchange.acquired (w.poolAt t.pool) h t.address t.request t.context.deadline done w.now)
  | .acquiring (.failed f) =>
    (w.count [.getConnectionErr], .inl (.ready { t with exchange := .refused f }))
  | .acquiring a =>
    let (w, a, canGo) := w.acquire t.pool t.context t.ticket a
    let t := { t with exchange := .acquiring a }
    (w, .inl (if canGo then .ready t else .waiting t))
  | .writing remote h writer =>
    let (w, writer, io) := w.pollWrite h writer
    match Exchange.await h .write io done w.now with
    | some r => go w (Exchange.wrote (w.poolAt t.pool) remote h r done w.now)
    | none => (w, .inl (.waiting { t with exchange := .writing remote h writer }))
  | .reading remote h reader =>
    let (w, reader, io) := w.pollRead h reader
    match Exchange.await h .read io done w.now with
    | some r => go w (Exchange.received (w.poolAt t.pool) remote h r w.now)
    | none => (w, .inl (.waiting { t with exchange := .reading remote h reader }))

/-- Begins an exchange: under a context that is done it does not even look for its pool. -/
def beginTrip (w : World) (context : Context) (network address : String) (request : ByteArray) :
    Except Fault Trip × World :=
  match Exchange.begin (w.done? context) with
  | .finished (.error f) => (.error f, w)
  | exchange =>
    match w.fetchPool network address with
    | (.error f, w) => (.error f, w)
    | (.ok pool, w) =>
      let (ticket, w) := w.newTicket
      (.ok { pool, context, address, request, ticket, exchange }, w)

/-! ## Calls -/

/-- The end of a call that used a node: the selector gets its report. -/
def concludeCall (w : World) (call : Call Selector) (learn : Bool) (node : Node)
    (r : Except Fault RoundTrip) : World × Turn Job :=
  let c := call.conclude node r w.now
  let w :=
    match call.selector with
    | .addresses => w
    | .scripted _ => { w with selectorLog := w.selectorLog ++ [.report c.report] }
  (w, .finished (.replied c.result (if learn then some (some c.learned) else none)))

/-- The selector has answered: the call goes to the node or ends here. -/
def selected (w : World) (call : Call Selector) (learn : Bool) (r : Except Fault Node) :
    World × Turn Job :=
  let (onward, counts) := call.onward w.nonce r (w.done? call.context)
  let w := w.count counts
  match onward with
  | .failed f => (w, .finished (.replied (.error f) (if learn then some none else none)))
  | .unsent node f => w.concludeCall call learn node (.error f)
  | .exchange node request =>
    match w.beginTrip call.context (call.network node) node.address request with
    | (.error f, w) => w.concludeCall call learn node (.error f)
    | (.ok trip, w) => (w, .ready (.call call learn node trip))

/-- A call asks its selector, unless its context is done. -/
def turnSelect (w : World) (call : Call Selector) (learn : Bool) : World × Turn Job :=
  match w.done? call.context with
  | some why => w.selected call learn (.error (why.fault .select))
  | none =>
    match call.selector with
    | .addresses => w.selected call learn (AddressList.select "" call.endpoint 0)
    | .scripted plan =>
      let entry : SelectorEntry :=
        .select call.endpoint (call.context.remaining w.now) call.query.location
      let w := { w with selectorLog := w.selectorLog ++ [entry] }
      let w := (w.advance plan.advance).cancelNamed plan.cancel
      if plan.hang then (w, .ready (.await call learn))
      else
        match plan.fault with
        | some f => w.selected call learn (.error f)
        | none => w.selected call learn (.ok plan.node)

def turnCall (w : World) (call : Call Selector) (learn : Bool) (node : Node) (t : Trip) :
    World × Turn Job :=
  match w.turnTrip t with
  | (w, .inl turn) => (w, turn.map (.call call learn node))
  | (w, .inr r) => w.concludeCall call learn node r

end World

end Courier.Scenario

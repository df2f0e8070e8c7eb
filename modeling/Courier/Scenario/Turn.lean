import Courier.Scenario.Attempts
import Courier.Scenario.Health

/-!
# Turns with a pool

What a task does when it is its turn: one step of an operation. Here are the steps that get a
connection from a pool and that write and read through one.
-/
namespace Courier.Scenario
open Pool (PoolId Acquire)

/-- How a turn leaves a task, which can go on at once if it is ready. -/
inductive Turn (ι : Type)
  | ready (job : ι)
  | waiting (job : ι)
  | finished (a : Answer)

namespace Turn

def map {ι κ : Type} (f : ι → κ) : Turn ι → Turn κ
  | ready job => ready (f job)
  | waiting job => waiting (f job)
  | finished a => finished a

end Turn

namespace World

/-! ## Acquiring -/

/-- How a dial ends, if it does. -/
def pollDial (w : World) (d : Pool.Dial) (done : Option Done) :
    Option (Except Fault Conn) × World :=
  let reached :=
    match w.attempts[d.attempt]? with
    | some (.ended r) => some r
    | _ => none
  match d.poll reached done w.now with
  | none => (none, w)
  | some r =>
    (some r, { w with attempts := w.attempts.modify d.attempt fun _ => .dropped })

/-- One step of a call that wants a connection; whether it can go on is the second part. -/
def acquire (w : World) (id : PoolId) (context : Context) (ticket : Ticket) (a : Acquire) :
    World × Acquire × Bool :=
  let p := w.poolAt id
  let done := w.done? context
  let go (w : World) (s : Pool.Step Acquire) : World × Acquire × Bool :=
    let (w, a) := w.commit id s
    (w, a, true)
  match a with
  | .arriving => go w (Acquire.arrive p ticket done)
  | .queued ticket =>
    let (w, a) := w.commit id (Acquire.resume p ticket done)
    (w, a, a != .queued ticket)
  | .popping slot => go w (Acquire.pop p slot)
  | .checking slot c =>
    let (healthy, w) := w.checkConn id c true
    go w (Acquire.judge (w.poolAt id) slot c healthy)
  | .exhausted slot =>
    let (w, a) :=
      w.commit id (Acquire.beginDial p slot w.attempts.size done (context.remaining w.now) w.now)
    match a with
    | .dialing _ d => (w.startAttempt d, a, true)
    | _ => (w, a, true)
  | .dialing slot d =>
    match w.pollDial d done with
    | (none, w) => (w, a, false)
    | (some r, w) => go w (Acquire.endDial (w.poolAt id) slot r)
  | .served _ | .failed _ => (w, a, false)

/-- The number that a connection has among those of its peer; path sockets show none. -/
def connNumber (w : World) (c : Conn) : Option Nat :=
  match w.sessions[c.id]? with
  | none => none
  | some s =>
    if s.link.isPath then none
    else some ((w.sessions.extract 0 c.id).filter (·.peer == s.peer)).size

def turnGet (w : World) (conn : String) (filed : Bool) (id : PoolId) (context : Context)
    (ticket : Ticket) (a : Acquire) : World × Turn Job :=
  match a with
  | .served h =>
    let number := h.conn.bind w.connNumber
    (w.hold conn ⟨id, h⟩, .finished (.got number ((h.conn.map Conn.remote).getD "")))
  | .failed f => (if filed then w.count [.getConnectionErr] else w, .finished (.fault f))
  | _ =>
    let (w, a, canGo) := w.acquire id context ticket a
    let job := Job.get conn filed id context ticket a
    (w, if canGo then .ready job else .waiting job)

/-! ## Writing and reading -/

/-- Writes through a handle as far as possible. -/
def pollWrite (w : World) (h : Handle) (writer : Frame.Writer) :
    World × Frame.Writer × Option (Except Fault Unit) :=
  match h.conn with
  | none => (w, writer, some (.error .connectionClosed))
  | some c =>
    match w.sessions[c.id]? with
    | none => (w, writer, some (.error .connectionClosed))
    | some s =>
      let isRead := (w.peers[s.peer]?).any (·.manner.reads)
      let (link, writer, r) := s.link.write writer.buf.size isRead writer
      (w.modifySession c.id fun s => { s with link }, writer, r)

/-- Reads through a handle as far as possible. -/
def pollRead (w : World) (h : Handle) (reader : Frame.Reader) :
    World × Frame.Reader × Option (Except Fault ByteArray) :=
  match h.conn with
  | none => (w, reader, some (.error .connectionClosed))
  | some c =>
    match w.sessions[c.id]? with
    | none => (w, reader, some (.error .connectionClosed))
    | some s =>
      let (link, reader, r) := s.link.read reader
      (w.modifySession c.id fun s => { s with link }, reader, r)

/-- A write or a read of a held connection is over: the connection is held again. -/
def endIo {α : Type} (w : World) (conn : String) (held : Holding) (r : Except Fault α)
    (answer : α → Answer) : World × Turn Job :=
  let (w, h) := w.commit held.pool (held.handle.afterIo (w.poolAt held.pool) w.now r)
  let w := w.hold conn { held with handle := h }
  match r with
  | .ok a => (w, .finished (answer a))
  | .error f => (w, .finished (.fault f))

def turnWrite (w : World) (conn : String) (held : Holding) (writer : Frame.Writer) :
    World × Turn Job :=
  let (w, writer, io) := w.pollWrite held.handle writer
  match held.handle.await .write io w.now with
  | some r => w.endIo conn held r fun () => .written
  | none => (w, .waiting (.write conn held writer))

def turnRead (w : World) (conn : String) (held : Holding) (reader : Frame.Reader) :
    World × Turn Job :=
  let (w, reader, io) := w.pollRead held.handle reader
  match held.handle.await .read io w.now with
  | some r => w.endIo conn held r .frame
  | none => (w, .waiting (.read conn held reader))

end World

end Courier.Scenario

import Courier.Frame.Reader
import Courier.Frame.Writer
import Courier.Pool.Conn

/-!
# Links

A link is the pair of byte queues between a client's socket and its peer. The client reads what has
arrived before it learns of the end or a reset. A peer that goes while bytes for it are unread
resets the link. On a path socket a write to a peer that has gone breaks the pipe; over TCP the
bytes are lost and the link is reset.
-/
namespace Courier.Network

/-- A link over a socket at a path or a TCP one. The client finds a reset behind the bytes that have
arrived. -/
structure Link where
  isPath : Bool
  toPeer : ByteArray := .empty
  toClient : ByteArray := .empty
  clientOpen : Bool := true
  peerOpen : Bool := true
  isReset : Bool := false

namespace Link

/-- How many bytes wait for a peer that does not read before a write blocks. -/
def capacity : Nat := 212992

def resetError : IoError := .ofNumber 104

def brokenPipe : IoError := .ofNumber 32

/-! ## The client's end -/

/-- Looks whether there is something to read, which takes one byte if there is. -/
def probe (l : Link) : Probe × Link :=
  if 0 < l.toClient.size then
    (.unexpectedData, { l with toClient := l.toClient.extract 1 l.toClient.size })
  else if l.isReset then (.failed, { l with isReset := false })
  else if l.peerOpen then (.healthy, l)
  else (.ended, l)

/-- Reads on; the result is there if the frame or a failure is. -/
def read (l : Link) (r : Frame.Reader) : Link × Frame.Reader × Option (Except Fault ByteArray) :=
  let (next, left) := r.feed l.toClient
  let l := { l with toClient := left }
  match next with
  | .frame buf => (l, r, some (.ok buf))
  | .fault f => (l, r, some (.error f))
  | .more r =>
    if l.isReset then
      ({ l with isReset := false }, r, some (.error (.ofIo resetError .read "read frame")))
    else if l.peerOpen then (l, r, none)
    else (l, r, some (.error (.ofIo .earlyEnd .read "read frame")))

/-- Answers the offer of a write; there is no answer yet if the link is full. -/
def take (l : Link) (isRead : Bool) (offer : ByteArray) : Link × Option Frame.Reception :=
  if l.peerOpen then
    let room := if isRead then offer.size else capacity - l.toPeer.size
    let n := min room offer.size
    if n = 0 then (l, none)
    else ({ l with toPeer := l.toPeer ++ offer.extract 0 n }, some (.took n))
  else if l.isPath then (l, some (.failed brokenPipe))
  else if l.isReset then ({ l with isReset := false }, some (.failed resetError))
  else ({ l with isReset := true }, some (.took offer.size))

/-- Offers until the writer is done or the link is full; every answer ends the run or shortens what
is left, so `fuel` of the writer's size is enough. -/
def write (fuel : Nat) (l : Link) (isRead : Bool) (w : Frame.Writer) :
    Link × Frame.Writer × Option (Except Fault Unit) :=
  if w.isComplete then (l, w, some (Frame.Writer.flush none))
  else
    match fuel with
    | 0 => (l, w, none)
    | fuel + 1 =>
      match l.take isRead w.offer with
      | (l, none) => (l, w, none)
      | (l, some a) =>
        match w.feed a with
        | .ok w => write fuel l isRead w
        | .error f => (l, w, some (.error f))

def closeClient (l : Link) : Link := { l with clientOpen := false }

/-! ## The peer's end -/

/-- Bytes to a client that has gone are lost. -/
def send (l : Link) (bytes : ByteArray) : Link :=
  if l.clientOpen then { l with toClient := l.toClient ++ bytes } else l

def closePeer (l : Link) : Link :=
  { l with peerOpen := false, isReset := l.isReset || 0 < l.toPeer.size }

/-- Path sockets know no reset. -/
def resetPeer (l : Link) : Link :=
  if l.isPath then l.closePeer else { l with peerOpen := false, isReset := true }

/-- The peer takes all that has arrived for it. -/
def drain (l : Link) : ByteArray × Link := (l.toPeer, { l with toPeer := .empty })

/-- The client has gone and everything it sent was read. -/
def isOver (l : Link) : Bool := !l.clientOpen && l.toPeer.size == 0

end Link

end Courier.Network

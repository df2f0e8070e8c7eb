import Courier.Bytes
import Courier.Fault

/-!
# Writing to a stream

A writer offers what is left of its bytes until the stream has taken all of them, and then flushes.
A stream takes a part of each offer; taking nothing is a fault. What was taken is always a front
part of the bytes, each byte once and in order.
-/
namespace Courier.Frame

/-- A frame of which the stream has taken `sent` bytes. -/
structure Writer where
  buf : ByteArray
  sent : Nat

/-- What a stream does with an offer. -/
inductive Reception
  | took (n : Nat)
  | failed (e : IoError)

namespace Writer

def start (buf : ByteArray) : Writer := ⟨buf, 0⟩

/-- How many bytes are left. -/
def left (w : Writer) : Nat := w.buf.size - w.sent

def isComplete (w : Writer) : Bool := w.buf.size ≤ w.sent

/-- The next offer. -/
def offer (w : Writer) : ByteArray := w.buf.extract w.sent w.buf.size

/-- What the stream has taken so far. -/
def taken (w : Writer) : ByteArray := w.buf.extract 0 w.sent

/-- The stream has answered an offer; it cannot take more than was offered. -/
def feed (w : Writer) : Reception → Except Fault Writer
  | .failed e => .error (.ofIo e .write "write frame")
  | .took n =>
    if n = 0 then
      .error (.network .write ("write frame: zero bytes written, " ++ toString w.sent ++ " of " ++
        toString w.buf.size ++ " sent"))
    else .ok { w with sent := w.sent + min n w.left }

/-- Flushing comes after the last byte. -/
def flush : Option IoError → Except Fault Unit
  | none => .ok ()
  | some e => .error (.ofIo e .write "flush frame")

/-- How a run of the writer stands: it waits for the next answer, or it is over. -/
inductive Run
  | waiting (w : Writer)
  | ended (w : Writer) (result : Except Fault Unit)

/-- The run against the answers of a stream in their order, and the outcome of the flush. -/
def run (w : Writer) (flushed : Option IoError) : List Reception → Run
  | [] => if w.isComplete then .ended w (flush flushed) else .waiting w
  | a :: rest =>
    if w.isComplete then .ended w (flush flushed)
    else
      match w.feed a with
      | .ok w => w.run flushed rest
      | .error f => .ended w (.error f)

end Writer

end Courier.Frame

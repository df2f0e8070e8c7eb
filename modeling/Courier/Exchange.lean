import Courier.Frame.Reader
import Courier.Frame.Writer
import Courier.Pool.Acquire

/-!
# Exchanges

An exchange acquires a connection, writes one request frame, reads one response frame and gives the
connection back. Each of its steps is raced against the context. An exchange that finds its context
done before the write leaves the connection unused, and it can be used again; one that fails later
has the connection closed. The functions are the steps; the surroundings say how input and output
come out.
-/
namespace Courier

/-- What a complete exchange yields: the response, and the other end of the connection that was
used. -/
structure RoundTrip where
  response : ByteArray
  remote : String

/-- How far an exchange has come. -/
inductive Exchange
  | acquiring (a : Pool.Acquire)
  | writing (remote : String) (h : Handle) (w : Frame.Writer)
  | reading (remote : String) (h : Handle) (r : Frame.Reader)
  | finished (result : Except Fault RoundTrip)

namespace Exchange
open Pool (Step)

/-- Under a context that is done nothing starts. -/
def begin (done : Option Done) : Exchange :=
  match done with
  | some why => .finished (.error (why.fault .dial))
  | none => .acquiring .arriving

/-- No connection was acquired. -/
def refused (f : Fault) : Exchange := .finished (.error f)

/-- A connection was acquired. The deadline of the context becomes its deadline; if the context is
done by now, the connection goes back unused. -/
def acquired (p : Pool) (h : Handle) (address : String) (request : ByteArray)
    (deadline : Option Instant) (done : Option Done) (now : Instant) : Step Exchange :=
  let h := { h with deadline }
  match done with
  | some why => { h.close p now with next := .finished (.error (why.fault .dial)) }
  | none => .quiet p (.writing ((h.conn.map Conn.remote).getD address) h (.start request))

/-- Ends an exchange that has touched its connection without success. -/
def spoil (p : Pool) (h : Handle) (f : Fault) (now : Instant) : Step Exchange :=
  { h.discard p now with next := .finished (.error f) }

/-- The write has ended. The read starts unless the context is done. -/
def wrote (p : Pool) (remote : String) (h : Handle) (result : Except Fault Unit)
    (done : Option Done) (now : Instant) : Step Exchange :=
  match result, done with
  | .error f, _ => spoil p h f now
  | .ok (), some why => spoil p h (why.fault .read) now
  | .ok (), none => .quiet p (.reading remote h (.start Frame.maxSize))

/-- The read has ended. -/
def received (p : Pool) (remote : String) (h : Handle) (result : Except Fault ByteArray)
    (now : Instant) : Step Exchange :=
  match result with
  | .error f => spoil p h f now
  | .ok response => { h.close p now with next := .finished (.ok ⟨response, remote⟩) }

/-- How a write or a read ends, if it does: by itself, by the deadline of the handle, or with the
context, in this order. -/
def await {α : Type} (h : Handle) (stage : Stage) (io : Option (Except Fault α))
    (done : Option Done) (now : Instant) : Option (Except Fault α) :=
  match h.await stage io now with
  | some r => some r
  | none => done.map fun why => .error (why.fault stage)

/-- An exchange that is dropped lets go of what it holds, as if its handle were closed. -/
def abandon (x : Exchange) (p : Pool) (now : Instant) : Step Unit :=
  match x with
  | .acquiring a => .quiet (a.abandon p) ()
  | .writing _ h _ | .reading _ h _ => { h.close p now with next := () }
  | .finished _ => .quiet p ()

end Exchange

end Courier

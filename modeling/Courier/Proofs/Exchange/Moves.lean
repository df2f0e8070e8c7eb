import Courier.Exchange
import Courier.Proofs.Pool.Moves

/-!
# Steps of an exchange

The steps of an exchange, with all that input and output can do: a socket accepts any part of what
it is offered, bytes arrive in pieces of any size, a socket fails at any time, and the deadline of
the handle or the context can end a write or a read that is not complete.
-/
namespace Courier

/-- What an exchange is about: its place in the queue for slots, the address it goes to, and the
request. -/
structure Errand where
  ticket : Ticket
  address : String
  request : ByteArray

/-- How a write can stand: under way, refused by the socket, complete and flushed with some outcome,
or without a connection. -/
inductive Handle.Writes (h : Handle) (w : Frame.Writer) : Option (Except Fault Unit) → Prop
  | underWay : Writes h w none
  | refused {a : Frame.Reception} {f : Fault} (hw : w.isComplete = false)
      (ha : w.feed a = .error f) : Writes h w (some (.error f))
  | flushed (hw : w.isComplete = true) (outcome : Option IoError) :
      Writes h w (some (Frame.Writer.flush outcome))
  | unconnected (hc : h.conn = none) : Writes h w (some (.error .connectionClosed))

/-- How a read that does not get its frame can stand: under way, failed at the socket, or without a
connection. -/
inductive Handle.Stalls (h : Handle) : Option (Except Fault ByteArray) → Prop
  | underWay : Stalls h none
  | failed (e : IoError) : Stalls h (some (.error (.ofIo e .read "read frame")))
  | unconnected (hc : h.conn = none) : Stalls h (some (.error .connectionClosed))

namespace Exchange
open Pool (Acquire Step)

/-- A step of an exchange. A piece of input ends where the head or the frame ends, at the latest. -/
inductive Moves (e : Errand) (p : Pool) (now : Instant) : Exchange → Step Exchange → Touch → Prop
  | acquire {a : Acquire} {s : Step Acquire} {touch : Touch} (h : a.Moves e.ticket p now s touch) :
      Moves e p now (.acquiring a) (s.map .acquiring) touch
  | refuse (f : Fault) :
      Moves e p now (.acquiring (.failed f)) ⟨p, refused f, [], [.getConnectionErr]⟩ .nothing
  | acquired (h : Handle) (deadline : Option Instant) (done : Option Done) :
      Moves e p now (.acquiring (.served h))
        (acquired p h e.address e.request deadline done now) .nothing
  | send {h : Handle} {c : Conn} {w w' : Frame.Writer} {n : Nat} (remote : String)
      (hc : h.conn = some c) (hw : w.isComplete = false) (hn : w.feed (.took n) = .ok w') :
      Moves e p now (.writing remote h w) (.quiet p (.writing remote h w'))
        (.sends c (w.offer.extract 0 n))
  | wrote {h : Handle} {w : Frame.Writer} {io : Option (Except Fault Unit)} {r : Except Fault Unit}
      (remote : String) (done : Option Done) (hio : h.Writes w io)
      (hr : await h .write io done now = some r) :
      Moves e p now (.writing remote h w) (wrote p remote h r done now) .nothing
  | take {h : Handle} {c : Conn} {r r' : Frame.Reader} {piece : ByteArray} (remote : String)
      (hc : h.conn = some c) (hr : r.feed piece = (.more r', .empty)) :
      Moves e p now (.reading remote h r) (.quiet p (.reading remote h r')) (.takes c piece)
  | receive {h : Handle} {c : Conn} {r : Frame.Reader} {piece frame : ByteArray} (remote : String)
      (hc : h.conn = some c) (hr : r.feed piece = (.frame frame, .empty)) :
      Moves e p now (.reading remote h r) (received p remote h (.ok frame) now) (.takes c piece)
  | reject {h : Handle} {c : Conn} {r : Frame.Reader} {piece : ByteArray} {f : Fault}
      (remote : String) (hc : h.conn = some c) (hr : r.feed piece = (.fault f, .empty)) :
      Moves e p now (.reading remote h r) (received p remote h (.error f) now) (.takes c piece)
  | stall {h : Handle} {r : Frame.Reader} {io : Option (Except Fault ByteArray)} {f : Fault}
      (remote : String) (done : Option Done) (hio : h.Stalls io)
      (hr : await h .read io done now = some (.error f)) :
      Moves e p now (.reading remote h r) (received p remote h (.error f) now) .nothing

/-- A write that ended well was complete. -/
theorem isComplete_of_wrote {h : Handle} {w : Frame.Writer} {io : Option (Except Fault Unit)}
    {done : Option Done} {now : Instant} (hio : h.Writes w io)
    (hr : await h .write io done now = some (.ok ())) : w.isComplete = true := by
  cases hio with
  | flushed hw => exact hw
  | underWay =>
    unfold await Handle.await at hr
    dsimp only at hr
    split at hr
    next hd => split at hd <;> simp_all
    next => cases done <;> simp at hr
  | refused => simp [await, Handle.await] at hr
  | unconnected => simp [await, Handle.await] at hr

/-- Behind a write that has ended, the exchange is spoilt by its fault or by the context, or it
reads. -/
theorem wrote_cases (p : Pool) (remote : String) (h : Handle) (r : Except Fault Unit)
    (done : Option Done) (now : Instant) :
    (∃ f, (r = .error f ∨ ∃ why : Done, f = why.fault .read) ∧
      wrote p remote h r done now = spoil p h f now) ∨
    (r = .ok () ∧
      wrote p remote h r done now = .quiet p (.reading remote h (.start Frame.maxSize))) := by
  unfold wrote
  split
  · exact .inl ⟨_, .inl rfl, rfl⟩
  · exact .inl ⟨_, .inr ⟨_, rfl⟩, rfl⟩
  · exact .inr ⟨rfl, rfl⟩

end Exchange

/-! ## What an exchange does -/

/-- The handle that a call has once it is served. -/
def Pool.Acquire.handle? : Acquire → Option Handle
  | .served h => some h
  | .arriving | .queued _ | .popping _ | .checking _ _ | .exhausted _ | .dialing _ _ | .failed _ =>
    none

namespace Exchange
open Pool (Acquire Step)

/-- The handle that an exchange has once it was served. -/
def handle? : Exchange → Option Handle
  | .acquiring a => a.handle?
  | .writing _ h _ | .reading _ h _ => some h
  | .finished _ => none

/-- The exchange has begun to write. -/
def isSent : Exchange → Bool
  | .writing _ _ _ | .reading _ _ _ => true
  | .acquiring _ | .finished _ => false

theorem handle?_cases {x : Exchange} {h : Handle} (hx : x.handle? = some h) :
    x = .acquiring (.served h) ∨ (∃ remote w, x = .writing remote h w) ∨
      ∃ remote r, x = .reading remote h r := by
  cases x with
  | acquiring a =>
    cases a with
    | served h' =>
      cases hx
      exact .inl rfl
    | _ => cases hx
  | writing remote h' w =>
    cases hx
    exact .inr (.inl ⟨_, _, rfl⟩)
  | reading remote h' r =>
    cases hx
    exact .inr (.inr ⟨_, _, rfl⟩)
  | finished result => cases hx

/-- What a step of an exchange comes to. It goes on with its connection and does nothing to the
pool, or it is over and gives its handle up, and has the connection closed if it has failed on
it. -/
inductive Does (e : Errand) (p : Pool) (now : Instant) (x : Exchange) (m : Step Exchange)
    (touch : Touch) : Prop
  | acquires {a : Acquire} {s : Step Acquire} (hx : x = .acquiring a)
      (h : a.Moves e.ticket p now s touch) (hm : m = s.map .acquiring)
  | refused (f : Fault) (hx : x = .acquiring (.failed f))
      (hm : m = ⟨p, .finished (.error f), [], [.getConnectionErr]⟩) (ht : touch.opened = [])
  | keeps {y : Exchange} {h h' : Handle} (hx : x.handle? = some h) (hy : y.handle? = some h')
      (hh : h' = { h with deadline := h'.deadline }) (hm : m = .quiet p y) (ht : touch.opened = [])
  | gives {h : Handle} {result : Except Fault RoundTrip} (force : Bool) (hx : x.handle? = some h)
      (hforce : force = (h.forceClose || x.isSent && !result.isOk))
      (hu : x.isSent = false → ∃ why : Done, result = .error (why.fault .dial))
      (hm : m = { h.release p force now with next := .finished result }) (ht : touch.opened = [])

theorem spoil_does {x : Exchange} {h : Handle} {touch : Touch} (hx : x.handle? = some h)
    (hs : x.isSent = true) (ht : touch.opened = []) (e : Errand) (p : Pool) (f : Fault)
    (now : Instant) : x.Does e p now (spoil p h f now) touch := by
  refine .gives true hx ?_ ?_ rfl ht
  · rw [hs]
    exact (Bool.or_true _).symm
  · intro hu
    rw [hs] at hu
    cases hu

theorem Moves.does {e : Errand} {p : Pool} {now : Instant} {x : Exchange} {m : Step Exchange}
    {touch : Touch} (hm : x.Moves e p now m touch) : x.Does e p now m touch := by
  cases hm with
  | acquire h => exact .acquires rfl h rfl
  | refuse f => exact .refused f rfl rfl rfl
  | acquired h deadline done =>
    cases done with
    | none => exact .keeps rfl rfl rfl rfl rfl
    | some why => exact .gives h.forceClose rfl (Bool.or_false _).symm (fun _ => ⟨why, rfl⟩) rfl rfl
  | send => exact .keeps rfl rfl rfl rfl rfl
  | @wrote h w io r remote done hio hr =>
    obtain ⟨f, -, hw⟩ | ⟨-, hw⟩ := wrote_cases p remote h r done now
    · rw [hw]
      exact spoil_does rfl rfl rfl e p f now
    · rw [hw]
      exact .keeps rfl rfl rfl rfl rfl
  | take => exact .keeps rfl rfl rfl rfl rfl
  | @receive h => exact .gives h.forceClose rfl (Bool.or_false _).symm nofun rfl rfl
  | @reject h c r piece f => exact spoil_does rfl rfl rfl e p f now
  | @stall h r io f => exact spoil_does rfl rfl rfl e p f now

end Exchange

end Courier

import Mathlib.Algebra.Ring.Nat
import Courier.Pool.Acquire
import Courier.Pool.Sweep
import Courier.Pool.TopUp

/-!
# Steps of the operations of a pool

For each operation of a pool, the steps that it can take. Everything that the pool does not decide
by itself is left open: whether a context is done, how a dial stands, how a health check comes out,
when a caller uses its connection. Between two steps of an operation any other operation may take
steps.
-/
namespace Courier

/-- What a step does to a socket. A check may look whether there is something to read, which takes a
byte if there is; the socket accepts bytes; bytes that have arrived are taken from it. -/
inductive Touch
  | nothing
  | opens (c : Conn)
  | checks (c : Conn)
  | sends (c : Conn) (bytes : ByteArray)
  | takes (c : Conn) (bytes : ByteArray)

/-- The connections that a step opens. -/
def Touch.opened : Touch → List Conn
  | .opens c => [c]
  | .nothing | .checks _ | .sends _ _ | .takes _ _ => []

/-- The bytes that a step hands to a socket. -/
def Touch.sent : Touch → ByteArray
  | .sends _ bytes => bytes
  | .nothing | .opens _ | .checks _ | .takes _ _ => .empty

namespace Pool

/-- The numbers of connections. -/
def numbers (conns : List Conn) : List Nat := conns.map Conn.id

section Numbers
variable (c : Conn) (conns more : List Conn)

@[simp] theorem numbers_nil : numbers [] = [] := rfl
@[simp] theorem numbers_cons : numbers (c :: conns) = c.id :: numbers conns := rfl
@[simp] theorem numbers_append : numbers (conns ++ more) = numbers conns ++ numbers more :=
  List.map_append
@[simp] theorem length_numbers : (numbers conns).length = conns.length := List.length_map _

end Numbers

/-- The same step, seen as a step of something larger. -/
def Step.map {σ τ : Type} (f : σ → τ) (s : Step σ) :
    Step τ := ⟨s.pool, f s.next, s.closes, s.counts⟩

section Step
variable {σ τ : Type} (f : σ → τ) (s : Step σ) (p : Pool) (next : σ)

@[simp] theorem Step.map_pool : (s.map f).pool = s.pool := rfl
@[simp] theorem Step.map_next : (s.map f).next = f s.next := rfl
@[simp] theorem Step.map_closes : (s.map f).closes = s.closes := rfl
@[simp] theorem Step.map_counts : (s.map f).counts = s.counts := rfl
@[simp] theorem Step.quiet_pool : (Step.quiet p next).pool = p := rfl
@[simp] theorem Step.quiet_next : (Step.quiet p next).next = next := rfl
@[simp] theorem Step.quiet_closes : (Step.quiet p next).closes = [] := rfl
@[simp] theorem Step.quiet_counts : (Step.quiet p next).counts = [] := rfl

end Step

/-- The verdicts to which the health check of a pool can come: those of the built-in check on some
finding of the probe, or whatever another check says. -/
def Judges (p : Pool) (c : Conn) (fast : Bool) (now : Instant) (v : Verdict) : Prop :=
  p.config.customCheck = true ∨ ∃ probe, v = builtInCheck p.config probe c fast now

/-! ## Dials -/

/-- How the attempt behind a dial can stand: under way, connected, or failed as the surroundings
say. -/
inductive Dial.Stands (d : Dial) : Option (Except Fault Conn) → Prop
  | underWay : Stands d none
  | connected (c : Conn) : Stands d (some (.ok c))
  | failed {α : Type} (reach : Reach α) {f : Fault} (h : d.connect reach = some (.error f)) :
      Stands d (some (.error f))

/-- The ways in which a dial can end. -/
def Dial.Ends (d : Dial) (now : Instant) (r : Except Fault Conn) : Prop :=
  ∃ reached done, d.Stands reached ∧ d.poll reached done now = some r

/-- The connection that the end of a dial opens. -/
def Dial.touch : Except Fault Conn → Touch
  | .ok c => .opens c
  | .error _ => .nothing

/-! ## Operations -/

/-- A step of a call that wants a connection. -/
inductive Acquire.Moves (ticket : Ticket) (p : Pool) (now : Instant) :
    Acquire → Step Acquire → Touch → Prop
  | arrive (done : Option Done) : Moves ticket p now .arriving (arrive p ticket done) .nothing
  | resume (t : Ticket) (done : Option Done) : Moves ticket p now (.queued t)
      (resume p t done) .nothing
  | pop (slot : Bool) : Moves ticket p now (.popping slot) (pop p slot) .nothing
  | judge (slot : Bool) (c : Conn) {v : Verdict} (hv : p.Judges c true now v) :
      Moves ticket p now (.checking slot c) { judge p slot c v.healthy with counts := v.counts }
        (.checks c)
  | beginDial (slot : Bool) (attempt : Nat) (done : Option Done) (remaining : Option Span) :
      Moves ticket p now (.exhausted slot) (beginDial p slot attempt done remaining now) .nothing
  | endDial (slot : Bool) {d : Dial} {r : Except Fault Conn} (hr : d.Ends now r) :
      Moves ticket p now (.dialing slot d) (endDial p slot r) (Dial.touch r)

/-- A step of one dial of a top-up. -/
inductive PreDial.Moves (p : Pool) (now : Instant) : PreDial → Step PreDial → Touch → Prop
  | begin (attempt : Nat) : Moves p now .waiting (begin p attempt now) .nothing
  | finish {d : Dial} {r : Except Fault Conn} (hr : d.Ends now r) :
      Moves p now (.dialing d) (finish p r) (Dial.touch r)

end Pool

/-- A step of a caller that keeps its handle: it changes the handle, writes or reads through it, or
gives the connection up. -/
inductive Handle.Moves (p : Pool) (now : Instant) : Handle → Pool.Step Handle → Prop
  | setDeadline (h : Handle) (deadline : Option Instant) :
      Moves p now h (.quiet p { h with deadline })
  | setForceClose (h : Handle) (forceClose : Bool) : Moves p now h (.quiet p { h with forceClose })
  | io (h : Handle) (r : Except Fault Unit) : Moves p now h (h.afterIo p now r)
  | discard (h : Handle) : Moves p now h (h.discard p now)

end Courier

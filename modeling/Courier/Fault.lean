import Courier.Fault.Cause
import Courier.QueryMode
import Courier.Time

/-!
# Faults of a call

Everything that can end a call, with its wording, its class, whether the request may have reached
the peer, and whether another attempt is safe. A fault at the stages `write` and `read` counts as
sent.
-/
namespace Courier

/-- The point of a call at which a fault arises. -/
inductive Stage
  | select
  | dial
  | write
  | read
  deriving DecidableEq, Repr

namespace Stage

def name : Stage → String
  | select => "select"
  | dial => "dial"
  | write => "write"
  | read => "read"

/-- From the write on, bytes of the request may be on their way. -/
def isSent : Stage → Bool
  | select | dial => false
  | write | read => true

end Stage

/-- The classes of faults. -/
inductive FaultKind
  | routing
  | poolLimit
  | poolClosed
  | connectionClosed
  | dialFailure
  | timeout
  | canceled
  | network
  | encodeFailure
  | decodeFailure
  | protocolMismatch
  | server
  deriving DecidableEq, Repr

inductive Fault
  | route (why : String)
  | poolLimit
  | poolClosed
  | connectionClosed
  | dial (why : String)
  | timeout (stage : Stage) (why : String)
  | canceled (stage : Stage) (why : String)
  | network (stage : Stage) (why : String)
  | encode (why : String)
  | decode (why : String)
  | requestIdMismatch (request response : UInt64)
  | queryModeMismatch (request response : QueryMode)
  | server (code : Int32) (why : String)
  | record (cause : RecordError)
  | io (cause : IoError)
  deriving DecidableEq, Repr

namespace Fault

def message : Fault → String
  | route why => "route error: " ++ why
  | poolLimit => "connection pool limit"
  | poolClosed => "connection pool closed"
  | connectionClosed => "connection closed"
  | dial why => "dial error: " ++ why
  | timeout stage why => stage.name ++ " timeout: " ++ why
  | canceled stage why => stage.name ++ " canceled: " ++ why
  | network stage why => "network error on " ++ stage.name ++ ": " ++ why
  | encode why => "encode error: " ++ why
  | decode why => "decode error: " ++ why
  | requestIdMismatch request response =>
    "response request_id " ++ toString response.toNat ++ " different from request request_id " ++
      toString request.toNat
  | queryModeMismatch request response =>
    "response query mode " ++ toString response.number ++ " different from request query mode " ++
      toString request.number
  | server code why => "server error " ++ toString code.toInt ++ ": " ++ why
  | record cause => "serialization error: " ++ cause.message
  | io cause => "IO error: " ++ cause.text

def kind : Fault → FaultKind
  | route _ => .routing
  | poolLimit => .poolLimit
  | poolClosed => .poolClosed
  | connectionClosed => .connectionClosed
  | dial _ => .dialFailure
  | timeout _ _ => .timeout
  | canceled _ _ => .canceled
  | network _ _ | io _ => .network
  | encode _ => .encodeFailure
  | decode _ | record _ => .decodeFailure
  | requestIdMismatch _ _ | queryModeMismatch _ _ => .protocolMismatch
  | server _ _ => .server

/-- Whether the request may have reached the peer. -/
def isSent : Fault → Bool
  | timeout stage _ | canceled stage _ | network stage _ => stage.isSent
  | io _ | decode _ | record _ | requestIdMismatch _ _ | queryModeMismatch _ _ | server _ _ => true
  | route _ | poolLimit | poolClosed | connectionClosed | dial _ | encode _ => false

/-- Failures to get the request under way, before anything was written. -/
def isSafeToRetry (f : Fault) : Bool :=
  match f.kind with
  | .poolLimit | .poolClosed | .dialFailure | .timeout | .canceled | .network => !f.isSent
  | .routing | .connectionClosed | .encodeFailure | .decodeFailure | .protocolMismatch | .server =>
    false

/-- The time a call took, as it is added to a reason. -/
def costNote (why : String) (cost : Span) : String := why ++ ", cost:" ++ cost.text

/-- Adds the time the call took to dial, timeout and network faults. -/
def withCost (f : Fault) (cost : Span) : Fault :=
  match f with
  | dial why => dial (costNote why cost)
  | timeout stage why => timeout stage (costNote why cost)
  | network stage why => network stage (costNote why cost)
  | other => other

@[simp] theorem kind_withCost (f : Fault) (cost : Span) : (f.withCost cost).kind = f.kind := by
  cases f <;> rfl

@[simp] theorem isSent_withCost (f : Fault) (cost : Span) :
    (f.withCost cost).isSent = f.isSent := by
  cases f <;> rfl

@[simp] theorem isSafeToRetry_withCost (f : Fault) (cost : Span) :
    (f.withCost cost).isSafeToRetry = f.isSafeToRetry := by
  simp [isSafeToRetry]

/-- A socket error at a stage: a timeout if it says so or would block, else a network fault. -/
def ofIo (e : IoError) (stage : Stage) (doing : String) : Fault :=
  match e.kind with
  | .timedOut | .wouldBlock => timeout stage (doing ++ ": " ++ e.text)
  | _ => network stage (doing ++ ": " ++ e.text)

theorem ofIo_cases (e : IoError) (stage : Stage) (doing : String) :
    (∃ why, ofIo e stage doing = network stage why) ∨
    ∃ why, ofIo e stage doing = timeout stage why := by
  unfold ofIo
  split
  · exact .inr ⟨_, rfl⟩
  · exact .inr ⟨_, rfl⟩
  · exact .inl ⟨_, rfl⟩

end Fault

end Courier

import Courier.Fault

/-!
# Call contexts

A context carries an optional deadline and a cancellation scope. Deriving a context can only bring
the deadline forward; it stays in the scope of its parent, or opens a scope inside it. Cancelling a
scope ends every context in it and in the scopes inside it.
-/
namespace Courier

/-- Why a context is done. -/
inductive Done
  | canceled
  | deadlineExceeded
  deriving DecidableEq, Repr

namespace Done

/-- The fault of a call that finds its context done at a stage. -/
def fault (d : Done) (stage : Stage) : Fault :=
  match d with
  | canceled => .canceled stage "context canceled"
  | deadlineExceeded => .timeout stage "context deadline exceeded"

end Done

/-- A cancellation scope. -/
abbrev Scope := Nat

/-- The scopes opened so far are the numbers below `next`; some of them are canceled. -/
structure Scopes where
  next : Scope
  canceled : List Scope
  deriving DecidableEq

namespace Scopes

def none : Scopes := ⟨0, []⟩

def enter (s : Scopes) : Scope × Scopes := (s.next, { s with next := s.next + 1 })

def cancel (s : Scopes) (scope : Scope) : Scopes := { s with canceled := scope :: s.canceled }

end Scopes

/-- `lineage` holds the scope of the context and then the scopes around it, inner ones first. -/
structure Context where
  deadline : Option Instant
  lineage : List Scope
  deriving DecidableEq, Repr

namespace Context

/-- A context that nobody can end. -/
def endless : Context := ⟨none, []⟩

/-- A context in a new scope with no deadline. -/
def background (s : Scopes) : Context × Scopes :=
  let (scope, s) := s.enter
  (⟨none, [scope]⟩, s)

/-- The context with a deadline, or with its own if that comes first. -/
def withDeadline (c : Context) (deadline : Instant) : Context :=
  { c with deadline := some (match c.deadline with
      | some own => min own deadline
      | none => deadline) }

def withTimeout (c : Context) (now : Instant) (timeout : Span) : Context :=
  c.withDeadline (now + timeout)

/-- The context in a new scope inside its own. -/
def withCancel (c : Context) (s : Scopes) : Context × Scopes :=
  let (scope, s) := s.enter
  ({ c with lineage := scope :: c.lineage }, s)

/-- Cancels the scope of the context. -/
def cancel (c : Context) (s : Scopes) : Scopes :=
  match c.lineage with
  | [] => s
  | scope :: _ => s.cancel scope

/-- What is left until the deadline, zero once it has passed. -/
def remaining (c : Context) (now : Instant) : Option Span := c.deadline.map (now.until ·)

def isCanceled (c : Context) (s : Scopes) : Bool := c.lineage.any (s.canceled.contains ·)

def isExpired (c : Context) (now : Instant) : Bool :=
  match c.deadline with
  | some deadline => deadline ≤ now
  | none => false

/-- Whether the context is done, and why; a cancellation comes before the deadline. -/
def done? (c : Context) (s : Scopes) (now : Instant) : Option Done :=
  if c.isCanceled s then some .canceled
  else if c.isExpired now then some .deadlineExceeded
  else none

end Context

end Courier

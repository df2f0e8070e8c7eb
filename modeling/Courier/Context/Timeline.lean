import Courier.Context.Race

/-!
# A timeline of contexts

Named contexts on a clock that only moves when it is told to or when something is waited for, and
cancellations planned for later moments, which happen while something waits.
-/
namespace Courier

/-- The clock, the scopes and the contexts by name, with the cancellations that are still to
come. -/
structure Timeline where
  now : Instant
  scopes : Scopes
  contexts : List (String × Context)
  plan : List (Instant × Scope)

namespace Timeline

def start : Timeline := ⟨0, .none, [], []⟩

/-- The context of a name; names that stand for nothing stand for the endless context. -/
def get (t : Timeline) (name : String) : Context := (t.contexts.lookup name).getD .endless

def put (t : Timeline) (name : String) (c : Context) : Timeline :=
  { t with contexts := (name, c) :: t.contexts }

/-- A context in a scope of its own. -/
def background (t : Timeline) : Context × Timeline :=
  let (c, scopes) := Context.background t.scopes
  (c, { t with scopes })

/-- The context in a scope inside its own. -/
def withCancel (t : Timeline) (c : Context) : Context × Timeline :=
  let (c, scopes) := c.withCancel t.scopes
  (c, { t with scopes })

def done? (t : Timeline) (c : Context) : Option Done := c.done? t.scopes t.now

def cancel (t : Timeline) (c : Context) : Timeline := { t with scopes := c.cancel t.scopes }

/-- Plans the cancellation of a context's scope. -/
def planCancel (t : Timeline) (c : Context) (after : Span) : Timeline :=
  match c.lineage with
  | [] => t
  | scope :: _ => { t with plan := t.plan ++ [(t.now + after, scope)] }

/-- The planned cancellations that `happens` picks by their moments happen. -/
def fire (t : Timeline) (happens : Instant → Bool) : Timeline :=
  let (due, plan) := t.plan.partition fun p => happens p.1
  { t with plan, scopes := due.foldl (fun s p => s.cancel p.2) t.scopes }

/-- Moves the clock forward in one go. What was due before happens; what falls due on the way waits
until something gives it time. -/
def advance (t : Timeline) (span : Span) : Timeline :=
  { t.fire (· ≤ t.now) with now := t.now + span }

/-- Runs something that takes a time, or forever, under a context, and moves the clock to its end.
What ends at once gives no time to planned cancellations. -/
def race (t : Timeline) (c : Context) (takes : Option Span) : Race.Outcome × Timeline :=
  let plan := t.plan.map fun p => (max p.1 t.now, p.2)
  let outcome := Race.run c t.scopes t.now (takes.map (t.now + ·)) plan
  if (t.done? c).isSome ∨ takes = some 0 then (outcome, t)
  else
    match outcome with
    | .ended .canceled moment => (outcome, { t.fire (· ≤ moment) with now := moment })
    | .completed moment | .ended .deadlineExceeded moment =>
      (outcome, { t.fire (fun m => m ≤ t.now || m < moment) with now := moment })
    | .never => (outcome, t)

end Timeline

end Courier

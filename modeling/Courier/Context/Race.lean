import Courier.Context

/-!
# Racing a future against a context

While something runs under a context, time passes and scopes are canceled. What runs wins if it is
complete by the moment the context ends, and loses to the end of the context otherwise; under a
context that is done already it is not even started. Timers fire at whole milliseconds.
-/
namespace Courier.Race

/-- When something that is started at `start` completes, if ever. -/
abbrev Completion := Option Instant

/-- The moment in the order of time: never is later than everything. -/
def earliest (a b : Option Instant) : Option Instant :=
  match a, b with
  | some a, some b => some (min a b)
  | some a, none => some a
  | none, b => b

/-- How a race ends, and when. It never does if neither side comes to an end. -/
inductive Outcome
  | completed (moment : Instant)
  | ended (why : Done) (moment : Instant)
  | never
  deriving DecidableEq, Repr

/-- The first of the planned cancellations that ends the context. -/
def firstCancellation (c : Context) (plan : List (Instant × Scope)) : Option Instant :=
  plan.foldl (fun best (moment, scope) =>
    if c.lineage.contains scope then earliest best (some moment) else best) none

/-- What ends the context at the moment when the first of its deadline and a cancellation comes. -/
def cause (c : Context) (stop : Instant) : Done :=
  if c.deadline.map Instant.tick = some stop then .deadlineExceeded else .canceled

/-- The race of a future that would complete at `completion`, when the scopes of `plan` are canceled
at the planned moments, none of which lies before `start`. At equal moments the future comes first,
then the deadline. -/
def run (c : Context) (s : Scopes) (start : Instant) (completion : Completion)
    (plan : List (Instant × Scope)) : Outcome :=
  match c.done? s start with
  | some why => .ended why start
  | none =>
    let stop := earliest (firstCancellation c plan) (c.deadline.map Instant.tick)
    match completion, stop with
    | some done, some stop =>
      if done ≤ stop then .completed done
      else .ended (cause c stop) stop
    | some done, none => .completed done
    | none, some stop => .ended (cause c stop) stop
    | none, none => .never

end Courier.Race

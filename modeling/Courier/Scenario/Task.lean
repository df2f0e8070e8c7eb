import Courier.Scenario.Calls
import Courier.Scenario.Upkeep

/-!
# Tasks

One turn does one step of an operation; a task goes on until it waits for something or is done. A
task that is dropped lets go of what it holds.
-/
namespace Courier.Scenario

namespace World

def turn (w : World) : Job → World × Turn Job
  | .get conn filed id context ticket a => w.turnGet conn filed id context ticket a
  | .write conn held writer => w.turnWrite conn held writer
  | .read conn held reader => w.turnRead conn held reader
  | .exchange t =>
    match w.turnTrip t with
    | (w, .inl turn) => (w, turn.map .exchange)
    | (w, .inr (.ok trip)) => (w, .finished (.exchanged trip))
    | (w, .inr (.error f)) => (w, .finished (.fault f))
  | .select call learn => w.turnSelect call learn
  | .await call learn =>
    match w.done? call.context with
    | some why => w.selected call learn (.error (why.fault .select))
    | none => (w, .waiting (.await call learn))
  | .call call learn node t => w.turnCall call learn node t
  | .topUp id t =>
    let (w, t) := w.turnTopUp id t
    (w, if t.isSome then .waiting (.topUp id t) else .finished .nothing)
  | .upkeep id next t => w.turnUpkeep id next t

/-- Gives a task turns until it waits or is over, at most `fuel` of them; whether it came any
further is the second part. -/
def work (fuel : Nat) (w : World) (moved : Bool) (job : Job) : World × Bool × (Job ⊕ Answer) :=
  match fuel with
  | 0 => (w, moved, .inl job)
  | fuel + 1 =>
    match w.turn job with
    | (w, .ready job) => work fuel w true job
    | (w, .waiting job) => (w, moved, .inl job)
    | (w, .finished a) => (w, true, .inr a)

/-- A task is dropped: it lets go of what it holds, and what it was waiting for is not undone. -/
def abandon (w : World) : Job → World
  | .get _ _ id _ _ a => w.setPool id (a.abandon (w.poolAt id))
  | .write _ held _ | .read _ held _ => (w.giveBack held .close).2
  | .exchange t | .call _ _ _ t =>
    (w.commit t.pool (t.exchange.abandon (w.poolAt t.pool) w.now)).1
  | .topUp _ (some t) | .upkeep _ _ (some t) => w.closeConns t.conns
  | .select _ _ | .await _ _ | .topUp _ none | .upkeep _ _ none => w

end World

end Courier.Scenario

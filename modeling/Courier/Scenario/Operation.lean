import Courier.Scenario.Settle

/-!
# Operations

An operation runs under a context, in the foreground or as a task of its own. What it needs is
looked up when it begins: the pool, the connection it takes over, the selector.
-/
namespace Courier.Scenario

namespace World

/-- The context of a name, or a new one, with the time limit if there is one. -/
def contextOf (w : World) (u : Under) : Context × World :=
  let (c, time) :=
    match u.context with
    | some name => (w.time.get name, w.time)
    | none => w.time.background
  let w := { w with time }
  (match u.timeout with
    | some span => c.withTimeout w.now span
    | none => c, w)

/-- Begins an operation under a context: it becomes a job, or its answer is there at once. -/
def begin (w : World) (op : Operation) (c : Context) : World × (Job ⊕ Answer) :=
  match op with
  | .get (.own name) conn =>
    match w.own.lookup name with
    | none => (w, .inr (.missing .pool))
    | some id =>
      let (ticket, w) := w.newTicket
      (w, .inl (.get conn false id c ticket .arriving))
  | .get (.filed network address) conn =>
    match w.fetchPool network address with
    | (.error f, w) => (w, .inr (.fault f))
    | (.ok id, w) =>
      let (ticket, w) := w.newTicket
      (w, .inl (.get conn true id c ticket .arriving))
  | .write conn bytes =>
    match w.held.lookup conn with
    | none => (w, .inr (.missing .conn))
    | some held => (w.unhold conn, .inl (.write conn held (.start bytes)))
  | .read conn =>
    match w.held.lookup conn with
    | none => (w, .inr (.missing .conn))
    | some held => (w.unhold conn, .inl (.read conn held (.start Frame.maxSize)))
  | .exchange network address request =>
    match w.beginTrip c network address request with
    | (.error f, w) => (w, .inr (.fault f))
    | (.ok trip, w) => (w, .inl (.exchange trip))
  | .call query learn =>
    match Call.begin w.client query c w.now with
    | .error f => (w, .inr (.replied (.error f) (if learn then some none else none)))
    | .ok call => (w, .inl (.select call learn))
  | .sweep ref =>
    match w.resolve? ref with
    | none => (w, .inr (.missing .pool))
    | some id => (w.sweep id, .inr .nothing)
  | .topUp ref =>
    match w.resolve? ref with
    | none => (w, .inr (.missing .pool))
    | some id => (w, .inl (.topUp id none))

/-- Runs an operation in the foreground: it has the first turn in every round, until it is over. -/
def runNow (w : World) (op : Operation) (u : Under) : Answer × World :=
  let (c, w) := w.contextOf u
  let (w, state) := w.begin op c
  let w := { w with tasks := ⟨none, state⟩ :: w.tasks }.settleAll
  match w.tasks with
  | ⟨_, .inr a⟩ :: rest => (a, { w with tasks := rest }.forgetTasks)
  | _ :: rest => (.pending, { w with tasks := rest }.forgetTasks)
  | [] => (.nothing, w)

/-- Nobody can join the task of a name any more. -/
def detach (w : World) (name : String) : World :=
  { w with tasks := w.tasks.map fun t => if t.name = some name then { t with name := none } else t }

/-- Runs an operation as the last of the tasks. Without its pool there is no task. -/
def runTask (w : World) (op : Operation) (u : Under) (name : String) : Answer × World :=
  let (c, begun) := w.contextOf u
  match begun.begin op c with
  | (_, .inr (.missing .pool)) => (.missing .pool, w)
  | (w, state) =>
    let w := w.detach name
    let task : Task := ⟨some name, state⟩
    (.nothing, { w with tasks := w.tasks ++ [task] }.settle)

end World

end Courier.Scenario

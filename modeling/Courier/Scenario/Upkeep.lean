import Courier.Scenario.Turn

/-!
# Turns of top-up and maintenance

A top-up starts all its dials at once and goes on when the last of them has ended. The maintenance
of a pool sweeps it and tops it up once in every interval, until the pool is closed or nobody knows
it.
-/
namespace Courier.Scenario
open Pool (PoolId PreDial TopUp)

namespace World

/-- Every dial of a top-up goes as far as it can. -/
def turnDials (w : World) (id : PoolId) : List PreDial → World × List PreDial
  | [] => (w, [])
  | d :: rest =>
    let (w, d) :=
      match d with
      | .waiting =>
        match w.commit id (PreDial.begin (w.poolAt id) w.attempts.size w.now) with
        | (w, .dialing dial) => (w.startAttempt dial, PreDial.dialing dial)
        | (w, d) => (w, d)
      | d => (w, d)
    let (w, d) :=
      match d with
      | .dialing dial =>
        match w.pollDial dial none with
        | (none, w) => (w, d)
        | (some r, w) => w.commit id (PreDial.finish (w.poolAt id) r)
      | d => (w, d)
    let (w, rest) := w.turnDials id rest
    (w, d :: rest)

/-- A top-up goes as far as it can; there is none any more when it is over. -/
def turnTopUp (w : World) (id : PoolId) (t : Option TopUp) : World × Option TopUp :=
  let t := t.getD (.begin (w.poolAt id))
  let (w, dials) := w.turnDials id t.dials
  let t : TopUp := ⟨dials⟩
  if t.isOver then
    let (p, closes) := t.finish (w.poolAt id) w.now
    ((w.setPool id p).closeConns closes, none)
  else (w, some t)

def turnUpkeep (w : World) (id : PoolId) (next : Instant) (t : Option TopUp) : World × Turn Job :=
  match t with
  | some t =>
    let (w, t) := w.turnTopUp id (some t)
    (w, if t.isSome then .waiting (.upkeep id next t) else .ready (.upkeep id next none))
  | none =>
    if w.now < next then (w, .waiting (.upkeep id next none))
    else if (w.pools[id]?).any (fun cell => cell.isGone || cell.pool.closed) then (w,
      .finished .nothing)
    else
      let (w, t) := (w.sweep id).turnTopUp id none
      (w, .ready (.upkeep id (next + (w.poolAt id).config.checkInterval) t))

end World

end Courier.Scenario

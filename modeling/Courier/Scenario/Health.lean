import Courier.Scenario.World
import Courier.Pool.Sweep

/-!
# Health checks of a scenario

The built-in check of a pool, the check that does what it is told, and a sweep, which checks all
idle connections of a pool in one go. A scripted check may act on the pool that is being checked.
-/
namespace Courier.Scenario
open Pool (PoolId)

namespace World

def probe (w : World) (c : Conn) : Probe × World :=
  match w.sessions[c.id]? with
  | none => (.failed, w)
  | some s =>
    let (found, link) := s.link.probe
    (found, w.modifySession c.id fun s => { s with link })

/-- The built-in check of a pool. -/
def builtInCheck (w : World) (id : PoolId) (c : Conn) (fast : Bool) : Bool × World :=
  let (found, w) := w.probe c
  let verdict := Pool.builtInCheck (w.poolAt id).config found c fast w.now
  (verdict.healthy, w.count verdict.counts)

/-- The latest pool of the scenario itself, if anybody still knows it. -/
def latest? (w : World) : Option PoolId :=
  w.latest.filter fun id => (w.pools[id]?).any (!·.isGone)

/-- The held connection that a check gives back. -/
def releaseOnce (w : World) (plan : CheckPlan) : World :=
  match plan.release with
  | none => w
  | some name =>
    if w.hasReleased then w
    else
      match w.held.lookup name with
      | none => w
      | some h => ({ w.unhold name with hasReleased := true }.giveBack h .close).2

def scriptedCheck (w : World) (plan : CheckPlan) (c : Conn) (fast : Bool) : Bool × World :=
  let age := w.now - c.created
  let idle := w.now - c.returned
  let (probe, w) :=
    if plan.probe then
      let (found, w) := w.probe c
      (some found, w)
    else (none, w)
  let w := ((w.advance plan.advance).cancelNamed plan.cancel).releaseOnce plan
  let latest := w.latest?
  let stats := if plan.stats then latest.map fun id => (w.poolAt id).stats else none
  let own := if fast then plan.fast else plan.full
  let (keep, w) :=
    match latest with
    | none => (own, w)
    | some id =>
      let (keep, w) := if plan.builtIn then w.builtInCheck id c fast else (own, w)
      (keep, if plan.closePool ∧ fast = false then w.closePool id else w)
  let entry : CheckEntry :=
    { fast, remote := c.remote, hasLocal := c.localAddress.isSome, age, idle, keep, probe, stats }
  (keep, { w with checkLog := w.checkLog ++ [entry] })

/-- The health check of a pool. -/
def checkConn (w : World) (id : PoolId) (c : Conn) (fast : Bool) : Bool × World :=
  match (w.pools[id]?).bind PoolCell.check with
  | some plan => w.scriptedCheck plan c fast
  | none => w.builtInCheck id c fast

def judgeAll (w : World) (id : PoolId) (s : Pool.Sweep) : List Conn → World × Pool.Sweep
  | [] => (w, s)
  | c :: rest =>
    let (healthy, w) := w.checkConn id c false
    judgeAll w id (s.judge healthy) rest

/-- Sweeps a pool from begin to end. -/
def sweep (w : World) (id : PoolId) : World :=
  match Pool.Sweep.begin (w.poolAt id) with
  | none => w
  | some (p, s) =>
    let (w, s) := (w.setPool id p).judgeAll id s s.pending
    let (p, closes) := s.finish (w.poolAt id)
    (w.setPool id p).closeConns closes

end World

end Courier.Scenario

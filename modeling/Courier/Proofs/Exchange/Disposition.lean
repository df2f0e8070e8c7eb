import Courier.Proofs.Exchange.Legs
import Courier.Proofs.Pool.Admission
import Courier.Proofs.Pool.Return

/-!
# What becomes of the connection of an exchange

An exchange that is over has handed the connection that it was given back to the pool, in its last
step and in no other one. If it had begun to write and has failed, the connection is closed;
otherwise it has the fate of any connection that comes back. The slot that the exchange was given
comes back with it.
-/
namespace Courier
open Pool (Acquire Config Life Step)

/-! ## The connection of an exchange -/

theorem Pool.Acquire.handle?_of_moves {ticket : Ticket} {p : Pool} {now : Instant} {a : Acquire}
    {m : Step Acquire} {touch : Touch} (h : a.Moves ticket p now m touch) : a.handle? = none := by
  cases h <;> rfl

/-- A call that is served has a connection. -/
theorem Pool.Acquire.conn_of_served {ticket : Ticket} {p : Pool} {now : Instant} {a : Acquire}
    {m : Step Acquire} {touch : Touch} (hm : a.Moves ticket p now m touch) {h : Handle}
    (hn : m.next.handle? = some h) : ∃ c, h.conn = some c := by
  cases hm.does with
  | keeps slot c counts =>
    cases hn
    exact ⟨c, rfl⟩
  | connects slot d c =>
    cases hn
    exact ⟨c, rfl⟩
  | _ => cases hn

namespace Exchange

/-- The connection that an exchange has checked out. -/
def conn? (x : Exchange) : Option Conn := x.handle?.bind Handle.conn

/-! ## Legs of an exchange -/

namespace Leg
variable {e : Errand} (leg : Leg e)

/-- The step hands a connection back: it goes to the pool once, and the slot after it. -/
structure HandsBack (c : Conn) (force : Bool) : Prop where
  pool : ∃ slot : Bool, slot.toNat = leg.exchange.slots ∧
    leg.step.pool = if slot then (leg.life.pool.put c force leg.life.now).1.giveBackSlot
      else (leg.life.pool.put c force leg.life.now).1
  closes : leg.step.closes = (leg.life.pool.put c force leg.life.now).2

/-- The step leaves the connection with the exchange and the pool alone. -/
structure Keeps (c : Conn) : Prop where
  conn : leg.step.next.conn? = some c
  pool : leg.step.pool = leg.life.pool
  closes : leg.step.closes = []

/-- The last step of an exchange that was given a connection. If the exchange had begun to write and
has failed, the connection is closed for good. Otherwise the exchange has succeeded, or its context
was done before it began to write, and the connection is closed only as any other that comes
back. -/
structure Settles (config : Config) (c : Conn) (result : Except Fault RoundTrip) : Prop where
  finishes : leg.step.next = .finished result
  handsBack : leg.HandsBack c (config.forceClose || leg.exchange.isSent && !result.isOk)
  unsent : leg.exchange.isSent = false → ∃ why : Done, result = .error (why.fault .dial)
  failed : leg.exchange.isSent = true → result.isOk = false →
    leg.step.closes = [c] ∧ leg.step.pool.idle = leg.life.pool.idle ∧
      leg.step.pool.active + 1 = leg.life.pool.active ∧ leg.next.Retired c.id
  spared : leg.exchange.isSent = false ∨ result.isOk = true →
    (leg.next.Retired c.id ↔
      leg.life.pool.closed = true ∨ config.forceClose = true ∨ config.maxIdle = 0) ∧
    (¬ leg.next.Retired c.id → leg.next.pool.idle.head? = some { c with returned := leg.life.now })

section Gives
variable {config : Config} {h : Handle} {c : Conn} {result : Except Fault RoundTrip} {force : Bool}

/-- The connection of a handle that is given up is closed for good, or it is the first idle one. -/
theorem fate_of_gives (hr : Life.Reachable config leg.life) (hc : h.conn = some c)
    (hm : leg.step = { h.release leg.life.pool force leg.life.now with next := .finished result }) :
    (leg.next.Retired c.id ↔ leg.life.pool.closed = true ∨ force = true ∨ config.maxIdle = 0) ∧
    (¬ leg.next.Retired c.id →
      leg.next.pool.idle.head? = some { c with returned := leg.life.now }) := by
  obtain ⟨hconfig, hbound⟩ := hr.configured
  have hnext : leg.next.pool = (h.release leg.life.pool force leg.life.now).pool := by
    rw [next, hm]
    rfl
  rw [← hconfig] at hbound
  rw [hnext, ← hconfig]
  refine Pool.fate_release hc hbound (fun hclosed => ?_) fun hkept hretired => ?_
  · refine (hr.conserved.step leg.step_next).retired (List.mem_append_right _ ?_)
    rwa [Step.map_closes, hm]
  · rw [← hnext] at hkept
    exact Pool.Life.not_retired hkept hretired

/-- If it is given up to be closed, nothing else happens to the idle connections, and it was
counted. -/
theorem discards_of_gives (hr : Life.Reachable config leg.life) (hx : leg.exchange.handle? = some h)
    (hc : h.conn = some c)
    (hm : leg.step = { h.release leg.life.pool true leg.life.now with next := .finished result }) :
    leg.step.closes = [c] ∧ leg.step.pool.idle = leg.life.pool.idle ∧
      leg.step.pool.active + 1 = leg.life.pool.active := by
  have hmem : c.id ∈ (Pool.Activity.exchange e leg.exchange).stock.conns := by
    rw [Pool.stock_of_handle hx, Pool.Handle.stock, hc]
    exact List.mem_cons_self
  have hactive := hr.conserved.active_pos leg.mem hmem
  rw [hm]
  refine ⟨?_, Pool.idle_discard h leg.life.pool leg.life.now, ?_⟩
  · rw [Pool.closes_release hc]
    simp [Pool.put]
  · rw [Pool.active_release hc]
    simp only [Pool.put, or_true, if_true, Pool.lower]
    omega

/-- A leg in which the handle is given up settles the exchange. -/
theorem settles (hr : Life.Reachable config leg.life) (hx : leg.exchange.handle? = some h)
    (hc : h.conn = some c) (hforce : force = (h.forceClose || leg.exchange.isSent && !result.isOk))
    (hu : leg.exchange.isSent = false → ∃ why : Done, result = .error (why.fault .dial))
    (hm : leg.step = { h.release leg.life.pool force leg.life.now with next := .finished result }) :
    leg.Settles config c result := by
  have hmark : h.forceClose = config.forceClose :=
    (Pool.Activity.marked_of_handle hx e _).1 (hr.marked _ leg.mem)
  rw [hmark] at hforce
  have hfate := leg.fate_of_gives hr hc hm
  have hback : leg.HandsBack c (config.forceClose || leg.exchange.isSent && !result.isOk) := by
    rw [← hforce]
    refine ⟨⟨h.slot, (slots_of_handle hx).symm, ?_⟩, ?_⟩
    · rw [hm, Handle.release_eq, hc]
    · rw [hm]
      exact Pool.closes_release hc _ _ _
  refine ⟨by rw [hm], hback, hu, fun hs hok => ?_, fun hs => ?_⟩
  · have htrue : force = true := by
      rw [hforce, hs, hok]
      exact Bool.or_true _
    rw [htrue] at hm hfate
    obtain ⟨hcloses, hidle, hactive⟩ := leg.discards_of_gives hr hx hc hm
    exact ⟨hcloses, hidle, hactive, hfate.1.2 (.inr (.inl rfl))⟩
  · have hkept : force = config.forceClose := by
      rw [hforce]
      obtain hs | hs := hs <;> simp [hs]
    rwa [hkept] at hfate

end Gives

/-- What the step takes from the slots of the pool the exchange holds, and what it gives up comes
back. -/
theorem spare_step {config : Config} (hr : Life.Reachable config leg.life) :
    leg.step.pool.spare + leg.step.next.slots = leg.life.pool.spare + leg.exchange.slots := by
  refine (Exchange.lends leg.moves).count fun hnone => ?_
  have hheld := Life.Lent.held_eq_zero hr.lent.queues hr.lent.count hnone
  rw [Life.held, List.sum_eq_zero_iff_forall_eq_nat] at hheld
  exact hheld _ (List.mem_map_of_mem leg.mem)

end Leg

/-! ## The whole exchange -/

/-- How far an exchange has come with a connection, and what it has done for that: it has none, it
uses one that it was given, or it has handed it back. -/
inductive Way {e : Errand} (config : Config) : List (Leg e) → Exchange → Prop
  | looks {legs : List (Leg e)} {x : Exchange} (hl : ∀ leg ∈ legs, leg.step.next.conn? = none)
      (hx : x.handle? = none) (hr : ∀ result, x = .finished result → ∃ f, result = .error f) :
      Way config legs x
  | uses {looking inUse : List (Leg e)} {got : Leg e} {c : Conn} {x : Exchange}
      (hl : ∀ leg ∈ looking, leg.step.next.conn? = none) (hg : got.step.next.conn? = some c)
      (hu : ∀ leg ∈ inUse, leg.Keeps c) (hx : x.conn? = some c) :
      Way config (looking ++ got :: inUse) x
  | settled {looking inUse : List (Leg e)} {got back : Leg e} {c : Conn}
      {result : Except Fault RoundTrip} (hl : ∀ leg ∈ looking, leg.step.next.conn? = none)
      (hg : got.step.next.conn? = some c) (hu : ∀ leg ∈ inUse, leg.Keeps c)
      (hb : back.Settles config c result) :
      Way config (looking ++ got :: inUse ++ [back]) (.finished result)

/-- An exchange that has no connection goes on without one, is given one, or fails. -/
theorem Way.step_of_none {config : Config} {e : Errand} {legs : List (Leg e)} (leg : Leg e)
    (hl : ∀ leg ∈ legs, leg.step.next.conn? = none) (hnone : leg.exchange.handle? = none) :
    Way config (legs ++ [leg]) leg.step.next := by
  have without (hn : leg.step.next.handle? = none) :
      ∀ l ∈ legs ++ [leg], l.step.next.conn? = none := by
    intro l hmem
    obtain hmem | hmem := List.mem_append.1 hmem
    · exact hl l hmem
    · rw [List.mem_singleton.1 hmem, conn?, hn]
      rfl
  cases leg.moves.does with
  | @acquires a s hx h hm =>
    cases hn : s.next.handle? with
    | none =>
      have hnext : leg.step.next.handle? = none := by rwa [hm]
      refine .looks (without hnext) hnext fun result hr => ?_
      rw [hm] at hr
      cases hr
    | some h' =>
      obtain ⟨c, hc⟩ := Acquire.conn_of_served h hn
      have hgot : leg.step.next.conn? = some c := by
        rw [hm]
        show s.next.handle?.bind Handle.conn = some c
        rw [hn]
        exact hc
      exact .uses hl hgot (List.forall_mem_nil _) hgot
  | refused f hx hm ht =>
    have hnext : leg.step.next.handle? = none := by
      rw [hm]
      rfl
    refine .looks (without hnext) hnext fun result hr => ?_
    rw [hm] at hr
    cases hr
    exact ⟨f, rfl⟩
  | keeps hx =>
    rw [hnone] at hx
    cases hx
  | gives force hx =>
    rw [hnone] at hx
    cases hx

/-- An exchange that has a connection keeps it, or gives it up and is over. -/
theorem Way.step_of_some {config : Config} {e : Errand} {looking inUse : List (Leg e)} {got : Leg e}
    {c : Conn} (leg : Leg e) (hr : Life.Reachable config leg.life)
    (hl : ∀ leg ∈ looking, leg.step.next.conn? = none) (hg : got.step.next.conn? = some c)
    (hu : ∀ leg ∈ inUse, leg.Keeps c) (hconn : leg.exchange.conn? = some c) :
    Way config (looking ++ got :: inUse ++ [leg]) leg.step.next := by
  cases leg.moves.does with
  | acquires hx h hm =>
    rw [hx, conn?, handle?, Acquire.handle?_of_moves h] at hconn
    cases hconn
  | refused f hx =>
    rw [hx] at hconn
    cases hconn
  | keeps hx hy hh hm ht =>
    rw [conn?, hx] at hconn
    have hkeeps : leg.Keeps c := by
      refine ⟨?_, by rw [hm]; rfl, by rw [hm]; rfl⟩
      rw [hm, Step.quiet_next, conn?, hy, hh]
      exact hconn
    rw [List.append_assoc, List.cons_append]
    refine .uses hl hg (fun l hmem => ?_) hkeeps.conn
    obtain hmem | hmem := List.mem_append.1 hmem
    · exact hu l hmem
    · rwa [List.mem_singleton.1 hmem]
  | gives force hx hforce hunsent hm ht =>
    rw [conn?, hx] at hconn
    have hsettles := leg.settles hr hx hconn hforce hunsent hm
    rw [hm]
    exact .settled hl hg hu hsettles

theorem Way.step {config : Config} {e : Errand} {legs : List (Leg e)} (leg : Leg e)
    (hr : Life.Reachable config leg.life) (hw : Way config legs leg.exchange) :
    Way config (legs ++ [leg]) leg.step.next := by
  generalize hx : leg.exchange = x at hw
  cases hw with
  | looks hl hnone => exact step_of_none leg hl (hx ▸ hnone)
  | uses hl hg hu hconn => exact step_of_some leg hr hl hg hu (hx ▸ hconn)
  | settled =>
    have hm := leg.moves
    rw [hx] at hm
    cases hm

/-- The slots that the steps of an exchange took and gave back differ by those that it still
holds. -/
theorem spare_of_follows {config : Config} {s s' : Life} {e : Errand} {legs : List (Leg e)}
    {y : Exchange} (h : Life.Reachable config s) (ht : s.tickets ≤ e.ticket)
    (hf : Life.Follows e s (.acquiring .arriving) legs s' y) :
    (legs.map fun leg => leg.step.pool.spare).sum + y.slots =
      (legs.map fun leg => leg.life.pool.spare).sum := by
  refine hf.induct (motive := fun legs y => (legs.map fun leg => leg.step.pool.spare).sum +
    y.slots = (legs.map fun leg => leg.life.pool.spare).sum) h ht rfl fun legs leg hr ih => ?_
  have hstep := leg.spare_step hr
  simp only [List.map_append, List.map_cons, List.map_nil, List.sum_append, List.sum_cons,
    List.sum_nil]
  omega

/-- What becomes of the connection and of the slot of an exchange that is over, whatever else
happened on its pool, whatever its context did and however its peer behaved. Either it was given no
connection, and it has failed. Or it looked for a connection, was given one, kept it for itself
while it wrote and read, and handed it back in its last step, once. All slots that its steps took
from the pool its steps gave back. -/
theorem disposition {config : Config} {s s' : Life} {e : Errand} {x : Exchange}
    {legs : List (Leg e)} {result : Except Fault RoundTrip} (h : Life.Reachable config s)
    (ht : s.tickets ≤ e.ticket) (hx : x.Begins)
    (hf : Life.Follows e s x legs s' (.finished result)) :
    ((∃ f, result = .error f) ∧ (∀ leg ∈ legs, leg.step.next.conn? = none) ∨
      ∃ looking got inUse back c, legs = looking ++ got :: inUse ++ [back] ∧
        (∀ leg ∈ looking, leg.step.next.conn? = none) ∧ got.step.next.conn? = some c ∧
        (∀ leg ∈ inUse, leg.Keeps c) ∧ back.Settles config c result) ∧
    (legs.map fun leg => leg.step.pool.spare).sum =
      (legs.map fun leg => leg.life.pool.spare).sum := by
  obtain rfl | ⟨f, rfl⟩ := hx.arrives_or_fails
  · have hway : Way config legs (.finished result) :=
      hf.induct h ht (.looks (List.forall_mem_nil _) rfl nofun) fun legs leg hr hw => hw.step leg hr
    refine ⟨?_, spare_of_follows h ht hf⟩
    cases hway with
    | looks hl hnone hresult => exact .inl ⟨hresult result rfl, hl⟩
    | uses hl hg hu hconn => cases hconn
    | settled hl hg hu hb => exact .inr ⟨_, _, _, _, _, rfl, hl, hg, hu, hb⟩
  · obtain ⟨rfl, hy⟩ := hf.of_finished
    cases hy
    exact ⟨.inl ⟨⟨f, rfl⟩, List.forall_mem_nil _⟩, rfl⟩

/-- A call is given a new connection and is canceled while it writes. -/
theorem follows_canceled :
    ∃ (e : Errand) (s s' : Life) (legs : List (Leg e)), Life.Reachable {} s ∧ s.tickets ≤ e.ticket ∧
      Life.Follows e s (begin none) legs s' (.finished (.error (Done.canceled.fault .write))) ∧
      ∃ leg ∈ legs, leg.step.next.conn? ≠ none := by
  let s : Life := .start "tcp" "10.0.0.1:80" {} 0
  let e : Errand := ⟨0, "10.0.0.1:80", .empty⟩
  let c : Conn := ⟨0, "10.0.0.1:80", none, 0, 0⟩
  have hd : (Pool.Dial.start s.pool 0 none 0).Ends 0 (.ok c) :=
    ⟨some (.ok c), none, .connected c, rfl⟩
  have hnew {opened : List Nat} : ∀ c ∈ ([] : List Conn), c.id ∉ opened := List.forall_mem_nil _
  have hfirst : ∀ d ∈ [c], d.id ∉ ([] : List Nat) := fun _ _ => List.not_mem_nil
  have h0 : Life.Follows e s (begin none) [] _ _ := .refl
  have h1 := h0.alone rfl (.acquire (.arrive none)) hnew
  have h2 := h1.alone rfl (.acquire (.pop false)) hnew
  have h3 := h2.alone rfl (.acquire (.beginDial false 0 none none)) hnew
  have h4 := h3.alone rfl (.acquire (.endDial false hd)) hfirst
  have h5 := h4.alone rfl (.acquired _ none none) hnew
  have h6 := h5.alone rfl (.wrote _ (some .canceled) .underWay rfl) hnew
  exact ⟨e, s, _, _, ⟨_, _, _, .refl⟩, Nat.le_refl _, h6, _,
    List.mem_append_left _ List.mem_concat_self,
    nofun⟩

/-- A call that is canceled while it writes has its connection closed for good. -/
theorem disposition_canceled :
    ∃ (e : Errand) (s s' : Life) (legs : List (Leg e)), Life.Reachable {} s ∧ s.tickets ≤ e.ticket ∧
      Life.Follows e s (begin none) legs s' (.finished (.error (Done.canceled.fault .write))) ∧
      ∃ back ∈ legs, ∃ c, back.step.closes = [c] ∧ back.next.Retired c.id := by
  obtain ⟨e, s, s', legs, h, ht, hf, leg, hmem, hconn⟩ := follows_canceled
  refine ⟨e, s, s', legs, h, ht, hf, ?_⟩
  obtain ⟨-, hnone⟩ | ⟨looking, got, inUse, back, c, hlegs, -, -, -, hback⟩ :=
    (disposition h ht (.begin none) hf).1
  · exact absurd (hnone leg hmem) hconn
  · have hsent : back.exchange.isSent = true := by
      by_contra hunsent
      obtain ⟨why, hwhy⟩ := hback.unsent (Bool.eq_false_iff.2 hunsent)
      cases why <;> cases hwhy
    obtain ⟨hcloses, -, -, hretired⟩ := hback.failed hsent rfl
    exact ⟨back, by simp [hlegs], c, hcloses, hretired⟩

end Exchange

end Courier

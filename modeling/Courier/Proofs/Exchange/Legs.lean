import Courier.Proofs.Pool.Life

/-!
# One exchange among other operations

The life of a pool as one exchange goes through it: the steps that it takes itself, one after the
other, and between them whatever else happens. Every run of a pool is one that its exchanges go
through.
-/
namespace Courier
open Pool (Life Activity)

namespace Exchange

/-- How an exchange begins: it wants a connection, or it is over at once, under a context that is
done or where no pool takes it. -/
inductive Begins : Exchange → Prop
  | begin (done : Option Done) : Begins (begin done)
  | refused (f : Fault) : Begins (refused f)

theorem Begins.arrives_or_fails {x : Exchange} (h : x.Begins) :
    x = .acquiring .arriving ∨ ∃ f, x = .finished (.error f) := by
  cases h with
  | begin done =>
    cases done with
    | none => exact .inl rfl
    | some why => exact .inr ⟨_, rfl⟩
  | refused f => exact .inr ⟨f, rfl⟩

/-- A step of an exchange, in the life in which it takes it. -/
structure Leg (e : Errand) where
  life : Life
  before : List Activity
  exchange : Exchange
  after : List Activity
  step : Pool.Step Exchange
  touch : Touch
  here : life.activities = before ++ .exchange e exchange :: after
  moves : exchange.Moves e life.pool life.now step touch
  fresh : ∀ c ∈ touch.opened, c.id ∉ life.opened

namespace Leg
variable {e : Errand} (leg : Leg e)

/-- The life after the step. -/
def next : Life := leg.life.proceed leg.before (leg.step.map (.exchange e)) leg.touch leg.after

theorem step_next : Life.Step leg.life leg.next :=
  .advance (.mk leg.here (.exchange leg.moves) leg.fresh)

theorem mem : .exchange e leg.exchange ∈ leg.life.activities := by
  rw [leg.here]
  exact List.mem_append_right _ List.mem_cons_self

end Leg

end Exchange

open Exchange (Leg)

namespace Pool.Life

/-- The life with one more exchange. -/
def begun (s : Life) (e : Errand) (x : Exchange) : Life :=
  { s with activities := .exchange e x :: s.activities, tickets := e.ticket + 1 }

/-- A step of something else than the exchange. -/
inductive Elsewhere (e : Errand) : Life → Life → Prop
  | advance {s : Life} {before after : List Activity} {a : Activity} {m : Pool.Step Activity}
      {touch : Touch} (hs : s.activities = before ++ a :: after) (hm : a.Moves s.pool s.now m touch)
      (hf : ∀ c ∈ touch.opened, c.id ∉ s.opened) (ha : a.errand? ≠ some e) :
      Elsewhere e s (s.proceed before m touch after)
  | tend {s s' : Life} (h : s.Tend s') : Elsewhere e s s'
  | get (s : Life) {ticket : Ticket} (ht : s.tickets ≤ ticket) :
      Elsewhere e s
        { s with activities := .get ticket .arriving :: s.activities, tickets := ticket + 1 }
  | exchange (s : Life) {e' : Errand} (ht : s.tickets ≤ e'.ticket) : Elsewhere e s (s.enlist e')

theorem Elsewhere.step {e : Errand} {s s' : Life} (h : Elsewhere e s s') : Step s s' := by
  cases h with
  | advance hs hm hf ha => exact .advance (.mk hs hm hf)
  | tend h => exact .tend h
  | get ht => exact .get s ht
  | exchange ht => exact .exchange s ht

/-- An exchange begins and takes these steps, and other things happen before and after each of
them. -/
inductive Follows (e : Errand) (s : Life) (x : Exchange) : List (Leg e) → Life → Exchange → Prop
  | refl : Follows e s x [] (s.begun e x) x
  | own {legs : List (Leg e)} (leg : Leg e) (h : Follows e s x legs leg.life leg.exchange) :
      Follows e s x (legs ++ [leg]) leg.next leg.step.next
  | others {legs : List (Leg e)} {s' s'' : Life} {y : Exchange} (h : Follows e s x legs s' y)
      (hs : Elsewhere e s' s'') : Follows e s x legs s'' y

/-- The exchange is the only operation and takes a step. -/
theorem Follows.alone {e : Errand} {s s' : Life} {x y : Exchange} {legs : List (Leg e)}
    {m : Pool.Step Exchange} {touch : Touch} (h : Follows e s x legs s' y)
    (hs : s'.activities = [] ++ .exchange e y :: []) (hm : y.Moves e s'.pool s'.now m touch)
    (hf : ∀ c ∈ touch.opened, c.id ∉ s'.opened) :
    Follows e s x (legs ++ [⟨s', [], y, [], m, touch, hs, hm, hf⟩])
      (s'.proceed [] (m.map (.exchange e)) touch []) m.next :=
  .own _ h

/-- An exchange that is over at once takes no step. -/
theorem Follows.of_finished {e : Errand} {s s' : Life} {legs : List (Leg e)} {y : Exchange}
    {r : Except Fault RoundTrip} (h : Follows e s (.finished r) legs s' y) :
    legs = [] ∧ y = .finished r := by
  induction h with
  | refl => exact ⟨rfl, rfl⟩
  | own leg h ih =>
    have hm := leg.moves
    rw [ih.2] at hm
    cases hm
  | others h hs ih => exact ih

theorem Follows.reachable {config : Config} {e : Errand} {s s' : Life} {legs : List (Leg e)}
    {y : Exchange} (h : Reachable config s) (ht : s.tickets ≤ e.ticket)
    (hf : Follows e s (.acquiring .arriving) legs s' y) : Reachable config s' := by
  induction hf with
  | refl => exact h.leads (.single (.exchange s ht))
  | own leg hl ih => exact ih.leads (.single leg.step_next)
  | others hl hs ih => exact ih.leads (.single hs.step)

/-- What holds before the first step of an exchange and is kept by each step that it takes in a
reachable life holds at its end. -/
theorem Follows.induct {config : Config} {e : Errand} {s s' : Life} {legs : List (Leg e)}
    {y : Exchange} {motive : List (Leg e) → Exchange → Prop} (h : Reachable config s)
    (ht : s.tickets ≤ e.ticket) (hf : Follows e s (.acquiring .arriving) legs s' y)
    (start : motive [] (.acquiring .arriving))
    (step : ∀ legs (leg : Leg e), Reachable config leg.life → motive legs leg.exchange →
      motive (legs ++ [leg]) leg.step.next) : motive legs y := by
  induction hf with
  | refl => exact start
  | own leg hl ih => exact step _ leg (hl.reachable h ht) ih
  | others hl hs ih => exact ih

/-! ## Every run is followed -/

/-- There is one exchange with an errand. -/
theorem Numbered.unique {s : Life} (hs : s.Numbered) {e : Errand} {x y : Exchange}
    {before after : List Activity} (h : s.activities = before ++ .exchange e x :: after)
    (hy : .exchange e y ∈ s.activities) : y = x := by
  have hn := hs.nodup
  have hone : Activity.errand? (.exchange e x) = some e := rfl
  rw [errands, h, List.filterMap_append, List.filterMap_cons_some hone, List.map_append,
    List.map_cons, List.nodup_append, List.nodup_cons] at hn
  obtain ⟨-, ⟨hafter, -⟩, hbefore⟩ := hn
  have mem {l : List Activity} (hl : .exchange e y ∈ l) :
      e.ticket ∈ (l.filterMap Activity.errand?).map Errand.ticket :=
    List.mem_map_of_mem (List.mem_filterMap.2 ⟨_, hl, rfl⟩)
  rw [h] at hy
  obtain hy | hy := List.mem_append.1 hy
  · exact absurd rfl (hbefore _ (mem hy) _ List.mem_cons_self)
  · obtain hy | hy := List.mem_cons.1 hy
    · cases hy
      rfl
    · exact absurd (mem hy) hafter

/-- The step of an operation with an errand is a step of its exchange. -/
theorem leg_of_moves {s : Life} {before after : List Activity} {a : Activity}
    {m : Pool.Step Activity} {touch : Touch} {e : Errand} (hs : s.activities = before ++ a :: after)
    (hm : a.Moves s.pool s.now m touch) (hf : ∀ c ∈ touch.opened, c.id ∉ s.opened)
    (ha : a.errand? = some e) :
    ∃ leg : Leg e, leg.life = s ∧ leg.next = s.proceed before m touch after := by
  cases hm with
  | exchange hx =>
    cases ha
    exact ⟨⟨s, before, _, after, _, touch, hs, hx, hf⟩, rfl, rfl⟩
  | _ => cases ha

/-- Each step of the life is one of the exchange or of something else. -/
theorem Step.elsewhere_or_leg {s s' : Life} (h : Step s s') (e : Errand) :
    Elsewhere e s s' ∨ ∃ leg : Leg e, leg.life = s ∧ leg.next = s' := by
  cases h with
  | advance h =>
    cases h with
    | @mk before after a m touch hs hm hf =>
      by_cases ha : a.errand? = some e
      · exact .inr (leg_of_moves hs hm hf ha)
      · exact .inl (.advance hs hm hf ha)
  | tend h => exact .inl (.tend h)
  | get ht => exact .inl (.get s ht)
  | exchange ht => exact .inl (.exchange s ht)

theorem Elsewhere.mem {e : Errand} {s s' : Life} {y : Exchange} (h : Elsewhere e s s')
    (hy : .exchange e y ∈ s.activities) : .exchange e y ∈ s'.activities := by
  cases h with
  | advance hs hm hf ha =>
    rw [hs] at hy
    obtain hy | hy := List.mem_append.1 hy
    · exact List.mem_append_left _ hy
    · obtain rfl | hy := List.mem_cons.1 hy
      · exact absurd rfl ha
      · exact List.mem_append_right _ (List.mem_cons_of_mem _ hy)
  | tend h =>
    cases h with
    | sweep => exact List.mem_cons_of_mem _ hy
    | topUp => exact List.mem_cons_of_mem _ hy
    | close => exact hy
    | pass => exact hy
  | get => exact List.mem_cons_of_mem _ hy
  | exchange => exact List.mem_cons_of_mem _ hy

/-- An exchange that begins among others goes through every run of the pool from then on. -/
theorem Leads.follows {s s' : Life} {e : Errand} (hs : s.Numbered) (ht : s.tickets ≤ e.ticket)
    (h : (s.enlist e).Leads s') :
    ∃ legs y, Follows e s (.acquiring .arriving) legs s' y ∧ .exchange e y ∈ s'.activities := by
  have hall : s'.Numbered ∧
      ∃ legs y, Follows e s (.acquiring .arriving) legs s' y ∧ .exchange e y ∈ s'.activities := by
    induction h with
    | refl => exact ⟨hs.step (.exchange s ht), [], _, .refl, List.mem_cons_self⟩
    | tail _ hstep ih =>
      obtain ⟨hnumbered, legs, y, hf, hy⟩ := ih
      refine ⟨hnumbered.step hstep, ?_⟩
      obtain helse | ⟨leg, rfl, rfl⟩ := hstep.elsewhere_or_leg e
      · exact ⟨legs, y, .others hf helse, helse.mem hy⟩
      · have hx := hnumbered.unique leg.here hy
        rw [hx] at hf
        exact ⟨_, _, .own leg hf, List.mem_append_right _ List.mem_cons_self⟩
  exact hall.2

end Pool.Life

end Courier

import Courier.Proofs.Call.Delivery

/-!
# Reports about nodes

A call that has come to a node tells its selector once what became of it. It does so when the
exchange is over, and what it tells is what its caller gets; how the selector takes it makes no
difference. A call that has not come to a node tells nothing and has nothing to do with pools. The
calls that share a cell leave in it what the first of them learned that came to a node.
-/
namespace Courier

namespace NodeCell

/-- The cell after a call that has learned this, if anything. -/
def fill (cell : NodeCell) (learned : Option CallResult) : NodeCell :=
  match learned with
  | some r => (cell.set r).2
  | none => cell

@[simp] theorem content_fill (cell : NodeCell) (learned : Option CallResult) :
    (cell.fill learned).content = cell.content.or learned := by
  obtain ⟨content⟩ := cell
  cases content <;> cases learned <;> rfl

end NodeCell

namespace Call
variable {σ : Type} {client : Client σ} {query : Query} {call : Call σ} {config : Pool.Config}
  {turns : List Turn} {node : Node}

/-- The last turn of a course, and the course before it. -/
theorem Course.of_snoc {t : Turn} {phase : Phase} (h : call.Course config (turns ++ [t]) phase) :
    call.Course config turns t.before ∧ call.Moves config t.moment t.before t.deed t.after ∧
      t.after = phase := by
  generalize hall : turns ++ [t] = all at h
  cases h with
  | start => simp at hall
  | turn m hc hm =>
    obtain ⟨rfl, hlast⟩ := List.append_inj' hall rfl
    cases hlast
    exact ⟨hc, hm, rfl⟩

/-- A call has one report behind it when it has reported. -/
theorem HasReported.reports_eq {k : Conclusion} (h : HasReported call turns k) :
    reports turns = [k.report] := by
  obtain ⟨earlier, m, node, exchanged, -, rfl, hwent, -⟩ := h
  rw [reports_snoc, hwent.unreported]
  rfl

/-- A call that has reported has come to the node of its report. -/
theorem HasReported.reaches_iff {k : Conclusion} (h : HasReported call turns k) :
    Reaches call.context turns node ↔ node = k.report.node := by
  obtain ⟨earlier, m, other, exchanged, rfl, rfl, hwent, -⟩ := h
  rw [reaches_snoc, or_iff_left (by rintro ⟨⟨⟩, -⟩), hwent.reached]
  rfl

/-- No call reports twice. -/
theorem Course.reports_length {phase : Phase} (h : call.Course config turns phase) :
    (reports turns).length ≤ 1 := by
  have hnone (hreports : reports turns = []) : (reports turns).length ≤ 1 := by
    rw [hreports]
    exact Nat.zero_le 1
  have hh := h.history
  cases phase with
  | ready | asking => exact hnone (Idle.unreported hh)
  | chosen | exchanging | settled => exact hnone hh.1.unreported
  | reporting k => rw [HasReported.reports_eq hh, List.length_singleton]
  | ended result learned =>
    obtain ⟨hidle, -⟩ | ⟨earlier, m, k, outcome, rfl, hreported, -⟩ := hh
    · exact hnone hidle.unreported
    · rw [reports_snoc, hreported.reports_eq]
      exact Nat.le_refl 1

/-- A call that has not come to a node has neither reported nor done anything else about one. -/
theorem Course.idle {phase : Phase} (h : call.Course config turns phase)
    (hn : ∀ node, ¬ Reaches call.context turns node) :
    Idle call turns ∧ ∀ result learned, phase = .ended result learned → learned = none := by
  have hh := h.history
  cases phase with
  | ready | asking => exact ⟨hh, fun result learned hended => by cases hended⟩
  | chosen | exchanging | settled => exact absurd ((hh.1.reached _).2 rfl) (hn _)
  | reporting k => exact absurd (HasReported.reaches_iff hh |>.2 rfl) (hn _)
  | ended result learned =>
    obtain ⟨hidle, -, hlearned⟩ | ⟨earlier, m, k, outcome, rfl, hreported, -⟩ := hh
    · refine ⟨hidle, fun result learned hended => ?_⟩
      cases hended
      exact hlearned
    · exact absurd ((reaches_of_mute rfl).2 (hreported.reaches_iff.2 rfl)) (hn _)

end Call

/-! ## Invocations -/

/-- What a caller has done with a client, and how far it has come. -/
structure Invocation (σ : Type) where
  client : Client σ
  query : Query
  config : Pool.Config
  context : Context
  start : Instant
  turns : List Call.Turn
  phase : Call.Phase
  invokes : Call.Invokes client query config context start turns phase

namespace Invocation
variable {σ : Type}
open Call

/-- What the caller has learned about the node, once the call is over. -/
def learned (i : Invocation σ) : Option CallResult :=
  match i.phase with
  | .ended _ learned => learned
  | .ready | .asking | .chosen _ _ | .exchanging _ _ _ | .settled _ _ | .reporting _ => none

/-- The call has come to a node. -/
def Reaches (i : Invocation σ) (node : Node) : Prop :=
  Call.Reaches (i.query.contextAt i.context i.start) i.turns node

/-- The address to which a call has gone, as it is told: that of the other end of its connection if
the exchange is complete, and otherwise that of the node. -/
structure WentTo (i : Invocation σ) (node : Node) (remote : String) : Prop where
  answered : ∀ response, Delivered i.turns response →
    ∃ conn ∈ (trace i.turns).conns, remote = conn.remote ∧
    ∀ other ∈ (trace i.turns).conns, other = conn
  unanswered : (∀ response, ¬ Delivered i.turns response) → remote = node.address

/-- How a call ends that has come to a node: when the exchange is over it reports, and after this it
only hears what became of the report. Another outcome would have been as good. -/
structure Ends (i : Invocation σ) (result : Except Fault Reply) (node : Node) (earlier : List Turn)
    (t last : Turn) : Prop where
  turns : i.turns = earlier ++ [t, last]
  unreported : reports earlier = []
  settled : ∃ exchanged, t.before = .settled node exchanged
  report : t.deed = .reports ⟨node, t.moment.now - i.start, faultOf result⟩
  heeds : ∃ outcome, last.deed = .heeds outcome
  ignored : ∀ outcome, Invokes i.client i.query i.config i.context i.start
    (earlier ++ [t, { last with deed := .heeds outcome }]) i.phase
  learned : ∃ remote, i.WentTo node remote ∧ i.learned =
    some ⟨{ node with cost := some (t.moment.now - i.start) }, remote, t.moment.now - i.start⟩

/-- What an invocation tells its selector and its caller. -/
structure Tells (i : Invocation σ) : Prop where
  once : (reports i.turns).length ≤ 1
  used : ∀ result learned node, i.phase = .ended result learned → i.Reaches node →
    ∃ earlier t last, i.Ends result node earlier t last
  unused : (∀ node, ¬ i.Reaches node) →
    reports i.turns = [] ∧ (∀ t ∈ i.turns, t.deed.usesPool = false) ∧ i.learned = none

/-- The cell that calls share, in the order in which they end. -/
def cell (calls : List (Invocation σ)) :
    NodeCell := calls.foldl (fun cell i => cell.fill i.learned) .empty

theorem content_foldl (calls : List (Invocation σ)) (cell : NodeCell) :
    (calls.foldl (fun cell i => cell.fill i.learned) cell).content =
      cell.content.or (calls.findSome? learned) := by
  induction calls generalizing cell with
  | nil => exact (Option.or_none).symm
  | cons i calls ih =>
    rw [List.foldl_cons, ih, NodeCell.content_fill, Option.or_assoc, List.findSome?_cons]
    cases i.learned <;> rfl

theorem content_cell (calls : List (Invocation σ)) :
    (cell calls).content = calls.findSome? learned :=
  content_foldl calls .empty

/-! ## One report -/

/-- The address that a call names when its exchange has ended. -/
theorem wentTo_of_exchanged {i : Invocation σ} {call : Call σ} {node : Node}
    {exchanged : Except Fault RoundTrip} (h : Exchanged call node (trace i.turns) exchanged)
    (now : Instant) : i.WentTo node (call.conclude node exchanged now).learned.remote where
  answered response hdelivered := by
    obtain ⟨remote, rfl⟩ := (h.response_iff response).1 hdelivered
    cases h with
    | ended ha hr hl => exact hl.keeps
  unanswered hnone := by
    cases exchanged with
    | error f => rfl
    | ok trip => exact absurd ((h.response_iff trip.response).2 ⟨trip.remote, rfl⟩) (hnone _)

theorem exists_ends {i : Invocation σ} {call : Call σ} {result : Except Fault Reply}
    {learned : Option CallResult} {node : Node}
    (hb : begin i.client i.query i.context i.start = .ok call)
    (hc : call.Course i.config i.turns i.phase) (hended : i.phase = .ended result learned)
    (hreaches : i.Reaches node) : ∃ earlier t last, i.Ends result node earlier t last := by
  obtain ⟨hcontext, hstart⟩ := context_of_begin hb
  rw [Reaches, ← hcontext] at hreaches
  have hhistory := hc.history
  rw [hended] at hhistory
  obtain ⟨hidle, -⟩ | ⟨_, last, k, outcome, hturns, hreported, rfl, rfl⟩ := hhistory
  · exact absurd hreaches (hidle.unreached node)
  rw [hturns] at hreaches hc
  have hnode := hreported.reaches_iff.1 ((reaches_of_mute rfl).1 hreaches)
  obtain ⟨earlier, m, other, exchanged, rfl, rfl, hwent, hexchanged⟩ := hreported
  obtain rfl : node = other := hnode
  have htrace : trace i.turns = trace earlier := by
    rw [hturns, trace_snoc_of_none rfl, trace_snoc_of_none rfl]
  rw [← htrace] at hexchanged
  refine ⟨earlier, _, _,
    ⟨hturns.trans (List.append_assoc _ _ _), hwent.unreported, ⟨exchanged, rfl⟩, ?_, ⟨outcome, rfl⟩,
      fun outcome' => ?_, ⟨_, wentTo_of_exchanged hexchanged m.now, ?_⟩⟩⟩
  · rw [← hstart]
    rfl
  · rw [hended]
    have hother := hc.of_snoc.1.turn last (.close _ outcome')
    rw [List.append_assoc] at hother
    exact .resolved hb hother
  · rw [learned, hended, ← hstart]
    rfl

theorem tells (i : Invocation σ) : i.Tells := by
  obtain ⟨client, query, config, c, start, turns, phase, invokes⟩ := i
  cases invokes with
  | unresolved hb =>
    refine ⟨Nat.zero_le 1, fun result learned node hended hreaches => ?_,
      fun _ => ⟨rfl, List.forall_mem_nil _, rfl⟩⟩
    obtain ⟨t, ht, -⟩ := hreaches
    cases ht
  | resolved hb hc =>
    refine ⟨hc.reports_length, fun result learned node hended => exists_ends hb hc hended,
      fun hn => ?_⟩
    have hnone : ∀ node, ¬ Call.Reaches (query.contextAt c start) turns node := hn
    rw [← (context_of_begin hb).1] at hnone
    obtain ⟨hidle, hended⟩ := hc.idle hnone
    refine ⟨hidle.unreported, hidle.poolless, ?_⟩
    unfold learned
    split
    next result learned hphase => exact hended result learned hphase
    all_goals rfl

/-- A call tells its selector once about the node to which it has come, and nothing else. A cell
holds what the first call learned that came to a node, and keeps it. -/
theorem one_report : (∀ i : Invocation σ, i.Tells) ∧ ∀ calls : List (Invocation σ),
    (cell calls).content = calls.findSome? learned ∧
    ∀ earlier, earlier <+: calls → ∀ r, (cell earlier).content = some r →
    (cell calls).content = some r := by
  refine ⟨tells, fun calls => ⟨content_cell calls, ?_⟩⟩
  rintro earlier ⟨later, rfl⟩ r hr
  rw [content_cell] at hr ⊢
  rw [List.findSome?_append, hr]
  rfl

/-- A call that is answered reports that there was no fault, and fills the cell. -/
theorem one_report_answered : ∃ (i : Invocation Unit) (reply : Reply) (r : CallResult) (node : Node)
    (earlier : List Turn) (t last : Turn), i.phase = .ended (.ok reply) (some r) ∧
      i.Ends (.ok reply) node earlier t last ∧ (cell [i]).content = some r := by
  obtain ⟨response, hencode⟩ := exists_partialResponse
  obtain ⟨turns, hinvokes⟩ := exists_invokes_answered hencode rfl
  let i : Invocation Unit := ⟨_, _, _, _, _, turns, _, hinvokes⟩
  obtain ⟨htells, hcells⟩ := one_report (σ := Unit)
  obtain ⟨node, hreaches⟩ : ∃ node, i.Reaches node := by
    by_contra hnone
    obtain ⟨-, -, hlearned⟩ := (htells i).unused (not_exists.1 hnone)
    cases hlearned
  obtain ⟨earlier, t, last, hends⟩ := (htells i).used _ _ node rfl hreaches
  exact ⟨i, _, _, node, earlier, t, last, rfl, hends, (hcells [i]).1⟩

end Invocation

end Courier

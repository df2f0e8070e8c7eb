import Courier.Proofs.Pool.Shutdown

/-!
# What comes to the idle list

Connections come into the idle list in three ways: one comes back, a top-up puts in what it has
opened, and a sweep puts what it found healthy behind what came back in the meantime. In each of
them the pool keeps of all that is there as many connections from the front as it may and closes the
others. Every other step of an operation takes connections from the front of the list, if anything.
-/
namespace Courier

/-- The connection as it is when it comes back. -/
def Conn.back (c : Conn) (now : Instant) : Conn := { c with returned := now }

namespace Pool

/-- Each connection came back before those in front of it, or at the same time. -/
def ByReturn (conns : List Conn) : Prop :=
  conns.Pairwise fun newer older => older.returned ≤ newer.returned

namespace ByReturn
variable {conns fresh : List Conn} {now : Instant}

theorem sublist {conns' : List Conn} (h : ByReturn conns) (hs : conns'.Sublist conns) :
    ByReturn conns' :=
  List.Pairwise.sublist hs h

/-- What comes back at the moment may stand in front of everything. -/
theorem fresh_append (h : ByReturn conns) (hf : ∀ c ∈ fresh, c.returned = now)
    (hle : ∀ c ∈ conns, c.returned ≤ now) : ByReturn (fresh ++ conns) := by
  refine List.pairwise_append.2 ⟨?_, h, fun newer hn older ho => ?_⟩
  · refine List.pairwise_of_forall_mem_list fun newer hn older ho => ?_
    rw [hf newer hn, hf older ho]
  · rw [hf newer hn]
    exact hle older ho

/-- Behind any place of the list stands what came back before. -/
theorem le_of_drop (h : ByReturn conns) (n : Nat) :
    ∀ older ∈ conns.drop n, ∀ newer ∈ conns.take n, older.returned ≤ newer.returned := by
  unfold ByReturn at h
  rw [← List.take_append_drop n conns, List.pairwise_append] at h
  exact fun older ho newer hn => h.2.2 newer hn older ho

end ByReturn

/-! ## What the pool keeps -/

/-- Of some connections the pool keeps those at the front, as many as it may, and closes the others,
the last one first. -/
structure Stores (p : Pool) (all : List Conn) (p' : Pool) (closes : List Conn) : Prop where
  idle : p'.idle = all.take p.config.maxIdle
  closes : closes = (all.drop p.config.maxIdle).reverse

section Stores
variable {p p' p'' : Pool} {all closes more : List Conn} {now : Instant}

/-- What is put in front of a list that was cut off may as well be put in front of the whole
list. -/
theorem Stores.append (h : p.Stores all p' closes) (hconfig : p'.config = p.config)
    {fresh : List Conn} (h' : p'.Stores (fresh ++ p'.idle) p'' more) :
    p.Stores (fresh ++ all) p'' (closes ++ more) := by
  obtain ⟨hidle, rfl⟩ := h
  obtain ⟨hidle', rfl⟩ := h'
  rw [hconfig, hidle] at hidle' ⊢
  have hmore (n k : Nat) (hk : k ≤ n) : (all.take n).drop k ++ all.drop n = all.drop k := by
    rw [List.drop_take, ← Nat.add_sub_of_le hk, ← List.drop_drop, Nat.add_sub_of_le hk,
      List.take_append_drop]
  constructor
  · rw [hidle', List.take_append, List.take_append, List.take_take,
      Nat.min_eq_left (Nat.sub_le _ _)]
  · rw [← List.reverse_append, List.drop_append, List.append_assoc, hmore _ _ (Nat.sub_le _ _),
      ← List.drop_append]

theorem stores_put (c : Conn) (now : Instant) (hc : p.closed = false)
    (hb : p.idle.length ≤ p.config.maxIdle) :
    p.Stores (c.back now :: p.idle) (p.put c false now).1 (p.put c false now).2 := by
  unfold put
  rw [if_neg (by simp [hc])]
  dsimp only
  split
  next h =>
    rw [List.length_cons] at h
    have hn : p.config.maxIdle = (c.back now :: p.idle).length - 1 := by
      rw [List.length_cons]
      omega
    constructor
    · rw [hn, ← List.dropLast_eq_take]
      rfl
    · rw [hn, List.drop_length_sub_one (List.cons_ne_nil _ _), List.getLast?_eq_getLast_of_ne_nil]
      rfl
  next h =>
    have hle : (c.back now :: p.idle).length ≤ p.config.maxIdle := Nat.le_of_not_lt h
    exact ⟨(List.take_of_length_le hle).symm, by rw [List.drop_of_length_le hle]; rfl⟩

theorem Stores.bounded (h : p.Stores all p' closes) : p'.idle.length ≤ p.config.maxIdle := by
  rw [h.idle]
  exact List.length_take_le _ _

theorem stores_putAll (conns : List Conn) (hc : p.closed = false)
    (hb : p.idle.length ≤ p.config.maxIdle) :
    p.Stores ((conns.map (·.back now)).reverse ++ p.idle) (TopUp.putAll p now conns).1
      (TopUp.putAll p now conns).2 := by
  induction conns generalizing p with
  | nil =>
    exact ⟨(List.take_of_length_le hb).symm, by
      rw [List.map_nil, List.reverse_nil, List.nil_append, List.drop_of_length_le hb]
      rfl⟩
  | cons c rest ih =>
    have hput := stores_put c now hc hb
    have hconfig := (balanced_put p c false now).config
    have hrest := ih ((keeps_put p now c false).closed.trans hc) (hconfig ▸ hput.bounded)
    rw [List.map_cons, List.reverse_cons, List.append_assoc]
    exact hput.append hconfig hrest

/-- At its end a sweep closes what it found unhealthy and what the pool cuts off. -/
theorem stores_finish (s : Sweep) (hc : p.closed = false) :
    ∃ closes, (s.finish p).2 = s.dropped ++ closes ∧ p.Stores (p.idle ++ s.kept)
      (s.finish p).1 closes := by
  unfold Sweep.finish
  rw [if_neg (by simp [hc])]
  exact ⟨_, rfl, rfl, rfl⟩

end Stores

/-! ## What an operation does to the idle list -/

namespace Activity

def isSweep : Activity → Bool
  | .sweep _ => true
  | .get _ _ | .use _ | .exchange _ _ | .topUp _ | .over => false

/-- What a sweep will put back if it finds it healthy, in the order of the idle list. -/
def swept : Activity → List Conn
  | .sweep s => s.kept ++ s.pending
  | .get _ _ | .use _ | .exchange _ _ | .topUp _ | .over => []

/-- What is there for the idle list when an operation brings connections to it, and what a sweep
found unhealthy: a connection comes back, or a sweep ends, or a top-up does. -/
inductive Brings (p : Pool) (now : Instant) : Activity → List Conn → List Conn →
    Step Activity → Prop
  | back {a b : Activity} {h : Handle} {c : Conn} (ha : a.handle? = some h) (hc : h.conn = some c)
      (hb : b.IsBare) :
      Brings p now a (c.back now :: p.idle) [] ((h.release p false now).map fun _ => b)
  | sweep {s : Sweep} (hs : s.pending = []) :
      Brings p now (.sweep s)
        (p.idle ++ s.kept) s.dropped ⟨(s.finish p).1, .over, (s.finish p).2, []⟩
  | topUp {t : TopUp} (ht : t.isOver = true) :
      Brings p now (.topUp t) ((t.conns.map (·.back now)).reverse ++ p.idle) []
        ⟨(TopUp.putAll p now t.conns).1, .over, (TopUp.putAll p now t.conns).2, []⟩

end Activity

section Idle
variable {p : Pool} {now : Instant} {a : Activity} {m : Step Activity} {all unhealthy : List Conn}

theorem swept_of_isSweep (h : a.isSweep = false) : a.swept = [] := by
  cases a with
  | sweep s => cases h
  | _ => rfl

theorem swept_of_isBare (h : a.IsBare) : a.swept = [] := by
  cases a with
  | sweep s =>
    have hconns := congrArg Stock.conns h.stock
    have hnone : s.conns = [] := List.map_eq_nil_iff.1 (by rwa [stock_sweep] at hconns)
    simp only [Sweep.conns, List.append_eq_nil_iff] at hnone
    simp [Activity.swept, hnone]
  | _ => rfl

theorem swept_of_handle {h : Handle} (ha : a.handle? = some h) : a.swept = [] := by
  cases a with
  | sweep s => cases ha
  | _ => rfl

theorem idle_giveBack (p : Pool) (slot : Bool) :
    (if slot then p.giveBackSlot else p).idle = p.idle := by
  cases slot <;> rfl

theorem put_force (p : Pool) (c : Conn) (now : Instant) : p.put c true now = (p.lower 1, [c]) :=
  if_pos (.inr rfl)

theorem idle_beginDial {p' : Pool} (h : p.beginDial = .ok p') : p'.idle = p.idle := by
  unfold beginDial at h
  split at h
  · cases h
  · split at h
    · cases h
    · cases h
      rfl

/-- What an open pool keeps and what it closes when connections are brought to it. -/
theorem Activity.Brings.stores (h : a.Brings p now all unhealthy m) (hc : p.closed = false)
    (hb : p.idle.length ≤ p.config.maxIdle) :
    ∃ closes, m.closes = unhealthy ++ closes ∧ p.Stores all m.pool closes := by
  cases h with
  | @back a b h c ha hconn hbare =>
    have hput := stores_put c now hc hb
    refine ⟨(p.put c false now).2, ?_, ?_, hput.closes⟩
    · simp [Handle.release_eq, hconn]
    · simp only [Handle.release_eq, hconn, Step.map_pool, idle_giveBack]
      exact hput.idle
  | sweep hs => exact stores_finish _ hc
  | topUp ht => exact ⟨_, rfl, stores_putAll _ hc hb⟩

/-- What is brought was idle or swept before, or it comes back at the moment. -/
theorem Activity.Brings.fresh (h : a.Brings p now all unhealthy m) :
    ∃ fresh, (∀ c ∈ fresh, c.returned = now) ∧ all = fresh ++ (p.idle ++ a.swept) ∧
    m.next.swept = [] := by
  cases h with
  | @back a b h c ha hconn hbare =>
    refine ⟨[c.back now], ?_, ?_, swept_of_isBare hbare⟩
    · simp [Conn.back]
    · rw [swept_of_handle ha, List.append_nil]
      rfl
  | @sweep s hs =>
    refine ⟨[], List.forall_mem_nil _, ?_, rfl⟩
    simp [Activity.swept, hs]
  | @topUp t ht =>
    refine ⟨(t.conns.map (·.back now)).reverse, ?_, ?_, rfl⟩
    · simp [Conn.back]
    · simp [Activity.swept]

theorem suffix_of_eq {conns conns' : List Conn} (h : conns' = conns) : conns' <:+ conns :=
  h ▸ List.suffix_rfl

/-- A step takes connections from the front of the idle list, if anything, or brings some to it. -/
inductive Activity.Shifts (p : Pool) (now : Instant) (a : Activity) (m : Step Activity) : Prop
  | takes (hi : m.pool.idle <:+ p.idle) (hs : m.next.swept.Sublist a.swept)
  | brings {all unhealthy : List Conn} (h : a.Brings p now all unhealthy m)

/-- A step that leaves the idle list as it is and after which nothing is swept. -/
theorem Activity.Shifts.of_idle (hi : m.pool.idle = p.idle) (hs : m.next.swept = []) :
    a.Shifts p now m :=
  .takes (suffix_of_eq hi) (hs ▸ List.nil_sublist _)

theorem Activity.shifts_release {b : Activity} {h : Handle} (ha : a.handle? = some h)
    (hb : b.IsBare) (force : Bool) : a.Shifts p now ((h.release p force now).map fun _ => b) := by
  cases hconn : h.conn with
  | none =>
    refine .of_idle ?_ (swept_of_isBare hb)
    simp only [Handle.release_eq, hconn, Step.map_pool, idle_giveBack]
  | some c =>
    cases force with
    | false => exact .brings (.back ha hconn hb)
    | true =>
      refine .of_idle ?_ (swept_of_isBare hb)
      simp only [Handle.release_eq, hconn, Step.map_pool, idle_giveBack]
      exact congrArg (·.1.idle) (put_force p c now)

theorem Acquire.suffix_idle {ticket : Ticket} {a : Acquire} {m : Step Acquire} {touch : Touch}
    (h : a.Moves ticket p now m touch) : m.pool.idle <:+ p.idle := by
  cases h.does with
  | takes slot hp =>
    unfold popIdle at hp
    split at hp
    · cases hp
    next c rest hi =>
      cases hp
      rw [hi]
      exact List.suffix_cons _ rest
  | refused slot hd => exact suffix_of_eq (idle_giveBack p slot)
  | @stops slot p' hd why =>
    have hidle := idle_beginDial hd
    exact suffix_of_eq ((idle_giveBack (p'.lower 1) slot).trans hidle)
  | dials slot hd d => exact suffix_of_eq (idle_beginDial hd)
  | fails slot hr => exact suffix_of_eq (idle_giveBack (p.lower 1) slot)
  | _ => exact List.suffix_rfl

theorem Activity.Moves.shifts {touch : Touch} (h : a.Moves p now m touch) : a.Shifts p now m := by
  cases h.does with
  | @acquires ticket wants a m touch hw h =>
    refine .takes (Acquire.suffix_idle h) ?_
    cases hw <;> exact List.nil_sublist _
  | rests counts ha hb ht => exact .of_idle rfl (swept_of_isBare hb)
  | keeps ha hb hconn hslot ht => exact .of_idle rfl (swept_of_handle hb)
  | gives force ha hb ht => exact shifts_release ha hb force
  | @judges s c rest v hs hv =>
    refine .takes List.suffix_rfl ?_
    simp only [Activity.swept, Sweep.judge, hs]
    split
    · simp
    · simp
  | sweeps hs => exact .brings (.sweep hs)
  | dials h =>
    refine .of_idle ?_ rfl
    cases h with
    | begin attempt =>
      unfold PreDial.begin
      split
      next hd => exact idle_beginDial hd
      next => rfl
    | @finish d r hr => cases r <;> rfl
  | tops ht => exact .brings (.topUp ht)

theorem Activity.Abandons.shifts (h : a.Abandons p now m) : a.Shifts p now m := by
  cases h with
  | drop h =>
    cases h.lets with
    | @call _ _ a hw ha =>
      refine .of_idle ?_ rfl
      cases a with
      | dialing slot d => exact idle_giveBack p slot
      | _ => rfl
    | handle ha => exact shifts_release ha isBare_over _
  | topUp ht => exact .of_idle rfl rfl

theorem Activity.Turns.shifts (h : a.Turns p now m) : a.Shifts p now m := by
  obtain ⟨touch, h⟩ | h := h
  · exact h.shifts
  · exact h.shifts

theorem Activity.Turns.keeps (h : a.Turns p now m) : p.Keeps m.pool := by
  obtain ⟨touch, h⟩ | h := h
  · exact Activity.keeps h
  · exact h.keeps

theorem Activity.Turns.swept (h : a.Turns p now m) : m.next.swept.Sublist a.swept := by
  cases h.shifts with
  | takes hi hs => exact hs
  | brings h =>
    obtain ⟨fresh, -, -, hnext⟩ := h.fresh
    rw [hnext]
    exact List.nil_sublist _

/-- What is idle or swept after a step was so before, in this order, or it comes back at the
moment. -/
theorem Activity.Turns.shelf (h : a.Turns p now m) (hshut : p.closed = true → p.idle = [])
    (hb : p.idle.length ≤ p.config.maxIdle) :
    ∃ fresh, (∀ c ∈ fresh, c.returned = now) ∧
      (m.pool.idle ++ m.next.swept).Sublist (fresh ++ (p.idle ++ a.swept)) := by
  cases h.shifts with
  | takes hi hs => exact ⟨[], List.forall_mem_nil _, hi.sublist.append hs⟩
  | brings hbrings =>
    obtain ⟨fresh, hfresh, hall, hnext⟩ := hbrings.fresh
    refine ⟨fresh, hfresh, ?_⟩
    rw [hnext, List.append_nil]
    cases hc : p.closed with
    | true =>
      rw [h.keeps.idle hc (hshut hc)]
      exact List.nil_sublist _
    | false =>
      obtain ⟨closes, -, hstores⟩ := hbrings.stores hc hb
      rw [hstores.idle, ← hall]
      exact List.take_sublist _ _

end Idle

end Pool

end Courier

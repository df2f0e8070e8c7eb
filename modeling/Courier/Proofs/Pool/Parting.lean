import Courier.Proofs.Pool.Queue

/-!
# Handles that are given up while others go on

Where operations run at the same time, a handle is not given up in one go: its connection goes back
in one access to the pool and its slot in another one, and in between any other operation may go on.
A pool is looked at here with the handles that are being given up beside the operations. Each access
is a step of its own, and all that can happen in one go can happen in this way too.
-/
namespace Courier

def Handle.Act.spend (h : Handle) : Handle.Act → Handle
  | .put _ _ => { h with conn := none }
  | .giveBackSlot => { h with slot := false }

theorem Handle.acts_spend {h : Handle} {force : Bool} {act : Handle.Act} {rest : List Handle.Act}
    (ha : h.acts force = act :: rest) : (act.spend h).acts force = rest := by
  obtain ⟨conn, slot, deadline, mark⟩ := h
  cases conn <;> cases slot <;> cases ha <;> rfl

namespace Pool

/-! ## Giving a handle up -/

namespace Activity
variable {p : Pool} {now : Instant} {a : Activity} {m : Step Activity} {touch : Touch}

/-- The operation has a connection and has not given it up. -/
def isUsing (a : Activity) : Bool := a.handle?.any fun h => h.conn.isSome

/-- All that the operation does is to give its handle up. -/
structure Quits (p : Pool) (now : Instant) (a : Activity) (m : Step Activity) (h : Handle)
    (force : Bool) : Prop where
  handle : a.handle? = some h
  bare : m.next.IsBare
  step : m = (h.release p force now).map fun _ => m.next

theorem isUsing_of_isBare (ha : a.IsBare) : a.isUsing = false := by
  unfold isUsing
  cases hh : a.handle? with
  | none => rfl
  | some h =>
    have hconns := congrArg Stock.conns ((owns_of_handle hh).stock.symm.trans ha.stock)
    cases hc : h.conn with
    | none => simp [hc]
    | some c => simp [Handle.stock, hc] at hconns

theorem isUsing_wants {ticket : Ticket} {wants : Acquire → Activity} {a : Acquire}
    (hw : Wants ticket wants) : (wants a).isUsing = a.handle?.any fun h => h.conn.isSome := by
  cases hw <;> rfl

theorem need_of_handle {h : Handle} (ha : a.handle? = some h) : a.need = h.need := by
  cases a with
  | get ticket a =>
    cases a with
    | served h' =>
      cases ha
      rfl
    | _ => cases ha
  | use h' =>
    cases ha
    rfl
  | exchange e x => exact Exchange.need_of_handle ha
  | _ => cases ha

theorem Turns.need (h : a.Turns p now m) (hp : p.slots.isSome = true) (ha : a.slots = a.need) :
    m.next.slots = m.next.need := by
  obtain ⟨touch, h⟩ | h := h
  · exact need_step h hp ha
  · rw [h.next_eq]
    rfl

/-- In a step of an operation that has a connection, the operation keeps it or gives its handle
up. -/
theorem Moves.quits_or (h : a.Moves p now m touch) :
    (a.isUsing = true → m.next.isUsing = true) ∨
      touch.opened = [] ∧ ∃ h force, a.Quits p now m h force := by
  cases h.does with
  | acquires hw h =>
    refine .inl fun hu => ?_
    rw [isUsing_wants hw] at hu
    cases h <;> cases hu
  | rests counts ha hb ht =>
    refine .inl fun hu => ?_
    rw [isUsing_of_isBare ha] at hu
    cases hu
  | keeps ha hb hc hslot ht =>
    left
    rw [isUsing, isUsing, ha, Step.quiet_next, hb, Option.any_some, Option.any_some, hc]
    exact id
  | gives force ha hb ht => exact .inr ⟨ht, _, force, ha, hb, rfl⟩
  | judges | sweeps | dials | tops => exact .inl nofun

/-- An operation that has a connection is abandoned by giving its handle up. -/
theorem Abandons.quits_or (h : a.Abandons p now m) :
    a.isUsing = false ∨ a.forfeit = 0 ∧ ∃ h force, a.Quits p now m h force := by
  cases h with
  | drop h =>
    cases hl : h.lets with
    | @call ticket wants b hw hb =>
      left
      rw [isUsing_wants hw]
      cases b <;> first | rfl | cases hb
    | handle ha =>
      refine .inr ⟨?_, _, _, ha, isBare_over, rfl⟩
      have hdials := congrArg Stock.dials (owns_of_handle ha).stock
      exact h.forfeit_eq.trans hdials
  | topUp => exact .inl rfl

end Activity

/-- A handle that is being given up: what it was, what it is now, and its accesses to the pool so
far. -/
structure Parting where
  whole : Handle
  handle : Handle
  force : Bool
  done : List Handle.Act

namespace Parting

/-- The handle that is left, as something in the hands of a caller. -/
def seen (t : Parting) : Activity := .use t.handle

def spend (t : Parting) (act : Handle.Act) : Parting :=
  { t with handle := act.spend t.handle, done := t.done ++ [act] }

/-- The handle had a connection, and what is done and what is left are its accesses, in their
order. -/
structure IsStaged (t : Parting) : Prop where
  conn : t.whole.conn.isSome = true
  acts : t.done ++ t.handle.acts t.force = t.whole.acts t.force

theorem IsStaged.spend {t : Parting} {act : Handle.Act} {rest : List Handle.Act} (hs : t.IsStaged)
    (ha : t.handle.acts t.force = act :: rest) : (t.spend act).IsStaged := by
  refine ⟨hs.conn, ?_⟩
  show (t.done ++ [act]) ++ (act.spend t.handle).acts t.force = t.whole.acts t.force
  rw [Handle.acts_spend ha, ← hs.acts, ha, List.append_assoc]
  rfl

end Parting

/-! ## Runs -/

/-- The life of a pool with some handles that are being given up. -/
structure Parallel where
  life : Life
  partings : List Parting

/-- The operations that have connections. -/
def Life.inUse (s : Life) : Nat := s.activities.countP Activity.isUsing

namespace Parallel

def access (s : Parallel) (before : List Parting) (t : Parting) (act : Handle.Act)
    (after : List Parting) : Parallel where
  life := { s.life with
    pool := (act.perform s.life.pool s.life.now).1
    closed := s.life.closed ++ numbers (act.perform s.life.pool s.life.now).2 }
  partings := before ++ t.spend act :: after

/-- What can happen: something in which no connection is given up; an operation begins to give its
handle up, and goes on without it; a handle that is being given up has its next access to the
pool. -/
inductive Event : Parallel → Nat → Parallel → Prop
  | keeps {s : Parallel} {lost : Nat} {life : Life} (h : s.life.Event lost life)
      (hu : s.life.inUse ≤ life.inUse) : Event s lost { s with life }
  | quits {s : Parallel} {before after : List Activity} {a : Activity} {m : Step Activity}
      {h : Handle} {force : Bool} (hs : s.life.activities = before ++ a :: after)
      (hm : a.Turns s.life.pool s.life.now m) (hq : a.Quits s.life.pool s.life.now m h force)
      (hc : h.conn.isSome = true) :
      Event s 0 ⟨s.life.proceed before (.quiet s.life.pool m.next) .nothing after,
        ⟨h, h, force, []⟩ :: s.partings⟩
  | access {s : Parallel} {before after : List Parting} {t : Parting} {act : Handle.Act}
      {rest : List Handle.Act} (hs : s.partings = before ++ t :: after)
      (ha : t.handle.acts t.force = act :: rest) : Event s 0 (s.access before t act after)

/-- Any number of events, with all that is lost to the count. -/
inductive Runs : Parallel → Nat → Parallel → Prop
  | refl (s : Parallel) : Runs s 0 s
  | tail {s s' s'' : Parallel} {lost more : Nat} (h : Runs s lost s') (he : s'.Event more s'') :
      Runs s (lost + more) s''

/-- The states that a pool can come to with so much lost to its count. -/
def Attains (config : Config) (lost : Nat) (s : Parallel) : Prop :=
  ∃ network address now, Runs ⟨.start network address config now, []⟩ lost s

variable {config : Config} {lost more : Nat} {s s' s'' : Parallel}

theorem Runs.trans (h : s.Runs lost s') (h' : s'.Runs more s'') : s.Runs (lost + more) s'' := by
  induction h' with
  | refl => exact h
  | tail _ he ih =>
    rw [← Nat.add_assoc]
    exact ih.tail he

theorem Runs.single (he : s.Event lost s') : s.Runs lost s' := by
  have h := (Runs.refl s).tail he
  rwa [Nat.zero_add] at h

/-- What holds at the start and is kept by every event holds in every state. -/
theorem Attains.induct {motive : Nat → Parallel → Prop} (h : Attains config lost s)
    (start : ∀ network address now, motive 0 ⟨.start network address config now, []⟩)
    (event : ∀ lost more s s', motive lost s → s.Event more s' → motive (lost + more) s') :
    motive lost s := by
  obtain ⟨network, address, now, h⟩ := h
  induction h with
  | refl => exact start network address now
  | tail _ he ih => exact event _ _ _ _ ih he

/-! ## What happens in one go can happen in this way -/

theorem inUse_among {s : Life} {before after : List Activity} {a : Activity}
    (hs : s.activities = before ++ a :: after) :
    s.inUse = before.countP Activity.isUsing + a.isUsing.toNat + after.countP Activity.isUsing := by
  rw [Life.inUse, hs, List.countP_append, List.countP_cons]
  cases a.isUsing
  · simp
  · simp
    omega

theorem inUse_le_of_keeps {s : Life} {before after : List Activity} {a : Activity}
    {m : Step Activity} {touch : Touch} (hs : s.activities = before ++ a :: after)
    (hu : a.isUsing = true → m.next.isUsing = true) :
    s.inUse ≤ (s.proceed before m touch after).inUse := by
  rw [inUse_among hs, inUse_among (a := m.next) rfl]
  have hle : a.isUsing.toNat ≤ m.next.isUsing.toNat := by
    cases ha : a.isUsing with
    | false => exact Nat.zero_le _
    | true => rw [hu ha]
  omega

/-- The accesses of a handle one after the other, with nothing in between. -/
theorem runs_access (s : Life) (partings : List Parting) (t : Parting) :
    ∃ t', t'.handle.acts t'.force = [] ∧
      Runs ⟨s, t :: partings⟩ 0
        ⟨{ s with
          pool := (Handle.Act.performAll s.pool s.now (t.handle.acts t.force)).1
          closed := s.closed ++
            numbers (Handle.Act.performAll s.pool s.now (t.handle.acts t.force)).2 },
          t' :: partings⟩ := by
  induction ha : t.handle.acts t.force generalizing s t with
  | nil =>
    refine ⟨t, ha, ?_⟩
    simpa [Handle.Act.performAll] using Runs.refl ⟨s, t :: partings⟩
  | cons act rest ih =>
    have hfirst : Event ⟨s, t :: partings⟩ 0 (access ⟨s, t :: partings⟩ [] t act partings) :=
      .access rfl ha
    obtain ⟨t', ht', hrest⟩ := ih (access ⟨s, t :: partings⟩ [] t act partings).life (t.spend act)
      (Handle.acts_spend ha)
    refine ⟨t', ht', ?_⟩
    have hall := (Runs.single hfirst).trans hrest
    simpa [access, Handle.Act.performAll] using hall

/-- An operation gives its handle up, and the handle has all its accesses at once. -/
theorem runs_quits {s : Life} (partings : List Parting) {before after : List Activity}
    {a : Activity} {m : Step Activity} {h : Handle} {force : Bool} {touch : Touch}
    (hs : s.activities = before ++ a :: after) (hm : a.Turns s.pool s.now m)
    (hq : a.Quits s.pool s.now m h force) (hc : h.conn.isSome = true) (ht : touch.opened = []) :
    ∃ t : Parting, t.handle.acts t.force = [] ∧
      Runs ⟨s, partings⟩ 0 ⟨s.proceed before m touch after, t :: partings⟩ := by
  have hquits : Event ⟨s, partings⟩ 0 _ := .quits hs hm hq hc
  obtain ⟨t, hspent, hrest⟩ := runs_access (s.proceed before (.quiet s.pool m.next) .nothing after)
    partings ⟨h, h, force, []⟩
  refine ⟨t, hspent, ?_⟩
  have hall := (Runs.single hquits).trans hrest
  have hlife : s.proceed before m touch after =
      { s.proceed before (.quiet s.pool m.next) .nothing after with
        pool := (Handle.Act.performAll s.pool s.now (h.acts force)).1
        closed := (s.proceed before (.quiet s.pool m.next) .nothing after).closed ++
          numbers (Handle.Act.performAll s.pool s.now (h.acts force)).2 } := by
    have hpool := congrArg Step.pool hq.step
    have hcloses := congrArg Step.closes hq.step
    have hcounts := congrArg Step.counts hq.step
    simp only [Step.map_pool, Step.map_closes, Step.map_counts, Handle.release]
      at hpool hcloses hcounts
    simp [Life.proceed, ht, show Touch.nothing.opened = [] from rfl, hpool, hcloses, hcounts]
  rw [hlife]
  exact hall

theorem runs_turn {s : Life} (partings : List Parting) {before after : List Activity}
    {a : Activity} {m : Step Activity} {touch : Touch} (hs : s.activities = before ++ a :: after)
    (hm : a.Turns s.pool s.now m) (he : s.Event lost (s.proceed before m touch after))
    (hq : (a.isUsing = true → m.next.isUsing = true) ∨
      (touch.opened = [] ∧ lost = 0) ∧ ∃ h force, a.Quits s.pool s.now m h force) :
    ∃ more, Runs ⟨s, partings⟩ lost ⟨s.proceed before m touch after, more ++ partings⟩ ∧
      ∀ t ∈ more, t.handle.acts t.force = [] := by
  have keeps (hu : a.isUsing = true → m.next.isUsing = true) :=
    Runs.single (Event.keeps (s := ⟨s, partings⟩) he (inUse_le_of_keeps hs hu))
  obtain hu | ⟨⟨ht, rfl⟩, h, force, hq⟩ := hq
  · exact ⟨[], keeps hu, List.forall_mem_nil _⟩
  · cases hc : h.conn with
    | none =>
      refine ⟨[], keeps fun hu => ?_, List.forall_mem_nil _⟩
      rw [Activity.isUsing, hq.handle, Option.any_some, hc] at hu
      cases hu
    | some c =>
      obtain ⟨t, hspent, hr⟩ := runs_quits partings hs hm hq (by simp [hc]) ht
      exact ⟨[t], hr, by simpa using hspent⟩

/-- What happens to a pool in one go happens here in one step or in several, and nothing is left of
the handles that are given up. -/
theorem runs_of_event {s s' : Life} (he : s.Event lost s') (partings : List Parting) :
    ∃ more, Runs ⟨s, partings⟩ lost ⟨s', more ++ partings⟩ ∧
      ∀ t ∈ more, t.handle.acts t.force = [] := by
  have keeps (hu : s.inUse ≤ s'.inUse) :
      ∃ more, Runs ⟨s, partings⟩ lost ⟨s', more ++ partings⟩ ∧
        ∀ t ∈ more, t.handle.acts t.force = [] :=
    ⟨[], .single (.keeps he hu), List.forall_mem_nil _⟩
  cases he with
  | step h =>
    cases h with
    | advance h =>
      obtain ⟨hs, hm, hf⟩ := h
      refine runs_turn partings hs (.inl ⟨_, hm⟩) (.step (.advance (.mk hs hm hf))) ?_
      exact hm.quits_or.imp_right fun ⟨ht, hq⟩ => ⟨⟨ht, rfl⟩, hq⟩
    | tend h =>
      refine keeps ?_
      cases h with
      | sweep | topUp => exact Nat.le_of_eq (List.countP_cons_of_neg Bool.false_ne_true).symm
      | close | pass => exact Nat.le_refl _
    | get | exchange =>
      exact keeps (Nat.le_of_eq (List.countP_cons_of_neg Bool.false_ne_true).symm)
  | abandon hs hm =>
    refine runs_turn partings hs (.inr hm) (.abandon hs hm) ?_
    obtain hu | ⟨hl, hq⟩ := hm.quits_or
    · exact .inl fun ha => absurd ha (by simp [hu])
    · exact .inr ⟨⟨rfl, hl⟩, hq⟩

/-- A pool comes to every state here to which it comes in one go after the other. -/
theorem attains_of_leaky {s : Life} (h : Life.Leaky config lost s) :
    ∃ partings, Attains config lost ⟨s, partings⟩ ∧ ∀ t ∈ partings, t.handle.acts t.force = [] := by
  refine h.induct (motive := fun lost s => ∃ partings, Attains config lost ⟨s, partings⟩ ∧
    ∀ t ∈ partings, t.handle.acts t.force = []) (fun network address now => ?_)
    fun lost more s s' hs he => ?_
  · exact ⟨[], ⟨network, address, now, .refl _⟩, List.forall_mem_nil _⟩
  · obtain ⟨partings, ⟨network, address, now, hr⟩, hspent⟩ := hs
    obtain ⟨fresh, hr', hfresh⟩ := runs_of_event he partings
    refine ⟨fresh ++ partings, ⟨network, address, now, hr.trans hr'⟩, fun t ht => ?_⟩
    exact (List.mem_append.1 ht).elim (hfresh t) (hspent t)

/-! ## What all have in hand -/

/-- The life in which a handle that is being given up is with a caller. -/
def seen (s : Parallel) : Life :=
  { s.life with activities := s.life.activities ++ s.partings.map Parting.seen }

theorem event_beside {s s' : Life} (he : s.Event lost s') (others : List Activity) :
    Life.Event { s with activities := s.activities ++ others } lost
      { s' with activities := s'.activities ++ others } := by
  cases he with
  | step h =>
    cases h with
    | @advance _ touch h =>
      obtain @⟨before, after, a, m, _, hs, hm, hf⟩ := h
      have hadvance : Life.Advance { s with activities := s.activities ++ others } touch _ :=
        .mk (show s.activities ++ others = before ++ a :: (after ++ others) by simp [hs]) hm hf
      simpa [Life.proceed] using Life.Event.step (.advance hadvance)
    | tend h =>
      cases h with
      | sweep hb => exact .step (.tend (.sweep hb))
      | topUp => exact .step (.tend (.topUp _))
      | close => exact .step (.tend (.close _))
      | pass hl => exact .step (.tend (.pass _ hl))
    | get ht => exact .step (.get _ ht)
    | exchange ht => exact .step (.exchange _ ht)
  | @abandon before after a m hs hm =>
    have habandon := Life.Event.abandon (s := { s with activities := s.activities ++ others })
      (show s.activities ++ others = before ++ a :: (after ++ others) by simp [hs]) hm
    simpa [Life.proceed] using habandon

/-- An operation among others has put away or taken something. -/
theorem spent_of_balanced {s s' : Life} {before after : List Activity} {a b : Activity}
    {gone : List Nat} (hs : s.activities = before ++ a :: after)
    (hs' : s'.activities = before ++ b :: after)
    (hb : Balanced s.pool a.stock [] s'.pool b.stock gone) (ho : s'.opened = s.opened)
    (hc : s'.closed = s.closed ++ gone) : s.Spent s' 0 [] gone := by
  have hall := hb.frame (located (before.flatMap Activity.holds))
    (located (after.flatMap Activity.holds)) (before.map Activity.dials).sum
    (after.map Activity.dials).sum
  rw [← Life.stock_among hs, ← Life.stock_among hs'] at hall
  exact ⟨⟨hall.moved, by simp [ho], hc, .nil, List.forall_mem_nil _⟩, hall.count⟩

/-- The accesses begin with the connection, or with the slot of a handle that has none any more. -/
theorem acts_cases {h : Handle} {force : Bool} {act : Handle.Act} {rest : List Handle.Act}
    (ha : h.acts force = act :: rest) :
    (∃ c, act = .put c force ∧ h.conn = some c) ∨
      act = .giveBackSlot ∧ h.conn = none ∧ h.slot = true := by
  obtain ⟨conn, slot, deadline, mark⟩ := h
  cases conn with
  | some c =>
    cases ha
    exact .inl ⟨c, rfl, rfl⟩
  | none =>
    cases slot <;> cases ha
    exact .inr ⟨rfl, rfl, rfl⟩

section Access
variable {h : Handle} {force : Bool} {act : Handle.Act} {rest : List Handle.Act}

theorem balanced_access (ha : h.acts force = act :: rest) (p : Pool) (now : Instant) :
    Balanced p (Handle.stock h) [] (act.perform p now).1 (Handle.stock (act.spend h))
      (numbers (act.perform p now).2) := by
  obtain ⟨c, rfl, hc⟩ | ⟨rfl, hc, hslot⟩ := acts_cases ha
  · have hb := balanced_put p c force now
    simpa [Handle.stock, hc, Handle.Act.spend, Handle.Act.perform] using hb
  · exact .slots p _ _

theorem lends_access (ha : h.acts force = act :: rest) (p : Pool) (now : Instant) :
    p.Lends h.slot.toNat (act.perform p now).1 (act.spend h).slot.toNat := by
  obtain ⟨c, rfl, hc⟩ | ⟨rfl, hc, hslot⟩ := acts_cases ha
  · exact .of_eq (slots_put p now c force) _
  · rw [hslot]
    exact .giveBack p true

theorem serves_access (ha : h.acts force = act :: rest) {p : Pool} {queue : List Ticket}
    (hs : p.Serves queue) (now : Instant) : (act.perform p now).1.Serves queue := by
  obtain ⟨c, rfl, hc⟩ | ⟨rfl, hc, hslot⟩ := acts_cases ha
  · exact hs.of_eq (slots_put p now c force)
  · exact hs.giveBack true

end Access

/-- The connections, the dials and the slots of a pool are where they belong, handles that are being
given up included. -/
structure Accounts (config : Config) (lost : Nat) (s : Parallel) : Prop where
  tallied : s.seen.Tallied config lost
  queues : s.life.pool.slots.isSome = config.queues
  count : s.life.pool.spare + s.seen.held = if config.queues then config.maxActive else 0
  need : config.queues = true → ∀ a ∈ s.life.activities, a.slots = a.need
  serves : s.life.pool.Serves s.life.queue
  staged : ∀ t ∈ s.partings, t.IsStaged
  slots : config.queues = true → ∀ t ∈ s.partings, t.whole.slot = true

theorem accounts_start (network address : String) (config : Config) (now : Instant) :
    Accounts config 0 ⟨.start network address config now, []⟩ := by
  have hl := Life.lent_start network address config now
  exact ⟨Life.tallied_start network address config now, hl.queues, by simpa [seen] using hl.count,
    hl.need, Life.serves_start network address config now, List.forall_mem_nil _,
    fun _ => List.forall_mem_nil _⟩

theorem Accounts.keeps {life : Life} (hs : s.Accounts config lost) (he : s.life.Event more life) :
    Accounts config (lost + more) { s with life } := by
  have hseen := event_beside he (s.partings.map Parting.seen)
  obtain ⟨hqueues, hcount⟩ := Life.Lent.lends hs.queues hs.count hseen.lends
  exact ⟨hs.tallied.event hseen, hqueues, hcount,
    fun hq => he.need (hs.queues.trans hq) (hs.need hq), he.serves hs.serves, hs.staged, hs.slots⟩

/-- What one operation had, another one beside it has instead. -/
theorem spent_of_passed {s s' : Life} {before after others : List Activity} {a b c : Activity}
    {stock : Stock} {slots : Nat} {queue : List Ticket}
    (hs : s.activities = before ++ a :: (after ++ others))
    (hs' : s'.activities = before ++ b :: (after ++ c :: others)) (ha : a.Owns stock slots queue)
    (hb : b.IsBare) (hc : c.Owns stock slots queue) (hp : s'.pool = s.pool)
    (ho : s'.opened = s.opened) (hg : s'.closed = s.closed) :
    s.Spent s' 0 [] [] ∧ s'.held = s.held := by
  have hsame : a.stock = c.stock := ha.stock.trans hc.stock.symm
  have hconns : s'.stock.conns.Perm s.stock.conns := by
    have hac : located a.holds = located c.holds := congrArg Stock.conns hsame
    have hnone : located b.holds = [] := congrArg Stock.conns hb.stock
    rw [List.perm_iff_count]
    intro id
    simp only [Life.stock, hs, hs', List.flatMap_append, List.flatMap_cons, located_append,
      List.count_append, hac, hnone, List.count_nil]
    omega
  have hdials : s'.dials = s.dials := by
    have hac : a.dials = c.dials := congrArg Stock.dials hsame
    have hnone : b.dials = 0 := congrArg Stock.dials hb.stock
    simp only [Life.dials, hs, hs', List.map_append, List.map_cons, List.sum_append,
      List.sum_cons, hac, hnone]
    omega
  refine ⟨⟨⟨⟨?_, by rw [hp], by rw [hp]; exact id⟩, by simp [ho], by simp [hg], .nil,
    List.forall_mem_nil _⟩, fun _ => by simp [hp, hdials]⟩, ?_⟩
  · rw [hp]
    exact (hconns.append_left _).append_right _
  · simp only [Life.held, hs, hs', List.map_append, List.map_cons, List.sum_append,
      List.sum_cons, ha.slots, hb.slots, hc.slots]
    omega

/-- The handle is on its own; the operation that had it has nothing any more. -/
theorem Accounts.quits {before after : List Activity} {a : Activity} {m : Step Activity}
    {h : Handle} {force : Bool} (hs : s.Accounts config lost)
    (hact : s.life.activities = before ++ a :: after) (hm : a.Turns s.life.pool s.life.now m)
    (hq : a.Quits s.life.pool s.life.now m h force) (hc : h.conn.isSome = true) :
    Accounts config lost ⟨s.life.proceed before (.quiet s.life.pool m.next) .nothing after,
      ⟨h, h, force, []⟩ :: s.partings⟩ := by
  let s' : Parallel := ⟨s.life.proceed before (.quiet s.life.pool m.next) .nothing after,
    ⟨h, h, force, []⟩ :: s.partings⟩
  have hseen : s.seen.activities = before ++ a :: (after ++ s.partings.map Parting.seen) := by
    simp [seen, hact]
  have hseen' : s'.seen.activities =
      before ++ m.next :: (after ++ .use h :: s.partings.map Parting.seen) := by
    simp [seen, s', Life.proceed, Parting.seen]
  have howns := Activity.owns_of_handle hq.handle
  have hqueue : s'.life.queue = s.life.queue := by
    simp [Life.queue, s', Life.proceed, hact, howns.queue, hq.bare.queue]
  obtain ⟨hspent, hheld⟩ : s.seen.Spent s'.seen 0 [] [] ∧ s'.seen.held = s.seen.held :=
    spent_of_passed hseen hseen' howns hq.bare (Activity.owns_of_handle rfl) rfl
      (List.append_nil _) (List.append_nil _)
  refine ⟨hs.tallied.spent hspent, hs.queues, ?_, fun hqueues => ?_, ?_, ?_, fun hqueues => ?_⟩
  · rw [hheld]
    exact hs.count
  · have hneed := hs.need hqueues
    rw [hact, List.forall_mem_append, List.forall_mem_cons] at hneed
    exact List.forall_mem_append.2 ⟨hneed.1, List.forall_mem_cons.2
      ⟨hm.need (hs.queues.trans hqueues) hneed.2.1, hneed.2.2⟩⟩
  · rw [hqueue]
    exact hs.serves
  · exact List.forall_mem_cons.2 ⟨⟨hc, rfl⟩, hs.staged⟩
  · have hslots := hs.need hqueues a (by simp [hact])
    rw [howns.slots, Activity.need_of_handle hq.handle, Handle.need] at hslots
    refine List.forall_mem_cons.2 ⟨?_, hs.slots hqueues⟩
    obtain ⟨c, hc⟩ := Option.isSome_iff_exists.1 hc
    rw [hc] at hslots
    exact Bool.toNat_eq_one.1 hslots

theorem Accounts.access {before after : List Parting} {t : Parting} {act : Handle.Act}
    {rest : List Handle.Act} (hs : s.Accounts config lost)
    (hpart : s.partings = before ++ t :: after) (ha : t.handle.acts t.force = act :: rest) :
    Accounts config lost (s.access before t act after) := by
  let s' := s.access before t act after
  have hseen : s.seen.activities =
      (s.life.activities ++ before.map Parting.seen) ++ t.seen :: after.map Parting.seen := by
    simp [seen, hpart]
  have hseen' : s'.seen.activities =
      (s.life.activities ++ before.map Parting.seen) ++
        (t.spend act).seen :: after.map Parting.seen := by
    simp [seen, s', Parallel.access]
  have hbalanced := balanced_access ha s.life.pool s.life.now
  rw [← stock_use, ← stock_use] at hbalanced
  have hlends : s.life.pool.Lends t.seen.slots s'.life.pool (t.spend act).seen.slots :=
    lends_access ha s.life.pool s.life.now
  have hheld : s.life.pool.Lends s.seen.held s'.life.pool s'.seen.held := by
    rw [Life.held, Life.held, hseen, hseen']
    simpa [Nat.add_assoc] using hlends.frame
      ((s.life.activities ++ before.map Parting.seen).map Activity.slots).sum
      ((after.map Parting.seen).map Activity.slots).sum
  obtain ⟨hqueues, hcount⟩ := Life.Lent.lends hs.queues hs.count hheld
  have hpartings {P : Parting → Prop} (h : ∀ u ∈ s.partings, P u) (ht : P t → P (t.spend act)) :
      ∀ u ∈ s'.partings, P u := by
    rw [hpart, List.forall_mem_append, List.forall_mem_cons] at h
    exact List.forall_mem_append.2 ⟨h.1, List.forall_mem_cons.2 ⟨ht h.2.1, h.2.2⟩⟩
  exact ⟨hs.tallied.spent (spent_of_balanced hseen hseen' hbalanced rfl rfl), hqueues, hcount,
    hs.need, serves_access ha hs.serves _, hpartings hs.staged fun ht => ht.spend ha,
    fun hq => hpartings (hs.slots hq) id⟩

theorem Accounts.event (hs : s.Accounts config lost) (he : s.Event more s') :
    s'.Accounts config (lost + more) := by
  cases he with
  | keeps h => exact hs.keeps h
  | quits hact hm hq hc => exact hs.quits hact hm hq hc
  | access hpart ha => exact hs.access hpart ha

theorem Attains.accounts (h : Attains config lost s) : s.Accounts config lost :=
  h.induct (fun network address now => accounts_start network address config now)
    fun _ _ _ _ hs he => hs.event he

end Parallel

end Pool

end Courier

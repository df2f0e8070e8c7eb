import Courier.Proofs.Pool.Parting

/-!
# Who holds the slots

Where callers queue, a slot is free, or it was given to a caller in the queue that has not resumed,
or a call holds it that looks for a connection or dials, or the owner of a handle that has its
connection, or a handle that is being given up. There are always as many as the pool began with,
however calls and connections end. A slot comes back behind the connection of its holder: whoever
gets the slot finds the connection idle, or closed and off the count.
-/
namespace Courier.Pool

/-! ## Holders -/

/-- The call takes or checks idle connections, or dials. -/
def Acquire.isSeeking : Acquire → Bool
  | .popping _ | .checking _ _ | .exhausted _ | .dialing _ _ => true
  | .arriving | .queued _ | .served _ | .failed _ => false

namespace Activity

def isSeeking : Activity → Bool
  | .get _ a | .exchange _ (.acquiring a) => a.isSeeking
  | .exchange _ (.writing _ _ _) | .exchange _ (.reading _ _ _) | .exchange _ (.finished _)
  | .use _ | .sweep _ | .topUp _ | .over => false

theorem need_eq (a : Activity) : a.need = a.isSeeking.toNat + a.isUsing.toNat := by
  have owner (h : Handle) : h.need = h.conn.isSome.toNat := by
    unfold Handle.need
    cases h.conn <;> rfl
  have acquiring (a : Acquire) :
      a.need = a.isSeeking.toNat + (a.handle?.any fun h => h.conn.isSome).toNat := by
    cases a with
    | served h => exact (owner h).trans (Nat.zero_add _).symm
    | _ => rfl
  cases a with
  | get ticket a => exact acquiring a
  | use h => exact (owner h).trans (Nat.zero_add _).symm
  | exchange e x =>
    cases x with
    | acquiring a => exact acquiring a
    | writing remote h w => exact (owner h).trans (Nat.zero_add _).symm
    | reading remote h r => exact (owner h).trans (Nat.zero_add _).symm
    | finished result => rfl
  | _ => rfl

end Activity

namespace Life
variable {config : Config} {s : Life}

/-- The calls that look for a connection or dial. -/
def seeking (s : Life) : Nat := s.activities.countP Activity.isSeeking

theorem held_eq (h : ∀ a ∈ s.activities, a.slots = a.need) : s.held = s.seeking + s.inUse := by
  unfold held seeking inUse
  revert h
  induction s.activities with
  | nil => exact fun _ => rfl
  | cons a rest ih =>
    intro h
    obtain ⟨ha, hrest⟩ := List.forall_mem_cons.1 h
    rw [List.map_cons, List.sum_cons, ih hrest, ha, a.need_eq, List.countP_cons, List.countP_cons]
    cases a.isSeeking <;> cases a.isUsing <;> simp <;> omega

end Life

/-! ## Slots that come back -/

/-- An operation has put away all that it had in hand: its connections are idle or closed, and if
the count was not too low, it has gone down with those that were closed and with a dial, but for
what was lost. -/
structure Clears (p : Pool) (a : Stock) (lost : Nat) (q : Pool) (closes : List Nat) : Prop where
  moved : Moved p a.conns [] q [] closes
  count : p.idle.length + a.conns.length + a.dials ≤ p.active →
    q.active + closes.length + a.dials = p.active + lost

theorem Balanced.clears {p q : Pool} {a : Stock} {closes : List Nat}
    (h : Balanced p a [] q ⟨[], 0⟩ closes) :
    Clears p a 0 q closes :=
  ⟨h.moved, h.count⟩

/-- If a slot comes back in a step, it is one slot, and the operation has put away all it had. -/
def Yields (p : Pool) (a : Stock) (lost : Nat) (p' : Pool) (a' : Stock) (closes : List Nat) :
    Prop :=
  p'.spare ≤ p.spare ∨
    a' = ⟨[], 0⟩ ∧ p'.slots = p.slots.map Slots.giveBack ∧ Clears p a lost p' closes

namespace Yields
variable {p p' : Pool} {a a' : Stock} {lost : Nat} {closes : List Nat}

theorem of_eq (h : p'.slots = p.slots) : Yields p a lost p' a' closes :=
  .inl (Nat.le_of_eq (by rw [spare, spare, h]))

theorem answer {slots slots' : Slots} (hs : p.slots = some slots) (h : slots'.spare ≤ slots.spare) :
    Yields p a lost { p with slots := some slots' } a' closes :=
  .inl (by simpa [spare, hs] using h)

theorem giveBack (slot : Bool) (hs : p'.slots = p.slots) (hc : Clears p a lost p' closes) :
    Yields p a lost (if slot then p'.giveBackSlot else p') ⟨[], 0⟩ closes := by
  cases slot with
  | false => exact .of_eq hs
  | true =>
    have hmoved := hc.moved
    exact .inr ⟨rfl, congrArg (·.map Slots.giveBack) hs,
      ⟨⟨hmoved.perm, hmoved.config, hmoved.bounded⟩, hc.count⟩⟩

end Yields

section Steps
variable {p : Pool} {now : Instant}

theorem Acquire.yields {ticket : Ticket} {a : Acquire} {m : Step Acquire} {touch : Touch}
    (h : a.Moves ticket p now m touch) :
    Yields p a.stock 0 m.pool m.next.stock (numbers m.closes) := by
  cases h.does with
  | passes ha hs => exact .of_eq rfl
  | enters ha hs hn => exact .answer hs (by omega)
  | waits t ha hs hn => exact .answer hs (Nat.le_of_eq hn)
  | leaves ha hs hn hf => exact .answer hs (Nat.le_of_eq hn)
  | takes slot hp => exact .of_eq (slots_popIdle hp)
  | runsOut slot hi => exact .of_eq rfl
  | keeps slot c counts => exact .of_eq rfl
  | drops slot c counts => exact .of_eq rfl
  | refused slot hd => exact .giveBack slot rfl (Balanced.refl p _).clears
  | @stops slot p' hd why =>
    exact .giveBack slot ((slots_lower p' 1).trans (slots_beginDial hd))
      ((balanced_beginDial hd).trans (balanced_undial p')).clears
  | dials slot hd d => exact .of_eq (slots_beginDial hd)
  | connects slot d c => exact .of_eq rfl
  | fails slot hr => exact .giveBack slot rfl (balanced_undial p).clears

theorem yields_release (h : Handle) (force : Bool) :
    Yields p (Handle.stock h) 0 (h.release p force now).pool ⟨[], 0⟩
      (numbers (h.release p force now).closes) := by
  rw [Handle.release_eq, Handle.stock]
  cases h.conn with
  | none => exact .giveBack h.slot rfl (Balanced.refl p _).clears
  | some c => exact .giveBack h.slot (slots_put p now c force) (balanced_put p c force now).clears

theorem Activity.yields {a : Activity} {m : Step Activity} {touch : Touch}
    (h : a.Moves p now m touch) : Yields p a.stock 0 m.pool m.next.stock (numbers m.closes) := by
  cases h.does with
  | acquires hw h =>
    rw [Step.map_next, (hw.owns _).stock, (hw.owns _).stock]
    exact Acquire.yields h
  | rests counts ha hb ht => exact .of_eq rfl
  | keeps ha hb hc hslot ht => exact .of_eq rfl
  | gives force ha hb ht =>
    rw [(owns_of_handle ha).stock, Step.map_next, hb.stock]
    exact yields_release _ force
  | judges hp hv => exact .of_eq rfl
  | @sweeps s hp => exact .of_eq (slots_finish p s)
  | dials h => exact .of_eq (PreDial.slots_step h)
  | tops ht => exact .of_eq (slots_putAll p now _)

/-- A call that is abandoned at its dial gives its slot back while the dial stays counted. -/
theorem Acquire.yields_abandon {a : Acquire} (ha : a.isSuspended = true) :
    Yields p a.stock a.stock.dials (a.abandon p) ⟨[], 0⟩ [] := by
  cases a with
  | arriving => exact .of_eq rfl
  | queued ticket =>
    have hl := (lends_leave p ticket).count fun _ => rfl
    exact .inl (Nat.le_of_eq hl)
  | dialing slot d => exact .giveBack slot rfl ⟨⟨.refl _, rfl, id⟩, fun _ => rfl⟩
  | _ => cases ha

theorem Activity.Abandons.yields {a : Activity} {m : Step Activity} (h : a.Abandons p now m) :
    Yields p a.stock a.forfeit m.pool ⟨[], 0⟩ (numbers m.closes) := by
  cases h with
  | drop h =>
    rw [show a.forfeit = a.stock.dials from h.forfeit_eq]
    cases h.lets with
    | call hw ha =>
      rw [(hw.owns _).stock]
      exact Acquire.yields_abandon ha
    | handle ha =>
      rw [(owns_of_handle ha).stock]
      exact yields_release _ _
  | topUp ht => exact .of_eq rfl

end Steps

/-! ## Callers that leave the queue -/

theorem Activity.slots_of_queue {a : Activity} (h : a.queue ≠ []) : a.slots = 0 := by
  obtain ⟨ticket, wants, t, hw, rfl⟩ := queued_of_queue h
  exact (hw.owns _).slots

/-! ## States of a pool -/

namespace Life
variable {config : Config} {lost more : Nat} {s s' : Life}

/-- One slot has come back, and the operation that had it has nothing in hand any more: its
connection is idle or closed, and the count has gone down with it if it is closed, or with the dial,
unless the dial is lost. -/
inductive Frees (s : Life) (lost : Nat) (s' : Life) : Prop
  | mk {before after : List Activity} {a b : Activity} {gone : List Nat}
      (hs : s.activities = before ++ a :: after) (hs' : s'.activities = before ++ b :: after)
      (hb : b.stock = ⟨[], 0⟩) (hp : s'.pool.slots = s.pool.slots.map Slots.giveBack)
      (hm : Moved s.pool a.stock.conns [] s'.pool [] gone)
      (hc : s'.pool.active + gone.length + a.dials = s.pool.active + lost)
      (hg : s'.closed = s.closed ++ gone)

theorem le_active_among {before after : List Activity} {a : Activity}
    (hle : s.pool.idle.length + s.stock.conns.length + s.stock.dials ≤ s.pool.active)
    (hs : s.activities = before ++ a :: after) :
    s.pool.idle.length + a.stock.conns.length + a.stock.dials ≤ s.pool.active := by
  rw [stock_among hs] at hle
  simp only [List.length_append] at hle
  omega

theorem Tend.spare_eq (h : s.Tend s') : s'.pool.spare = s.pool.spare := by
  cases h with
  | sweep hb => exact congrArg (fun slots => (slots.map Slots.spare).getD 0) (slots_sweep hb)
  | topUp => rfl
  | close => exact (lends_close s.pool 0).count fun _ => rfl
  | pass => rfl

theorem Event.frees
    (hle : s.pool.idle.length + s.stock.conns.length + s.stock.dials ≤ s.pool.active)
    (h : s.Event more s') (hup : s.pool.spare < s'.pool.spare) : s.Frees more s' := by
  cases h with
  | step h =>
    cases h with
    | advance h =>
      obtain ⟨hact, hm, -⟩ := h
      obtain hdown | ⟨hb, hp, hclears⟩ := Activity.yields hm
      · exact absurd hup (Nat.not_lt_of_le hdown)
      · exact .mk hact rfl hb hp hclears.moved (hclears.count (le_active_among hle hact)) rfl
    | tend h => exact absurd hup (Nat.not_lt_of_le (Nat.le_of_eq h.spare_eq))
    | get => exact absurd hup (Nat.lt_irrefl _)
    | exchange => exact absurd hup (Nat.lt_irrefl _)
  | abandon hact hm =>
    obtain hdown | ⟨-, hp, hclears⟩ := hm.yields
    · exact absurd hup (Nat.not_lt_of_le hdown)
    · have hb : Activity.stock _ = ⟨[], 0⟩ := congrArg Activity.stock hm.next_eq
      exact .mk hact rfl hb hp hclears.moved (hclears.count (le_active_among hle hact)) rfl

end Life

namespace Parallel
variable {config : Config} {lost : Nat} {s : Parallel}

/-- The handles that are being given up and have their slots still. -/
def returning (s : Parallel) : Nat := s.partings.countP fun t => t.handle.slot

/-- Where the slots of a pool are. All slots are free, or held by callers in the queue, by calls
that look for a connection or dial, by handles that have their connections, or by handles that are
being given up. An operation holds one while it looks for a connection, dials or has one, and only
then, and a caller waits only while all are held. The connections that callers check or have, and
their dials, are within the bound. A handle that is being given up puts its connection first and
gives its slot back then. -/
structure Admits (config : Config) (s : Parallel) (slots : Slots) : Prop where
  slots_eq : s.life.pool.slots = some slots
  total : slots.free + slots.granted.length + s.life.seeking + s.life.inUse + s.returning =
    config.maxActive
  holds : ∀ a ∈ s.life.activities, a.slots = a.isSeeking.toNat + a.isUsing.toNat
  callers : s.seen.ofCallers ≤ config.maxActive
  queue : s.life.queue.Perm (slots.waiting ++ slots.granted)
  waits : slots.waiting ≠ [] → slots.free = 0
  staged : ∀ t ∈ s.partings, ∃ c, t.whole.conn = some c ∧
    t.done ++ t.handle.acts t.force = [.put c t.force, .giveBackSlot]

/-- A slot has come back. A handle has given it back that had put its connection, or a call that has
no connection and nothing else in hand any more. -/
inductive Frees (s : Parallel) (lost : Nat) (s' : Parallel) : Prop
  | handle {before after : List Parting} {t : Parting} {c : Conn}
      (hs : s.partings = before ++ t :: after) (hc : t.whole.conn = some c)
      (hd : t.done = [.put c t.force]) (hs' : s' = s.access before t .giveBackSlot after)
  | call (h : s.life.Frees lost s'.life) (hu : s.life.inUse ≤ s'.life.inUse)
      (hp : s'.partings = s.partings)

theorem acts_of_staged {t : Parting} (hs : t.IsStaged) (hslot : t.whole.slot = true) :
    ∃ c, t.whole.conn = some c ∧
      t.done ++ t.handle.acts t.force = [.put c t.force, .giveBackSlot] := by
  obtain ⟨c, hc⟩ := Option.isSome_iff_exists.1 hs.conn
  refine ⟨c, hc, ?_⟩
  rw [hs.acts, Handle.acts, hc, hslot]
  rfl

/-- As long as it has its connection it has its slot. -/
theorem conn_le_slot {t : Parting} (hs : t.IsStaged) (hslot : t.whole.slot = true) :
    t.handle.conn.toList.length ≤ t.handle.slot.toNat := by
  obtain ⟨c, -, ha⟩ := acts_of_staged hs hslot
  have hlast := congrArg List.getLast? ha
  rw [Handle.acts] at hlast
  cases hc : t.handle.conn with
  | none => exact Nat.zero_le _
  | some c =>
    cases hh : t.handle.slot with
    | true => exact Nat.le_refl 1
    | false => simp [hc, hh] at hlast

theorem held_seen (s : Parallel) : s.seen.held = s.life.held + s.returning := by
  have hpartings : ((s.partings.map Parting.seen).map Activity.slots).sum = s.returning := by
    unfold returning
    induction s.partings with
    | nil => rfl
    | cons t rest ih =>
      rw [List.map_cons, List.map_cons, List.sum_cons, ih, List.countP_cons, Nat.add_comm]
      show _ + t.handle.slot.toNat = _
      cases t.handle.slot <;> rfl
  rw [Life.held, seen, List.map_append, List.sum_append, hpartings]
  rfl

/-- What callers have and dial is within the slots that are held. -/
theorem ofCallers_le_held (hs : s.Accounts config lost) (hq : config.queues = true) :
    s.seen.ofCallers ≤ s.seen.held := by
  refine List.sum_le_sum fun a ha => ?_
  obtain ha | ha := List.mem_append.1 ha
  · have hle := a.ofCaller_le_need
    rw [hs.need hq a ha]
    omega
  · obtain ⟨t, ht, rfl⟩ := List.mem_map.1 ha
    have hle := conn_le_slot (hs.staged t ht) (hs.slots hq t ht)
    simpa [Parting.seen, Activity.ofCaller, Activity.isUpkeep, Activity.size, Activity.holds,
      Activity.dials, Activity.slots] using hle

theorem admits_of_accounts (hs : s.Accounts config lost) (hq : config.queues = true) :
    ∃ slots, s.Admits config slots := by
  obtain ⟨slots, hslots⟩ := Option.isSome_iff_exists.1 (hs.queues.trans hq)
  have hneed := hs.need hq
  have hcount := hs.count
  have hcallers := ofCallers_le_held hs hq
  have hserves : slots.Serves s.life.queue := by
    have h := hs.serves
    unfold Serves at h
    rwa [hslots] at h
  rw [if_pos hq, held_seen, Life.held_eq hneed, spare, hslots] at hcount
  rw [held_seen, Life.held_eq hneed] at hcallers
  simp only [Option.map_some, Option.getD_some, Slots.spare] at hcount
  refine ⟨slots, hslots, by omega, fun a ha => (hneed a ha).trans a.need_eq, by omega, hserves.perm,
    hserves.busy, fun t ht => acts_of_staged (hs.staged t ht) (hs.slots hq t ht)⟩

theorem Accounts.le_active (hs : s.Accounts config lost) :
    s.life.pool.idle.length + s.life.stock.conns.length + s.life.stock.dials ≤
      s.life.pool.active := by
  have hle := hs.tallied.le_active
  simp only [seen, Life.stock, Life.dials, List.flatMap_append, located_append, List.length_append,
    List.map_append, List.sum_append] at hle ⊢
  omega

theorem Event.frees {more : Nat} {s' : Parallel} (hs : s.Accounts config lost)
    (hq : config.queues = true) (he : s.Event more s')
    (hup : s.life.pool.spare < s'.life.pool.spare) : s.Frees more s' := by
  cases he with
  | keeps h hu => exact .call (h.frees hs.le_active hup) hu rfl
  | quits => exact absurd hup (Nat.lt_irrefl _)
  | @access before after t act rest hpart ha =>
    have ht : t ∈ s.partings := by simp [hpart]
    obtain ⟨c, hc, hacts⟩ := acts_of_staged (hs.staged t ht) (hs.slots hq t ht)
    obtain ⟨c', rfl, hconn⟩ | ⟨rfl, hconn, hslot⟩ := acts_cases ha
    · have heq : (s.access before t (.put c' t.force) after).life.pool.spare = s.life.pool.spare :=
        congrArg (fun slots => (slots.map Slots.spare).getD 0) (slots_put s.life.pool _ c' t.force)
      exact absurd hup (Nat.not_lt_of_le (Nat.le_of_eq heq))
    · have hleft : t.handle.acts t.force = [.giveBackSlot] := by
        rw [Handle.acts, hconn, hslot]
        rfl
      rw [hleft] at hacts
      exact .handle hpart hc (List.append_inj_left' hacts rfl) rfl

/-- Where callers queue, slots are neither lost nor doubled in any state of any run, however calls
and connections end and whatever is abandoned, and though other operations may go on between the two
accesses of a handle that is given up: a slot is free, or its holder is in the queue, looks for a
connection, dials, has a connection or is giving it up, and nobody waits while a slot is free. A
caller that leaves the queue has a slot if it was admitted and none otherwise, a slot that comes
back comes behind the connection of its holder, and whatever was given up once has nothing to give
up again. -/
theorem slots_conserved (h : Attains config lost s) (hwait : config.wait = true)
    (hbound : 0 < config.maxActive) :
    (∃ slots, s.Admits config slots) ∧
    (∀ a ∈ s.life.activities, a.queue ≠ [] →
      (∀ m touch, a.Moves s.life.pool s.life.now m touch →
        m.pool.spare + m.next.slots = s.life.pool.spare) ∧
      ∀ m, a.Abandons s.life.pool s.life.now m → m.pool.spare = s.life.pool.spare) ∧
    (∀ more s', s.Event more s' → s.life.pool.spare < s'.life.pool.spare → s.Frees more s') ∧
    (∀ hd : Handle, .use hd ∈ s.life.activities → hd.conn = none → ∀ force,
      hd.acts force = [] ∧ (hd.release s.life.pool force s.life.now).pool = s.life.pool ∧
        (hd.release s.life.pool force s.life.now).closes = []) := by
  have hq : config.queues = true := by simp [Config.queues, hwait, hbound]
  have hs := h.accounts
  refine ⟨admits_of_accounts hs hq, fun a ha hqueue => ?_, fun more s' he hup => he.frees hs hq hup,
    fun hd hmem hc force => ?_⟩
  · have hzero := Activity.slots_of_queue hqueue
    constructor
    · intro m touch hm
      have hcount := (Activity.lends hm).count fun _ => hzero
      rwa [hzero] at hcount
    · intro m hm
      have hcount := hm.lends.count fun _ => hzero
      rwa [hzero] at hcount
  · have hslot : hd.slot.toNat = hd.need := hs.need hq _ hmem
    have hnone : hd.slot = false := by
      rw [Handle.need, hc] at hslot
      exact Bool.toNat_eq_zero.1 hslot
    simp [Handle.acts, Handle.release_eq, hc, hnone]

/-- The only connection of a pool for one is in use, and its owner has the only slot. -/
theorem leads_in_use (c : Conn) :
    ∃ s : Life, (Life.start "tcp" "10.0.0.1:80" { maxActive := 1, wait := true } 0).Leads s ∧
      s.activities = [] ++ .use ⟨some c, true, none, false⟩ :: [] ∧ s.pool.closed = false ∧
      s.pool.idle = [] := by
  let s : Life := .start "tcp" "10.0.0.1:80" { maxActive := 1, wait := true } 0
  let p : Pool := { s.pool with slots := some ⟨0, [], [], false⟩ }
  let p' : Pool := { p with active := 1 }
  let d : Dial := .start p' 0 none 0
  have ha : Acquire.Moves 0 s.pool 0 .arriving (.quiet p (.popping true)) .nothing := .arrive none
  have hp : Acquire.Moves 0 p 0 (.popping true) (.quiet p (.exhausted true)) .nothing := .pop true
  have hb : Acquire.Moves 0 p 0 (.exhausted true) (.quiet p' (.dialing true d)) .nothing :=
    .beginDial true 0 none none
  have hend : d.Ends 0 (.ok c) := ⟨some (.ok c), none, .connected c, rfl⟩
  have h1 : s.Leads (s.withGet s.pool .arriving) := .single (.get s (Nat.le_refl _))
  have h2 := ((h1.tail (Life.step_withGet ha)).tail (Life.step_withGet hp)).tail
    (Life.step_withGet hb)
  have h3 := h2.tail (.advance (.mk (show _ = [] ++ .get 0 (.dialing true d) :: [] from rfl)
    (.get (.endDial true hend)) fun _ _ => List.not_mem_nil))
  have h4 := h3.tail (.advance (.mk rfl (.handOut 0 _) (List.forall_mem_nil _)))
  exact ⟨_, h4, rfl, rfl, rfl⟩

/-- The connection is idle again, and its slot is not back yet. -/
theorem exists_returning :
    ∃ s, Attains { maxActive := 1, wait := true } 0 s ∧ s.life.pool.idle.length = 1 ∧
      0 < s.returning := by
  let c : Conn := ⟨0, "10.0.0.1:80", none, 0, 0⟩
  let h : Handle := ⟨some c, true, none, false⟩
  obtain ⟨life, hlife, hact, hclosed, hidle⟩ := leads_in_use c
  have hs : Life.Reachable { maxActive := 1, wait := true } life := ⟨_, _, _, hlife⟩
  obtain ⟨partings, ⟨network, address, now, hruns⟩, -⟩ := attains_of_leaky hs.leaky
  let quit : Parallel :=
    ⟨life.proceed [] (.quiet life.pool .over) .nothing [], ⟨h, h, false, []⟩ :: partings⟩
  have hquits : Event ⟨life, partings⟩ 0 quit :=
    .quits hact (.inl ⟨_, .close h⟩) ⟨rfl, Activity.isBare_over, rfl⟩ rfl
  have haccess : quit.Event 0 (quit.access [] ⟨h, h, false, []⟩ (.put c false) partings) :=
    .access rfl rfl
  refine ⟨_, ⟨_, _, _, (hruns.tail hquits).tail haccess⟩, ?_, ?_⟩
  · show (life.pool.put c false life.now).1.idle.length = 1
    simp [put, hclosed, hidle, hs.configured.1]
  · exact List.countP_pos_iff.2 ⟨_, List.mem_cons_self, rfl⟩

/-- Nobody gets the slot as long as it is not back. -/
theorem slots_conserved_returning :
    ∃ s slots, Attains { maxActive := 1, wait := true } 0 s ∧ s.life.pool.idle.length = 1 ∧
      0 < s.returning ∧ s.Admits { maxActive := 1, wait := true } slots ∧ slots.free = 0 := by
  obtain ⟨s, hs, hidle, hreturning⟩ := exists_returning
  obtain ⟨⟨slots, hadmits⟩, -⟩ := slots_conserved hs rfl Nat.one_pos
  have htotal :
      slots.free + slots.granted.length + s.life.seeking + s.life.inUse + s.returning = 1 :=
    hadmits.total
  exact ⟨s, slots, hs, hidle, hreturning, hadmits, by omega⟩

end Parallel

end Courier.Pool

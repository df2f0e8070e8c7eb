import Courier.Proofs.Pool.Acquiring
import Courier.Proofs.Pool.Balance
import Courier.Proofs.Pool.Life

/-!
# Connections are neither lost nor doubled

Every step in the life of a pool is balanced. So in every state each open connection is in one
place, and the count of open connections is what there is to count: the open connections and the
dials in progress.
-/
namespace Courier.Pool

/-! ## Where connections are -/

/-- Where an open connection can be: idle, in the handle of a caller or of an exchange, taken by a
call that checks it or by a sweep, or opened by a top-up that is not over. -/
inductive Place
  | idle
  | checkedOut
  | checking
  | swept
  | preDialed
  deriving DecidableEq

/-- Connections that are all in one place. -/
def Place.all (place : Place) (conns : List Conn) : List (Place × Conn) := conns.map (place, ·)

def Acquire.holds : Acquire → List (Place × Conn)
  | .checking _ c => [(.checking, c)]
  | .served h => Place.checkedOut.all h.conn.toList
  | .arriving | .queued _ | .popping _ | .exhausted _ | .dialing _ _ | .failed _ => []

def Acquire.dials : Acquire → Nat
  | .dialing _ _ => 1
  | .arriving | .queued _ | .popping _ | .checking _ _ | .exhausted _ | .served _ | .failed _ => 0

def PreDial.conns : PreDial → List Conn
  | .ready c => [c]
  | .waiting | .dialing _ | .failed _ => []

def PreDial.dials : PreDial → Nat
  | .dialing _ => 1
  | .waiting | .ready _ | .failed _ => 0

namespace Activity

/-- The connections that an operation has in hand. -/
def holds : Activity → List (Place × Conn)
  | .get _ a | .exchange _ (.acquiring a) => a.holds
  | .use h | .exchange _ (.writing _ h _) | .exchange _ (.reading _ h _) =>
    Place.checkedOut.all h.conn.toList
  | .sweep s => Place.swept.all s.conns
  | .topUp t => Place.preDialed.all t.conns
  | .exchange _ (.finished _) | .over => []

/-- The dials that an operation has in progress. -/
def dials : Activity → Nat
  | .get _ a | .exchange _ (.acquiring a) => a.dials
  | .topUp t => (t.dials.map PreDial.dials).sum
  | .use _ | .exchange _ (.writing _ _ _) | .exchange _ (.reading _ _ _)
  | .exchange _ (.finished _) | .sweep _ | .over => 0

end Activity

/-- The numbers of connections that are somewhere. -/
def located (places : List (Place × Conn)) : List Nat := places.map fun x => x.2.id

namespace Life

/-- All connections that are somewhere. -/
def places (s : Life) : List (Place × Conn) :=
  Place.idle.all s.pool.idle ++ s.activities.flatMap Activity.holds

/-- The dials in progress. -/
def dials (s : Life) : Nat := (s.activities.map Activity.dials).sum

/-- The connections that are open. -/
def opens (s : Life) : List Nat := s.opened.filter (· ∉ s.closed)

/-- The connections that are checked out. -/
def checkedOut (s : Life) : List (Place × Conn) := s.places.filter (·.1 = .checkedOut)

/-- No operation is halfway: no dial is in progress, and what operations have in hand is checked
out. -/
def IsCalm (s : Life) : Prop :=
  s.dials = 0 ∧ ∀ a ∈ s.activities, ∀ x ∈ a.holds, x.1 = .checkedOut

instance (s : Life) : Decidable s.IsCalm := inferInstanceAs (Decidable (_ ∧ _))

end Life

section Lists
variable (conns : List Conn) (place : Place) (x : Place × Conn) (l l' : List (Place × Conn))

@[simp] theorem located_nil : located [] = [] := rfl
@[simp] theorem located_cons : located (x :: l) = x.2.id :: located l := rfl
@[simp] theorem located_append : located (l ++ l') = located l ++ located l' := List.map_append
@[simp] theorem length_located : (located l).length = l.length := List.length_map _
@[simp] theorem located_all : located (place.all conns) = numbers conns := by
  simp [located, Place.all, numbers]
@[simp] theorem length_all : (place.all conns).length = conns.length := List.length_map _

end Lists

/-! ## Steps of operations -/

def Acquire.stock (a : Acquire) : Stock := ⟨located a.holds, a.dials⟩

def PreDial.stock (d : PreDial) : Stock := ⟨numbers d.conns, d.dials⟩

def Activity.stock (a : Activity) : Stock := ⟨located a.holds, a.dials⟩

/-- What a handle has in hand. -/
def Handle.stock (h : Handle) : Stock := ⟨numbers h.conn.toList, 0⟩

section Stock
variable (e : Errand) (ticket : Ticket) (a : Acquire) (h : Handle) (remote : String)
    (w : Frame.Writer)
  (r : Frame.Reader) (result : Except Fault RoundTrip)

@[simp] theorem stock_served : (Acquire.served h).stock = Handle.stock h := by
  simp [Acquire.stock, Acquire.holds, Acquire.dials, Handle.stock]
@[simp] theorem stock_get : (Activity.get ticket a).stock = a.stock := rfl
@[simp] theorem stock_use : (Activity.use h).stock = Handle.stock h := stock_served h
@[simp] theorem stock_over : Activity.over.stock = ⟨[], 0⟩ := rfl
@[simp] theorem stock_writing :
    (Activity.exchange e (.writing remote h w)).stock = Handle.stock h :=
  stock_served h
@[simp] theorem stock_reading :
    (Activity.exchange e (.reading remote h r)).stock = Handle.stock h :=
  stock_served h
@[simp] theorem stock_sweep (s : Sweep) : (Activity.sweep s).stock = ⟨numbers s.conns, 0⟩ := by
  simp [Activity.stock, Activity.holds, Activity.dials]

@[simp] theorem conns_topUp (t : TopUp) : (Activity.topUp t).stock.conns = numbers t.conns := by
  simp [Activity.stock, Activity.holds]

/-- One dial among those of a top-up. -/
theorem stock_topUp (before after : List PreDial) (d : PreDial) :
    (Activity.topUp ⟨before ++ d :: after⟩).stock =
      ⟨numbers (TopUp.conns ⟨before⟩) ++ numbers d.conns ++ numbers (TopUp.conns ⟨after⟩),
        (before.map PreDial.dials).sum + d.dials + (after.map PreDial.dials).sum⟩ := by
  cases d <;>
    simp [Activity.stock, Activity.holds, Activity.dials, TopUp.conns, PreDial.conns, PreDial.dials,
      Nat.add_assoc]

/-- A top-up begins with nothing in hand. -/
theorem stock_topUp_begin (p : Pool) : (Activity.topUp (.begin p)).stock = ⟨[], 0⟩ := by
  unfold TopUp.begin
  split
  · rfl
  · simp [Activity.stock, Activity.holds, Activity.dials, TopUp.conns, PreDial.dials]

/-- A top-up that is over has no dial in progress. -/
theorem stock_topUp_over {t : TopUp} (h : t.isOver = true) :
    (Activity.topUp t).stock = ⟨numbers t.conns, 0⟩ := by
  have hd : (t.dials.map PreDial.dials).sum = 0 := by
    rw [List.sum_eq_zero_iff_forall_eq_nat]
    intro n hn
    obtain ⟨d, hd, rfl⟩ := List.mem_map.1 hn
    have := List.all_eq_true.1 h d hd
    cases d <;> first | rfl | cases this
  simp [Activity.stock, Activity.holds, Activity.dials, hd]

end Stock

theorem Acquire.balanced {ticket : Ticket} {p : Pool} {now : Instant} {a : Acquire}
    {s : Step Acquire} {touch : Touch} (h : a.Moves ticket p now s touch) :
    Balanced p a.stock (numbers touch.opened) s.pool s.next.stock (numbers s.closes) := by
  have outside {a : Acquire} (ha : a.isOutside = true) : a.stock = ⟨[], 0⟩ := by
    cases a <;> first | rfl | cases ha
  cases h.does with
  | passes ha hs =>
    rw [outside ha]
    exact .refl p _
  | enters ha hs hn =>
    rw [outside ha]
    exact .slots p _ _
  | waits t ha hs hn =>
    rw [outside ha]
    exact .slots p _ _
  | leaves ha hs hn hf =>
    rw [outside ha]
    exact .slots p _ _
  | takes slot hp => exact balanced_popIdle hp
  | runsOut slot hi => exact .refl p _
  | keeps slot c counts => exact .refl p _
  | drops slot c counts => exact balanced_drop p c
  | refused slot hd => exact (Balanced.refl p _).slot slot
  | stops slot hd why => exact ((balanced_beginDial hd).trans (balanced_undial _)).slot slot
  | dials slot hd d => exact balanced_beginDial hd
  | connects slot d c => exact balanced_dialed p c
  | fails slot hr => exact (balanced_undial p).slot slot

theorem PreDial.balanced {p : Pool} {now : Instant} {d : PreDial} {s : Step PreDial} {touch : Touch}
    (h : d.Moves p now s touch) :
    Balanced p d.stock (numbers touch.opened) s.pool s.next.stock (numbers s.closes) := by
  cases h with
  | begin attempt =>
    unfold PreDial.begin
    cases hd : p.beginDial with
    | error f => exact .refl p _
    | ok p' => exact balanced_beginDial hd
  | @finish d r hr =>
    cases r with
    | ok c => exact balanced_dialed p c
    | error f => exact balanced_undial p

/-- Giving a connection up leaves nothing in hand. -/
theorem balanced_handle {h : Handle} {p : Pool} {now : Instant} {s : Step Handle}
    (hs : h.Moves p now s) :
    Balanced p ⟨numbers h.conn.toList, 0⟩ [] s.pool ⟨numbers s.next.conn.toList, 0⟩
      (numbers s.closes) := by
  cases hs with
  | setDeadline deadline => exact .refl p _
  | setForceClose forceClose => exact .refl p _
  | io r =>
    cases r with
    | ok _ => exact .refl p _
    | error f => exact balanced_release h p true now
  | discard => exact balanced_release h p true now

theorem stock_of_handle {x : Exchange} {h : Handle} (hx : x.handle? = some h) (e : Errand) :
    (Activity.exchange e x).stock = Handle.stock h := by
  obtain rfl | ⟨remote, w, rfl⟩ | ⟨remote, r, rfl⟩ := Exchange.handle?_cases hx <;>
    exact stock_served h

/-- An exchange gives its connection up in the end. -/
theorem balanced_exchange {e : Errand} {p : Pool} {now : Instant} {x : Exchange} {s : Step Exchange}
    {touch : Touch} (h : x.Moves e p now s touch) :
    Balanced p (Activity.exchange e x).stock (numbers touch.opened) s.pool
      (Activity.exchange e s.next).stock (numbers s.closes) := by
  cases h.does with
  | acquires hx ha hm =>
    rw [hx, hm]
    exact Acquire.balanced ha
  | refused f hx hm ht =>
    rw [hx, hm, ht]
    exact .refl p _
  | keeps hx hy hh hm ht =>
    rw [hm, Step.quiet_next, stock_of_handle hx, stock_of_handle hy, hh, ht]
    exact .refl p _
  | gives force hx hforce hu hm ht =>
    rw [hm, stock_of_handle hx, ht]
    exact balanced_release _ p force now

theorem Activity.balanced {p : Pool} {now : Instant} {a : Activity} {s : Step Activity}
    {touch : Touch} (h : a.Moves p now s touch) :
    Balanced p a.stock (numbers touch.opened) s.pool s.next.stock (numbers s.closes) := by
  cases h with
  | get h => exact Acquire.balanced h
  | handOut ticket h =>
    rw [stock_get, stock_served, Step.quiet_next, stock_use]
    exact .refl p _
  | use hs =>
    rw [stock_use, Step.map_next, stock_use]
    exact balanced_handle hs
  | close h =>
    rw [stock_use]
    exact balanced_release h p h.forceClose now
  | exchange h => exact balanced_exchange h
  | @judge s c rest v hs hv =>
    rw [stock_sweep, stock_sweep]
    exact .reorder p ((conns_judge s v.healthy).map _) 0
  | finishSweep hs =>
    rw [stock_sweep]
    exact balanced_finish _ p hs
  | dial h =>
    rw [Step.map_next, stock_topUp, stock_topUp]
    exact (PreDial.balanced h).frame _ _ _ _
  | finishTopUp ht =>
    rw [stock_topUp_over ht]
    exact balanced_putAll p now _

/-! ## States of a pool -/

namespace Life

/-- What all operations together have in hand. -/
def stock (s : Life) : Stock := ⟨located (s.activities.flatMap Activity.holds), s.dials⟩

/-- What one operation among others has in hand. -/
theorem stock_among {s : Life} {before after : List Activity} {a : Activity}
    (h : s.activities = before ++ a :: after) :
    s.stock = ⟨located (before.flatMap Activity.holds) ++ a.stock.conns ++
        located (after.flatMap Activity.holds),
      (before.map Activity.dials).sum + a.stock.dials + (after.map Activity.dials).sum⟩ := by
  simp [stock, dials, h, Activity.stock, Nat.add_assoc]

/-- An operation begins. -/
theorem stock_begin (s : Life) (pool : Pool) (a : Activity) (tickets : Ticket) :
    stock { s with pool, activities := a :: s.activities, tickets } =
      ⟨a.stock.conns ++ s.stock.conns, s.stock.dials + a.stock.dials⟩ := by
  simp [stock, dials, Activity.stock, Nat.add_comm]

/-- The records of a step: the pool is balanced, what is opened was not there before, and what is
opened and closed is written down. -/
structure Recorded (s s' : Life) (new gone : List Nat) : Prop where
  balanced : Balanced s.pool s.stock new s'.pool s'.stock gone
  opened : s'.opened = s.opened ++ new
  closed : s'.closed = s.closed ++ gone
  nodup : new.Nodup
  fresh : ∀ id ∈ new, id ∉ s.opened

theorem Advance.recorded {s s' : Life} {touch : Touch} (h : s.Advance touch s') :
    ∃ gone, s.Recorded s' (numbers touch.opened) gone := by
  obtain ⟨hs, hm, hf⟩ := h
  refine ⟨_, ?_, rfl, rfl, ?_, ?_⟩
  · rw [stock_among hs, stock_among rfl]
    exact (Activity.balanced hm).frame _ _ _ _
  · cases touch <;> simp [Touch.opened]
  · intro id hid
    obtain ⟨c, hc, rfl⟩ := List.mem_map.1 hid
    exact hf c hc

/-- An operation begins that takes what it has in hand from the idle list. -/
theorem recorded_begin {s : Life} {p : Pool} {a : Activity} (tickets : Ticket)
    (h : Balanced s.pool ⟨[], 0⟩ [] p a.stock []) :
    s.Recorded { s with pool := p, activities := a :: s.activities, tickets } [] [] := by
  refine ⟨?_, by simp, by simp, by simp, by simp⟩
  rw [stock_begin]
  exact h.frame [] s.stock.conns s.stock.dials 0

theorem Tend.recorded {s s' : Life} (h : s.Tend s') : ∃ gone, s.Recorded s' [] gone := by
  cases h with
  | @sweep p w hb =>
    refine ⟨[], recorded_begin s.tickets ?_⟩
    rw [stock_sweep]
    exact balanced_sweep hb
  | topUp =>
    refine ⟨[], recorded_begin s.tickets ?_⟩
    rw [stock_topUp_begin]
    exact .refl _ _
  | close =>
    refine ⟨numbers s.pool.close.2, ?_, by simp, rfl, by simp, by simp⟩
    exact (balanced_close s.pool).frame [] s.stock.conns s.stock.dials 0
  | pass hl => exact ⟨[], .refl _ _, by simp, by simp, by simp, by simp⟩

theorem Step.recorded {s s' : Life} (h : Step s s') : ∃ new gone, s.Recorded s' new gone := by
  cases h with
  | advance h => exact ⟨_, h.recorded⟩
  | tend h => exact ⟨[], h.recorded⟩
  | @get ticket ht => exact ⟨[], [], recorded_begin (ticket + 1) (.refl _ _)⟩
  | @exchange e ht => exact ⟨[], [], recorded_begin (e.ticket + 1) (.refl _ _)⟩

/-- Everything that was opened is somewhere or was closed, nothing is in two places, and the count
is the number of connections that are somewhere and of dials in progress. -/
structure Conserved (s : Life) : Prop where
  perm : (located s.places ++ s.closed).Perm s.opened
  nodup : s.opened.Nodup
  count : s.pool.active = (located s.places).length + s.dials

theorem located_places (s : Life) : located s.places = numbers s.pool.idle ++ s.stock.conns := by
  simp [places, stock]

theorem conserved_start (network address : String) (config : Config) (now : Instant) :
    (start network address config now).Conserved :=
  ⟨.refl _, .nil, rfl⟩

/-- The count changes by as much as the connections and dials do: no lowering of it is cut short. -/
theorem Conserved.exact {s s' : Life} {new gone : List Nat} (hs : s.Conserved)
    (h : s.Recorded s' new gone) :
    s'.pool.active + gone.length + s.dials = s.pool.active + new.length + s'.dials := by
  have hc := hs.count
  rw [located_places, List.length_append, length_numbers] at hc
  exact h.balanced.count (by simp only [stock] at hc ⊢; omega)

/-- If everything that was opened is somewhere or was closed, it is so after connections have come
and gone. -/
theorem perm_opened {s s' : Life} {new gone : List Nat}
    (hs : (located s.places ++ s.closed).Perm s.opened)
    (hp : (numbers s'.pool.idle ++ s'.stock.conns ++ gone).Perm
      (numbers s.pool.idle ++ s.stock.conns ++ new))
    (ho : s'.opened = s.opened ++ new) (hc : s'.closed = s.closed ++ gone) :
    (located s'.places ++ s'.closed).Perm s'.opened := by
  rw [ho, hc, List.perm_iff_count]
  intro id
  have h1 := hs.count_eq id
  have h2 := hp.count_eq id
  simp only [located_places, List.count_append] at h1 h2 ⊢
  omega

theorem nodup_opened {opened new : List Nat} (ho : opened.Nodup) (hn : new.Nodup)
    (hf : ∀ id ∈ new, id ∉ opened) : (opened ++ new).Nodup := by
  refine List.nodup_append.2 ⟨ho, hn, ?_⟩
  rintro id hid _ hid' rfl
  exact hf id hid' hid

theorem Conserved.step {s s' : Life} (hs : s.Conserved) (h : Step s s') : s'.Conserved := by
  obtain ⟨new, gone, h⟩ := h.recorded
  have hp := h.balanced.perm
  refine ⟨perm_opened hs.perm hp h.opened h.closed, ?_, ?_⟩
  · rw [h.opened]
    exact nodup_opened hs.nodup h.nodup h.fresh
  · have he := hs.exact h
    have hc := hs.count
    have hl := hp.length_eq
    simp only [located_places, List.length_append] at hc hl ⊢
    omega

theorem Reachable.conserved {config : Config} {s : Life} (h : Reachable config s) : s.Conserved :=
  h.induct (fun network address now => conserved_start network address config now)
    fun _ _ hs hstep => hs.step hstep

theorem mem_located {activities : List Activity} {a : Activity} (ha : a ∈ activities) {id : Nat}
    (hid : id ∈ a.stock.conns) : id ∈ located (activities.flatMap Activity.holds) := by
  obtain ⟨x, hx, rfl⟩ := List.mem_map.1 hid
  exact List.mem_map_of_mem (List.mem_flatMap_of_mem ha hx)

theorem Conserved.nodup_located {s : Life} (hs : s.Conserved) : (located s.places).Nodup :=
  (List.nodup_append.1 (hs.perm.nodup_iff.2 hs.nodup)).1

/-- What is somewhere was opened. -/
theorem Conserved.mem_opened {s : Life} (hs : s.Conserved) {id : Nat}
    (hid : id ∈ located s.places) : id ∈ s.opened :=
  hs.perm.subset (List.mem_append_left _ hid)

/-- What one operation has in hand is not idle, and no other operation has it. -/
theorem Conserved.apart {s : Life} (hs : s.Conserved) {before after : List Activity} {a : Activity}
    (h : s.activities = before ++ a :: after) {id : Nat} (hid : id ∈ a.stock.conns) :
    id ∉ numbers s.pool.idle ∧ ∀ b ∈ before ++ after, id ∉ b.stock.conns := by
  have hc := List.nodup_iff_count.1 hs.nodup_located id
  rw [located_places, stock_among h] at hc
  simp only [List.count_append] at hc
  have ha := List.count_pos_iff.2 hid
  refine ⟨fun hi => ?_, fun b hb hi => ?_⟩
  · have := List.count_pos_iff.2 hi
    omega
  · obtain hb | hb := List.mem_append.1 hb
    · have := List.count_pos_iff.2 (mem_located hb hi)
      omega
    · have := List.count_pos_iff.2 (mem_located hb hi)
      omega

/-- A pool that has a connection in the hands of an operation counts it. -/
theorem Conserved.active_pos {s : Life} (hs : s.Conserved) {a : Activity} (ha : a ∈ s.activities)
    {id : Nat} (hid : id ∈ a.stock.conns) : 0 < s.pool.active := by
  have hl : id ∈ located s.places := by
    rw [located_places]
    exact List.mem_append_right _ (mem_located ha hid)
  have hpos := List.length_pos_of_mem hl
  have hc := hs.count
  omega

theorem Conserved.leads {s s' : Life} (hs : s.Conserved) (h : s.Leads s') : s'.Conserved := by
  induction h with
  | refl => exact hs
  | tail _ h ih => exact ih.step h

theorem closed_subset {s s' : Life} (h : s.Leads s') : s.closed ⊆ s'.closed := by
  induction h with
  | refl => exact List.Subset.refl _
  | tail _ h ih =>
    obtain ⟨new, gone, hr⟩ := h.recorded
    rw [hr.closed]
    exact fun id hid => List.mem_append_left _ (ih hid)

/-- A connection that was closed is nowhere. -/
theorem not_located_of_perm {s : Life} (hp : (located s.places ++ s.closed).Perm s.opened)
    (hn : s.opened.Nodup) {id : Nat} (hid : id ∈ s.closed) : id ∉ located s.places := by
  intro hl
  have hall : (located s.places ++ s.closed).Nodup := hp.nodup_iff.2 hn
  exact (List.nodup_append.1 hall).2.2 id hl id hid rfl

theorem Conserved.not_located {s : Life} (hs : s.Conserved) {id : Nat} (hid : id ∈ s.closed) :
    id ∉ located s.places :=
  not_located_of_perm hs.perm hs.nodup hid

/-- What is open is what is somewhere. -/
theorem perm_opens_of_perm {s : Life} (hp : (located s.places ++ s.closed).Perm s.opened)
    (hn : s.opened.Nodup) : (located s.places).Perm s.opens := by
  rw [List.perm_iff_count]
  intro id
  have hc := hp.count_eq id
  rw [List.count_append] at hc
  by_cases hid : id ∈ s.closed
  · rw [List.count_eq_zero_of_not_mem (not_located_of_perm hp hn hid), opens,
      List.count_eq_zero_of_not_mem (by simp [hid])]
  · rw [List.count_eq_zero_of_not_mem hid] at hc
    rw [opens, List.count_filter (by simpa using hid)]
    omega

theorem Conserved.perm_opens {s : Life} (hs : s.Conserved) : (located s.places).Perm s.opens :=
  perm_opens_of_perm hs.perm hs.nodup

/-- The configuration is never changed, and no more connections are idle than it allows. -/
theorem Reachable.configured {config : Config} {s : Life} (h : Reachable config s) :
    s.pool.config = config ∧ s.pool.idle.length ≤ config.maxIdle := by
  refine h.induct (motive := fun s => s.pool.config = config ∧ s.pool.idle.length ≤ config.maxIdle)
    (fun network address now => ⟨rfl, Nat.zero_le _⟩) fun s s' hs hstep => ?_
  obtain ⟨new, gone, hr⟩ := hstep.recorded
  have hb := hr.balanced.bounded
  rw [hs.1] at hb
  exact ⟨hr.balanced.config.trans hs.1, hb hs.2⟩

/-- In a calm state whatever is somewhere is idle or checked out. -/
theorem length_places {s : Life} (h : s.IsCalm) :
    s.places.length = s.pool.idle.length + s.checkedOut.length := by
  have hi : (Place.idle.all s.pool.idle).filter (·.1 = .checkedOut) = [] := by
    simp [Place.all, List.filter_map]
  have ho : (s.activities.flatMap Activity.holds).filter (·.1 = .checkedOut) =
      s.activities.flatMap Activity.holds := by
    rw [List.filter_eq_self]
    intro x hx
    obtain ⟨a, ha, hx⟩ := List.mem_flatMap.1 hx
    simpa using h.2 a ha x hx
  rw [checkedOut, places, List.filter_append, hi, ho, List.length_append, length_all,
    List.nil_append]

/-- In every state of a pool each open connection is in exactly one place, and the count is the
number of open connections and of dials in progress. In every step it changes by exactly as many
connections and dials as come and go, so no lowering of it is cut short. If nothing is halfway, it
is the number of idle and of checked-out connections. -/
theorem conservation {config : Config} {s : Life} (h : Reachable config s) :
    (∀ id ∈ s.opens, (located s.places).count id = 1) ∧
    (∀ x ∈ s.places, x.2.id ∈ s.opens) ∧
    s.pool.active = s.opens.length + s.dials ∧
    (∀ s', Step s s' → ∃ new gone, s'.opened = s.opened ++ new ∧ s'.closed = s.closed ++ gone ∧
      s'.pool.active + gone.length + s.dials = s.pool.active + new.length + s'.dials) ∧
    (s.IsCalm → s.pool.active = s.pool.idle.length + s.checkedOut.length) := by
  have hc := h.conserved
  have hp := hc.perm_opens
  refine ⟨fun id hid => ?_, fun x hx => ?_, ?_, fun s' hs => ?_, fun hcalm => ?_⟩
  · have hn : s.opens.Nodup := hc.nodup.filter _
    rw [hp.count_eq, hn.count, if_pos hid]
  · exact hp.subset (List.mem_map_of_mem hx)
  · rw [hc.count, hp.length_eq]
  · obtain ⟨new, gone, hr⟩ := hs.recorded
    exact ⟨new, gone, hr.opened, hr.closed, hc.exact hr⟩
  · rw [hc.count, hcalm.1, length_located, length_places hcalm]
    rfl

/-- A pool whose only connection is checked out. -/
theorem conservation_served :
    ∃ s, Reachable {} s ∧ s.opens = [0] ∧ (located s.places).count 0 = 1 ∧ s.IsCalm ∧
      s.pool.active = s.pool.idle.length + s.checkedOut.length := by
  let c : Conn := ⟨0, "10.0.0.1:80", none, 0, 0⟩
  have hs : Reachable {} ((start "tcp" "10.0.0.1:80" {} 0).served c) :=
    ⟨_, _, _, leads_served rfl rfl rfl rfl List.not_mem_nil⟩
  have hcalm : ((start "tcp" "10.0.0.1:80" {} 0).served c).IsCalm := by decide
  obtain ⟨hone, -, -, -, hcount⟩ := conservation hs
  exact ⟨_, hs, rfl, hone 0 (by decide), hcalm, hcount hcalm⟩

end Life

end Courier.Pool

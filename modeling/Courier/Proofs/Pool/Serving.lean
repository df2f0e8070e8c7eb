import Courier.Proofs.Pool.Counting
import Courier.Proofs.Pool.Losses

/-!
# What a call hands out

A call that has its slot takes the idle connections one after the other, closes those that fail the
fast check, and hands the first one out that passes. Only if none does it dials, once, and whether
the pool lets it dial is decided after all those connections are off the count. Here the call has
the pool for itself; that a connection that failed its check is never seen again holds whatever else
happens.
-/
namespace Courier.Pool

/-- The pool after its first idle connections were closed and the rest were left. -/
def cut (p : Pool) (front rest : List Conn) : Pool :=
  { p with idle := rest, active := p.active - front.length }

/-- The pool without its idle connections. -/
def spent (p : Pool) : Pool := p.cut p.idle []

/-- The pool when a call is over that had a slot or not and failed. -/
def vacated (p : Pool) (slot : Bool) : Pool := if slot then p.giveBackSlot else p

section Cut
variable (p : Pool) (front rest : List Conn) (c : Conn) (slot : Bool)

theorem lower_cut : (p.cut front rest).lower 1 = p.cut (front ++ [c]) rest := by
  simp [cut, lower, Nat.sub_sub]

@[simp] theorem ofConn_cut : Handle.ofConn (p.cut front rest) slot c = .ofConn p slot c := rfl

theorem active_vacated : (p.vacated slot).active = p.active := by cases slot <;> rfl

theorem idle_vacated : (p.vacated slot).idle = p.idle := by cases slot <;> rfl

theorem fail_eq (f : Fault) : Acquire.fail p slot f = .quiet (p.vacated slot) (.failed f) := rfl

theorem beginDial_eq_ok {p p' : Pool} (h : p.beginDial = .ok p') :
    p' = { p with active := p.active + 1 } := by
  unfold beginDial at h
  split at h
  · cases h
  · split at h <;> cases h
    rfl

theorem lower_of_beginDial {p p' : Pool} (h : p.beginDial = .ok p') : p'.lower 1 = p := by
  rw [beginDial_eq_ok h]
  rfl

end Cut

/-! ## A call by itself -/

/-- A call that has its slot and a pool for itself: how far it has come, the connections that it has
closed and opened, and how often it has begun to dial. -/
structure Visit where
  pool : Pool
  call : Acquire
  closed : List Conn
  opened : List Conn
  dials : Nat

namespace Visit

def start (p : Pool) (slot : Bool) : Visit := ⟨p, .popping slot, [], [], 0⟩

/-- Whether the next step of the call begins a dial. -/
def begins (v : Visit) : Nat :=
  match v.call, v.pool.beginDial with
  | .exhausted _, .ok _ => 1
  | _, _ => 0

def proceed (v : Visit) (m : Pool.Step Acquire) (touch : Touch) : Visit :=
  ⟨m.pool, m.next, v.closed ++ m.closes, v.opened ++ touch.opened, v.dials + v.begins⟩

/-- A connection that is checked is given up just if it does not pass. -/
def Heeds (passes : Conn → Bool) (v : Visit) (m : Pool.Step Acquire) : Prop :=
  ∀ slot c, v.call = .checking slot c → (m.next = .popping slot ↔ passes c = false)

/-- The call takes a number of steps, with any time between them. -/
inductive Takes (passes : Conn → Bool) (ticket : Ticket) (v : Visit) : Nat → Visit → Prop
  | refl : Takes passes ticket v 0 v
  | tail {n : Nat} {v' : Visit} {now : Instant} {m : Pool.Step Acquire} {touch : Touch}
      (h : Takes passes ticket v n v') (hm : v'.call.Moves ticket v'.pool now m touch)
      (hp : v'.Heeds passes m) : Takes passes ticket v (n + 1) (v'.proceed m touch)

/-- The call is served or has failed. -/
def IsOver (v : Visit) : Prop := (∃ h, v.call = .served h) ∨ ∃ f, v.call = .failed f

/-- How a call can stand that came to the pool `p` and has taken `n` steps. A dial may have failed
at once or in the end. -/
inductive Stands (passes : Conn → Bool) (p : Pool) (slot : Bool) (n : Nat) : Visit → Prop
  | looking {front rest : List Conn} (hn : n = 2 * front.length) (hi : p.idle = front ++ rest)
      (hf : ∀ c ∈ front, passes c = false) :
      Stands passes p slot n ⟨p.cut front rest, .popping slot, front, [], 0⟩
  | checking {front rest : List Conn} {c : Conn} (hn : n = 2 * front.length + 1)
      (hi : p.idle = front ++ c :: rest) (hf : ∀ c ∈ front, passes c = false) :
      Stands passes p slot n ⟨p.cut front rest, .checking slot c, front, [], 0⟩
  | reused {front rest : List Conn} {c : Conn} (hn : n = 2 * front.length + 2)
      (hi : p.idle = front ++ c :: rest) (hf : ∀ c ∈ front, passes c = false)
      (hc : passes c = true) :
      Stands passes p slot n ⟨p.cut front rest, .served (.ofConn p slot c), front, [], 0⟩
  | exhausted (hn : n = 2 * p.idle.length + 1) (hf : ∀ c ∈ p.idle, passes c = false) :
      Stands passes p slot n ⟨p.spent, .exhausted slot, p.idle, [], 0⟩
  | refused (hn : n = 2 * p.idle.length + 2) (hf : ∀ c ∈ p.idle, passes c = false) {f : Fault}
      (hd : p.spent.beginDial = .error f) :
      Stands passes p slot n ⟨p.spent.vacated slot, .failed f, p.idle, [], 0⟩
  | dialing (hn : n = 2 * p.idle.length + 2) (hf : ∀ c ∈ p.idle, passes c = false) {p' : Pool}
      (hd : p.spent.beginDial = .ok p') (d : Dial) :
      Stands passes p slot n ⟨p', .dialing slot d, p.idle, [], 1⟩
  | connected (hn : n = 2 * p.idle.length + 3) (hf : ∀ c ∈ p.idle, passes c = false) {p' : Pool}
      (hd : p.spent.beginDial = .ok p') (c : Conn) :
      Stands passes p slot n ⟨p', .served (.ofConn p slot c), p.idle, [c], 1⟩
  | failed (hn : n ≤ 2 * p.idle.length + 3) (hf : ∀ c ∈ p.idle, passes c = false) {p' : Pool}
      (hd : p.spent.beginDial = .ok p') {f : Fault} (hne : f ≠ .poolLimit) :
      Stands passes p slot n ⟨p.spent.vacated slot, .failed f, p.idle, [], 1⟩

section Steps
variable {passes : Conn → Bool} {ticket : Ticket} {p : Pool} {slot : Bool} {v : Visit}
    {now : Instant}
  {m : Pool.Step Acquire} {touch : Touch} {n : Nat}

/-- A step that closes and opens nothing. -/
theorem proceed_quiet (v : Visit) (p : Pool) (a : Acquire) :
    v.proceed (.quiet p a) .nothing = ⟨p, a, v.closed, v.opened, v.dials + v.begins⟩ := by
  simp [proceed, Touch.opened]

/-- Behind a connection that failed its check the call looks on. -/
theorem stands_dropped {front rest : List Conn} {c : Conn} (hi : p.idle = front ++ c :: rest)
    (hf : ∀ c ∈ front, passes c = false) (hc : passes c = false) :
    Stands passes p slot (2 * front.length + 1 + 1)
      ⟨(p.cut front rest).lower 1, .popping slot, front ++ [c], [], 0⟩ := by
  rw [lower_cut p front rest c]
  refine .looking ?_ (by simpa using hi) ?_
  · rw [List.length_append, List.length_singleton, Nat.mul_add]
  · exact List.forall_mem_append.2 ⟨hf, List.forall_mem_singleton.2 hc⟩

theorem Stands.step (hv : v.Stands passes p slot n) (hm : v.call.Moves ticket v.pool now m touch)
    (hp : v.Heeds passes m) : (v.proceed m touch).Stands passes p slot (n + 1) := by
  cases hv with
  | @looking front rest hn hi hf =>
    subst hn
    cases hm with
    | pop =>
      cases rest with
      | nil =>
        obtain rfl : front = p.idle := by rw [hi, List.append_nil]
        exact proceed_quiet _ _ _ ▸ .exhausted rfl hf
      | cons c rest => exact proceed_quiet _ _ _ ▸ .checking rfl hi hf
  | @checking front rest c hn hi hf =>
    subst hn
    cases hm with
    | @judge _ _ verdict hjudges =>
      have hnext := hp slot c rfl
      cases hhealthy : verdict.healthy with
      | true =>
        have hc : passes c = true := by
          rw [← Bool.not_eq_false, ← hnext]
          simp [hhealthy, Acquire.judge]
        have hstands : Stands passes p slot _ _ := .reused rfl hi hf hc
        simpa [proceed, Acquire.judge, Touch.opened, begins] using hstands
      | false =>
        have hc : passes c = false := by simp [← hnext, hhealthy, Acquire.judge]
        have hstands : Stands passes p slot _ _ := stands_dropped hi hf hc
        simpa [proceed, Acquire.judge, Touch.opened, begins] using hstands
  | exhausted hn hf =>
    subst hn
    cases hm with
    | beginDial _ attempt done remaining =>
      cases hd : p.spent.beginDial with
      | error f =>
        have hstands : Stands passes p slot _ _ := .refused rfl hf hd
        simpa [proceed, Acquire.beginDial, fail_eq, Touch.opened, begins, hd] using hstands
      | ok p' =>
        cases done with
        | none =>
          have hstands (d : Dial) : Stands passes p slot _ _ := .dialing rfl hf hd d
          simpa [proceed, Acquire.beginDial, Touch.opened, begins, hd] using hstands _
        | some why =>
          have hstands : Stands passes p slot _ _ :=
            .failed (Nat.le_succ _) hf hd (why.ne_poolLimit .dial)
          simpa [proceed, Acquire.beginDial, fail_eq, Touch.opened, begins, hd,
            lower_of_beginDial hd] using hstands
  | @dialing hn hf p' hd d =>
    subst hn
    cases hm with
    | @endDial _ _ r hr =>
      cases r with
      | ok c =>
        have hc : Handle.ofConn p' slot c = .ofConn p slot c := by
          rw [beginDial_eq_ok hd]
          rfl
        have hstands : Stands passes p slot _ _ := .connected rfl hf hd c
        simpa [proceed, Acquire.endDial, Dial.touch, Touch.opened, begins, hc] using hstands
      | error f =>
        have hstands : Stands passes p slot _ _ :=
          .failed (Nat.le_refl _) hf hd (Dial.ne_poolLimit hr)
        simpa [proceed, Acquire.endDial, fail_eq, Dial.touch, Touch.opened, begins,
          lower_of_beginDial hd] using hstands
  | reused | refused | connected | failed => cases hm

theorem Takes.stands (h : (start p slot).Takes passes ticket n v) : v.Stands passes p slot n := by
  induction h with
  | refl => exact @Stands.looking passes p slot 0 [] p.idle rfl rfl (List.forall_mem_nil _)
  | tail _ hm hp ih => exact ih.step hm hp

theorem Stands.le (h : v.Stands passes p slot n) : n ≤ 2 * p.idle.length + 3 := by
  cases h with
  | looking hn hi | checking hn hi | reused hn hi =>
    have hlength := congrArg List.length hi
    simp only [List.length_append, List.length_cons] at hlength
    omega
  | exhausted hn | refused hn | dialing hn | connected hn | failed hn => omega

/-- A call that is not over can go on, whatever the fast check says. -/
theorem Stands.exists_step (h : v.Stands passes p slot n) (ticket : Ticket) (now : Instant) :
    v.IsOver ∨ ∃ m touch, v.call.Moves ticket v.pool now m touch ∧ v.Heeds passes m := by
  have heeds {v : Visit} {m : Pool.Step Acquire} (h : ∀ slot c, v.call ≠ .checking slot c) :
      v.Heeds passes m := fun slot c heq => absurd heq (h slot c)
  cases h with
  | looking => exact .inr ⟨_, _, .pop slot, heeds (by simp)⟩
  | @checking front rest c =>
    let probe : Probe := if passes c then .healthy else .ended
    refine .inr ⟨_, _, .judge slot c (.inr ⟨probe, rfl⟩), fun slot' c' heq => ?_⟩
    cases heq
    cases hc : passes c <;> simp [probe, hc, builtInCheck, Acquire.judge]
  | exhausted => exact .inr ⟨_, _, .beginDial slot 0 none none, heeds (by simp)⟩
  | dialing _ _ _ d =>
    let c : Conn := ⟨0, d.address, none, now, now⟩
    exact .inr ⟨_, _, .endDial slot ⟨some (.ok c), none, .connected c, rfl⟩, heeds (by simp)⟩
  | reused | connected => exact .inl (.inl ⟨_, rfl⟩)
  | refused | failed => exact .inl (.inr ⟨_, rfl⟩)

/-- Sooner or later a call is over. -/
theorem exists_over (passes : Conn → Bool) (ticket : Ticket) (p : Pool) (slot : Bool)
    (now : Instant) : ∃ n v, (start p slot).Takes passes ticket n v ∧ v.IsOver := by
  by_contra hnone
  push Not at hnone
  have long (n : Nat) : ∃ v, (start p slot).Takes passes ticket n v := by
    induction n with
    | zero => exact ⟨_, .refl⟩
    | succ n ih =>
      obtain ⟨v, hv⟩ := ih
      obtain ⟨m, touch, hm, hp⟩ := (hv.stands.exists_step ticket now).resolve_left (hnone n v hv)
      exact ⟨_, hv.tail hm hp⟩
  obtain ⟨v, hv⟩ := long (2 * p.idle.length + 4)
  have hle := hv.stands.le
  omega

/-! ## The end of a call -/

/-- Only one connection is the first that passes. -/
theorem first_unique {front front' rest rest' : List Conn} {c c' : Conn}
    (hi : front ++ c :: rest = front' ++ c' :: rest') (hf : ∀ x ∈ front, passes x = false)
    (hc : passes c = true) (hf' : ∀ x ∈ front', passes x = false) (hc' : passes c' = true) :
    front = front' ∧ c = c' ∧ rest = rest' := by
  have hfront {front rest : List Conn} {c : Conn} (hf : ∀ x ∈ front, passes x = false)
      (hc : passes c = true) : (front ++ c :: rest).takeWhile (!passes ·) = front := by
    rw [List.takeWhile_append_of_pos (by simpa using hf),
      List.takeWhile_cons_of_neg (by simpa using hc), List.append_nil]
  obtain rfl : front = front' := by rw [← hfront hf hc, hi, hfront hf' hc']
  obtain ⟨rfl, rfl⟩ := List.cons.inj (List.append_cancel_left hi)
  exact ⟨rfl, rfl, rfl⟩

theorem Stands.reuses (h : v.Stands passes p slot n) (ho : v.IsOver) {front rest : List Conn}
    {c : Conn} (hi : p.idle = front ++ c :: rest) (hf : ∀ x ∈ front, passes x = false)
    (hc : passes c = true) : v = ⟨p.cut front rest, .served (.ofConn p slot c), front, [], 0⟩ := by
  have hidle (hnone : ∀ x ∈ p.idle, passes x = false) : False := by
    have hpass := hnone c (by simp [hi])
    exact Bool.false_ne_true (hpass.symm.trans hc)
  cases h with
  | looking | checking => obtain ⟨h, ho⟩ | ⟨f, ho⟩ := ho <;> cases ho
  | reused hn hi' hf' hc' =>
    obtain ⟨rfl, rfl, rfl⟩ := first_unique (hi.symm.trans hi') hf hc hf' hc'
    rfl
  | exhausted _ hnone | refused _ hnone | dialing _ hnone | connected _ hnone | failed _ hnone =>
    exact (hidle hnone).elim

/-- A call that finds nothing to hand out has closed all that was idle, and is told what the pool
says then. -/
theorem Stands.spends (h : v.Stands passes p slot n) (ho : v.IsOver)
    (hnone : ∀ c ∈ p.idle, passes c = false) :
    (∃ f, p.spent.beginDial = .error f ∧ v = ⟨p.spent.vacated slot, .failed f, p.idle, [], 0⟩) ∨
    ∃ p', p.spent.beginDial = .ok p' ∧
      ((∃ c, v = ⟨p', .served (.ofConn p slot c), p.idle, [c], 1⟩) ∨
        ∃ f, f ≠ .poolLimit ∧ v = ⟨p.spent.vacated slot, .failed f, p.idle, [], 1⟩) := by
  cases h with
  | looking | checking | exhausted | dialing => obtain ⟨h, ho⟩ | ⟨f, ho⟩ := ho <;> cases ho
  | @reused front rest c _ hi _ hc =>
    have hpass := hnone c (by simp [hi])
    exact absurd (hpass.symm.trans hc) Bool.false_ne_true
  | refused _ _ hd => exact .inl ⟨_, hd, rfl⟩
  | connected _ _ hd c => exact .inr ⟨_, hd, .inl ⟨c, rfl⟩⟩
  | failed _ _ hd hne => exact .inr ⟨_, hd, .inr ⟨_, hne, rfl⟩⟩

end Steps

/-- What becomes of a call that was admitted to a pool, whatever the fast check and the dial come
to. The first idle connection that passes is handed out; those in front of it are closed, and those
behind it stay as they are. If none passes, all are closed, and the call is told if the pool is full
even then, or closed. Otherwise it dials once: the new connection is handed out and counted, and a
dial that fails leaves the count as it was before and never says that the pool is full. A call that
fails leaves what is left when all are closed. The call is over after so many steps at the latest,
and not stuck before. -/
structure Serves (passes : Conn → Bool) (ticket : Ticket) (p : Pool) (slot : Bool) : Prop where
  reuses : ∀ front c rest, p.idle = front ++ c :: rest → (∀ x ∈ front, passes x = false) →
    passes c = true → ∀ n v, (start p slot).Takes passes ticket n v → v.IsOver →
      v = ⟨{ p with idle := rest, active := p.active - front.length },
        .served (.ofConn p slot c), front, [], 0⟩
  full : (∀ c ∈ p.idle, passes c = false) → p.spent.config.refuses = true →
    p.spent.config.maxActive ≤ p.spent.active →
    ∀ n v, (start p slot).Takes passes ticket n v → v.IsOver →
      v = ⟨p.spent.vacated slot, .failed .poolLimit, p.idle, [], 0⟩
  shut : (∀ c ∈ p.idle, passes c = false) →
    ¬(p.spent.config.refuses = true ∧ p.spent.config.maxActive ≤ p.spent.active) → p.closed = true →
    ∀ n v, (start p slot).Takes passes ticket n v → v.IsOver →
      v = ⟨p.spent.vacated slot, .failed .poolClosed, p.idle, [], 0⟩
  dials : (∀ c ∈ p.idle, passes c = false) →
    ¬(p.spent.config.refuses = true ∧ p.spent.config.maxActive ≤ p.spent.active) →
    p.closed = false →
    ∀ n v, (start p slot).Takes passes ticket n v → v.IsOver →
      (∃ c, v = ⟨{ p.spent with active := p.spent.active + 1 },
        .served (.ofConn p slot c), p.idle, [c], 1⟩) ∨
      ∃ f, f ≠ .poolLimit ∧ v = ⟨p.spent.vacated slot, .failed f, p.idle, [], 1⟩
  vacated : (p.spent.vacated slot).idle = [] ∧
    (p.spent.vacated slot).active = p.active - p.idle.length
  bounded : ∀ n v, (start p slot).Takes passes ticket n v → n ≤ 2 * p.idle.length + 3
  goesOn : ∀ n v, (start p slot).Takes passes ticket n v →
    v.IsOver ∨ ∃ v', (start p slot).Takes passes ticket (n + 1) v'

theorem beginDial_spent {p : Pool}
    (hfull : ¬(p.spent.config.refuses = true ∧ p.spent.config.maxActive ≤ p.spent.active)) :
    p.spent.beginDial =
      if p.closed then .error .poolClosed
      else .ok { p.spent with active := p.spent.active + 1 } := by
  rw [beginDial, if_neg hfull]
  rfl

theorem serves (passes : Conn → Bool) (ticket : Ticket) (p : Pool) (slot : Bool) :
    Serves passes ticket p slot where
  reuses _ _ _ hi hf hc _ _ h ho := h.stands.reuses ho hi hf hc
  full hnone hr hle n v h ho := by
    have hfull : p.spent.beginDial = .error .poolLimit := beginDial_eq_poolLimit.2 ⟨hr, hle⟩
    obtain ⟨f, hd, hv⟩ | ⟨p', hd, -⟩ := h.stands.spends ho hnone
    · rw [hfull] at hd
      cases hd
      exact hv
    · exact nomatch hfull.symm.trans hd
  shut hnone hfull hclosed n v h ho := by
    have hshut := beginDial_spent hfull
    rw [hclosed] at hshut
    obtain ⟨f, hd, hv⟩ | ⟨p', hd, -⟩ := h.stands.spends ho hnone
    · cases hd.symm.trans hshut
      exact hv
    · exact nomatch hshut.symm.trans hd
  dials hnone hfull hclosed n v h ho := by
    have hopen := beginDial_spent hfull
    rw [hclosed] at hopen
    obtain ⟨f, hd, -⟩ | ⟨p', hd, hv⟩ := h.stands.spends ho hnone
    · exact nomatch hopen.symm.trans hd
    · cases hd.symm.trans hopen
      exact hv
  vacated := ⟨idle_vacated _ _, active_vacated _ _⟩
  bounded _ _ h := h.stands.le
  goesOn _ _ h := (h.stands.exists_step ticket 0).imp_right fun ⟨_, _, hm, hp⟩ => ⟨_, h.tail hm hp⟩

end Visit

/-! ## Among other operations -/

namespace Life
variable {config : Config} {lost more : Nat} {s s' : Life}

theorem Runs.closed_subset (h : s.Runs lost s') : s.closed ⊆ s'.closed := by
  induction h with
  | refl => exact List.Subset.refl _
  | tail _ he ih =>
    obtain ⟨new, gone, hspent⟩ := he.spent
    rw [hspent.shifted.closed]
    exact fun id hid => List.mem_append_left _ (ih hid)

/-- The connection is closed, and whatever happens and is abandoned, it is never idle again and
nobody ever has it. -/
def Buried (s : Life) (id : Nat) : Prop :=
  id ∈ s.closed ∧ ∀ more s', s.Runs more s' → id ∉ located s'.places

theorem Leaky.buried (h : Leaky config lost s) {id : Nat} (hid : id ∈ s.closed) : s.Buried id := by
  refine ⟨hid, fun more s' hr => ?_⟩
  have hs' := (h.runs hr).tallied
  exact not_located_of_perm hs'.perm hs'.nodup (hr.closed_subset hid)

/-- A call closes the connection that failed its check, and looks on. -/
theorem buried_of_judged (h : Leaky config lost s) {before after : List Activity} {ticket : Ticket}
    {wants : Acquire → Activity} {slot : Bool} {c : Conn} {m : Pool.Step Acquire} {touch : Touch}
    (hw : Activity.Wants ticket wants)
    (hs : s.activities = before ++ wants (.checking slot c) :: after)
    (hm : Acquire.Moves ticket s.pool s.now (.checking slot c) m touch)
    (hnext : m.next = .popping slot) :
    (s.proceed before (m.map wants) touch after).Buried c.id := by
  cases hm with
  | @judge _ _ v hv =>
    have hstep : Step s (s.proceed before _ _ after) :=
      .advance (.mk hs (hw.moves (.judge slot c hv)) (List.forall_mem_nil _))
    refine (h.runs (.single (.step hstep))).buried ?_
    have hunhealthy : v.healthy = false := by
      rw [← Bool.not_eq_true]
      intro hhealthy
      simp [Acquire.judge, hhealthy] at hnext
    simp [proceed, Acquire.judge, hunhealthy]

end Life

/-- A call that was admitted hands out the first idle connection that passes the fast check, with
all in front of it closed; if none passes, it dials once where the pool without them lets it. No
lowering of the count is cut short by that, and a connection that failed its check is gone for
good. -/
theorem get_hands_out (passes : Conn → Bool) (ticket : Ticket) (p : Pool) (slot : Bool) :
    Visit.Serves passes ticket p slot ∧
    (∀ config lost s, Life.Leaky config lost s → s.pool = p → p.idle.length ≤ p.active) ∧
    ∀ config lost s, Life.Leaky config lost s → s.pool = p →
      ∀ before wants c after m touch, Activity.Wants ticket wants →
        s.activities = before ++ wants (.checking slot c) :: after →
        Acquire.Moves ticket s.pool s.now (.checking slot c) m touch → m.next = .popping slot →
        (s.proceed before (m.map wants) touch after).Buried c.id := by
  refine ⟨Visit.serves passes ticket p slot, ?_, ?_⟩
  · rintro config lost s h rfl
    have hle := h.tallied.le_active
    omega
  · rintro config lost s h rfl before wants c after m touch hw hs hm hnext
    exact Life.buried_of_judged h hw hs hm hnext

/-- The peer has closed the first of three connections. A pool for one connection whose only one was
closed by its peer is not full. -/
theorem get_hands_out_second :
    let conn (id : Nat) : Conn := ⟨id, "10.0.0.1:80", none, 0, 0⟩
    let p : Pool :=
      { new "tcp" "10.0.0.1:80" {} with idle := [conn 2, conn 1, conn 0], active := 3 }
    let q : Pool :=
      { new "tcp" "10.0.0.1:80" { maxActive := 1 } with idle := [conn 0], active := 1 }
    (∃ n v, (Visit.start p false).Takes (·.id != 2) 0 n v ∧
      v = ⟨{ p with idle := [conn 0], active := 2 },
        .served (.ofConn p false (conn 1)), [conn 2], [], 0⟩) ∧
    ∃ n v, (Visit.start q false).Takes (fun _ => false) 0 n v ∧ v.IsOver ∧ v.closed = [conn 0] ∧
      v.dials = 1 := by
  intro conn p q
  constructor
  · obtain ⟨n, v, h, ho⟩ := Visit.exists_over (·.id != 2) 0 p false 0
    obtain ⟨hserves, -⟩ := get_hands_out (·.id != 2) 0 p false
    exact ⟨n, v, h, hserves.reuses [conn 2] (conn 1) [conn 0] rfl (by decide) rfl n v h ho⟩
  · obtain ⟨n, v, h, ho⟩ := Visit.exists_over (fun _ => false) 0 q false 0
    obtain ⟨hserves, -⟩ := get_hands_out (fun _ => false) 0 q false
    refine ⟨n, v, h, ho, ?_⟩
    obtain ⟨c, hv⟩ | ⟨f, -, hv⟩ := hserves.dials (fun _ _ => rfl) (by decide) rfl n v h ho
    · rw [hv]
      exact ⟨rfl, rfl⟩
    · rw [hv]
      exact ⟨rfl, rfl⟩

end Courier.Pool

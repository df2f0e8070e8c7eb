import Courier.Proofs.Call.Ledger
import Courier.Proofs.Exchange.Watched

/-!
# Exchanges whose context is done

An exchange whose context is done begins nothing: it does not queue, dial, write or read, though
what is under way may come to its own end. It fails with the context where it looks at it, which is
before everything that takes time and again when that is over.
-/
namespace Courier
open Pool (Acquire Dial Step)

/-- A fault of a context or a deadline that has come at a stage. -/
def Fault.IsLate (stage : Stage) (f : Fault) : Prop :=
  (f.kind = .timeout ∨ f.kind = .canceled) ∧ f.stage? = some stage

theorem Done.isLate_fault (why : Done) (stage : Stage) : (why.fault stage).IsLate stage := by
  cases why with
  | canceled => exact ⟨.inr rfl, rfl⟩
  | deadlineExceeded => exact ⟨.inl rfl, rfl⟩

/-! ## Pursuits -/

/-- What takes time and is done under a context. -/
inductive Pursuit
  | selection
  | admission
  | dial
  | write
  | read

def Pursuit.stage : Pursuit → Stage
  | .selection => .select
  | .admission | .dial => .dial
  | .write => .write
  | .read => .read

def Pool.Acquire.pursuit? : Acquire → Option Pursuit
  | .queued _ => some .admission
  | .dialing _ _ => some .dial
  | .arriving | .popping _ | .checking _ _ | .exhausted _ | .served _ | .failed _ => none

def Exchange.pursuit? : Exchange → Option Pursuit
  | .acquiring a => a.pursuit?
  | .writing _ _ _ => some .write
  | .reading _ _ _ => some .read
  | .finished _ => none

theorem Exchange.pursuit?_of_isWriting {x : Exchange} (h : x.isWriting = true) :
    x.pursuit? = some .write := by
  cases x with
  | writing remote h w => rfl
  | acquiring | reading | finished => cases h

/-! ## Getting a connection -/

theorem Pool.Dial.kind_of_mapError {α : Type} {r : Option (Except String α)} {say : String → String}
    {f : Fault}
    (h : r.map (fun r => r.mapError fun why => Fault.dial (say why)) = some (.error f)) :
    f.kind = .dialFailure := by
  obtain ⟨r, -, hr⟩ := Option.map_eq_some_iff.1 h
  cases r with
  | error why =>
    cases hr
    rfl
  | ok a => cases hr

theorem Pool.Dial.kind_of_connect {α : Type} {d : Dial} {reach : Reach α} {f : Fault}
    (h : d.connect reach = some (.error f)) : f.kind = .dialFailure := by
  unfold connect at h
  split at h
  · split at h
    · cases h
      rfl
    · exact kind_of_mapError h
  · split at h
    · exact kind_of_mapError h
    · cases h
      rfl

/-- A dial fails by itself, or because its time is up. -/
theorem Pool.Dial.late_or_failed {d : Dial} {reached : Option (Except Fault Conn)}
    {done : Option Done} {now : Instant} {f : Fault} (hs : d.Stands reached)
    (hr : d.poll reached done now = some (.error f)) : f.IsLate .dial ∨ f.kind = .dialFailure := by
  cases hs with
  | connected c => cases hr
  | failed reach hc =>
    cases hr
    exact .inr (kind_of_connect hc)
  | underWay =>
    unfold poll at hr
    dsimp only at hr
    split at hr
    · cases hr
      exact .inl ⟨.inl rfl, rfl⟩
    · obtain ⟨why, -, hf⟩ := Option.map_eq_some_iff.1 hr
      cases hf
      exact .inl (why.isLate_fault .dial)

/-- No dial ends as if the pool were full. -/
theorem Pool.Dial.ne_poolLimit {d : Dial} {now : Instant} {f : Fault} (h : d.Ends now (.error f)) :
    f ≠ .poolLimit := by
  obtain ⟨reached, done, hs, hr⟩ := h
  rintro rfl
  obtain ⟨hkind | hkind, -⟩ | hkind := late_or_failed hs hr <;> cases hkind

/-- A dial can be ended by a context that is done. -/
theorem Pool.Dial.exists_poll (d : Dial) (why : Done) (now : Instant) :
    ∃ f, d.poll (none : Option (Except Fault Conn)) (some why) now = some (.error f) ∧
    f.IsLate .dial := by
  unfold poll
  dsimp only
  split
  next => exact ⟨_, rfl, .inl rfl, rfl⟩
  next => exact ⟨_, rfl, why.isLate_fault .dial⟩

namespace Pool.Acquire
variable {c : Context} {ticket : Ticket} {p : Pool} {m : Moment} {s : Step Acquire} {touch : Touch}
    {why : Done}

/-- Who has no slot yet gets one, or fails with the context or because the pool is closed. -/
theorem late_of_outside {a : Acquire} (h : a.MovesUnder c ticket p m s touch)
    (hd : c.doneAt m = some why) (ha : a.isOutside = true) : s.next = .failed (why.fault .dial) ∨
    s.next = .failed .poolClosed ∨
      ∃ slot, s.next = .popping slot := by
  cases h with
  | arrive =>
    rw [hd, Acquire.arrive]
    split
    · exact .inr (.inr ⟨false, rfl⟩)
    · exact .inl rfl
  | resume t =>
    rw [hd, Acquire.resume]
    split
    · exact .inr (.inr ⟨false, rfl⟩)
    · split
      · exact .inr (.inr ⟨true, rfl⟩)
      · exact .inr (.inl rfl)
      · exact .inl rfl
  | pop | judge | beginDial | endDial => cases ha

/-- Who would dial fails with the context, or is refused by the pool. -/
theorem late_of_exhausted {slot : Bool} (h : (exhausted slot).MovesUnder c ticket p m s touch)
    (hd : c.doneAt m = some why) : s.next = .failed (why.fault .dial) ∨
    s.next = .failed .poolLimit ∨
      s.next = .failed .poolClosed := by
  cases h with
  | beginDial slot attempt =>
    rw [hd, Acquire.beginDial, Pool.beginDial]
    split
    next hrefused =>
      split at hrefused
      · cases hrefused
        exact .inr (.inl rfl)
      · split at hrefused
        · cases hrefused
          exact .inr (.inr rfl)
        · cases hrefused
    next => exact .inl rfl

/-- A dial comes to its own end, or its time is up. -/
theorem late_of_dialing {slot : Bool} {d : Dial}
    (h : (dialing slot d).MovesUnder c ticket p m s touch) : (∃ handle, s.next = .served handle) ∨
      ∃ f, s.next = .failed f ∧ (f.IsLate .dial ∨ f.kind = .dialFailure) := by
  cases h with
  | @endDial _ _ reached r hs hr =>
    cases r with
    | ok conn => exact .inl ⟨_, rfl⟩
    | error f => exact .inr ⟨f, rfl, Dial.late_or_failed hs hr⟩

/-- A context that is done can end all that is under way. Who waits for a slot can find one then, or
the pool closed. -/
theorem exists_ends {a : Acquire} {u : Pursuit} (ticket : Ticket) (p : Pool)
    (hd : c.doneAt m = some why) (hu : a.pursuit? = some u) :
    ∃ s, a.MovesUnder c ticket p m s .nothing ∧
      ((∃ f, s.next = .failed f ∧ f.IsLate u.stage) ∨
        u = .admission ∧ (s.next = .failed .poolClosed ∨ ∃ slot, s.next = .popping slot)) := by
  cases a with
  | queued t =>
    cases hu
    have hm : (queued t).MovesUnder c ticket p m _ _ := .resume t
    refine ⟨_, hm, ?_⟩
    obtain hnext | hrest := late_of_outside hm hd rfl
    · exact .inl ⟨_, hnext, why.isLate_fault .dial⟩
    · exact .inr ⟨rfl, hrest⟩
  | dialing slot d =>
    cases hu
    obtain ⟨f, hpoll, hlate⟩ := d.exists_poll why m.now
    rw [← hd] at hpoll
    exact ⟨_, .endDial slot .underWay hpoll, .inl ⟨f, rfl, hlate⟩⟩
  | arriving | popping | checking | exhausted | served | failed => cases hu

/-- Under a context that is done nobody begins to queue or to dial. -/
theorem pursuit?_of_done {a : Acquire} (h : a.MovesUnder c ticket p m s touch)
    (hd : c.doneAt m = some why) : s.next.pursuit? = none := by
  match a with
  | .arriving | .queued _ =>
    obtain hnext | hnext | ⟨slot, hnext⟩ := late_of_outside h hd rfl <;> rw [hnext] <;> rfl
  | .exhausted _ => obtain hnext | hnext | hnext := late_of_exhausted h hd <;> rw [hnext] <;> rfl
  | .dialing _ _ => obtain ⟨_, hnext⟩ | ⟨_, hnext, -⟩ := late_of_dialing h <;> rw [hnext] <;> rfl
  | .popping _ =>
    cases h with
    | pop slot =>
      unfold Acquire.pop
      split <;> rfl
  | .checking _ _ =>
    cases h with
    | judge slot conn hv =>
      dsimp only
      unfold Acquire.judge
      split <;> rfl
  | .served _ | .failed _ => cases h

/-- A connection is opened in a dial. -/
theorem pursuit?_of_opens {a : Acquire} (h : a.MovesUnder c ticket p m s touch) :
    (∃ conn, touch = .opens conn ∧ a.pursuit? = some .dial) ∨ touch = .nothing ∨
      ∃ conn, touch = .checks conn := by
  cases h with
  | judge slot conn hv => exact .inr (.inr ⟨conn, rfl⟩)
  | @endDial slot d reached r hs hr =>
    cases r with
    | error f => exact .inr (.inl rfl)
    | ok conn => exact .inl ⟨conn, rfl, rfl⟩
  | _ => exact .inr (.inl rfl)

end Pool.Acquire

/-! ## Exchanges -/

/-- A head that is refused cannot be decoded. -/
theorem Frame.Reader.kind_of_feed {r : Reader} {piece left : ByteArray} {f : Fault}
    (h : r.feed piece = (.fault f, left)) : f.kind = .decodeFailure := by
  have hrest {r : Reader} {piece left : ByteArray} : r.feedRest piece ≠ (.fault f, left) := by
    unfold feedRest
    dsimp only
    split <;> exact nofun
  unfold feed at h
  dsimp only at h
  split at h
  · split at h
    · cases h
    · split at h
      next hc =>
        cases h
        unfold checkLength at hc
        split at hc
        · cases hc
          rfl
        · split at hc
          · cases hc
            rfl
          · cases hc
      next => exact absurd h hrest
  · exact absurd h hrest

/-- A write or a read can be ended by a context that is done. -/
theorem Exchange.exists_await {α : Type} (h : Handle) (stage : Stage) (why : Done) (now : Instant) :
    ∃ f, await (α := α) h stage none (some why) now = some (.error f) ∧ f.IsLate stage := by
  unfold await Handle.await
  dsimp only
  split
  next hr =>
    split at hr
    · cases hr
      exact ⟨_, rfl, .inl rfl, rfl⟩
    · cases hr
  next => exact ⟨_, rfl, why.isLate_fault stage⟩

theorem Exchange.stage?_read {h : Handle} {io : Option (Except Fault ByteArray)}
    {done : Option Done} {now : Instant} {f : Fault} (hc : h.conn.isSome) (hio : h.Stalls io)
    (hr : await h .read io done now = some (.error f)) : f.stage? = some .read := by
  cases hio with
  | underWay => exact stage?_await hr
  | failed e =>
    cases hr
    exact Fault.stage?_ofIo e .read _
  | unconnected hn => simp [hn] at hc

namespace Exchange
variable {c : Context} {e : Errand} {p : Pool} {m : Moment} {x : Exchange} {s : Step Exchange}
    {touch : Touch}
  {why : Done}

/-- A write that has ended under a context that is done is not followed by a read. -/
theorem wrote_of_done (p : Pool) (remote : String) (h : Handle) (r : Except Fault Unit) (why : Done)
    (now : Instant) : ∃ f, (r = .error f ∨ f = why.fault .read) ∧
      wrote p remote h r (some why) now = spoil p h f now := by
  cases r with
  | error f => exact ⟨f, .inl rfl, rfl⟩
  | ok u => exact ⟨_, .inr rfl, rfl⟩

/-- Under a context that is done an exchange begins nothing. -/
theorem begins_nothing (h : x.MovesUnder c e p m s touch) (hd : c.doneAt m = some why) {u : Pursuit}
    (hu : s.next.pursuit? = some u) : x.pursuit? = some u := by
  cases h with
  | acquire h => cases (Pool.Acquire.pursuit?_of_done h hd).symm.trans hu
  | refuse f => cases hu
  | acquired h =>
    rw [hd] at hu
    cases hu
  | send => exact hu
  | @wrote h w io r remote hio hr =>
    rw [hd] at hu
    obtain ⟨f, -, hspoilt⟩ := wrote_of_done p remote h r why m.now
    rw [hspoilt] at hu
    cases hu
  | take => exact hu
  | receive => cases hu
  | reject => cases hu
  | stall => cases hu

/-- The exchange has failed with this, or is about to. -/
def FailsWith (f : Fault) : Exchange → Prop
  | .acquiring a => a = .failed f
  | .finished result => result = .error f
  | .writing _ _ _ | .reading _ _ _ => False

theorem FailsWith.step {f : Fault} (hx : x.FailsWith f) (h : x.MovesUnder c e p m s touch) :
    s.next.FailsWith f := by
  cases h with
  | acquire h =>
    obtain rfl : _ = Acquire.failed f := hx
    cases h
  | refuse g =>
    cases hx
    rfl
  | acquired h => cases hx
  | send | wrote | take | receive | reject | stall => cases hx

/-- A context that is done can end all that is under way, but who waits for a slot can get on. -/
theorem exists_ends {u : Pursuit} (p : Pool) (hd : c.doneAt m = some why)
    (hu : x.pursuit? = some u) :
    ∃ s, x.MovesUnder c e p m s .nothing ∧ ((∃ f, s.next.FailsWith f ∧ f.IsLate u.stage) ∨
      u = .admission ∧
      (s.next.FailsWith .poolClosed ∨ ∃ slot, s.next = .acquiring (.popping slot))) := by
  cases x with
  | acquiring a =>
    obtain ⟨s, hm, ⟨f, hnext, hlate⟩ | ⟨hadmission, hnext⟩⟩ :=
      Pool.Acquire.exists_ends e.ticket p hd hu
    · exact ⟨_, .acquire hm, .inl ⟨f, hnext, hlate⟩⟩
    · refine ⟨_, .acquire hm, .inr ⟨hadmission, hnext.imp_right ?_⟩⟩
      rintro ⟨slot, hnext⟩
      exact ⟨slot, congrArg acquiring hnext⟩
  | writing remote h w =>
    cases hu
    obtain ⟨f, hawait, hlate⟩ := exists_await h .write why m.now
    rw [← hd] at hawait
    exact ⟨_, .wrote remote .underWay hawait, .inl ⟨f, rfl, hlate⟩⟩
  | reading remote h r =>
    cases hu
    obtain ⟨f, hawait, hlate⟩ := exists_await h .read why m.now
    rw [← hd] at hawait
    exact ⟨_, .stall remote .underWay hawait, .inl ⟨f, rfl, hlate⟩⟩
  | finished r => cases hu

/-- A call that is served when its context is done gives its handle up. -/
theorem late_of_served {h : Handle} (hm : (acquiring (.served h)).MovesUnder c e p m s touch)
    (hd : c.doneAt m = some why) :
    touch = .nothing ∧ s.next = .finished (.error (why.fault .dial)) ∧
      ∃ deadline, s = { (({ h with deadline } : Handle).close p m.now) with next := s.next } := by
  cases hm with
  | acquire h => cases h
  | acquired h =>
    rw [hd]
    exact ⟨rfl, rfl, _, rfl⟩

/-- A write goes on, or it is over and nothing follows. -/
theorem late_of_writing {remote : String} {h : Handle} {w : Frame.Writer}
    (hm : (writing remote h w).MovesUnder c e p m s touch) (hd : c.doneAt m = some why)
    (hc : h.conn.isSome) : (∃ w', s.next = .writing remote h w') ∨
      ∃ f, s.next = .finished (.error f) ∧ (f.stage? = some .write ∨ f = why.fault .read) := by
  cases hm with
  | send => exact .inl ⟨_, rfl⟩
  | @wrote h w io r remote hio hr =>
    rw [hd] at hr ⊢
    obtain ⟨f, hf, hspoilt⟩ := wrote_of_done p remote h r why m.now
    refine .inr ⟨f, by rw [hspoilt]; rfl, ?_⟩
    obtain rfl | hread := hf
    · exact .inl (stage?_write hc hio hr)
    · exact .inr hread

/-- A read that fails was ended at its stage, or the head was no head of a frame. -/
theorem late_of_reading {remote : String} {h : Handle} {r : Frame.Reader}
    (hm : (reading remote h r).MovesUnder c e p m s touch) (hc : h.conn.isSome) :
    (∃ r', s.next = .reading remote h r') ∨ (∃ trip, s.next = .finished (.ok trip)) ∨
      ∃ f, s.next = .finished (.error f) ∧ (f.stage? = some .read ∨ f.kind = .decodeFailure) := by
  cases hm with
  | take => exact .inl ⟨_, rfl⟩
  | receive => exact .inr (.inl ⟨_, rfl⟩)
  | reject remote hconn hr => exact .inr (.inr ⟨_, rfl, .inr (Frame.Reader.kind_of_feed hr)⟩)
  | stall remote hio hr => exact .inr (.inr ⟨_, rfl, .inl (stage?_read hc hio hr)⟩)

end Exchange

end Courier

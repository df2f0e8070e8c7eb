import Courier.Proofs.Call.RetrySafety
import Courier.Proofs.Exchange.Lateness
import Courier.Proofs.Pool.Operating

/-!
# What a step counts

A step of an operation counts one thing at most: that it has opened a connection, what a health
check has found, that a dial may not begin because the pool is full, or that an exchange got no
connection.
-/
namespace Courier

theorem Done.ne_poolLimit (why : Done) (stage : Stage) : why.fault stage ≠ .poolLimit := by
  cases why <;> exact nofun

/-- What a write or a read on a connection fails with is not that the pool is full. -/
theorem Fault.ne_poolLimit_of_io {f : Fault} {P : Prop}
    (h : f.isSent = true ∨ P ∧ f = .connectionClosed) : f ≠ .poolLimit := by
  rintro rfl
  obtain h | ⟨-, h⟩ := h <;> cases h

/-- An exchange that writes or reads does not fail because the pool is full. -/
theorem Exchange.result_ne_poolLimit {e : Errand} {p : Pool} {now : Instant} {x : Exchange}
    {m : Pool.Step Exchange} {touch : Touch} (h : x.Moves e p now m touch) (hx : x.isSent = true) :
    m.next ≠ .finished (.error .poolLimit) := by
  cases h with
  | acquire | refuse | acquired => cases hx
  | send | take => exact nofun
  | @wrote h w io r remote done hio hr =>
    obtain ⟨f, rfl | ⟨why, rfl⟩, hw⟩ | ⟨-, hw⟩ := wrote_cases p remote h r done now
    · rw [hw]
      rintro ⟨⟩
      exact Fault.ne_poolLimit_of_io (fault_of_write hio hr) rfl
    · rw [hw]
      intro heq
      exact why.ne_poolLimit .read (by injection heq with heq; injection heq)
    · rw [hw]
      exact nofun
  | receive => exact nofun
  | reject remote hc hr =>
    rintro ⟨⟩
    exact Bool.false_ne_true (Frame.Reader.isSent_feed hr)
  | stall remote done hio hr =>
    rintro ⟨⟩
    exact Fault.ne_poolLimit_of_io (fault_of_read hio hr) rfl

namespace Pool

/-- The fault with which a call has ended. -/
def Acquire.fault? : Acquire → Option Fault
  | .failed f => some f
  | .arriving | .queued _ | .popping _ | .checking _ _ | .exhausted _ | .dialing _ _ | .served _ =>
    none

namespace Activity

/-- The fault with which a caller was told that there is no connection for it, or an exchange has
ended. -/
def fault? : Activity → Option Fault
  | .get _ a | .exchange _ (.acquiring a) => a.fault?
  | .exchange _ (.finished (.error f)) => some f
  | .exchange _ (.writing _ _ _) | .exchange _ (.reading _ _ _) | .exchange _ (.finished (.ok _))
  | .use _ | .sweep _ | .topUp _ | .over => none

/-- A caller was told that the pool is full. -/
def isToldFull (a : Activity) : Bool := a.fault? = some .poolLimit

/-- The dials of a top-up that could not begin because the pool was full. -/
def keptOut : Activity → Nat
  | .topUp t => t.dials.countP (· = .failed .poolLimit)
  | .get _ _ | .use _ | .exchange _ _ | .sweep _ | .over => 0

/-- A connection is checked: by a call that has taken it, with the fast check, or by a sweep. -/
inductive Checks (p : Pool) : Activity → Conn → Bool → Verdict → Step Activity → Prop
  | fast {ticket : Ticket} {wants : Acquire → Activity} (hw : Wants ticket wants) (slot : Bool)
      (c : Conn) (v : Verdict) :
      Checks p (wants (.checking slot c)) c true v
        { (Acquire.judge p slot c v.healthy).map wants with counts := v.counts }
  | full {s : Sweep} {c : Conn} {rest : List Conn} (hs : s.pending = c :: rest) (v : Verdict) :
      Checks p (.sweep s) c false v ⟨p, .sweep (s.judge v.healthy), [], v.counts⟩

/-- Nobody is told for the first time that the pool is full. -/
structure Still (a b : Activity) : Prop where
  told : b.isToldFull = a.isToldFull
  keptOut : b.keptOut ≤ a.keptOut

/-- What a step of an operation counts. If the pool is full, a caller that would dial is told so,
and a top-up is kept out. -/
inductive Counts (p : Pool) (now : Instant) (a : Activity) (m : Step Activity) : Touch → Prop
  | nothing {touch : Touch} (ht : touch.opened = []) (hm : m.counts = []) (hs : a.Still m.next) :
      Counts p now a m touch
  | opens (c : Conn) (hm : m.counts = [.newConnection]) (hs : a.Still m.next) :
      Counts p now a m (.opens c)
  | checks {c : Conn} {fast : Bool} {v : Verdict} (hv : p.Judges c fast now v)
      (h : Checks p a c fast v m) : Counts p now a m (.checks c)
  | full (hd : p.beginDial = .error .poolLimit) (hm : m.counts = [.poolOverLimit])
      (ha : a.isToldFull = false) (hb : m.next.isToldFull = true)
      (hk : m.next.keptOut ≤ a.keptOut) : Counts p now a m .nothing
  | keepsOut (hd : p.beginDial = .error .poolLimit) (hm : m.counts = [.poolOverLimit])
      (ht : m.next.isToldFull = a.isToldFull) (hk : m.next.keptOut = a.keptOut + 1) :
      Counts p now a m .nothing
  | unserved {touch : Touch} {e : Errand} {f : Fault} (ht : touch.opened = [])
      (ha : a = .exchange e (.acquiring (.failed f)))
      (hm : m = ⟨p, .exchange e (.finished (.error f)), [], [.getConnectionErr]⟩) :
      Counts p now a m touch

section Wants
variable {p : Pool} {now : Instant} {ticket : Ticket} {wants : Acquire → Activity}

theorem Wants.isToldFull (hw : Wants ticket wants) (a : Acquire) :
    (wants a).isToldFull = decide (a.fault? = some .poolLimit) := by
  cases hw <;> rfl

theorem Wants.keptOut (hw : Wants ticket wants) (a : Acquire) : (wants a).keptOut = 0 := by
  cases hw <;> rfl

theorem Wants.still (hw : Wants ticket wants) {a b : Acquire} (ha : a.fault? ≠ some .poolLimit)
    (hb : b.fault? ≠ some .poolLimit) : (wants a).Still (wants b) where
  told := by rw [hw.isToldFull, hw.isToldFull, decide_eq_false ha, decide_eq_false hb]
  keptOut := by rw [hw.keptOut, hw.keptOut]

theorem fault?_of_isOutside {a : Acquire} (h : a.isOutside = true) : a.fault? = none := by
  cases a <;> first | rfl | cases h

theorem beginDial_error {p : Pool} {f : Fault} (h : p.beginDial = .error f) :
    f = .poolLimit ∨ f = .poolClosed := by
  unfold beginDial at h
  split at h
  · cases h
    exact .inl rfl
  · split at h
    · cases h
      exact .inr rfl
    · cases h

theorem Wants.counts (hw : Wants ticket wants) {a : Acquire} {m : Step Acquire} {touch : Touch}
    (h : a.Moves ticket p now m touch) : (wants a).Counts p now (m.map wants) touch := by
  have still {a b : Acquire} (ha : a.fault? = none) (hb : ∀ f, b.fault? = some f → f ≠ .poolLimit) :
      (wants a).Still (wants b) :=
    hw.still (by rw [ha]; exact nofun) fun heq => hb _ heq rfl
  by_cases hc : ∃ slot c, a = .checking slot c
  · obtain ⟨slot, c, rfl⟩ := hc
    cases h with
    | judge _ _ hv => exact .checks hv (.fast hw slot c _)
  cases h.does with
  | passes ha hs => exact .nothing rfl rfl (still (fault?_of_isOutside ha) nofun)
  | enters ha hs hn => exact .nothing rfl rfl (still (fault?_of_isOutside ha) nofun)
  | waits t ha hs hn => exact .nothing rfl rfl (still (fault?_of_isOutside ha) nofun)
  | leaves ha hs hn hf =>
    refine .nothing rfl rfl (still (fault?_of_isOutside ha) fun f' heq => ?_)
    cases heq
    obtain rfl | ⟨why, rfl⟩ := hf
    · exact nofun
    · exact why.ne_poolLimit .dial
  | takes slot hp => exact .nothing rfl rfl (still rfl nofun)
  | runsOut slot hi => exact .nothing rfl rfl (still rfl nofun)
  | keeps slot c counts => exact absurd ⟨slot, c, rfl⟩ hc
  | drops slot c counts => exact absurd ⟨slot, c, rfl⟩ hc
  | refused slot hd =>
    obtain rfl | rfl := beginDial_error hd
    · refine .full hd rfl ?_ ?_ ?_
      · rw [hw.isToldFull]
        rfl
      · exact hw.isToldFull _
      · exact Nat.le_of_eq ((hw.keptOut _).trans (hw.keptOut _).symm)
    · exact .nothing rfl rfl (still rfl fun _ heq => by cases heq; exact nofun)
  | stops slot hd why =>
    exact .nothing rfl rfl (still rfl fun _ heq => by cases heq; exact why.ne_poolLimit .dial)
  | dials slot hd d => exact .nothing rfl rfl (still rfl nofun)
  | connects slot d c => exact .opens c rfl (still rfl nofun)
  | fails slot hr =>
    exact .nothing rfl rfl (still rfl fun _ heq => by cases heq; exact Dial.ne_poolLimit hr)

end Wants

section Steps
variable {p : Pool} {now : Instant}

/-- An operation that was not told that the pool is full, and is not told so. -/
theorem still_of_told {a b : Activity} (ha : a.isToldFull = false) (hb : b.isToldFull = false)
    (hk : b.keptOut ≤ a.keptOut) : a.Still b :=
  ⟨hb.trans ha.symm, hk⟩

theorem isToldFull_of_handle? {a : Activity} {h : Handle} (ha : a.handle? = some h) :
    a.isToldFull = false := by
  cases a with
  | get ticket a => cases a <;> first | rfl | cases ha
  | use => rfl
  | exchange e x =>
    obtain rfl | ⟨remote, w, rfl⟩ | ⟨remote, r, rfl⟩ := Exchange.handle?_cases ha <;> rfl
  | _ => cases ha

theorem counts_exchange {e : Errand} {x : Exchange} {m : Step Exchange} {touch : Touch}
    (h : x.Moves e p now m touch) : (exchange e x).Counts p now (m.map (exchange e)) touch := by
  have hresult := Exchange.result_ne_poolLimit h
  cases h.does with
  | acquires hx ha hm =>
    rw [hx, hm]
    exact (Wants.exchange e).counts ha
  | refused f hx hm ht =>
    rw [hx, hm]
    exact .unserved ht rfl rfl
  | keeps hx hy hh hm ht =>
    rw [hm]
    exact .nothing ht rfl
      (still_of_told (isToldFull_of_handle? hx) (isToldFull_of_handle? hy) (Nat.le_refl _))
  | @gives h result force hx hforce hu hm ht =>
    have hne : result ≠ .error .poolLimit := by
      cases hs : x.isSent with
      | false =>
        obtain ⟨why, rfl⟩ := hu hs
        intro heq
        injection heq with heq
        exact why.ne_poolLimit .dial heq
      | true =>
        rw [hm] at hresult
        exact fun heq => hresult hs (congrArg Exchange.finished heq)
    have hb : (exchange e (.finished result)).isToldFull = false := by
      cases result with
      | ok trip => rfl
      | error f =>
        exact decide_eq_false fun heq => hne (congrArg Except.error (Option.some.inj heq))
    rw [hm]
    exact .nothing ht rfl (still_of_told (isToldFull_of_handle? hx) hb (Nat.le_refl _))

theorem keptOut_topUp (before after : List PreDial) (d : PreDial) :
    (topUp ⟨before ++ d :: after⟩).keptOut = (topUp ⟨before ++ after⟩).keptOut +
      if d = .failed .poolLimit then 1 else 0 := by
  simp only [keptOut, List.countP_append, List.countP_cons, decide_eq_true_eq]
  omega

theorem counts_dial {before after : List PreDial} {d : PreDial} {m : Step PreDial} {touch : Touch}
    (h : d.Moves p now m touch) : (topUp ⟨before ++ d :: after⟩).Counts p now
      (m.map fun d => topUp ⟨before ++ d :: after⟩) touch := by
  have still {d d' : PreDial} (hd : d' ≠ .failed .poolLimit) :
      (topUp ⟨before ++ d :: after⟩).Still (topUp ⟨before ++ d' :: after⟩) := by
    refine ⟨rfl, ?_⟩
    rw [keptOut_topUp, keptOut_topUp, if_neg hd]
    exact Nat.le_add_right _ _
  cases h with
  | begin attempt =>
    unfold PreDial.begin
    cases hd : p.beginDial with
    | ok p' => exact .nothing rfl rfl (still nofun)
    | error f =>
      obtain rfl | rfl := beginDial_error hd
      · refine .keepsOut hd rfl rfl ?_
        rw [Step.map_next, keptOut_topUp, keptOut_topUp]
        rfl
      · exact .nothing rfl rfl (still nofun)
  | finish hr =>
    rename_i r
    cases r with
    | ok c => exact .opens c rfl (still nofun)
    | error f =>
      have hne : PreDial.failed f ≠ .failed .poolLimit :=
        fun heq => Dial.ne_poolLimit hr (by injection heq)
      exact .nothing rfl rfl (still hne)

theorem Moves.counts {a : Activity} {m : Step Activity} {touch : Touch}
    (h : a.Moves p now m touch) : a.Counts p now m touch := by
  have ends {a : Activity} (ha : a.isToldFull = false) : a.Still .over :=
    still_of_told ha rfl (Nat.zero_le _)
  cases h with
  | get h => exact (Wants.get _).counts h
  | handOut ticket h => exact .nothing rfl rfl (still_of_told rfl rfl (Nat.le_refl _))
  | use hm =>
    have still (h h' : Handle) : (Activity.use h).Still (Activity.use h') :=
      still_of_told rfl rfl (Nat.le_refl _)
    cases hm with
    | setDeadline deadline => exact .nothing rfl rfl (still _ _)
    | setForceClose forceClose => exact .nothing rfl rfl (still _ _)
    | io r => cases r <;> exact .nothing rfl rfl (still _ _)
    | discard => exact .nothing rfl rfl (still _ _)
  | close h => exact .nothing rfl rfl (ends rfl)
  | exchange h => exact counts_exchange h
  | judge hs hv => exact .checks hv (.full hs _)
  | finishSweep hs => exact .nothing rfl rfl (ends rfl)
  | dial h => exact counts_dial h
  | finishTopUp ht => exact .nothing rfl rfl (ends rfl)

end Steps

end Activity

end Pool

end Courier

import Courier.Proofs.Call.Written
import Courier.Proofs.Frame.Stream

/-!
# The ledger of an exchange

What is known of an exchange from all that it has done to sockets. It has written to one connection
and read from no other one. What it has read is a part of a frame as long as it waits, the frame and
no more once it is complete, and never a whole frame if the exchange has failed. What it has written
is its request once it has come to read, and if it falls short of that, the fault of the exchange
names the write.
-/
namespace Courier
open Bytes (toList)
open Courier.Frame (IsWhole)

/-! ## Stages of faults -/

/-- The stage that a fault names. -/
def Fault.stage? : Fault → Option Stage
  | .timeout stage _ | .canceled stage _ | .network stage _ => some stage
  | .route _ | .poolLimit | .poolClosed | .connectionClosed | .dial _ | .encode _ | .decode _
  | .requestIdMismatch _ _ | .queryModeMismatch _ _ | .server _ _ | .record _ | .io _ => none

@[simp] theorem Fault.stage?_withCost (f : Fault) (cost : Span) :
    (f.withCost cost).stage? = f.stage? := by
  cases f <;> rfl

theorem Fault.stage?_ofIo (e : IoError) (stage : Stage) (doing : String) :
    (Fault.ofIo e stage doing).stage? = some stage := by
  unfold Fault.ofIo
  split <;> rfl

theorem Done.stage?_fault (why : Done) (stage : Stage) : (why.fault stage).stage? = some stage := by
  cases why <;> rfl

theorem Frame.Writer.stage?_feed {w : Writer} {a : Reception} {f : Fault}
    (h : w.feed a = .error f) : f.stage? = some .write := by
  unfold feed at h
  split at h
  · cases h
    exact Fault.stage?_ofIo _ .write _
  · split at h
    · cases h
      rfl
    · cases h

theorem Frame.Writer.stage?_flush {outcome : Option IoError} {f : Fault}
    (h : flush outcome = .error f) : f.stage? = some .write := by
  cases outcome with
  | none => cases h
  | some e =>
    cases h
    exact Fault.stage?_ofIo e .write _

/-- What waits and has come to its end was ended by a deadline or by the context, at its stage. -/
theorem Exchange.late_of_await {α : Type} {h : Handle} {stage : Stage} {done : Option Done}
    {now : Instant} {r : Except Fault α} (hr : await h stage none done now = some r) :
    r = .error (.timeout stage "i/o deadline exceeded") ∨
    ∃ why ∈ done, r = .error (why.fault stage) := by
  unfold await Handle.await at hr
  dsimp only at hr
  split at hr
  next hd =>
    split at hd
    · cases hd
      cases hr
      exact .inl rfl
    · cases hd
  next =>
    obtain ⟨why, hwhy, rfl⟩ := Option.map_eq_some_iff.1 hr
    exact .inr ⟨why, hwhy, rfl⟩

theorem Exchange.stage?_await {α : Type} {h : Handle} {stage : Stage} {done : Option Done}
    {now : Instant} {f : Fault} (hr : await (α := α) h stage none done now = some (.error f)) :
    f.stage? = some stage := by
  obtain hf | ⟨why, -, hf⟩ := late_of_await hr
  · cases hf
    rfl
  · cases hf
    exact why.stage?_fault stage

/-- A write that fails names its stage. -/
theorem Exchange.stage?_write {h : Handle} {w : Frame.Writer} {io : Option (Except Fault Unit)}
    {done : Option Done} {now : Instant} {f : Fault} (hc : h.conn.isSome) (hio : h.Writes w io)
    (hr : await h .write io done now = some (.error f)) : f.stage? = some .write := by
  cases hio with
  | underWay => exact stage?_await hr
  | refused hw ha =>
    cases hr
    exact Frame.Writer.stage?_feed ha
  | flushed hw outcome =>
    have hf : Frame.Writer.flush outcome = .error f := Option.some.inj hr
    exact Frame.Writer.stage?_flush hf
  | unconnected hn => simp [hn] at hc

/-! ## What is read -/

/-- The bytes that a step takes from a socket. -/
def Touch.taken : Touch → ByteArray
  | .takes _ bytes => bytes
  | .nothing | .opens _ | .checks _ | .sends _ _ => .empty

/-- The connection that a step writes to or reads from. -/
def Touch.conn? : Touch → Option Conn
  | .sends c _ | .takes c _ => some c
  | .nothing | .opens _ | .checks _ => none

namespace Trace

/-- All bytes that were taken from sockets. -/
def received (t : Trace) : List UInt8 := t.flatMap fun x => toList x.2.taken

/-- The connections that were written to or read from. -/
def conns (t : Trace) : List Conn := t.filterMap fun x => x.2.conn?

section Snoc
variable (t : Trace) (x : Exchange) (touch : Touch)

@[simp] theorem hasWrite_snoc : hasWrite (t ++ [(x, touch)]) = (t.hasWrite || x.isWriting) := by
  simp [hasWrite]

@[simp] theorem handed_snoc : handed (t ++ [(x, touch)]) = t.handed ++ toList touch.sent := by
  simp [handed]

@[simp] theorem received_snoc :
    received (t ++ [(x, touch)]) = t.received ++ toList touch.taken := by
  simp [received]

@[simp] theorem conns_snoc : conns (t ++ [(x, touch)]) = t.conns ++ touch.conn?.toList := by
  unfold conns
  rw [List.filterMap_append]
  cases hc : touch.conn? <;> simp [hc]

end Snoc

/-- Bytes are sent and taken on connections. -/
theorem bytes_of_conns {t : Trace} (h : t.conns = []) : t.handed = [] ∧ t.received = [] := by
  have hnone : ∀ x ∈ t, x.2.conn? = none := List.filterMap_eq_nil_iff.1 h
  constructor
  · refine List.flatMap_eq_nil_iff.2 fun x hx => ?_
    have := hnone x hx
    unfold Touch.conn? at this
    split at this <;> simp_all [Touch.sent]
  · refine List.flatMap_eq_nil_iff.2 fun x hx => ?_
    have := hnone x hx
    unfold Touch.conn? at this
    split at this <;> simp_all [Touch.taken]

end Trace

/-- The bytes of a reader that waits are not a whole frame. -/
theorem Frame.Reader.Waits.not_whole {r : Frame.Reader} (h : r.Waits) : ¬ IsWhole r.got := by
  intro hw
  obtain ⟨-, hlt⟩ := h hw.head
  rw [hw.length] at hlt
  exact Nat.lt_irrefl _ hlt

/-- A head whose length is refused is not a whole frame. -/
theorem Frame.Reader.not_whole_of_refused {limit : Nat} (hl : headSize ≤ limit) {head : ByteArray}
    {e : Fault} (hs : head.size = headSize) (hc : checkLength limit (declared head) = .error e) :
    ¬ IsWhole head := by
  intro hw
  rw [hw.length, hs, checkLength, if_neg (Nat.lt_irrefl _), if_neg (by omega)] at hc
  cases hc

/-- A whole frame that is not too long is read from one piece. -/
theorem Frame.Reader.feed_whole {limit : Nat} {frame : ByteArray} (hw : IsWhole frame)
    (hl : frame.size ≤ limit) : (start limit).feed frame = (.frame frame, .empty) := by
  have htakes := takes (waits_start limit) frame
  generalize (start limit).feed frame = fed at htakes
  cases htakes with
  | @waits r hr hlimit hs =>
    have hgot : r.got = frame := Bytes.toList_injective hs
    exact absurd (hgot ▸ hw) hr.not_whole
  | @ends f left hf _ hs =>
    have hbytes : toList f ++ toList left = toList frame := hs
    obtain rfl : f = frame := hf.eq_of_prefix hw ⟨_, hbytes⟩
    have hleft : left = .empty := Bytes.toList_injective (List.append_right_eq_self.1 hbytes)
    rw [hleft]
  | @refuses head left e hh hc hs =>
    have hbytes : toList head ++ toList left = toList frame := hs
    have hdeclared := declared_of_prefix ⟨_, hbytes⟩ (Nat.le_of_eq hh.symm)
    have hhead := hw.head
    have hlimit : ¬ limit < frame.size := Nat.not_lt.2 hl
    rw [hdeclared, hw.length, checkLength, if_neg (by omega)] at hc
    cases (if_neg hlimit).symm.trans hc

namespace Exchange

/-- What an exchange has read, by how far it has come. -/
def HasTaken (taken : List UInt8) : Exchange → Prop
  | .acquiring _ | .writing _ _ _ => taken = []
  | .reading _ _ r => r.Waits ∧ r.limit = Frame.maxSize ∧ toList r.got = taken
  | .finished (.ok trip) => IsWhole trip.response ∧ toList trip.response = taken
  | .finished (.error _) => ¬ IsWhole (Bytes.ofList taken)

/-- No bytes are no frame. -/
theorem not_whole_of_empty {frame : ByteArray} (h : toList frame = []) : ¬ IsWhole frame := by
  intro hw
  obtain rfl : frame = .empty := Bytes.toList_injective (h.trans Bytes.toList_empty.symm)
  exact absurd hw.head (by decide)

/-- The connection that an exchange has used, by how far it has come. -/
def Keeps (used : List Conn) : Exchange → Prop
  | .acquiring _ => used = []
  | .writing remote h _ | .reading remote h _ =>
    ∃ c, h.conn = some c ∧ remote = c.remote ∧ ∀ c' ∈ used, c' = c
  | .finished (.ok trip) => ∃ c ∈ used, trip.remote = c.remote ∧ ∀ c' ∈ used, c' = c
  | .finished (.error _) => ∀ c ∈ used, ∀ c' ∈ used, c' = c

/-- Everything that is known of an exchange by what it has done. Who has failed to write all of the
request says so, and who has not come to write has not read either. -/
structure Ledger (e : Errand) (trace : Trace) (x : Exchange) : Prop where
  stands : x.Stands trace.hasWrite
  sent : x.HasSent (toList e.request) trace.handed
  taken : x.HasTaken trace.received
  keeps : x.Keeps trace.conns
  unwritten : ∀ f, x = .finished (.error f) → trace.hasWrite = true →
    trace.handed ≠ toList e.request →
    f.stage? = some .write
  unused : trace.hasWrite = false → trace.conns = []

variable {e : Errand} {p : Pool} {now : Instant} {x : Exchange} {s : Pool.Step Exchange}
    {touch : Touch}
  {trace : Trace}

theorem taken_of_acquire {ticket : Ticket} {a : Pool.Acquire} {s : Pool.Step Pool.Acquire}
    (h : a.Moves ticket p now s touch) : touch.taken = .empty ∧ touch.conn? = none := by
  cases h with
  | @endDial slot d r hr => cases r <;> exact ⟨rfl, rfl⟩
  | _ => exact ⟨rfl, rfl⟩

theorem hasTaken_step {taken : List UInt8} (h : x.Moves e p now s touch) (hx : x.HasTaken taken) :
    s.next.HasTaken (taken ++ toList touch.taken) := by
  cases h with
  | acquire h =>
    rw [(taken_of_acquire h).1]
    exact (List.append_nil _).trans hx
  | refuse f =>
    obtain rfl : taken = [] := hx
    exact not_whole_of_empty rfl
  | acquired h deadline done =>
    obtain rfl : taken = [] := hx
    cases done with
    | none => rfl
    | some why => exact not_whole_of_empty rfl
  | send remote hc hw hn => exact (List.append_nil _).trans hx
  | @wrote h w io r remote done hio hr =>
    obtain rfl : taken = [] := hx
    obtain ⟨f, -, hwrote⟩ | ⟨-, hwrote⟩ := wrote_cases p remote h r done now
    · rw [hwrote]
      exact not_whole_of_empty rfl
    · rw [hwrote]
      exact ⟨Frame.Reader.waits_start _, rfl, rfl⟩
  | @take h c r r' piece remote hc hr =>
    obtain ⟨hwaits, hlimit, rfl⟩ := hx
    have htakes := Frame.Reader.takes hwaits piece
    rw [hr] at htakes
    cases htakes with
    | waits hr' hl hs => exact ⟨hr', hl.trans hlimit, hs⟩
  | @receive h c r piece frame remote hc hr =>
    obtain ⟨hwaits, -, rfl⟩ := hx
    have htakes := Frame.Reader.takes hwaits piece
    rw [hr] at htakes
    cases htakes with
    | ends hw hl hs =>
      rw [Bytes.toList_empty, List.append_nil] at hs
      exact ⟨hw, hs⟩
  | @reject h c r piece f remote hc hr =>
    obtain ⟨hwaits, hlimit, rfl⟩ := hx
    have htakes := Frame.Reader.takes hwaits piece
    rw [hr] at htakes
    cases htakes with
    | @refuses head _ _ hh hcheck hs =>
      rw [Bytes.toList_empty, List.append_nil] at hs
      show ¬ IsWhole (Bytes.ofList (toList r.got ++ toList piece))
      rw [← hs, Bytes.ofList_toList]
      exact Frame.Reader.not_whole_of_refused (by rw [hlimit]; decide) hh hcheck
  | stall remote done hio hr =>
    obtain ⟨hwaits, -, rfl⟩ := hx
    show ¬ IsWhole (Bytes.ofList (_ ++ []))
    rw [List.append_nil, Bytes.ofList_toList]
    exact hwaits.not_whole

/-- If all of a list are one, no two of it differ. -/
theorem once_of_all {used : List Conn} {c : Conn} (h : ∀ c' ∈ used, c' = c) :
    ∀ a ∈ used, ∀ b ∈ used, b = a :=
  fun a ha b hb => (h b hb).trans (h a ha).symm

theorem keeps_step {used : List Conn} (h : x.Moves e p now s touch) {past : Bool}
    (hs : x.Stands past) (hx : x.Keeps used) : s.next.Keeps (used ++ touch.conn?.toList) := by
  have hrest (ht : touch.conn? = none) : used ++ touch.conn?.toList = used := by
    rw [ht]
    exact List.append_nil used
  have hsame {c : Conn} (hall : ∀ c' ∈ used, c' = c) : ∀ c' ∈ used ++ [c], c' = c :=
    List.forall_mem_append.2 ⟨hall, List.forall_mem_singleton.2 rfl⟩
  cases h with
  | acquire h =>
    rw [hrest (taken_of_acquire h).2]
    exact hx
  | refuse f =>
    rw [hrest rfl]
    obtain rfl : used = [] := hx
    exact List.forall_mem_nil _
  | acquired h deadline done =>
    rw [hrest rfl]
    obtain rfl : used = [] := hx
    cases done with
    | some why => exact List.forall_mem_nil _
    | none =>
      obtain ⟨c, hc⟩ := Option.isSome_iff_exists.1 hs.2
      refine ⟨c, hc, ?_, List.forall_mem_nil _⟩
      rw [hc]
      rfl
  | send remote hc hw hn =>
    obtain ⟨c, hconn, hremote, hall⟩ := hx
    cases hc.symm.trans hconn
    exact ⟨_, hconn, hremote, hsame hall⟩
  | @wrote h w io r remote done hio hr =>
    rw [hrest rfl]
    obtain ⟨c, hconn, hremote, hall⟩ := hx
    obtain ⟨f, -, hwrote⟩ | ⟨-, hwrote⟩ := wrote_cases p remote h r done now
    · rw [hwrote]
      exact once_of_all hall
    · rw [hwrote]
      exact ⟨c, hconn, hremote, hall⟩
  | take remote hc hr =>
    obtain ⟨c, hconn, hremote, hall⟩ := hx
    cases hc.symm.trans hconn
    exact ⟨_, hconn, hremote, hsame hall⟩
  | receive remote hc hr =>
    obtain ⟨c, hconn, hremote, hall⟩ := hx
    cases hc.symm.trans hconn
    exact ⟨_, List.mem_append_right _ List.mem_cons_self, hremote, hsame hall⟩
  | reject remote hc hr =>
    obtain ⟨c, hconn, -, hall⟩ := hx
    cases hc.symm.trans hconn
    exact once_of_all (hsame hall)
  | stall remote done hio hr =>
    rw [hrest rfl]
    obtain ⟨c, -, -, hall⟩ := hx
    exact once_of_all hall

/-- An exchange that fails after it has come to write has written all of its request or names the
write. -/
theorem unwritten_step {past : Bool} {sent : List UInt8} {f : Fault} (h : x.Moves e p now s touch)
    (hs : x.Stands past) (hx : x.HasSent (toList e.request) sent)
    (hf : s.next = .finished (.error f)) (hw : (past || x.isWriting) = true)
    (hshort : sent ++ toList touch.sent ≠ toList e.request) : f.stage? = some .write := by
  cases h with
  | acquire => cases hf
  | refuse f =>
    obtain ⟨rfl, -⟩ := hs
    cases hw
  | acquired h deadline done =>
    obtain ⟨rfl, -⟩ := hs
    cases hw
  | send => cases hf
  | @wrote h w io r remote done hio hr =>
    obtain ⟨g, rfl | ⟨why, rfl⟩, hwrote⟩ | ⟨-, hwrote⟩ := wrote_cases p remote h r done now
    · rw [hwrote] at hf
      cases hf
      exact stage?_write hs hio hr
    · cases r with
      | error g =>
        cases hf
        exact stage?_write hs hio hr
      | ok u =>
        obtain ⟨hbuf, rfl⟩ := hx
        rw [show toList Touch.nothing.sent = [] from rfl, List.append_nil,
          Frame.Writer.taken_of_isComplete (isComplete_of_wrote hio hr)] at hshort
        exact absurd hbuf hshort
    · rw [hwrote] at hf
      cases hf
  | take => cases hf
  | receive => cases hf
  | reject remote hc hr =>
    obtain rfl : sent = toList e.request := hx
    exact absurd (List.append_nil _) hshort
  | stall remote done hio hr =>
    obtain rfl : sent = toList e.request := hx
    exact absurd (List.append_nil _) hshort

/-- Before the write no connection is used. -/
theorem conn?_of_unwritten (h : x.Moves e p now s touch) (hs : x.Stands false)
    (hw : x.isWriting = false) : touch.conn? = none := by
  cases h with
  | acquire h => exact (taken_of_acquire h).2
  | send => cases hw
  | take => cases hs.1
  | receive => cases hs.1
  | reject => cases hs.1
  | _ => rfl

theorem ledger_begin (e : Errand) : Ledger e [] (begin none) where
  stands := ⟨rfl, trivial⟩
  sent := rfl
  taken := rfl
  keeps := rfl
  unwritten := nofun
  unused _ := rfl

/-- The ledger is kept up with every step. -/
theorem Ledger.step (hl : Ledger e trace x) (h : x.Moves e p now s touch) :
    Ledger e (trace ++ [(x, touch)]) s.next := by
  refine ⟨?_, ?_, ?_, ?_, fun f hf hw hshort => ?_, fun hw => ?_⟩
  · rw [Trace.hasWrite_snoc]
    exact stands_step h hl.stands
  · rw [Trace.handed_snoc]
    exact hasSent_step h hl.sent
  · rw [Trace.received_snoc]
    exact hasTaken_step h hl.taken
  · rw [Trace.conns_snoc]
    exact keeps_step h hl.stands hl.keeps
  · rw [Trace.hasWrite_snoc] at hw
    rw [Trace.handed_snoc] at hshort
    exact unwritten_step h hl.stands hl.sent hf hw hshort
  · rw [Trace.hasWrite_snoc, Bool.or_eq_false_iff] at hw
    have hstands := hl.stands
    rw [hw.1] at hstands
    rw [Trace.conns_snoc, hl.unused hw.1, conn?_of_unwritten h hstands hw.2]
    rfl

/-- An exchange that is over has sent all of its request, if it has come to write and the write has
not failed. -/
theorem Ledger.handed_or_write {result : Except Fault RoundTrip}
    (hl : Ledger e trace (.finished result)) (hw : trace.hasWrite = true) :
    trace.handed = toList e.request ∨ ∃ f, result = .error f ∧ f.stage? = some .write := by
  cases result with
  | ok trip => exact .inl hl.sent
  | error f =>
    by_cases hall : trace.handed = toList e.request
    · exact .inl hall
    · exact .inr ⟨f, rfl, hl.unwritten f rfl hw hall⟩

/-- No exchange uses two connections. -/
theorem Keeps.once {used : List Conn} (h : x.Keeps used) : ∀ c ∈ used, ∀ c' ∈ used, c' = c := by
  match x with
  | .acquiring _ =>
    obtain rfl : used = [] := h
    exact List.forall_mem_nil _
  | .writing _ _ _ | .reading _ _ _ =>
    obtain ⟨c, -, -, hall⟩ := h
    exact once_of_all hall
  | .finished (.ok _) =>
    obtain ⟨c, -, -, hall⟩ := h
    exact once_of_all hall
  | .finished (.error _) => exact h

/-- An exchange has succeeded just if it has read a whole frame, which is its response. -/
theorem Ledger.response_iff {result : Except Fault RoundTrip}
    (hl : Ledger e trace (.finished result)) (response : ByteArray) :
    (IsWhole response ∧ toList response = trace.received) ↔
      ∃ remote, result = .ok ⟨response, remote⟩ := by
  cases result with
  | ok trip =>
    obtain ⟨hwhole, hbytes⟩ := hl.taken
    constructor
    · rintro ⟨-, hsame⟩
      exact ⟨trip.remote, by rw [Bytes.toList_injective (hsame.trans hbytes.symm)]⟩
    · rintro ⟨remote, h⟩
      cases h
      exact ⟨hwhole, hbytes⟩
  | error f =>
    have hnone := hl.taken
    constructor
    · rintro ⟨hwhole, hsame⟩
      refine absurd ?_ hnone
      show IsWhole (Bytes.ofList trace.received)
      rwa [← hsame, Bytes.ofList_toList]
    · rintro ⟨remote, h⟩
      cases h

end Exchange

end Courier

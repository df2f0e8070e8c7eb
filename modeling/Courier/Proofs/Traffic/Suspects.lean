import Courier.Proofs.Call.RetrySafety
import Courier.Proofs.Pool.Return
import Courier.Proofs.Traffic.NoCrossTalk

/-!
# Connections of calls that fail on their response

A response can be bad in the length that its frame declares, which shows while the frame is read, or
in anything else, which shows when the exchange is over and has given its connection back. In the
first case the connection is closed; in the second one it has the fate of any other connection that
comes back.
-/
namespace Courier
open Courier.Frame (IsWhole)
open Pool (Life Activity numbers located)

/-! ## The end of an exchange -/

/-- An exchange that stops reading gives its connection up, and closes it if the reading has
failed. -/
theorem Exchange.ends_of_reading {e : Errand} {p : Pool} {now : Instant} {remote : String}
    {h : Handle} {r : Frame.Reader} {m : Pool.Step Exchange} {touch : Touch}
    {exchanged : Except Fault RoundTrip} (hm : (reading remote h r).Moves e p now m touch)
    (hx : m.next = .finished exchanged) :
    m.pool = (h.release p (h.forceClose || !exchanged.isOk) now).pool ∧
      m.closes = (h.release p (h.forceClose || !exchanged.isOk) now).closes := by
  cases hm with
  | take => cases hx
  | receive =>
    cases hx
    simp [received, Handle.close, Except.isOk, Except.toBool]
  | reject =>
    cases hx
    simp [received, spoil, Handle.discard, Except.isOk, Except.toBool]
  | stall =>
    cases hx
    simp [received, spoil, Handle.discard, Except.isOk, Except.toBool]

/-- A call over a new connection has written its request and reads. -/
theorem Pool.Life.reachable_reading {request : ByteArray} (hw : IsWhole request) :
    ∃ s : Life, Reachable {} s ∧
      s.pool = { Pool.new "tcp" "10.0.0.1:80" {} with active := 1 } ∧ s.now = 0 ∧
      s.activities = [] ++ .exchange (Traffic.ping request)
        (.reading "10.0.0.1:80" ⟨some Traffic.firstConn, false, none, false⟩
          (.start Frame.maxSize)) :: [] := by
  obtain ⟨t, ht, hpool, hnow, hreading, -⟩ := Traffic.leads_answered hw
  have h : Reachable {} (Traffic.pinging request).life :=
    ⟨"tcp", "10.0.0.1:80", 0, .single (.exchange _ (Nat.le_refl _))⟩
  exact ⟨t.life, h.leads (Traffic.leads_life ht), hpool, hnow, hreading⟩

/-- A head that says that its frame has five bytes. -/
def Traffic.shortHead : ByteArray := Bytes.ofList [0x48, 0, 1, 0, 0, 0, 0, 5, 0, 0]

/-- What becomes of the connection of an exchange that stops reading. It is closed for good if the
reading has failed, if the pool is closed, if connections are to be closed when they come back, or
if none are kept; otherwise it is the next one to be used. Whether the response is a good one plays
no part. -/
theorem Pool.Life.retired_iff {config : Pool.Config} {s : Life} (h : Reachable config s)
    {before after : List Activity} {e : Errand} {remote : String} {hd : Handle} {r : Frame.Reader}
    {m : Pool.Step Exchange} {touch : Touch} {c : Conn} {exchanged : Except Fault RoundTrip}
    (hs : s.activities = before ++ .exchange e (.reading remote hd r) :: after)
    (hc : hd.conn = some c) (hm : (Exchange.reading remote hd r).Moves e s.pool s.now m touch)
    (hx : m.next = .finished exchanged) :
    ((s.proceed before (m.map (.exchange e)) touch after).Retired c.id ↔
      exchanged.isOk = false ∨ s.pool.closed = true ∨ config.forceClose = true ∨
      config.maxIdle = 0) ∧
    (¬ (s.proceed before (m.map (.exchange e)) touch after).Retired c.id →
      (s.proceed before (m.map (.exchange e)) touch after).pool.idle.head? =
        some { c with returned := s.now }) := by
  obtain ⟨hconfig, hbound⟩ := h.configured
  have hmark : hd.forceClose = config.forceClose :=
    h.marked (.exchange e (.reading remote hd r)) (by simp [hs])
  obtain ⟨hpool, hcloses⟩ := Exchange.ends_of_reading hm hx
  have hopened : touch.opened = [] := by cases hm <;> rfl
  have hstep : Step s (s.proceed before (m.map (.exchange e)) touch after) :=
    .advance (.mk hs (.exchange hm) (by simp [hopened]))
  by_cases hfate :
    exchanged.isOk = false ∨ s.pool.closed = true ∨ config.forceClose = true ∨ config.maxIdle = 0
  · have hr : (s.proceed before (m.map (.exchange e)) touch after).Retired c.id := by
      refine (h.conserved.step hstep).retired (List.mem_append_right _ ?_)
      rw [Step.map_closes, hcloses, closes_release hc]
      refine mem_closes_put (by rwa [hconfig]) ?_ c s.now
      rw [hmark, hconfig]
      simp only [Bool.or_eq_true, Bool.not_eq_true']
      tauto
    exact ⟨iff_of_true hr hfate, fun hn => absurd hr hn⟩
  · simp only [not_or, Bool.not_eq_false, Bool.not_eq_true] at hfate
    obtain ⟨hok, hopen, hforce, hkeeps⟩ := hfate
    have hhead : (s.proceed before (m.map (.exchange e)) touch after).pool.idle.head? =
        some { c with returned := s.now } := by
      show m.pool.idle.head? = _
      rw [hpool, idle_release hc, hmark, hforce, hok]
      exact head_put hopen (by rwa [hconfig]) c s.now
    refine ⟨iff_of_false (fun hr => not_retired hhead hr) ?_, fun _ => hhead⟩
    simp [hok, hopen, hforce, hkeeps]

/-- The response declares less than a head, and its connection is closed for good. -/
theorem Pool.Life.retired_after_short_head : ∃ s s' : Life, Reachable {} s ∧ Step s s' ∧
    .exchange (Traffic.ping Traffic.bareRequest)
      (.finished (.error (.decode "frame total len 5 shorter than frame head len 10"))) ∈
        s'.activities ∧
    s'.Retired Traffic.firstConn.id := by
  obtain ⟨s, h, -, -, hs⟩ := reachable_reading Traffic.isWhole_bareRequest
  have hfeed : (Frame.Reader.start Frame.maxSize).feed Traffic.shortHead =
      (.fault (.decode "frame total len 5 shorter than frame head len 10"), .empty) := rfl
  have hm : (Exchange.reading "10.0.0.1:80" ⟨some Traffic.firstConn, false, none, false⟩
      (.start Frame.maxSize)).Moves (Traffic.ping Traffic.bareRequest) s.pool s.now _ _ :=
    .reject "10.0.0.1:80" rfl hfeed
  have hstep : Step s _ := .advance (.mk hs (.exchange hm) (List.forall_mem_nil _))
  exact ⟨_, _, h, hstep, List.mem_cons_self, (retired_iff h hs rfl hm rfl).1.2 (.inl rfl)⟩

/-- The response names another request, the call fails, and its connection is the next one to be
used. -/
theorem Pool.Life.kept_after_mismatch : ∃ (request : ByteArray) (s s' : Life),
    Call.Goes Call.oneClient Call.bareQuery Call.bareCall
      (.exchange { address := "10.0.0.1:80" } request) ∧
    Reachable {} s ∧ Step s s' ∧
    .exchange (Traffic.ping request) (.finished (.ok ⟨Traffic.bareResponse, "10.0.0.1:80"⟩)) ∈
      s'.activities ∧
    (Call.bareCall.conclude { address := "10.0.0.1:80" }
      (.ok ⟨Traffic.bareResponse, "10.0.0.1:80"⟩) s'.now).result = .error (.requestIdMismatch 1 2) ∧
    ¬ s'.Retired Traffic.firstConn.id ∧ s'.pool.idle.head? = some Traffic.firstConn := by
  obtain ⟨request, hg⟩ := Call.goes_bareCall
  have hw : IsWhole request := by
    obtain ⟨_, _, _, _, _, -, -, ho⟩ := hg
    exact Net.isWhole_of_onward ho
  obtain ⟨s, h, hpool, hnow, hs⟩ := reachable_reading hw
  have hm : (Exchange.reading "10.0.0.1:80" ⟨some Traffic.firstConn, false, none, false⟩
      (.start Frame.maxSize)).Moves (Traffic.ping request) s.pool s.now _ _ :=
    .receive "10.0.0.1:80" rfl Traffic.feed_bareResponse
  have hstep : Step s _ := .advance (.mk hs (.exchange hm) (List.forall_mem_nil _))
  have hcheck :
      Call.check Call.bareCall.header Traffic.bareResponse = .error (.requestIdMismatch 1 2) := by
    decide +kernel
  have hhead : (Exchange.received s.pool "10.0.0.1:80" ⟨some Traffic.firstConn, false, none, false⟩
      (.ok Traffic.bareResponse) s.now).pool.idle.head? = some Traffic.firstConn := by
    rw [hpool, hnow]
    rfl
  refine ⟨request, _, _, hg, h, hstep, List.mem_cons_self, ?_, not_retired hhead, hhead⟩
  simp [Call.conclude, hcheck, Except.mapError, Fault.withCost]

end Courier

import Courier.Proofs.Call.RetrySafety

/-!
# What a call writes

The bytes that an exchange hands to sockets are a front part of its request at any time, each byte
once and in order, and all of it once the exchange has come to read. So the first whole frame that a
peer can find among them is the request, made from the header that the call has begun with.
-/
namespace Courier
open Bytes (toList)

namespace Exchange

/-- What an exchange has handed to sockets, by how far it has come. -/
def HasSent (request sent : List UInt8) : Exchange → Prop
  | .acquiring _ => sent = []
  | .writing _ _ w => toList w.buf = request ∧ toList w.taken = sent
  | .reading _ _ _ | .finished (.ok _) => sent = request
  | .finished (.error _) => sent <+: request

theorem HasSent.isPrefix {request sent : List UInt8} {x : Exchange} (h : x.HasSent request sent) :
    sent <+: request := by
  match x with
  | .acquiring _ =>
    obtain rfl : sent = [] := h
    exact List.nil_prefix
  | .writing _ _ w =>
    obtain ⟨rfl, rfl⟩ := h
    exact w.taken_prefix
  | .reading _ _ _ | .finished (.ok _) =>
    obtain rfl : sent = request := h
    exact List.prefix_refl _
  | .finished (.error _) => exact h

theorem hasSent_begin (request : List UInt8) (done : Option Done) :
    (begin done).HasSent request [] := by
  cases done with
  | none => rfl
  | some why => exact List.nil_prefix

variable {e : Errand} {x y : Exchange} {sent : List UInt8}

theorem hasSent_step {p : Pool} {now : Instant} {s : Pool.Step Exchange} {touch : Touch}
    (h : x.Moves e p now s touch) (hx : x.HasSent (toList e.request) sent) :
    s.next.HasSent (toList e.request) (sent ++ toList touch.sent) := by
  have hrest (hw : x.isWriting = false) : sent ++ toList touch.sent = sent := by
    rw [sent_of_not_writing h hw, Bytes.toList_empty, List.append_nil]
  cases h with
  | acquire h =>
    rw [hrest rfl]
    exact hx
  | refuse f =>
    rw [hrest rfl]
    exact hx.isPrefix
  | acquired h deadline done =>
    rw [hrest rfl]
    obtain rfl : sent = [] := hx
    cases done with
    | none => exact ⟨rfl, by simp [Frame.Writer.start, Frame.Writer.taken]⟩
    | some why => exact List.nil_prefix
  | send remote hc hw hn =>
    obtain ⟨hbuf, rfl⟩ := hx
    obtain ⟨hbuf', htaken⟩ := Frame.Writer.feed_took hn
    exact ⟨hbuf' ▸ hbuf, htaken⟩
  | @wrote h w io r remote done hio hr =>
    have hsent : sent ++ toList Touch.nothing.sent = sent := List.append_nil sent
    rw [hsent]
    obtain ⟨f, -, hwrote⟩ | ⟨rfl, hwrote⟩ := wrote_cases p remote h r done now
    · rw [hwrote]
      exact hx.isPrefix
    · obtain ⟨hbuf, rfl⟩ := hx
      rw [hwrote]
      exact (Frame.Writer.taken_of_isComplete (isComplete_of_wrote hio hr)).trans hbuf
  | take remote hc hr =>
    rw [hrest rfl]
    exact hx
  | receive remote hc hr =>
    rw [hrest rfl]
    exact hx
  | reject remote hc hr =>
    rw [hrest rfl]
    exact hx.isPrefix
  | stall remote done hio hr =>
    rw [hrest rfl]
    exact hx.isPrefix

theorem Path.hasSent {trace : Trace} (h : Path e x trace y)
    (hx : x.HasSent (toList e.request) sent) :
    y.HasSent (toList e.request) (sent ++ trace.handed) := by
  induction h generalizing sent with
  | stay x => simpa [Trace.handed] using hx
  | go p now hm _ ih =>
    have := ih (hasSent_step hm hx)
    simpa [Trace.handed] using this

/-- A whole frame at the front of what an exchange has handed to sockets is its request. -/
theorem Path.eq_request {trace : Trace} {done : Option Done} {frame : ByteArray}
    (h : Path e (.begin done) trace y) (hr : Frame.IsWhole e.request) (hf : Frame.IsWhole frame)
    (hp : toList frame <+: trace.handed) : frame = e.request := by
  have hsent := (h.hasSent (hasSent_begin _ done)).isPrefix
  rw [List.nil_append] at hsent
  exact hf.eq_of_prefix hr (hp.trans hsent)

/-- An exchange that dials and writes its request in one go. -/
theorem exists_path_written (ticket : Ticket) (address : String) {request : ByteArray}
    (hr : 0 < request.size) : ∃ trace x, Path ⟨ticket, address, request⟩ (.begin none) trace x ∧
      trace.handed = toList request := by
  let conn : Conn := ⟨0, address, none, 0, 0⟩
  let p : Pool := .new "tcp" address {}
  have hd : (Pool.Dial.start p 0 none 0).Ends 0 (.ok conn) :=
    ⟨some (.ok conn), none, .connected conn, rfl⟩
  have hbegun : (Frame.Writer.start request).isComplete = false :=
    decide_eq_false (Nat.not_le_of_lt hr)
  have hfeed : (Frame.Writer.start request).feed (.took request.size) =
      .ok ⟨request, request.size⟩ := by
    simp [Frame.Writer.start, Frame.Writer.feed, Frame.Writer.left, Nat.ne_of_gt hr]
  have hcomplete : Frame.Writer.isComplete ⟨request, request.size⟩ = true := by
    simp [Frame.Writer.isComplete]
  have h7 := Path.go (e := ⟨ticket, address, request⟩) p 0
    (.wrote (h := .ofConn p false conn) address none (.flushed hcomplete none) rfl) (.stay _)
  have h6 := Path.go p 0 (.send address rfl hbegun hfeed) h7
  have h5 := Path.go p 0 (.acquired (.ofConn p false conn) none none) h6
  have h4 := Path.go p 0 (.acquire (.endDial false hd)) h5
  have h3 := Path.go p 0 (.acquire (.beginDial false 0 none none)) h4
  have h2 := Path.go p 0 (.acquire (.pop false)) h3
  have h1 : Path _ (.begin none) _ _ := .go p 0 (.acquire (.arrive none)) h2
  exact ⟨_, _, h1, h1.hasSent (hasSent_begin _ none)⟩

end Exchange

namespace Call
variable {σ : Type} {client : Client σ} {query : Query} {call : Call σ}

/-- A call goes on with what it was asked for. -/
theorem of_begin {c : Context} {now : Instant} (h : begin client query c now = .ok call) :
    call.query = query ∧ call.header = wireHeader query.header (c.remaining now) := by
  unfold begin at h
  dsimp only at h
  split at h
  · cases h
  · cases h
    exact ⟨rfl, rfl⟩

/-- The request of an exchange is made from the header of the call. -/
theorem encodeRequest_of_onward {nonce : ByteArray} {selected : Except Fault Node}
    {done : Option Done} {node : Node} {request : ByteArray}
    (h : (call.onward nonce selected done).1 = .exchange node request) :
    Message.encodeRequest call.query.packing nonce call.header call.query.body = .ok request := by
  unfold onward at h
  split at h
  · cases h
  · split at h
    · cases h
    next hr =>
      cases h
      unfold Call.request at hr
      split at hr
      · exact (Prod.mk.inj hr).1
      · cases hr

end Call

end Courier

import Courier.Proofs.Call.Course
import Courier.Proofs.Message.FrameTypes

/-!
# What a call sends and delivers

All that a call puts on a socket is a front part of one frame on one connection: the encoding of
what the caller has asked for, where the header may have another limit. All that it takes from there
decides what it returns. If that is a whole response frame which belongs to the request, the call
returns what is in it and nothing else. If not, the first thing that is wrong with it is the fault
of the call.
-/
namespace Courier
open Bytes (toList)
open Courier.Frame (IsWhole)

/-- The fault of a response does not get the cost of its call. -/
theorem Fault.withCost_of_kind {f : Fault}
    (h : f.kind = .decodeFailure ∨ f.kind = .protocolMismatch ∨ f.kind = .server) (cost : Span) :
    f.withCost cost = f := by
  cases f with
  | dial | timeout | canceled | network => simp [kind] at h
  | _ => rfl

theorem Message.kind_of_decodeResponse {frame : ByteArray} {f : Fault}
    (h : decodeResponse frame = .error f) : f.kind = .decodeFailure := by
  unfold decodeResponse at h
  split at h
  next hsplit =>
    cases h
    exact Frame.kind_of_split hsplit
  · split at h
    · cases h
      rfl
    · split at h
      · cases h
        rfl
      · cases h

namespace Call
variable {σ : Type} {client : Client σ} {query : Query} {call : Call σ} {config : Pool.Config}

/-! ## Responses -/

/-- What is wrong with the header of a response, in the order in which it is looked at. -/
def violations (h : RequestHeader) (reply : ResponseHeader) : List Fault :=
  (reply.error.toList.map fun e => .server e.code e.message) ++
    (if reply.id = h.id then [] else [.requestIdMismatch h.id reply.id]) ++
    if reply.mode = h.mode then [] else [.queryModeMismatch h.mode reply.mode]

/-- The response frame holds the reply, which is one to a request with this header. -/
structure Answers (h : RequestHeader) (response : ByteArray) (reply : Reply) : Prop where
  decodes : Message.decodeResponse response = .ok reply
  unfailed : ∀ e ∈ reply.1.err, e.code = 0
  id : reply.1.id = h.id
  mode : reply.1.mode = h.mode

/-- The first thing that is wrong with a response decides. -/
theorem check_eq (h : RequestHeader) (response : ByteArray) :
    check h response = (Message.decodeResponse response).bind fun reply =>
      match violations h reply.1 with
      | [] => .ok reply
      | f :: _ => .error f := by
  unfold check violations
  cases Message.decodeResponse response with
  | error f => rfl
  | ok reply =>
    obtain ⟨reply, body⟩ := reply
    cases hfailed : reply.error with
    | some e => simp [Except.bind, hfailed]
    | none =>
      by_cases hid : reply.id = h.id <;> by_cases hmode : reply.mode = h.mode <;>
      simp [Except.bind, *]

theorem error_eq_none_iff {reply : ResponseHeader} :
    reply.error = none ↔ ∀ e ∈ reply.err, e.code = 0 := by
  simp [ResponseHeader.error, Option.filter_eq_none_iff, ServiceError.isSuccess]

theorem violations_eq_nil_iff {h : RequestHeader} {reply : ResponseHeader} :
    violations h reply = [] ↔ (∀ e ∈ reply.err, e.code = 0) ∧ reply.id = h.id ∧
    reply.mode = h.mode := by
  simp [violations, error_eq_none_iff]

theorem check_eq_ok_iff {h : RequestHeader} {response : ByteArray} {reply : Reply} :
    check h response = .ok reply ↔ Answers h response reply := by
  rw [check_eq]
  cases hdecode : Message.decodeResponse response with
  | error f =>
    constructor
    · rintro ⟨⟩
    · intro hanswers
      cases hdecode.symm.trans hanswers.decodes
  | ok found =>
    have hmatch : Except.bind (.ok found) (fun reply : Reply =>
        match violations h reply.1 with
        | [] => Except.ok reply
        | f :: _ => .error f) = .ok reply ↔ violations h found.1 = [] ∧ found = reply := by
      dsimp only [Except.bind]
      cases violations h found.1 <;> simp
    rw [hmatch, violations_eq_nil_iff]
    constructor
    · rintro ⟨⟨hunfailed, hid, hmode⟩, rfl⟩
      exact ⟨hdecode, hunfailed, hid, hmode⟩
    · rintro ⟨hdecodes, hunfailed, hid, hmode⟩
      cases hdecode.symm.trans hdecodes
      exact ⟨⟨hunfailed, hid, hmode⟩, rfl⟩

theorem kind_of_violation {h : RequestHeader} {reply : ResponseHeader} {f : Fault}
    (hf : f ∈ violations h reply) : f.kind = .protocolMismatch ∨ f.kind = .server := by
  simp only [violations, List.mem_append, List.mem_map] at hf
  obtain (⟨e, -, rfl⟩ | hid) | hmode := hf
  · exact .inr rfl
  · split at hid
    · cases hid
    · rw [List.mem_singleton.1 hid]
      exact .inl rfl
  · split at hmode
    · cases hmode
    · rw [List.mem_singleton.1 hmode]
      exact .inl rfl

theorem kind_of_check {h : RequestHeader} {response : ByteArray} {f : Fault}
    (hf : check h response = .error f) :
    f.kind = .decodeFailure ∨ f.kind = .protocolMismatch ∨ f.kind = .server := by
  rw [check_eq] at hf
  cases hdecode : Message.decodeResponse response with
  | error f' =>
    rw [hdecode] at hf
    cases hf
    exact .inl (Message.kind_of_decodeResponse hdecode)
  | ok reply =>
    rw [hdecode] at hf
    dsimp only [Except.bind] at hf
    split at hf
    · cases hf
    next hviolations =>
      cases hf
      exact .inr (kind_of_violation (hviolations ▸ List.mem_cons_self))

/-- The result of a call that got a response is what the check of the response says. -/
theorem result_of_trip (call : Call σ) (node : Node) (trip : RoundTrip) (now : Instant) :
    (call.conclude node (.ok trip) now).result = check call.header trip.response := by
  unfold conclude
  dsimp only
  cases hcheck : check call.header trip.response with
  | ok reply => rfl
  | error f => exact congrArg Except.error (Fault.withCost_of_kind (kind_of_check hcheck) _)

/-- A call checks the response against the header that it was asked to send. -/
theorem check_of_begin {c : Context} {start : Instant} (hb : begin client query c start = .ok call)
    (response : ByteArray) : check call.header response = check query.header response := by
  obtain ⟨-, hheader⟩ := of_begin hb
  rw [hheader]
  rfl

/-! ## Bytes -/

/-- The response has come: all that the call has read is a whole frame. -/
def Delivered (turns : List Turn) (response : ByteArray) : Prop :=
  IsWhole response ∧ toList response = (trace turns).received

theorem Exchanged.response_iff {node : Node} {trace : Trace} {exchanged : Except Fault RoundTrip}
    (h : Exchanged call node trace exchanged) (response : ByteArray) :
    (IsWhole response ∧ toList response = trace.received) ↔
      ∃ remote, exchanged = .ok ⟨response, remote⟩ := by
  cases h with
  | unbegun ht f =>
    subst ht
    constructor
    · rintro ⟨hwhole, hnil⟩
      exact absurd hwhole (Exchange.not_whole_of_empty hnil)
    · rintro ⟨remote, h⟩
      cases h
  | ended ha hr hl => exact hl.response_iff response

/-! ## Sent and delivered -/

/-- What the call has put on sockets is a front part of the frame, all of it on one connection. The
frame is what the caller has asked for, up to the limit in its header. If the call is over and has
come to write, a part is missing only if the write has failed. -/
structure Sends (query : Query) (turns : List Turn) (phase : Phase) (frame : ByteArray) : Prop where
  encodes : ∃ nonce timeoutMillis, nonce.size = Envelope.nonceSize ∧
    Message.encodeRequest query.packing nonce { query.header with timeoutMillis } query.body =
      .ok frame
  front : (trace turns).handed <+: toList frame
  once : ∀ c ∈ (trace turns).conns, ∀ c' ∈ (trace turns).conns, c' = c
  all : ∀ result learned, phase = .ended result learned → (trace turns).hasWrite = true →
    (trace turns).handed = toList frame ∨ ∃ f, result = .error f ∧ f.stage? = some .write

/-- What a call returns, from all that it has read. Nothing that is said of single units makes a
difference. -/
structure Delivers (h : RequestHeader) (turns : List Turn) (result : Except Fault Reply) :
    Prop where
  ok_iff :
    ∀ reply, result = .ok reply ↔ ∃ response, Delivered turns response ∧ Answers h response reply
  undecodable :
    ∀ response f, Delivered turns response → Message.decodeResponse response = .error f →
    result = .error f
  violated : ∀ response reply, Delivered turns response →
    Message.decodeResponse response = .ok reply →
    ∀ f ∈ (violations h reply.1).head?, result = .error f
  units : ∀ response reply body unitErrors absentUnits, Delivered turns response →
    Message.encodeResponse { reply with unitErrors, absentUnits } body = .ok response →
    violations h reply = [] → result = .ok ({ reply with unitErrors, absentUnits }, body)

/-- A call that has read a whole frame returns what the check of it says, and otherwise it fails. -/
theorem Delivers.of_check {h : RequestHeader} {turns : List Turn} {result : Except Fault Reply}
    (hcheck : ∀ response, Delivered turns response → result = check h response)
    (hfails : (∀ response, ¬ Delivered turns response) → ∃ f, result = .error f) :
    Delivers h turns result where
  ok_iff reply := by
    constructor
    · intro hok
      by_cases hd : ∃ response, Delivered turns response
      · obtain ⟨response, hd⟩ := hd
        exact ⟨response, hd, check_eq_ok_iff.1 ((hcheck response hd).symm.trans hok)⟩
      · obtain ⟨f, hf⟩ := hfails (not_exists.1 hd)
        cases hok.symm.trans hf
    · rintro ⟨response, hd, hanswers⟩
      rw [hcheck response hd, check_eq_ok_iff]
      exact hanswers
  undecodable response f hd hdecode := by
    rw [hcheck response hd, check_eq, hdecode]
    rfl
  violated response reply hd hdecode f hf := by
    rw [hcheck response hd, check_eq, hdecode]
    dsimp only [Except.bind]
    cases hviolations : violations h reply.1 with
    | nil => simp [hviolations] at hf
    | cons g rest =>
      rw [hviolations] at hf
      cases hf
      rfl
  units response reply body unitErrors absentUnits hd hencode hnone := by
    obtain ⟨hunfailed, hid, hmode⟩ := violations_eq_nil_iff.1 hnone
    rw [hcheck response hd, check_eq_ok_iff]
    exact ⟨Message.decodeResponse_encodeResponse hencode, hunfailed, hid, hmode⟩

/-- Nothing is no response. -/
theorem not_delivered {turns : List Turn} (h : (trace turns).received = []) (response : ByteArray) :
    ¬ Delivered turns response := by
  rintro ⟨hwhole, hnil⟩
  exact Exchange.not_whole_of_empty (hnil.trans h) hwhole

/-- The bytes of a request are those of what the caller has asked for, up to the limit. -/
theorem Encodes.of_begin {c : Context} {start : Instant}
    (hb : begin client query c start = .ok call) {request : ByteArray} (h : call.Encodes request) :
    ∃ nonce timeoutMillis,
      nonce.size = Envelope.nonceSize ∧ Message.encodeRequest query.packing nonce
        { query.header with timeoutMillis } query.body = .ok request := by
  obtain ⟨nonce, hn, hencode⟩ := h
  obtain ⟨rfl, hheader⟩ := Call.of_begin hb
  rw [hheader] at hencode
  exact ⟨nonce, _, hn, hencode⟩

/-- A call that is over has failed, or it returns what the check of its response says. -/
theorem Course.delivers {turns : List Turn} {result : Except Fault Reply}
    {learned : Option CallResult} (h : call.Course config turns (.ended result learned))
    {header : RequestHeader}
    (hheader : ∀ response, check call.header response = check header response) :
    Delivers header turns result := by
  obtain ⟨hnone, hresult⟩ | ⟨node, exchanged, now, hexchanged, rfl⟩ := h.ended_cases
  · exact .of_check (fun response hd => absurd hd (not_delivered (by rw [hnone]; rfl) response))
      fun _ => hresult
  · refine .of_check (fun response hd => ?_) fun hnone => ?_
    · obtain ⟨remote, rfl⟩ := (hexchanged.response_iff response).1 hd
      rw [result_of_trip, hheader]
    · cases exchanged with
      | error f => exact ⟨_, rfl⟩
      | ok trip =>
        exact absurd ((hexchanged.response_iff trip.response).2 ⟨trip.remote, rfl⟩) (hnone _)

/-- What a call sends, whether it is over or not, and what it delivers when it is over. -/
theorem delivery {c : Context} {start : Instant} {turns : List Turn} {phase : Phase}
    (h : Invokes client query config c start turns phase) :
    (((trace turns).hasWrite = false ∧ (trace turns).handed = [] ∧ (trace turns).received = []) ∨
      ∃ frame, Sends query turns phase frame) ∧
    ∀ result learned, phase = .ended result learned → Delivers query.header turns result := by
  cases h with
  | @unresolved f hb =>
    refine ⟨.inl ⟨rfl, rfl, rfl⟩, fun result learned hended => ?_⟩
    cases hended
    exact .of_check (fun response hd => absurd hd (not_delivered rfl response)) fun _ => ⟨f, rfl⟩
  | @resolved call _ _ hb hc =>
    constructor
    · obtain hnone | ⟨e, x, hencodes, hledger, hended⟩ := hc.ledger
      · rw [hnone]
        exact .inl ⟨rfl, rfl, rfl⟩
      · refine .inr ⟨e.request, hencodes.of_begin hb, hledger.sent.isPrefix, hledger.keeps.once,
          fun result learned hphase hwrite => ?_⟩
        obtain ⟨node, exchanged, now, rfl, rfl⟩ := hended result learned hphase
        obtain hall | ⟨f, rfl, hstage⟩ := hledger.handed_or_write hwrite
        · exact .inl hall
        · exact .inr ⟨_, rfl, (f.stage?_withCost _).trans hstage⟩
    · rintro result learned rfl
      exact hc.delivers (check_of_begin hb)

/-- A call can be answered with any response to its number that has no error, whatever is in it. -/
theorem exists_invokes_answered {reply : ResponseHeader} {body response : ByteArray}
    (hencode : Message.encodeResponse reply body = .ok response)
    (hnone : violations bareQuery.header reply = []) :
    ∃ turns, Invokes oneClient bareQuery {} .endless 0 turns (.ended (.ok (reply, body))
      (some ⟨{ address := "10.0.0.1:80", cost := some 0 }, "10.0.0.1:80", 0⟩)) := by
  obtain ⟨request, hrequest⟩ := exists_bareRequest
  obtain ⟨turns, hc⟩ := exists_answered bareCall ⟨0, .none⟩ { address := "10.0.0.1:80" } rfl
    (by decide) rfl hrequest (Frame.isWhole_of_build hencode) (Frame.size_le_of_build hencode)
  obtain ⟨hunfailed, hid, hmode⟩ := violations_eq_nil_iff.1 hnone
  have hchecked : check bareCall.header response = .ok (reply, body) :=
    check_eq_ok_iff.2 ⟨Message.decodeResponse_encodeResponse hencode, hunfailed, hid, hmode⟩
  rw [result_of_trip, hchecked] at hc
  exact ⟨turns, .resolved rfl hc⟩

/-- A response that says of two units that one has failed and the other is absent. -/
def partialResponse : ResponseHeader where
  id := 1
  unitErrors := .ofList [("a", { code := 7 })]
  absentUnits := .ofList [("b", true)]

theorem exists_partialResponse :
    ∃ response, Message.encodeResponse partialResponse .empty = .ok response := by
  have hfits : Frame.Fits (Bytes.ofList partialResponse.encode) .empty :=
    ⟨by decide +kernel, by decide +kernel⟩
  exact ⟨_, Frame.build_of_fits .plain hfits⟩

/-- It is delivered to the call that it answers. -/
theorem delivery_partial : ∃ turns learned response,
    Invokes oneClient bareQuery {} .endless 0 turns
      (.ended (.ok (partialResponse, .empty)) learned) ∧
    (∃ frame, Sends bareQuery turns (.ended (.ok (partialResponse, .empty)) learned) frame) ∧
    Delivered turns response ∧ Answers bareQuery.header response (partialResponse, .empty) := by
  obtain ⟨response, hencode⟩ := exists_partialResponse
  obtain ⟨turns, hinvokes⟩ := exists_invokes_answered hencode rfl
  obtain ⟨hsends, hdelivers⟩ := delivery hinvokes
  obtain ⟨response, hdelivered, hanswers⟩ := ((hdelivers _ _ rfl).ok_iff _).1 rfl
  refine ⟨turns, _, response, hinvokes, hsends.resolve_left fun hnone => ?_, hdelivered, hanswers⟩
  exact not_delivered hnone.2.2 response hdelivered

end Call

end Courier

import Courier.Call
import Courier.Proofs.Exchange.Moves

/-!
# Where faults arise

Faults in finding a node, in encoding a request and in getting a connection are not sent; faults in
writing, reading and checking a response are sent. One lemma for each part of a call that can fail.
-/
namespace Courier

theorem Done.isSent_fault (why : Done) (stage : Stage) :
    (why.fault stage).isSent = stage.isSent := by
  cases why <;> rfl

theorem Fault.isSent_ofIo (e : IoError) (stage : Stage) (doing : String) :
    (Fault.ofIo e stage doing).isSent = stage.isSent := by
  unfold Fault.ofIo
  split <;> rfl

/-! ## Before the write -/

theorem SelectorRegistry.isSent_resolve {σ : Type} {r : SelectorRegistry σ} {target : String}
    {f : Fault} (h : r.resolve target = .error f) : f.isSent = false := by
  unfold resolve at h
  split at h
  next hp =>
    cases h
    unfold Target.parse at hp
    split at hp
    · cases hp
      rfl
    · split at hp
      · cases hp
        rfl
      · cases hp
  · split at h
    · cases h
    · cases h
      rfl

theorem Call.isSent_resolve {σ : Type} {client : Client σ} {target : String} {f : Fault}
    (h : resolve client target = .error f) : f.isSent = false := by
  unfold resolve at h
  split at h
  · split at h
    · cases h
    · cases h
      rfl
  · exact SelectorRegistry.isSent_resolve h

theorem Frame.isSent_build {type : FrameType} {header body : ByteArray} {f : Fault}
    (h : build type header body = .error f) : f.isSent = false := by
  unfold build at h
  split at h
  · cases h
  next hc =>
    cases h
    unfold construct at hc
    dsimp only at hc
    split at hc
    · cases hc
      rfl
    · split at hc
      · cases hc
        rfl
      · cases hc

theorem Message.isSent_encodeRequest {packing : Packing} {nonce body : ByteArray}
    {header : RequestHeader} {f : Fault} (h : encodeRequest packing nonce header body = .error f) :
    f.isSent = false := by
  unfold encodeRequest at h
  split at h
  next hb =>
    cases h
    exact Frame.isSent_build hb
  · split at h
    · cases h
    · exact Frame.isSent_build h
    · exact Frame.isSent_build h

theorem Call.isSent_request {σ : Type} {call : Call σ} {nonce : ByteArray} {f : Fault}
    {counts : List Counter} (h : call.request nonce = (.error f, counts)) : f.isSent = false := by
  unfold request at h
  split at h
  · exact Message.isSent_encodeRequest (Prod.mk.inj h).1
  · cases h
    rfl

theorem Pool.isSent_beginDial {p : Pool} {f : Fault} (h : p.beginDial = .error f) :
    f.isSent = false := by
  unfold beginDial at h
  split at h
  · cases h
    rfl
  · split at h
    · cases h
      rfl
    · cases h

theorem Pool.Dial.isSent_mapError {α : Type} {r : Option (Except String α)} {say : String → String}
    {f : Fault}
    (h : r.map (fun r => r.mapError fun why => Fault.dial (say why)) = some (.error f)) :
    f.isSent = false := by
  obtain ⟨r, -, hr⟩ := Option.map_eq_some_iff.1 h
  cases r with
  | error why =>
    cases hr
    rfl
  | ok a => cases hr

theorem Pool.Dial.isSent_connect {α : Type} {d : Dial} {reach : Reach α} {f : Fault}
    (h : d.connect reach = some (.error f)) : f.isSent = false := by
  unfold connect at h
  split at h
  · split at h
    · cases h
      rfl
    · exact isSent_mapError h
  · split at h
    · exact isSent_mapError h
    · cases h
      rfl

/-- However a dial fails, nothing is sent. -/
theorem Pool.Dial.isSent_ends {d : Dial} {now : Instant} {f : Fault} (h : d.Ends now (.error f)) :
    f.isSent = false := by
  obtain ⟨reached, done, hstands, hpoll⟩ := h
  cases hstands with
  | connected c => cases hpoll
  | failed reach hc =>
    cases hpoll
    exact isSent_connect hc
  | underWay =>
    unfold poll at hpoll
    dsimp only at hpoll
    split at hpoll
    · cases hpoll
      rfl
    · cases done with
      | none => cases hpoll
      | some why =>
        cases hpoll
        exact why.isSent_fault .dial

/-! ## From the write on -/

theorem Frame.Writer.isSent_feed {w : Writer} {a : Reception} {f : Fault}
    (h : w.feed a = .error f) : f.isSent = true := by
  unfold feed at h
  split at h
  · cases h
    exact Fault.isSent_ofIo _ .write _
  · split at h
    · cases h
      rfl
    · cases h

theorem Frame.Writer.isSent_flush {outcome : Option IoError} {f : Fault}
    (h : flush outcome = .error f) : f.isSent = true := by
  cases outcome with
  | none => cases h
  | some e =>
    cases h
    exact Fault.isSent_ofIo e .write _

theorem Frame.Reader.isSent_feed {r : Reader} {piece left : ByteArray} {f : Fault}
    (h : r.feed piece = (.fault f, left)) : f.isSent = true := by
  have hrest {r : Reader} {piece left : ByteArray} (h : r.feedRest piece = (.fault f, left)) :
      f.isSent = true := by
    unfold feedRest at h
    dsimp only at h
    split at h <;> cases h
  unfold feed at h
  dsimp only at h
  split at h
  · split at h
    · cases h
    · split at h
      next hc =>
        cases h
        unfold checkLength at hc
        split at hc
        · cases hc
          rfl
        · split at hc
          · cases hc
            rfl
          · cases hc
      next => exact hrest h
  · exact hrest h

/-- A write or a read that waits ends with the deadline of the handle or with the context. -/
theorem Exchange.isSent_await {α : Type} {h : Handle} {stage : Stage} {done : Option Done}
    {now : Instant} {f : Fault} (hr : await (α := α) h stage none done now = some (.error f)) :
    f.isSent = stage.isSent := by
  unfold await Handle.await at hr
  dsimp only at hr
  split at hr
  next r hd =>
    split at hd
    · cases hd
      cases hr
      rfl
    · cases hd
  next =>
    cases done with
    | none => cases hr
    | some why =>
      cases hr
      exact why.isSent_fault stage

/-! ## Responses -/

theorem FrameHead.isSent_extract {buf : ByteArray} {f : Fault} (h : extract buf = .error f) :
    f.isSent = true := by
  unfold extract at h
  split at h
  · cases h
    rfl
  · split at h
    · cases h
      rfl
    · split at h
      · cases h
        rfl
      · cases h

theorem Frame.isSent_split {buf : ByteArray} {f : Fault} (h : split buf = .error f) :
    f.isSent = true := by
  unfold Frame.split at h
  split at h
  next he =>
    cases h
    exact FrameHead.isSent_extract he
  · dsimp only at h
    split at h
    · cases h
      rfl
    · split at h
      · cases h
        rfl
      · split at h
        · cases h
          rfl
        · cases h

theorem Message.isSent_decodeResponse {frame : ByteArray} {f : Fault}
    (h : decodeResponse frame = .error f) : f.isSent = true := by
  unfold decodeResponse at h
  split at h
  next hs =>
    cases h
    exact Frame.isSent_split hs
  · split at h
    · cases h
      rfl
    · split at h
      · cases h
        rfl
      · cases h

/-- Whatever is wrong with a response, its request was sent. -/
theorem Call.isSent_check {header : RequestHeader} {response : ByteArray} {f : Fault}
    (h : check header response = .error f) : f.isSent = true := by
  unfold check at h
  split at h
  next hd =>
    cases h
    exact Message.isSent_decodeResponse hd
  · split at h
    · cases h
      rfl
    · split at h
      · cases h
        rfl
      · split at h
        · cases h
          rfl
        · cases h

end Courier

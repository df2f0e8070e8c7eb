import Courier.Proofs.Traffic.Steps

/-!
# Lines fit the operations that use them

While an exchange writes and reads, its line carries its request; connections that are idle,
checked, swept or opened ahead have quiet lines; and the response of an exchange that is complete is
one by which a peer has answered its request. Each step of an operation keeps this.
-/
namespace Courier.Traffic
open Bytes (toList)
open Courier.Frame (IsWhole)
open Pool (Life Activity Acquire PreDial Balanced numbers located)

def Lines.Quiet (lines : Lines) (ids : List Nat) : Prop := ∀ id ∈ ids, (lines id).IsQuiet

/-- How far an exchange has come is how far its line has. -/
def Lines.FitExchange (lines : Lines) (e : Errand) : Exchange → Prop
  | .acquiring a => lines.Quiet a.stock.conns
  | .writing _ h w =>
    w.buf = e.request ∧
      ∀ c ∈ h.conn, (lines c.id).Carries e.ticket (toList e.request) (toList w.taken) []
  | .reading _ h r =>
    ∀ c ∈ h.conn, (lines c.id).Carries e.ticket (toList e.request) (toList e.request) (toList r.got)
  | .finished (.ok trip) =>
    ∃ id, ∃ s ∈ (lines id).served,
      s.request = stamp e.ticket (toList e.request) ∧ s.response = trip.response
  | .finished (.error _) => True

/-- There are no callers here that use connections in ways of their own. -/
def Lines.Fit (lines : Lines) : Activity → Prop
  | .exchange e x => IsWhole e.request ∧ lines.FitExchange e x
  | .sweep s => lines.Quiet (numbers s.conns)
  | .topUp t => lines.Quiet (numbers t.conns)
  | .over => True
  | .get _ _ | .use _ => False

theorem mem_stock {h : Handle} {c : Conn} (hc : c ∈ h.conn) :
    c.id ∈ (Pool.Handle.stock h).conns := by
  simp [Pool.Handle.stock, Option.mem_def.1 hc]

/-- What is in hand after a balanced step was so before or is new. -/
theorem quiet_of_balanced {lines : Lines} {p p' : Pool} {a a' : Pool.Stock}
    {opened closes : List Nat} (h : Balanced p a opened p' a' closes)
    (hp : lines.Quiet (numbers p.idle)) (ha : lines.Quiet a.conns) (ho : lines.Quiet opened) :
    lines.Quiet a'.conns ∧ lines.Quiet (numbers p'.idle) := by
  have hall : lines.Quiet (numbers p'.idle ++ a'.conns ++ closes) := by
    intro id hid
    have := h.perm.subset hid
    simp only [List.mem_append] at this
    obtain (hid | hid) | hid := this
    · exact hp id hid
    · exact ha id hid
    · exact ho id hid
  exact ⟨fun id hid => hall id (by simp [hid]), fun id hid => hall id (by simp [hid])⟩

section Steps
variable {lines lines' : Lines} {p : Pool} {now : Instant} {touch : Touch}

/-- Nothing changes for an operation whose lines stay as they are. -/
theorem Lines.Fit.frame {a : Activity} (h : lines.Fit a)
    (hsame : ∀ id ∈ a.stock.conns, lines' id = lines id)
    (hserved : ∀ id, (lines id).served ⊆ (lines' id).served) : lines'.Fit a := by
  have hquiet {ids : List Nat} (hq : lines.Quiet ids) (hi : ids ⊆ a.stock.conns) :
      lines'.Quiet ids := by
    intro id hid
    rw [hsame id (hi hid)]
    exact hq id hid
  match a with
  | .exchange e (.acquiring a) => exact ⟨h.1, hquiet h.2 (List.Subset.refl _)⟩
  | .exchange e (.writing _ hd w) =>
    refine ⟨h.1, h.2.1, fun c hc => ?_⟩
    rw [hsame c.id (by simpa using mem_stock hc)]
    exact h.2.2 c hc
  | .exchange e (.reading _ hd r) =>
    refine ⟨h.1, fun c hc => ?_⟩
    rw [hsame c.id (by simpa using mem_stock hc)]
    exact h.2 c hc
  | .exchange e (.finished (.ok trip)) =>
    obtain ⟨hw, id, s, hs, hr⟩ := h
    exact ⟨hw, id, s, hserved id hs, hr⟩
  | .exchange e (.finished (.error f)) => exact h
  | .sweep s => exact hquiet h (by simp)
  | .topUp t => exact hquiet h (by simp)
  | .over => trivial

/-- A step that neither writes nor reads keeps quiet what is in hand. -/
theorem quiet_step {a : Activity} {stock stock' : Pool.Stock} {p' : Pool} {closes : List Nat}
    (hb : Balanced p stock (numbers touch.opened) p' stock' closes)
    (hl : lines.Feels a touch lines') (hio : isIo touch = false) (hq : lines.Quiet stock.conns)
    (hp : lines'.Quiet (numbers p.idle)) :
    lines'.Quiet stock'.conns ∧ lines'.Quiet (numbers p'.idle) :=
  quiet_of_balanced hb hp (fun id hid => hl.quiet hio (hq id hid)) fun _ hid => hl.opened hid

theorem fit_exchange {e : Errand} {x : Exchange} {m : Pool.Step Exchange}
    (h : x.Moves e p now m touch) (hl : lines.Feels (.exchange e x) touch lines')
    (hx : lines.FitExchange e x) (hp : lines'.Quiet (numbers p.idle)) :
    lines'.FitExchange e m.next ∧ lines'.Quiet (numbers m.pool.idle) := by
  cases h with
  | acquire h => exact quiet_step (Acquire.balanced h) hl (touched_acquire h).1 hx hp
  | refuse f => exact ⟨trivial, hp⟩
  | acquired h deadline done =>
    obtain rfl := hl.of_nothing
    have hq : lines'.Quiet (Pool.Handle.stock h).conns := by
      rw [← Pool.stock_served]
      exact hx
    cases done with
    | none =>
      have ht : toList (Frame.Writer.start e.request).taken = [] := by
        simp [Frame.Writer.start, Frame.Writer.taken]
      refine ⟨⟨rfl, fun c hc => ?_⟩, hp⟩
      have hline := hq c.id (mem_stock (h := h) hc)
      rw [ht]
      exact hline.carries e.ticket (toList e.request)
    | some why =>
      have hb := Pool.balanced_release { h with deadline } p h.forceClose now
      exact ⟨trivial, (quiet_of_balanced hb hp hq (fun _ hid => absurd hid List.not_mem_nil)).2⟩
  | @send h c w w' n remote hc hcomplete hn =>
    obtain ⟨hbuf, htaken⟩ := Frame.Writer.feed_took hn
    refine ⟨⟨hbuf.trans hx.1, fun c' hc' => ?_⟩, hp⟩
    obtain rfl : c = c' := Option.some.inj (hc.symm.trans hc')
    have hpre := w'.taken_prefix
    rw [htaken, hbuf, hx.1] at hpre
    rw [htaken, (hl.self rfl).of_sends]
    exact (hx.2 c hc).write hpre
  | @wrote h w io r remote done hio hr =>
    obtain rfl := hl.of_nothing
    obtain ⟨f, -, hw⟩ | ⟨rfl, hw⟩ := Exchange.wrote_cases p remote h r done now
    · rw [hw]
      exact ⟨trivial, by simpa [Exchange.spoil] using hp⟩
    · rw [hw]
      refine ⟨fun c hc => ?_, hp⟩
      have hline := hx.2 c hc
      rw [Frame.Writer.taken_of_isComplete (Exchange.isComplete_of_wrote hio hr), hx.1] at hline
      exact hline
  | @take h c r r' piece remote hc hr =>
    refine ⟨fun c' hc' => ?_, hp⟩
    obtain rfl : c = c' := Option.some.inj (hc.symm.trans hc')
    obtain ⟨rest, hrest, hl'⟩ := (hl.self rfl).of_takes
    rw [Frame.Reader.feed_more hr, hl']
    exact (hx c hc).read hrest
  | @receive h c r piece frame remote hc hr =>
    obtain ⟨rest, hrest, hl'⟩ := (hl.self rfl).of_takes
    have hline := (hx c hc).read hrest
    obtain ⟨hframe, hwhole⟩ := Frame.Reader.feed_frame ((hx c hc).isWithin rfl) hr
    rw [Bytes.toList_empty, List.append_nil] at hframe
    rw [← hframe, ← hl'] at hline
    obtain ⟨hquiet, s, hs, hrequest, hresponse⟩ := hline.finish hwhole
    have hb := Pool.balanced_release h p h.forceClose now
    refine ⟨⟨c.id, s, hs, hrequest, Bytes.toList_injective hresponse⟩, ?_⟩
    refine (quiet_of_balanced hb hp (fun id hid => ?_) (fun _ hid => absurd hid List.not_mem_nil)).2
    obtain rfl : id = c.id := by simpa [hc] using hid
    exact hquiet
  | @reject h c r piece f remote hc hr =>
    exact ⟨trivial, by simpa [Exchange.received, Exchange.spoil] using hp⟩
  | @stall h r io f remote done hio hr =>
    exact ⟨trivial, by simpa [Exchange.received, Exchange.spoil] using hp⟩

theorem fit_step {a : Activity} {m : Pool.Step Activity} (h : a.Moves p now m touch)
    (hl : lines.Feels a touch lines') (ha : lines.Fit a) (hp : lines'.Quiet (numbers p.idle)) :
    lines'.Fit m.next ∧ lines'.Quiet (numbers m.pool.idle) := by
  have hb := Activity.balanced h
  cases h with
  | get => exact ha.elim
  | handOut => exact ha.elim
  | use => exact ha.elim
  | close => exact ha.elim
  | exchange h =>
    obtain ⟨hx, hp⟩ := fit_exchange h hl ha.2 hp
    exact ⟨⟨ha.1, hx⟩, hp⟩
  | judge hs hv =>
    rw [Pool.stock_sweep, Pool.stock_sweep] at hb
    exact quiet_step hb hl rfl ha hp
  | finishSweep hs =>
    rw [Pool.stock_sweep] at hb
    exact ⟨trivial, (quiet_step hb hl rfl ha hp).2⟩
  | @dial before after d s touch h =>
    have hq : lines.Quiet (Activity.topUp ⟨before ++ d :: after⟩).stock.conns := by
      rw [Pool.conns_topUp]
      exact ha
    have hnext := quiet_step hb hl (touched_preDial h).1 hq hp
    rw [Pool.Step.map_next, Pool.conns_topUp] at hnext
    exact hnext
  | finishTopUp ht =>
    rw [Pool.stock_topUp_over ht] at hb
    exact ⟨trivial, (quiet_step hb hl rfl ha hp).2⟩

/-! ## Peers -/

/-- What peers keep of a line holds of all lines when one peer has done something. -/
theorem serves_put {P : Line → Prop} (hP : ∀ l l', P l → l.Serves l' → P l') {id : Nat} {l : Line}
    (h : (lines id).Serves l) (other : Nat) (ho : P (lines other)) : P (lines.put id l other) := by
  by_cases he : other = id
  · subst he
    rw [lines.put_self]
    exact hP _ _ ho h
  · rwa [lines.put_other _ he]

theorem Lines.Quiet.serve {ids : List Nat} (hq : lines.Quiet ids) {id : Nat} {l : Line}
    (h : (lines id).Serves l) : (lines.put id l).Quiet ids :=
  fun other ho => serves_put (fun _ _ hq h => hq.serves h) h other (hq other ho)

/-- A peer answers the request that the line carries. -/
theorem Lines.Fit.serve {a : Activity} (ha : lines.Fit a) {id : Nat} {l : Line}
    (h : (lines id).Serves l) : (lines.put id l).Fit a := by
  match a with
  | .exchange e (.acquiring a) => exact ⟨ha.1, Lines.Quiet.serve ha.2 h⟩
  | .exchange e (.writing _ hd w) =>
    obtain ⟨hw, hbuf, hlines⟩ := ha
    have hpre := w.taken_prefix
    rw [hbuf] at hpre
    refine ⟨hw, hbuf, fun c hc => ?_⟩
    exact serves_put (P := fun l => l.Carries e.ticket (toList e.request) (toList w.taken) [])
      (fun _ _ hl h => hl.serves hw hpre h) h c.id (hlines c hc)
  | .exchange e (.reading _ hd r) =>
    obtain ⟨hw, hlines⟩ := ha
    refine ⟨hw, fun c hc => ?_⟩
    exact serves_put
      (P := fun l => l.Carries e.ticket (toList e.request) (toList e.request) (toList r.got))
      (fun _ _ hl h => hl.serves hw (List.prefix_refl _) h) h c.id (hlines c hc)
  | .exchange e (.finished (.ok trip)) =>
    obtain ⟨hw, other, s, hs, hr⟩ := ha
    have hs' : s ∈ (lines.put id l other).served :=
      serves_put (P := fun l => s ∈ l.served)
        (fun _ _ hs h => Line.served_of_serves h hs) h other hs
    exact ⟨hw, other, s, hs', hr⟩
  | .exchange e (.finished (.error f)) => exact ha
  | .sweep s => exact Lines.Quiet.serve ha h
  | .topUp t => exact Lines.Quiet.serve ha h
  | .over => trivial

end Steps

end Courier.Traffic

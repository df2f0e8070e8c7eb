import Courier.Proofs.Call.Signing

/-!
# Deciding on a time limit

A header is given its limit when it is built, and a call decides on it again when it goes on the
wire, by the time that its caller has left then. Zero stands for no limit, a caller's time is cut to
whole milliseconds and never to none, and what does not fit the field is brought down to the largest
number that does. In terms of whole milliseconds all this is one minimum, which is why deciding
twice is deciding once by the later of the two.
-/
namespace Courier

namespace TimeLimit

/-- The limit on the wire of a call that was given so many milliseconds, zero for no limit, and
whose caller has so much time left. -/
def negotiated (ms : UInt32) (remaining : Option Span) : UInt32 :=
  wire (effective (Span.ofMillis ms.toNat) remaining) remaining.isSome

/-- The milliseconds that a field of the wire can stand for at most; zero is no limit. -/
def ceiling (ms : UInt32) : Nat := if ms = 0 then maxMillis else ms.toNat

/-- There is no more time left later than there was earlier. A caller without a deadline has endless
time. -/
def Within (later : Option Span) : Option Span → Prop
  | none => True
  | some before => ∃ left, later = some left ∧ left ≤ before

theorem toNat_le_maxMillis (ms : UInt32) : ms.toNat ≤ maxMillis := Nat.le_of_lt_succ ms.toNat_lt

theorem one_le_ceiling (ms : UInt32) : 1 ≤ ceiling ms := by
  unfold ceiling
  split
  next => decide
  next h =>
    have hzero : ms = 0 ↔ ms.toNat = 0 := UInt32.toNat_inj.symm
    exact Nat.pos_of_ne_zero (mt hzero.2 h)

theorem ceiling_le_maxMillis (ms : UInt32) : ceiling ms ≤ maxMillis := by
  unfold ceiling
  split
  · exact Nat.le_refl _
  · exact toNat_le_maxMillis ms

/-- The field holds the limit in whole milliseconds, or the largest number if the limit is longer,
or one if a caller has less left. -/
theorem toNat_wire_eq_max (limit : Span) (bounded : Bool) :
    (wire limit bounded).toNat = max bounded.toNat (min limit.millis maxMillis) := by
  rw [toNat_wire]
  cases bounded with
  | false => simp
  | true =>
    simp only [and_true, Bool.toNat_true]
    split <;> omega

section
variable (ms : UInt32) (left : Span)

/-- Without a deadline the limit stays as it is. -/
@[simp] theorem negotiated_none : negotiated ms none = ms := by
  have hle := toNat_le_maxMillis ms
  rw [← UInt32.toNat_inj, negotiated, toNat_wire_eq_max, effective, Span.millis_ofMillis]
  simp [Nat.min_eq_left hle]

/-- With a deadline the limit is what is left, at most the limit that there was and at least one. -/
theorem toNat_negotiated_some :
    (negotiated ms (some left)).toNat = max 1 (min left.millis (ceiling ms)) := by
  have hle := ceiling_le_maxMillis ms
  have hzero : ms = 0 ↔ ms.toNat = 0 := UInt32.toNat_inj.symm
  rw [negotiated, toNat_wire_eq_max, millis_effective]
  simp only [ceiling, hzero, Option.isSome_some, Bool.toNat_true] at hle ⊢
  split at hle <;> split <;> omega

theorem one_le_negotiated_some : 1 ≤ (negotiated ms (some left)).toNat := by
  rw [toNat_negotiated_some]
  exact Nat.le_max_left _ _

theorem negotiated_some_le : (negotiated ms (some left)).toNat ≤ max 1 left.millis := by
  rw [toNat_negotiated_some]
  omega

end

/-- There is no limit only if there was none and no deadline. -/
theorem negotiated_eq_zero {ms : UInt32} {remaining : Option Span} :
    negotiated ms remaining = 0 ↔ ms = 0 ∧ remaining = none := by
  cases remaining with
  | none => simp
  | some left =>
    have hpos := one_le_negotiated_some ms left
    simp only [reduceCtorEq, and_false, iff_false]
    intro h0
    rw [h0] at hpos
    exact absurd hpos (by decide)

/-- No deadline makes a limit longer. -/
theorem negotiated_le {ms : UInt32} (h : ms ≠ 0) (remaining : Option Span) :
    negotiated ms remaining ≤ ms := by
  cases remaining with
  | none => simp
  | some left =>
    have hone := one_le_ceiling ms
    rw [UInt32.le_iff_toNat_le, toNat_negotiated_some]
    rw [ceiling, if_neg h] at hone ⊢
    omega

/-- A limit that was decided on with a deadline is a limit. -/
theorem ceiling_negotiated_some (ms : UInt32) (left : Span) :
    ceiling (negotiated ms (some left)) = max 1 (min left.millis (ceiling ms)) := by
  have hne : negotiated ms (some left) ≠ 0 := fun h => by simpa using negotiated_eq_zero.1 h
  rw [ceiling, if_neg hne, toNat_negotiated_some]

/-- Deciding twice is deciding once, by the time that is left in the end. -/
theorem negotiated_negotiated (ms : UInt32) {remaining earlier : Option Span}
    (h : Within remaining earlier) :
    negotiated (negotiated ms earlier) remaining = negotiated ms remaining := by
  cases earlier with
  | none => rw [negotiated_none]
  | some before =>
    obtain ⟨left, rfl, hle⟩ := h
    have hmillis : Span.millis left ≤ Span.millis before := Nat.div_le_div_right hle
    rw [← UInt32.toNat_inj, toNat_negotiated_some, toNat_negotiated_some, ceiling_negotiated_some]
    omega

end TimeLimit

theorem RequestHeader.timeoutMillis_build (mode : QueryMode) (caller : Caller)
    (remaining : Option Span) (id timestamp : UInt64) (nonce : UInt32) :
    (build mode caller remaining id timestamp nonce).timeoutMillis =
      TimeLimit.negotiated caller.timeoutMillis remaining :=
  rfl

/-- The time that is left under a context does not grow. -/
theorem Context.within_remaining (c : Context) {earlier later : Instant} (h : earlier ≤ later) :
    TimeLimit.Within (c.remaining later) (c.remaining earlier) := by
  unfold Context.remaining
  cases c.deadline with
  | none => trivial
  | some deadline => exact ⟨_, rfl, Nat.sub_le_sub_left h deadline⟩

namespace Call
open TimeLimit

theorem timeoutMillis_wireHeader_eq (h : RequestHeader) (remaining : Option Span) :
    (wireHeader h remaining).timeoutMillis = negotiated h.timeoutMillis remaining := by
  rw [wireHeader, limit, h.getD_timeout]
  rfl

/-- For every limit that a caller may be configured with and whatever time is left: on the wire
there is no limit just if none is configured and there is no deadline; with a deadline the limit is
at least one millisecond and no longer than what is left, cut to whole milliseconds, or one; it is
never longer than a limit that is configured; and what does not fit the field becomes the largest
number that does. If a header was built when there was at least as much time left, what its peer
reads is what deciding once would give. -/
theorem negotiation (ms : UInt32) (remaining : Option Span) :
    (negotiated ms remaining = 0 ↔ ms = 0 ∧ remaining = none) ∧
    (∀ left, remaining = some left →
      1 ≤ (negotiated ms remaining).toNat ∧ (negotiated ms remaining).toNat ≤ max 1 left.millis) ∧
    (ms ≠ 0 → negotiated ms remaining ≤ ms) ∧
    (∀ limit bounded, (wire limit bounded).toNat = max bounded.toNat (min limit.millis maxMillis)) ∧
    (∀ earlier, Within remaining earlier →
      negotiated (negotiated ms earlier) remaining = negotiated ms remaining ∧
      ∀ (σ : Type) (client : Client σ) (query : Query) (c : Context) (now : Instant)
        (frame : ByteArray) (mode : QueryMode) (caller : Caller) (id timestamp : UInt64)
        (nonce : UInt32),
        caller.timeoutMillis = ms →
        query.header.timeoutMillis =
          (RequestHeader.build mode caller earlier id timestamp nonce).timeoutMillis →
        c.remaining now = remaining → Writes client query c now frame →
        ∃ header, Message.decodeRequest frame query.packing.token = .ok (header, query.body) ∧
          header.timeoutMillis = negotiated ms remaining) := by
  refine ⟨negotiated_eq_zero, ?_, fun h => negotiated_le h remaining, toNat_wire_eq_max, ?_⟩
  · rintro left rfl
    exact ⟨one_le_negotiated_some ms left, negotiated_some_le ms left⟩
  · intro earlier hwithin
    refine ⟨negotiated_negotiated ms hwithin, ?_⟩
    rintro σ client query c now frame mode caller id timestamp nonce rfl hheader rfl hw
    refine ⟨_, hw.decode, ?_⟩
    rw [timeoutMillis_wireHeader_eq, hheader, RequestHeader.timeoutMillis_build]
    exact negotiated_negotiated _ hwithin

/-- A caller without a limit of its own has two and a half milliseconds left when it builds a
header, and less than one when it sends it. -/
theorem negotiation_shrunk : ∃ frame,
    Within (some 300000) (some 2500000) ∧
    Writes oneClient
      { header := .build .single { timeoutMillis := 0 } (some 2500000) 1 0 0, body := .empty }
      ⟨some 300000, []⟩ 0 frame ∧
    ∃ header, Message.decodeRequest frame "" = .ok (header, .empty) ∧ header.timeoutMillis = 1 := by
  have hwithin : Within (some 300000) (some 2500000) := ⟨_, rfl, by decide⟩
  obtain ⟨frame, hw⟩ := exists_writes
    (.build .single { timeoutMillis := 0 } (some 2500000) 1 0 0) ⟨some 300000, []⟩
      (by decide +kernel)
  obtain ⟨-, -, -, -, honce⟩ := negotiation 0 (some 300000)
  obtain ⟨header, hdecode, hlimit⟩ :=
    (honce _ hwithin).2 _ _ _ _ _ _ .single { timeoutMillis := 0 } 1 0 0
    rfl rfl rfl hw
  exact ⟨frame, hwithin, hw, header, hdecode, hlimit⟩

end Call

end Courier

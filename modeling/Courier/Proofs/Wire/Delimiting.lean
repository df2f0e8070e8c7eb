import Courier.Request
import Courier.Response
import Courier.Wire.Record.Lemmas

/-!
# Records end by themselves

A reader of a record finds the end of it without being told: it reads the same value whatever stands
behind the bytes that it has used, and of no smaller number of them. This holds for every type of
field and is kept when fields are put together, so it holds for the headers of requests and
responses.
-/
namespace Courier.Wire.Record

variable {α β : Type} {read : Reader α} {used : List UInt8} {a : α}

/-- The reader uses these bytes for the value, and cannot do with fewer. -/
structure Uses (read : Reader α) (used : List UInt8) (a : α) : Prop where
  whole : ∀ rest, read.run (used ++ rest) = .ok (a, rest)
  cut : ∀ front, front <+: used → front ≠ used → read.run front = .error .unexpectedEnd

/-- What is read stands at the front of the bytes and does not depend on what stands behind it. -/
def Delimits (read : Reader α) : Prop :=
  ∀ bytes a rest, read.run bytes = .ok (a, rest) → ∃ used, bytes = used ++ rest ∧ Uses read used a

theorem Uses.nil (h : ∀ rest, read.run rest = .ok (a, rest)) : Uses read [] a :=
  ⟨h, fun _ hf hne => absurd (List.prefix_nil.1 hf) hne⟩

theorem Uses.bind {f : α → Reader β} {used' : List UInt8} {b : β} (h : Uses read used a)
    (h' : Uses (f a) used' b) : Uses (read >>= f) (used ++ used') b := by
  refine ⟨fun rest => ?_, fun front hf hne => ?_⟩
  · rw [List.append_assoc, StateT.run_bind, h.whole]
    exact h'.whole rest
  · by_cases hu : used <+: front
    · obtain ⟨front', rfl⟩ := hu
      have hf' : front' <+: used' := (List.prefix_append_right_inj used).1 hf
      have hne' : front' ≠ used' := fun he => hne (by rw [he])
      rw [StateT.run_bind, h.whole]
      exact h'.cut front' hf' hne'
    · have hf' : front <+: used :=
        (List.prefix_or_prefix_of_prefix hf (List.prefix_append _ _)).resolve_right hu
      have hne' : front ≠ used := fun he => hu (he ▸ List.prefix_rfl)
      rw [StateT.run_bind, h.cut front hf' hne']
      rfl

/-- Of the bytes of a value and what stands behind them, a part is enough just if it has all of the
first. -/
theorem Uses.run_take (h : Uses read used a) (rest : List UInt8) (n : Nat) :
    read.run ((used ++ rest).take n) =
      if used.length ≤ n then .ok (a, rest.take (n - used.length)) else .error .unexpectedEnd := by
  split
  next hn =>
    rw [List.take_append, List.take_of_length_le hn]
    exact h.whole _
  next hn =>
    have hlt : n < used.length := by omega
    rw [List.take_append_of_le_length (by omega)]
    refine h.cut _ (List.take_prefix _ _) fun he => ?_
    have hlength := congrArg List.length he
    rw [List.length_take] at hlength
    omega

/-- A value that is not read from nothing uses at least one byte. -/
theorem Uses.length_pos {e : RecordError} (h : Uses read used a) (he : read.run [] = .error e) :
    0 < used.length := by
  cases used with
  | nil =>
    have hwhole := h.whole []
    rw [List.append_nil, he] at hwhole
    cases hwhole
  | cons b used => simp

/-- What is written is what is used if it is read back. -/
theorem Delimits.uses_of_inverts {write : α → List UInt8} (hd : Delimits read)
    (h : Inverts read write a) : Uses read (write a) a := by
  obtain ⟨used, hused, hu⟩ := hd _ _ _ (h [])
  rw [List.append_nil, List.append_nil] at hused
  rwa [hused]

theorem delimits_pure (a : α) : Delimits (pure a : Reader α) := by
  intro bytes b rest h
  obtain ⟨rfl, rfl⟩ := Prod.mk.inj (Except.ok.inj h)
  exact ⟨[], rfl, .nil fun _ => rfl⟩

theorem delimits_throw (e : RecordError) : Delimits (throw e : Reader α) := by
  intro bytes a rest h
  cases h

theorem Delimits.bind {f : α → Reader β} (h : Delimits read) (hf : ∀ a, Delimits (f a)) :
    Delimits (read >>= f) := by
  intro bytes b rest hrun
  rw [StateT.run_bind] at hrun
  cases hread : read.run bytes with
  | error e =>
    rw [hread] at hrun
    cases hrun
  | ok result =>
    obtain ⟨a, mid⟩ := result
    rw [hread] at hrun
    obtain ⟨used, rfl, hu⟩ := h bytes a mid hread
    obtain ⟨used', rfl, hu'⟩ := hf a mid b rest hrun
    exact ⟨used ++ used', (List.append_assoc _ _ _).symm, hu.bind hu'⟩

/-! ## Bytes and numbers -/

theorem delimits_readByte : Delimits readByte := by
  intro bytes b rest h
  cases bytes with
  | nil => cases h
  | cons x bytes =>
    obtain ⟨rfl, rfl⟩ := Prod.mk.inj (Except.ok.inj h)
    refine ⟨[x], rfl, fun _ => rfl, fun front hf hne => ?_⟩
    rcases List.prefix_cons_iff.1 hf with rfl | ⟨front', rfl, hf'⟩
    · rfl
    · rw [List.prefix_nil.1 hf'] at hne
      exact absurd rfl hne

/-- A number is read byte by byte. -/
theorem readNumber_succ (last : UInt8) (left : Nat) :
    readNumber last (left + 1) = (do
      let b ← readByte
      if b < 128 then
        if left = 0 ∧ last < b then throw .badVarint else return b.toNat
      else return b.toNat - 128 + 128 * (← readNumber last left)) := by
  funext bytes
  cases bytes with
  | nil => rfl
  | cons b bytes =>
    show Varint.read last (left + 1) (b :: bytes) = StateT.run _ (b :: bytes)
    rw [Varint.read, StateT.run_bind]
    show _ = StateT.run (if b < 128 then _ else _) bytes
    split
    · split <;> rfl
    · rw [StateT.run_bind]
      have hread : (readNumber last left).run bytes = Varint.read last left bytes := rfl
      rw [hread]
      cases Varint.read last left bytes <;> rfl

theorem delimits_readNumber (last : UInt8) (left : Nat) : Delimits (readNumber last left) := by
  induction left with
  | zero =>
    intro bytes n rest h
    cases h
  | succ left ih =>
    rw [readNumber_succ]
    refine delimits_readByte.bind fun b => ?_
    split
    · split
      · exact delimits_throw _
      · exact delimits_pure _
    · exact ih.bind fun n => delimits_pure _

theorem delimits_readBytes (n : Nat) : Delimits (readBytes n) := by
  intro bytes l rest h
  have hrun : ∀ bytes : List UInt8, (readBytes n).run bytes =
      if bytes.length < n then .error .unexpectedEnd else .ok (bytes.take n, bytes.drop n) :=
        fun _ => rfl
  rw [hrun] at h
  split at h
  · cases h
  next hn =>
    obtain ⟨rfl, rfl⟩ := Prod.mk.inj (Except.ok.inj h)
    have hlength : (bytes.take n).length = n := by simp; omega
    refine ⟨bytes.take n, (List.take_append_drop _ _).symm, fun rest => ?_, fun front hf hne => ?_⟩
    · have hback := bytes_invert (bytes.take n) rest
      rw [hlength] at hback
      exact hback
    · have hlt : front.length < n := by
        have hle := hf.length_le
        have hne' : front.length ≠ n := fun he => hne (hf.eq_of_length (he.trans hlength.symm))
        omega
      rw [hrun, if_pos hlt]

/-! ## Fields -/

theorem delimits_readWord32 : Delimits readWord32 :=
  (delimits_readNumber _ _).bind fun _ => delimits_pure _

theorem delimits_readWord64 : Delimits readWord64 :=
  (delimits_readNumber _ _).bind fun _ => delimits_pure _

theorem delimits_readInt32 : Delimits readInt32 :=
  (delimits_readNumber _ _).bind fun _ => delimits_pure _

theorem delimits_readLength : Delimits readLength := delimits_readNumber _ _

theorem delimits_readFlag : Delimits readFlag := by
  refine delimits_readByte.bind fun b => ?_
  split
  · exact delimits_pure _
  · exact delimits_pure _
  · exact delimits_throw _

theorem delimits_readMode : Delimits readMode := by
  refine (delimits_readNumber _ _).bind fun n => ?_
  split
  · exact delimits_pure _
  · exact delimits_throw _

theorem Delimits.readOption (h : Delimits read) : Delimits (readOption read) := by
  refine delimits_readByte.bind fun b => ?_
  split
  · exact delimits_pure _
  · exact h.bind fun _ => delimits_pure _
  · exact delimits_throw _

theorem delimits_readText : Delimits readText := by
  refine delimits_readLength.bind fun n => (delimits_readBytes n).bind fun bytes => ?_
  split
  · exact delimits_pure _
  · exact delimits_throw _

theorem Delimits.readEntries (h : Delimits read) (n : Nat) : Delimits (readEntries read n) := by
  induction n with
  | zero => exact delimits_pure _
  | succ n ih =>
    exact delimits_readText.bind fun _ => h.bind fun _ => ih.bind fun _ => delimits_pure _

theorem Delimits.readMap (h : Delimits read) : Delimits (readMap read) :=
  delimits_readLength.bind fun n => (h.readEntries n).bind fun _ => delimits_pure _

end Courier.Wire.Record

namespace Courier
open Wire.Record

/-! ## Headers -/

theorem RequestHeader.delimits_read : Delimits read :=
  delimits_readWord32.bind fun _ => delimits_readWord32.bind fun _ =>
    delimits_readMode.bind fun _ =>
    delimits_readWord64.bind fun _ => delimits_readText.bind fun _ =>
      delimits_readWord64.bind fun _ =>
    delimits_readWord32.bind fun _ => delimits_readText.bind fun _ =>
      delimits_readText.bind fun _ =>
    delimits_readWord64.bind fun _ => delimits_readText.bind fun _ =>
      delimits_readWord32.bind fun _ =>
    delimits_readFlag.bind fun _ => delimits_readText.bind fun _ => delimits_pure _

theorem ResponseHeader.delimits_readError : Delimits readError :=
  delimits_readInt32.bind fun _ => delimits_readInt32.bind fun _ => delimits_readText.bind fun _ =>
    delimits_readText.bind fun _ => delimits_pure _

theorem ResponseHeader.delimits_read : Delimits read :=
  delimits_readWord32.bind fun _ => delimits_readMode.bind fun _ =>
    delimits_readWord64.bind fun _ =>
    delimits_readText.bind fun _ => delimits_readWord64.bind fun _ =>
      delimits_readFlag.bind fun _ =>
    delimits_readError.readOption.bind fun _ => delimits_readError.readMap.bind fun _ =>
    delimits_readFlag.readMap.bind fun _ => delimits_pure _

end Courier

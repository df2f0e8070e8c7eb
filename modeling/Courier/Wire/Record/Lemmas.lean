import Courier.Wire.Record
import Courier.Wire.Varint.Lemmas

/-!
# Readers give back what was written

For every type of field, `Inverts` of its reader and its writer. Texts and maps need their sizes to
be double words. `Inverts.run_bind` puts the fields of a record together.
-/
namespace Courier.Wire.Record

/-- Behind a reader that gives back what was written, the next reader sees what stands behind it. -/
theorem Inverts.run_bind {α β : Type} {read : Reader α} {write : α → List UInt8} {a : α}
    (h : Inverts read write a) (f : α → Reader β) (rest : List UInt8) :
    (read >>= f).run (write a ++ rest) = (f a).run rest := by
  rw [StateT.run_bind, h rest]
  rfl

/-- A reader may rename what it has read. -/
theorem Inverts.map {α β : Type} {read : Reader α} {write : α → List UInt8} {a : α}
    (h : Inverts read write a) (f : α → β) (rest : List UInt8) :
    (read >>= fun x => pure (f x)).run (write a ++ rest) = .ok (f a, rest) :=
  h.run_bind _ rest

theorem readNumber_write {last : UInt8} {left n : Nat} (hl : last < 128)
    (h : n < (last.toNat + 1) * 128 ^ left) :
    Inverts (readNumber last (left + 1)) Varint.write n :=
  fun rest => Varint.read_write last hl rest left n h

/-! ## Words -/

theorem word32_inverts (n : UInt32) : Inverts readWord32 word32 n := by
  intro rest
  have h : Inverts (readNumber 0x0f 5) Varint.write n.toNat :=
    readNumber_write (by decide) (by simpa using n.toNat_lt)
  simpa [readWord32, word32] using h.map Nat.toUInt32 rest

theorem word64_inverts (n : UInt64) : Inverts readWord64 word64 n := by
  intro rest
  have h : Inverts (readNumber 0x01 10) Varint.write n.toNat :=
    readNumber_write (by decide) (by simpa using n.toNat_lt)
  simpa [readWord64, word64] using h.map Nat.toUInt64 rest

theorem length_inverts {n : Nat} (h : n < 2 ^ 64) : Inverts readLength Varint.write n :=
  readNumber_write (by decide) (by simpa using h)

theorem unzigzag_zigzag (n : Int) : unzigzag (zigzag n) = n := by
  unfold unzigzag zigzag
  split <;> split <;> omega

theorem zigzag_lt {n : Int} (h : -2 ^ 31 ≤ n) (h' : n < 2 ^ 31) : zigzag n < 2 ^ 32 := by
  unfold zigzag
  split <;> omega

theorem int32_inverts (n : Int32) : Inverts readInt32 int32 n := by
  intro rest
  have h : Inverts (readNumber 0x0f 5) Varint.write (zigzag n.toInt) :=
    readNumber_write (by decide) (zigzag_lt n.le_toInt n.toInt_lt)
  have := h.map (fun k => Int32.ofInt (unzigzag k)) rest
  rwa [unzigzag_zigzag, Int32.ofInt_toInt] at this

/-! ## Flags, options and modes -/

theorem flag_inverts (b : Bool) : Inverts readFlag flag b := by
  intro rest
  cases b <;> rfl

theorem option_inverts {α : Type} {read : Reader α} {write : α → List UInt8} {o : Option α}
    (h : ∀ a ∈ o, Inverts read write a) : Inverts (readOption read) (option write) o := by
  intro rest
  cases o with
  | none => rfl
  | some a => exact (h a rfl).map some rest

theorem mode_inverts (m : QueryMode) : Inverts readMode mode m := by
  intro rest
  have h : Inverts (readNumber 0x0f 5) Varint.write m.number :=
    readNumber_write (by decide) (by cases m <;> decide)
  rw [readMode, mode, h.run_bind, QueryMode.ofNumber?_number]
  rfl

/-! ## Texts -/

theorem bytes_invert (l : List UInt8) : Inverts (readBytes l.length) id l := by
  intro rest
  have h : ¬ (l ++ rest).length < l.length := by simp
  show (if (l ++ rest).length < l.length then _
    else Except.ok ((l ++ rest).take l.length, (l ++ rest).drop l.length)) = _
  rw [if_neg h, List.take_left, List.drop_left]

/-- The bytes of a text are those of the text. -/
theorem fromUTF8?_bytes (s : String) :
    String.fromUTF8? (Bytes.ofList s.toUTF8.data.toList) = some s := by
  have h : Bytes.ofList s.toUTF8.data.toList = s.toByteArray := rfl
  rw [h, String.fromUTF8?, dif_pos s.isValidUTF8]
  rfl

theorem text_inverts {s : String} (h : s.toUTF8.size < 2 ^ 64) : Inverts readText text s := by
  intro rest
  have hb := bytes_invert s.toUTF8.data.toList
  rw [readText, text, List.append_assoc, (length_inverts h).run_bind]
  refine (hb.run_bind _ rest).trans ?_
  rw [fromUTF8?_bytes]
  rfl

theorem size_le_length_text (s : String) : s.toUTF8.size ≤ (text s).length := by
  rw [text, List.length_append]
  exact Nat.le_add_left _ _

/-! ## Maps -/

theorem entries_invert {α : Type} {read : Reader α} {write : α → List UInt8}
    (l : List (String × α)) (hk : ∀ e ∈ l, e.1.toUTF8.size < 2 ^ 64)
    (hv : ∀ e ∈ l, Inverts read write e.2) :
    Inverts (readEntries read l.length)
      (fun l => l.flatMap fun e => text e.1 ++ write e.2) l := by
  intro rest
  induction l with
  | nil => rfl
  | cons e l ih =>
    have hk1 := text_inverts (hk e List.mem_cons_self)
    have hv1 := hv e List.mem_cons_self
    have hl := ih (fun x hx => hk x (List.mem_cons_of_mem _ hx))
      (fun x hx => hv x (List.mem_cons_of_mem _ hx))
    simp only [List.length_cons, List.flatMap_cons, List.append_assoc, readEntries]
    rw [hk1.run_bind, hv1.run_bind, StateT.run_bind, hl]
    rfl

theorem map_inverts {α : Type} {read : Reader α} {write : α → List UInt8} {m : TextMap α}
    (hn : m.size < 2 ^ 64) (hk : ∀ e ∈ m.entries, e.1.toUTF8.size < 2 ^ 64)
    (hv : ∀ e ∈ m.entries, Inverts read write e.2) :
    Inverts (readMap read) (map write) m := by
  intro rest
  rw [readMap, map, List.append_assoc, (length_inverts hn).run_bind]
  have := (entries_invert m.entries hk hv).map TextMap.ofList rest
  rwa [TextMap.ofList_entries] at this

/-! ## Lengths -/

theorem length_entry_le {α : Type} (write : α → List UInt8) {l : List (String × α)}
    {e : String × α} (h : e ∈ l) :
    (text e.1).length + (write e.2).length ≤
      (l.flatMap fun e => text e.1 ++ write e.2).length := by
  induction l with
  | nil => simp at h
  | cons x l ih =>
    rw [List.flatMap_cons, List.length_append]
    rcases List.mem_cons.1 h with rfl | h
    · rw [List.length_append]
      omega
    · have := ih h
      omega

theorem length_write_pos (n : Nat) : 0 < (Varint.write n).length := by
  rw [Varint.write]
  split <;> simp

theorem length_entries_le {α : Type} (write : α → List UInt8) (l : List (String × α)) :
    l.length ≤ (l.flatMap fun e => text e.1 ++ write e.2).length := by
  induction l with
  | nil => simp
  | cons x l ih =>
    have := length_write_pos x.1.toUTF8.size
    simp only [List.flatMap_cons, List.length_append, List.length_cons, text]
    simp only [List.length_flatMap, List.length_append, text] at ih ⊢
    omega

/-- A map is read back if its record is no longer than a double word can say. -/
theorem map_inverts_of_length {α : Type} {read : Reader α} {write : α → List UInt8}
    {m : TextMap α} (hlen : (map write m).length < 2 ^ 64)
    (hv : ∀ e ∈ m.entries, (write e.2).length < 2 ^ 64 → Inverts read write e.2) :
    Inverts (readMap read) (map write) m := by
  rw [map, List.length_append] at hlen
  refine map_inverts ?_ (fun e he => ?_) (fun e he => hv e he ?_)
  · have := length_entries_le write m.entries
    rw [TextMap.size]
    omega
  · have := length_entry_le write he
    have := size_le_length_text e.1
    omega
  · have := length_entry_le write he
    omega

end Courier.Wire.Record

import Courier.Proofs.Counter.Reading

/-!
# Snapshots through JSON

A snapshot is written as one of the texts of a value that stands for that snapshot, so reading gives
it back, with every key and every count. It follows that reading, writing and reading again gives
what the first reading gave, also where the first text had unknown fields, repeated keys, escapes
and white space of its own.
-/
namespace Courier
open Json

/-! ## What a text needs -/

namespace Json

/-- The key occurs just once, and its value is as asked for. -/
def HoldsOnce (members : List (String × Value)) (key : String) (p : Value → Prop) : Prop :=
  ∃ v, (members.filter fun m => m.1 = key) = [(key, v)] ∧ p v

theorem Value.only?_bind_eq_some_iff {α : Type} {decode : Value → Option α} {key : String}
    {members : List (String × Value)} {a : α} :
    (only? key members).bind decode = some a ↔ HoldsOnce members key fun v =>
      decode v = some a := by
  have hkey : ∀ m ∈ members.filter fun m => m.1 = key, m.1 = key := fun m hm => by
    simpa using (List.mem_filter.1 hm).2
  rw [only?, HoldsOnce]
  generalize members.filter (fun m => m.1 = key) = same at hkey
  rcases same with _ | ⟨⟨k, v⟩, _ | _⟩
  · simp [single?]
  · obtain rfl : k = key := hkey _ List.mem_cons_self
    simp [single?]
  · simp [single?]

/-- An object needs each known field just once and of its kind, and nothing of its other fields. -/
theorem Value.snapshot?_object_iff {members : List (String × Value)} {s : Snapshot} :
    (Value.object members).snapshot? = some s ↔
      HoldsOnce members "counters" (fun v => v.counters? = some s.counters) ∧
      HoldsOnce members "uptime_ms" (fun v => v.word? = some s.uptimeMillis) ∧
      HoldsOnce members "timestamp_ms" (fun v => v.word? = some s.timestampMillis) := by
  simp only [← only?_bind_eq_some_iff, snapshot?, Option.bind_eq_bind]
  obtain ⟨c, u, t⟩ := s
  cases (only? "counters" members).bind counters? <;>
    cases (only? "uptime_ms" members).bind word? <;>
    cases (only? "timestamp_ms" members).bind word? <;> simp

theorem lookup_entries {members : List (String × Value)} {entries : List (String × UInt64)}
    (h : List.Forall₂ (fun m e => Value.entry? m = some e) members entries) (key : String) :
    entries.lookup key = (members.lookup key).bind Value.word? := by
  induction h with
  | nil => rfl
  | @cons m e members entries h _ ih =>
    obtain ⟨k, v⟩ := m
    obtain ⟨n, hn, rfl⟩ := Option.map_eq_some_iff.1 h
    rw [List.lookup_cons, List.lookup_cons, ih]
    cases key == k with
    | true => exact hn.symm
    | false => rfl

/-- Of several members with one key the last one counts. -/
theorem Value.get?_counters {members : List (String × Value)} {m : TextMap UInt64}
    (h : (Value.object members).counters? = some m) (key : String) :
    m.get? key = (members.reverse.lookup key).bind Value.word? := by
  obtain ⟨entries, he, rfl⟩ := Option.map_eq_some_iff.1 h
  rw [TextMap.get?_ofList]
  exact lookup_entries (List.forall₂_reverse_iff.2 (forall₂_of_mapM he)) key

/-- A map of counts holds nothing but numbers that fit 64 bits. -/
theorem Value.isSome_counters_iff {members : List (String × Value)} :
    (Value.object members).counters?.isSome ↔ ∀ m ∈ members, m.2.word?.isSome := by
  rw [counters?, Option.isSome_map]
  induction members with
  | nil => simp
  | cons m members ih =>
    rw [List.forall_mem_cons, ← ih, List.mapM_cons, entry?]
    cases m.2.word? with
    | none => simp
    | some n => cases members.mapM entry? <;> simp

end Json

/-! ## What is written -/

namespace Json

/-- A number of 64 bits as a value. -/
def Value.word (n : UInt64) : Value := .number { whole := n.toNat }

theorem Value.word?_word (n : UInt64) : (Value.word n).word? = some n := by
  have hn : n.toNat < UInt64.size := n.toNat_lt
  show (if n.toNat < UInt64.size then some n.toNat.toUInt64 else none) = some n
  rw [if_pos hn, Nat.toUInt64_eq, UInt64.ofNat_toNat]

theorem spells_writeWord (n : UInt64) : Spells (writeWord n) (.word n) := by
  have h : (Numeral.write { whole := n.toNat }) = writeWord n := List.append_nil _
  exact h ▸ Spells.number { whole := n.toNat }

/-- A key with its value, without white space. -/
theorem spellsMember_write {cs : List Char} {v : Value} (key : String) (h : Spells cs v) :
    SpellsMember (writeText key ++ ':' :: cs) (key, v) :=
  .pair (spellsText_writeText key) (List.forall_mem_nil _) (List.forall_mem_nil _) h

end Json

namespace Snapshot

theorem spellsMembers_join {texts : List (List Char)} {members : List (String × Value)}
    (h : List.Forall₂ SpellsMember texts members) : SpellsMembers (joinMembers texts) members := by
  induction h with
  | nil => exact .nil (List.forall_mem_nil _)
  | @cons text member texts members h hs ih =>
    cases hs with
    | nil =>
      have hone := SpellsMembers.one (List.forall_mem_nil _) h (List.forall_mem_nil _)
      rwa [List.nil_append, List.append_nil] at hone
    | cons _ _ => exact .cons (List.forall_mem_nil _) h (List.forall_mem_nil _) ih

/-- The value that a map of counts is written as. -/
def countersValue (m : TextMap UInt64) : Value := .object (m.entries.map fun e => (e.1, .word e.2))

theorem spells_writeCounters (m : TextMap UInt64) : Spells (writeCounters m) (countersValue m) := by
  have h : List.Forall₂ SpellsMember (m.entries.map fun e => writeText e.1 ++ ':' :: writeWord e.2)
      (m.entries.map fun e => (e.1, Value.word e.2)) := by
    rw [List.forall₂_map_left_iff, List.forall₂_map_right_iff]
    exact List.forall₂_same.2 fun e _ => spellsMember_write e.1 (spells_writeWord e.2)
  rw [writeCounters, List.cons_append]
  exact .object (spellsMembers_join h)

theorem counters?_countersValue (m : TextMap UInt64) : (countersValue m).counters? = some m := by
  have hentries : ∀ l : List (String × UInt64),
      (l.map fun e => (e.1, Value.word e.2)).mapM Value.entry? = some l := by
    intro l
    induction l with
    | nil => rfl
    | cons e l ih => rw [List.map_cons, List.mapM_cons, ih, Value.entry?, Value.word?_word]; rfl
  rw [countersValue, Value.counters?, hentries, Option.map_some, TextMap.ofList_entries]

/-- The value that a snapshot is written as. -/
def value (s : Snapshot) : Value :=
  .object [("counters", countersValue s.counters), ("uptime_ms", .word s.uptimeMillis),
    ("timestamp_ms", .word s.timestampMillis)]

theorem write_eq (s : Snapshot) :
    s.write = '\x7b' :: (joinMembers [writeText "counters" ++ ':' :: writeCounters s.counters,
      writeText "uptime_ms" ++ ':' :: writeWord s.uptimeMillis,
      writeText "timestamp_ms" ++ ':' :: writeWord s.timestampMillis] ++ ['\x7d']) := by
  have hcounters : "\x7b\"counters\":".toList = '\x7b' :: (writeText "counters" ++ [':']) := by
    simp [writeText, escape]
  have huptime : ",\"uptime_ms\":".toList = ',' :: (writeText "uptime_ms" ++ [':']) := by
    simp [writeText, escape]
  have htimestamp : ",\"timestamp_ms\":".toList = ',' :: (writeText "timestamp_ms" ++ [':']) := by
    simp [writeText, escape]
  unfold write
  rw [hcounters, huptime, htimestamp]
  simp [joinMembers]

theorem isTextOf_toJson (s : Snapshot) : IsTextOf s.toJson s.value := by
  have h : Spells s.write s.value := by
    rw [write_eq]
    exact .object
      (spellsMembers_join
        (.cons (spellsMember_write _ (spells_writeCounters s.counters))
          (.cons (spellsMember_write _ (spells_writeWord s.uptimeMillis))
        (.cons (spellsMember_write _ (spells_writeWord s.timestampMillis)) .nil))))
  have htext := IsTextOf.mk (List.forall_mem_nil _) h (List.forall_mem_nil _)
  rwa [List.nil_append, List.append_nil] at htext

theorem snapshot?_value (s : Snapshot) : s.value.snapshot? = some s := by
  simp [value, Value.snapshot?, Value.only?, Value.single?, counters?_countersValue,
    Value.word?_word]

/-! ## Round trip -/

/-- A snapshot that is written comes back when it is read, whatever its keys and counts. A snapshot
that was read from any text comes back as well, with the count of each counter and the sum. What is
read from a text goes by the value of which it is a text: each known field once and of its kind,
other fields passed over, and of several counts with one name the last. -/
theorem json_round_trip :
    (∀ s : Snapshot, parse? s.toJson = some s) ∧
    (∀ text s, parse? text = some s → ∃ again, parse? s.toJson = some again ∧ again = s ∧
      (∀ c, again.get c = s.get c) ∧ again.total = s.total) ∧
    (∀ text v, IsTextOf text v → parse? text = v.snapshot?) ∧
    (∀ members s, (Value.object members).snapshot? = some s ↔
      HoldsOnce members "counters" (fun v => v.counters? = some s.counters) ∧
      HoldsOnce members "uptime_ms" (fun v => v.word? = some s.uptimeMillis) ∧
      HoldsOnce members "timestamp_ms" (fun v => v.word? = some s.timestampMillis)) ∧
    (∀ members, (Value.object members).counters?.isSome ↔ ∀ m ∈ members, m.2.word?.isSome) ∧
    (∀ members m, (Value.object members).counters? = some m →
      ∀ key, m.get? key = (members.reverse.lookup key).bind Value.word?) := by
  have hback : ∀ s : Snapshot, parse? s.toJson = some s := fun s =>
    (parse_text (isTextOf_toJson s)).trans (snapshot?_value s)
  refine ⟨hback, fun _ s _ => ?_, fun _ _ h => parse_text h, fun _ _ => Value.snapshot?_object_iff,
    fun _ => Value.isSome_counters_iff, fun _ _ h => Value.get?_counters h⟩
  exact ⟨s, hback s, rfl, fun _ => rfl, rfl⟩

/-- A snapshot with a key of a quote, a backslash, a control character and a character beyond 16
bits. -/
def odd : Snapshot where
  counters := TextMap.ofList [("\"\\\x01😀", 18446744073709551615), ("remote_eof", 2)]
  uptimeMillis := 0
  timestampMillis := 18446744073709551615

/-- A text of that snapshot with white space, escapes, an unknown field and a repeated key. -/
def oddText : String :=
  "\n\x7b \"note\" : [-1.5e3, \x7b\"a\":[null, true]\x7d, \"\\/\"]," ++
    "\"uptime_ms\":0,\t\"counters\":" ++
    "\x7b\"remote_eof\":1,\"\\u0022\\\\\\u0001\\ud83d\\ude00\" : 18446744073709551615 ," ++
    "\"remote\\u005Feof\":2\x7d, \"timestamp_ms\":18446744073709551615 \x7d "

theorem json_round_trip_odd :
    parse? oddText = some odd ∧ parse? odd.toJson = some odd ∧ odd.get .remoteEof = 2 := by
  have hread : parse? oddText = some odd := by decide +kernel
  obtain ⟨again, h, rfl, -⟩ := json_round_trip.2.1 oddText odd hread
  exact ⟨hread, h, by decide +kernel⟩

end Snapshot

end Courier

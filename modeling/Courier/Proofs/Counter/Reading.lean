import Courier.Counter.Snapshot
import Courier.Proofs.Json.Groups
import Courier.Proofs.Json.Passing
import Mathlib.Data.List.Forall2

/-!
# Reading a snapshot

Which snapshot a value of JSON stands for, said on the value itself: an object of which each of the
three known fields occurs just once and has its kind, whatever other fields there are; or a list of
just the three. Of every text of the value the reader makes that snapshot, or none if there is none.
-/
namespace Courier
open Json

/-! ## What values stand for -/

namespace Json.Value

/-- A count under its name. -/
def entry? (m : String × Value) : Option (String × UInt64) := m.2.word?.map fun n => (m.1, n)

/-- The counts of an object of numbers. -/
def counters? : Value → Option (TextMap UInt64)
  | .object members => (members.mapM entry?).map TextMap.ofList
  | _ => none

/-- The one element of a list that has just one. -/
def single? {α : Type} : List α → Option α
  | [a] => some a
  | _ => none

/-- The value of a key that occurs just once. -/
def only? (key : String) (members : List (String × Value)) : Option Value :=
  (single? (members.filter fun m => m.1 = key)).map fun m => m.2

def snapshot? : Value → Option Snapshot
  | .object members => do
    return ⟨← (only? "counters" members).bind counters?, ← (only? "uptime_ms" members).bind word?,
      ← (only? "timestamp_ms" members).bind word?⟩
  | .list [counters, uptime, timestamp] => do
    return ⟨← counters.counters?, ← uptime.word?, ← timestamp.word?⟩
  | _ => none

end Json.Value

namespace Json

theorem forall₂_of_mapM {α β : Type} {f : α → Option β} {l : List α} {bs : List β}
    (h : l.mapM f = some bs) : List.Forall₂ (fun a b => f a = some b) l bs := by
  induction l generalizing bs with
  | nil =>
    cases h
    exact .nil
  | cons a l ih =>
    simp only [List.mapM_cons, Option.bind_eq_bind, Option.bind_eq_some_iff] at h
    obtain ⟨b, hb, bs, hbs, h⟩ := h
    cases h
    exact .cons hb (ih hbs)

theorem exists_of_mapM_eq_none {α β : Type} {f : α → Option β} {l : List α} (h : l.mapM f = none) :
    ∃ a ∈ l, f a = none := by
  induction l with
  | nil => cases h
  | cons a l ih =>
    cases ha : f a with
    | none => exact ⟨a, List.mem_cons_self, ha⟩
    | some b =>
      have hl : l.mapM f = none := by
        rw [List.mapM_cons, ha] at h
        cases hl : l.mapM f with
        | none => rfl
        | some bs =>
          rw [hl] at h
          cases h
      obtain ⟨c, hc, hn⟩ := ih hl
      exact ⟨c, List.mem_cons_of_mem _ hc, hn⟩

theorem Value.single?_bind {α β : Type} (f : α → Option β) (l : List α) :
    (single? l).bind f = (l.mapM f).bind single? := by
  rcases l with _ | ⟨a, _ | ⟨b, l⟩⟩
  · rfl
  · rw [List.mapM_cons]
    show f a = _
    cases f a <;> rfl
  · rw [List.mapM_cons, List.mapM_cons]
    cases f a with
    | none => rfl
    | some _ =>
      cases f b with
      | none => rfl
      | some _ => cases l.mapM f <;> rfl

end Json

namespace Snapshot
open Value

/-- What a member stands for as a field. -/
def Field.ofMember? (m : String × Value) : Option Field :=
  if m.1 = "counters" then m.2.counters?.map .counters
  else if m.1 = "uptime_ms" then m.2.word?.map .uptime
  else if m.1 = "timestamp_ms" then m.2.word?.map .timestamp
  else some .unknown

/-! ## Reading the parts -/

theorem readsMember_readCounter : ReadsMember readCounter Value.entry? := by
  rintro cs ⟨key, v⟩ rest h he
  obtain ⟨value, hv, hkey⟩ := readKey_member h
  have hcomes := (comes_readWord hv he).map fun n => (key, n)
  rw [readCounter, hkey]
  exact hcomes

theorem comes_readCounters {cs : List Char} {v : Value} (h : Spells cs v) {rest : List Char} :
    Comes rest v.counters? (readCounters (cs ++ rest)) := by
  cases h with
  | object h =>
    rw [List.cons_append, List.append_assoc, readCounters, List.singleton_append,
      readGroup_spells readsMember_readCounter h, Value.counters?]
    cases List.mapM Value.entry? _ with
    | none => exact .fail
    | some entries => exact .read _
  | number n =>
    obtain ⟨c, left, hw, -, hc⟩ := n.head
    rw [hw, List.cons_append, readCounters.eq_2 _ fun _ heq => hc _ (by simp) (List.cons.inj heq).1]
    exact .fail
  | text h =>
    obtain ⟨h⟩ := h
    exact .fail
  | null => exact .fail
  | yes => exact .fail
  | no => exact .fail
  | list h => exact .fail

theorem readsMember_readField : ReadsMember readField Field.ofMember? := by
  rintro cs ⟨key, v⟩ rest h he
  obtain ⟨value, hv, hkey⟩ := readKey_member h
  rw [readField, hkey, Field.ofMember?]
  simp only [Option.bind_eq_bind, Option.bind_some]
  split
  next => exact (comes_readCounters hv).map Field.counters
  next =>
    split
    next => exact (comes_readWord hv he).map Field.uptime
    next =>
      split
      next => exact (comes_readWord hv he).map Field.timestamp
      next =>
        rw [Skip.value_spells hv he]
        exact .read Field.unknown

/-! ## Objects -/

namespace Field

def counters? : Field → Option (TextMap UInt64)
  | .counters m => some m
  | _ => none

def uptime? : Field → Option UInt64
  | .uptime n => some n
  | _ => none

def timestamp? : Field → Option UInt64
  | .timestamp n => some n
  | _ => none

end Field

theorem ofFields_eq (fields : List Field) :
    ofFields fields = do
      return ⟨← single? (fields.filterMap Field.counters?),
        ← single? (fields.filterMap Field.uptime?),
        ← single? (fields.filterMap Field.timestamp?)⟩ := by
  unfold ofFields
  generalize hcs : List.filterMap _ fields = cs
  generalize hus : List.filterMap _ fields = us
  generalize hts : List.filterMap _ fields = ts
  have hc : fields.filterMap Field.counters? = cs := hcs
  have hu : fields.filterMap Field.uptime? = us := hus
  have ht : fields.filterMap Field.timestamp? = ts := hts
  rw [hc, hu, ht]
  rcases cs with _ | ⟨c, _ | _⟩ <;> rcases us with _ | ⟨u, _ | _⟩ <;>
    rcases ts with _ | ⟨t, _ | _⟩ <;>
    rfl

section
variable {α : Type} {key : String} {decode : Value → Option α} {select : Field → Option α}

/-- The fields that hold one kind of value are those of one key. -/
structure Selects (key : String) (decode : Value → Option α) (select : Field → Option α) :
    Prop where
  same {v : Value} {field : Field} (h : Field.ofMember? (key, v) = some field) :
    ∃ a, decode v = some a ∧ select field = some a
  other {k : String} {v : Value} {field : Field} (hk : k ≠ key)
    (h : Field.ofMember? (k, v) = some field) : select field = none

theorem Selects.mapM_filter (hs : Selects key decode select) {members : List (String × Value)}
    {fields : List Field}
    (h : List.Forall₂ (fun m field => Field.ofMember? m = some field) members fields) :
    ((members.filter fun m => m.1 = key).mapM fun m => decode m.2) =
      some (fields.filterMap select) := by
  induction h with
  | nil => rfl
  | @cons m field members fields hfield _ ih =>
    obtain ⟨k, v⟩ := m
    by_cases hk : k = key
    · subst hk
      obtain ⟨a, ha, hsel⟩ := hs.same hfield
      rw [List.filter_cons_of_pos (by simp), List.mapM_cons, ih, List.filterMap_cons_some hsel, ha]
      rfl
    · rw [List.filter_cons_of_neg (by simpa using hk), ih,
        List.filterMap_cons_none (hs.other hk hfield)]

theorem Selects.only_bind (hs : Selects key decode select) {members : List (String × Value)}
    {fields : List Field} (h : members.mapM Field.ofMember? = some fields) :
    (only? key members).bind decode = single? (fields.filterMap select) := by
  rw [only?, Option.bind_map]
  have hfilter := hs.mapM_filter (forall₂_of_mapM h)
  exact (single?_bind (fun m : String × Value => decode m.2) _).trans
    (by rw [hfilter, Option.bind_some])

/-- If a key has a value of another kind, then no good one under that key. -/
theorem only_bind_eq_none {members : List (String × Value)} {m : String × Value} (hm : m ∈ members)
    (h : decode m.2 = none) : (only? m.1 members).bind decode = none := by
  have hin : m ∈ members.filter fun n => n.1 = m.1 := List.mem_filter.2 ⟨hm, by simp⟩
  rw [only?]
  generalize members.filter (fun n => n.1 = m.1) = same at hin
  rcases same with _ | ⟨n, _ | _⟩
  · rfl
  · obtain rfl := List.mem_singleton.1 hin
    exact h
  · rfl

end

/-- Each known key goes with one kind of value, and no other key does. -/
theorem Field.ofMember_cases {key : String} {v : Value} {field : Field}
    (h : Field.ofMember? (key, v) = some field) :
    (key = "counters" ∧ ∃ m, v.counters? = some m ∧ field = .counters m) ∨
      (key = "uptime_ms" ∧ ∃ n, v.word? = some n ∧ field = .uptime n) ∨
      (key = "timestamp_ms" ∧ ∃ n, v.word? = some n ∧ field = .timestamp n) ∨ field = .unknown := by
  rw [Field.ofMember?] at h
  split at h
  next hkey =>
    obtain ⟨m, hm, rfl⟩ := Option.map_eq_some_iff.1 h
    exact .inl ⟨hkey, m, hm, rfl⟩
  next =>
    split at h
    next hkey =>
      obtain ⟨n, hn, rfl⟩ := Option.map_eq_some_iff.1 h
      exact .inr (.inl ⟨hkey, n, hn, rfl⟩)
    next =>
      split at h
      next hkey =>
        obtain ⟨n, hn, rfl⟩ := Option.map_eq_some_iff.1 h
        exact .inr (.inr (.inl ⟨hkey, n, hn, rfl⟩))
      next =>
        cases h
        exact .inr (.inr (.inr rfl))

theorem selects_counters : Selects "counters" Value.counters? Field.counters? where
  same h := by
    obtain ⟨m, hm, rfl⟩ := Option.map_eq_some_iff.1 h
    exact ⟨m, hm, rfl⟩
  other hk h := by
    obtain ⟨rfl, -⟩ | ⟨-, n, -, rfl⟩ | ⟨-, n, -, rfl⟩ | rfl := Field.ofMember_cases h
    · contradiction
    all_goals rfl

theorem selects_uptime : Selects "uptime_ms" Value.word? Field.uptime? where
  same h := by
    obtain ⟨n, hn, rfl⟩ := Option.map_eq_some_iff.1 h
    exact ⟨n, hn, rfl⟩
  other hk h := by
    obtain ⟨-, m, -, rfl⟩ | ⟨rfl, -⟩ | ⟨-, n, -, rfl⟩ | rfl := Field.ofMember_cases h
    · rfl
    · contradiction
    all_goals rfl

theorem selects_timestamp : Selects "timestamp_ms" Value.word? Field.timestamp? where
  same h := by
    obtain ⟨n, hn, rfl⟩ := Option.map_eq_some_iff.1 h
    exact ⟨n, hn, rfl⟩
  other hk h := by
    obtain ⟨-, m, -, rfl⟩ | ⟨-, n, -, rfl⟩ | ⟨rfl, -⟩ | rfl := Field.ofMember_cases h
    · rfl
    · rfl
    · contradiction
    · rfl

theorem ofFields_members (members : List (String × Value)) :
    (members.mapM Field.ofMember?).bind ofFields = (Value.object members).snapshot? := by
  rw [Value.snapshot?]
  cases h : members.mapM Field.ofMember? with
  | some fields =>
    rw [Option.bind_some, ofFields_eq, ← selects_counters.only_bind h, ← selects_uptime.only_bind h,
      ← selects_timestamp.only_bind h]
  | none =>
    obtain ⟨⟨key, v⟩, hm, hnone⟩ := exists_of_mapM_eq_none h
    rw [Field.ofMember?] at hnone
    split at hnone
    next hkey =>
      have := only_bind_eq_none hm (Option.map_eq_none_iff.1 hnone)
      simp [← hkey, this]
    next =>
      split at hnone
      next hkey =>
        have := only_bind_eq_none hm (Option.map_eq_none_iff.1 hnone)
        simp [← hkey, this]
      next =>
        split at hnone
        next hkey =>
          have := only_bind_eq_none hm (Option.map_eq_none_iff.1 hnone)
          simp [← hkey, this]
        next => cases hnone

/-! ## Lists -/

/-- What stands between one item of a list and the end of the list. -/
inductive SpellsTail : List Char → List Value → Prop
  | last {blank : List Char} (h : IsBlank blank) : SpellsTail blank []
  | more {blank cs : List Char} {v : Value} {items : List Value} (h : IsBlank blank)
      (hr : SpellsItems cs (v :: items)) : SpellsTail (blank ++ ',' :: cs) (v :: items)

theorem SpellsTail.ends {cs : List Char} {items : List Value} (h : SpellsTail cs items)
    (rest : List Char) : Ends (cs ++ ']' :: rest) := by
  cases h with
  | last h => exact .append h (.cons (.inr (.inl rfl)) rest)
  | more h _ =>
    rw [List.append_assoc]
    exact .append h (.cons (.inl rfl) _)

theorem exists_first {cs : List Char} {v : Value} {items : List Value}
    (h : SpellsItems cs (v :: items)) :
    ∃ before first tail, cs = before ++ (first ++ tail) ∧ IsBlank before ∧ Spells first v ∧
      SpellsTail tail items := by
  cases h with
  | one hb h ha => exact ⟨_, _, _, rfl, hb, h, .last ha⟩
  | cons hb h ha hr => exact ⟨_, _, _, rfl, hb, h, .more ha hr⟩

/-- A reader of an item stops in front of what comes behind that item. -/
theorem comes_first {α : Type} {reader : List Char → Option (α × List Char)}
    {decode : Value → Option α}
    (hr : ∀ {cs v rest}, Spells cs v → Ends rest → Comes rest (decode v) (reader (cs ++ rest)))
    {cs : List Char} {v : Value} {items : List Value} (h : SpellsItems cs (v :: items))
    (rest : List Char) : ∃ tail, SpellsTail tail items ∧
      Comes (tail ++ ']' :: rest) (decode v) (reader (skipSpace (cs ++ ']' :: rest))) := by
  obtain ⟨before, first, tail, rfl, hb, hv, ht⟩ := exists_first h
  refine ⟨tail, ht, ?_⟩
  rw [List.append_assoc, List.append_assoc, skipSpace_append hb, skipSpace_value hv]
  exact hr hv (ht.ends rest)

/-- What is read behind an item, if nothing is read behind a part of a number. -/
theorem bind_comes {α β : Type} {rest : List Char} {items : List Value} {a? : Option α}
    {result : Option (α × List Char)} {next : α → List Char → Option β} {value : α → Option β}
    (h : ∃ tail, SpellsTail tail items ∧ Comes (tail ++ ']' :: rest) a? result)
    (hnext : ∀ a {tail}, SpellsTail tail items → next a (tail ++ ']' :: rest) = value a)
    (hshort : ∀ a {c} left, c = '.' ∨ c = 'e' ∨ c = 'E' → next a (c :: left) = none) :
    (result.bind fun p => next p.1 p.2) = a?.bind value := by
  obtain ⟨tail, ht, hc⟩ := h
  cases hc with
  | read a => exact hnext a ht
  | fail => rfl
  | short a left h => exact hshort a left h

/-- A number behind a comma. -/
def readNextWord (cs : List Char) : Option (UInt64 × List Char) := (readComma cs).bind readWord

theorem readNextWord_short {c : Char} (left : List Char) (h : c = '.' ∨ c = 'e' ∨ c = 'E') :
    readNextWord (c :: left) = none := by
  obtain rfl | rfl | rfl := h <;> rfl

/-- The next item, if there is one, must be a number of 64 bits. -/
theorem bind_readNextWord {β : Type} {cs : List Char} {items : List Value} (h : SpellsTail cs items)
    (rest : List Char) {next : UInt64 → List Char → Option β}
    {value : UInt64 → List Value → Option β}
    (hnext : ∀ n {tail items}, SpellsTail tail items → next n (tail ++ ']' :: rest) = value n items)
    (hshort : ∀ n {c} left, c = '.' ∨ c = 'e' ∨ c = 'E' → next n (c :: left) = none) :
    ((readNextWord (cs ++ ']' :: rest)).bind fun p => next p.1 p.2) =
      items.head?.bind fun v => v.word?.bind fun n => value n items.tail := by
  cases h with
  | last h =>
    rw [readNextWord, readComma, skipSpace_append h]
    rfl
  | more h hr =>
    rw [readNextWord, readComma, List.append_assoc, skipSpace_append h]
    exact bind_comes (comes_first (fun h he => comes_readWord h he) hr rest)
      (fun n _ ht => hnext n ht) hshort

section
variable (m : TextMap UInt64) (uptime timestamp : UInt64)

/-- The end of the list. -/
def readEnd (cs : List Char) : Option (Snapshot × List Char) :=
  match skipSpace cs with
  | ']' :: cs => some (⟨m, uptime, timestamp⟩, cs)
  | _ => none

def readTimestamp (cs : List Char) : Option (Snapshot × List Char) :=
  (readNextWord cs).bind fun p => readEnd m uptime p.1 p.2

def readUptime (cs : List Char) : Option (Snapshot × List Char) :=
  (readNextWord cs).bind fun p => readTimestamp m p.1 p.2

theorem readList_eq (cs : List Char) :
    readList cs = (readCounters (skipSpace cs)).bind fun p => readUptime p.1 p.2 := by
  simp only [readUptime, readTimestamp, readNextWord, Option.bind_assoc]
  rfl

section
variable {c : Char} (left : List Char) (h : c = '.' ∨ c = 'e' ∨ c = 'E')
include h

theorem readEnd_short : readEnd m uptime timestamp (c :: left) = none := by
  obtain rfl | rfl | rfl := h <;> rfl

theorem readTimestamp_short : readTimestamp m uptime (c :: left) = none := by
  rw [readTimestamp, readNextWord_short left h]
  rfl

theorem readUptime_short : readUptime m (c :: left) = none := by
  rw [readUptime, readNextWord_short left h]
  rfl

end

variable {cs : List Char} {items : List Value} (h : SpellsTail cs items) (rest : List Char)
include h

theorem readEnd_tail :
    readEnd m uptime timestamp (cs ++ ']' :: rest) =
      if items.isEmpty then some (⟨m, uptime, timestamp⟩, rest) else none := by
  cases h with
  | last h =>
    rw [readEnd, skipSpace_append h]
    rfl
  | more h _ =>
    rw [readEnd, List.append_assoc, skipSpace_append h]
    rfl

theorem readTimestamp_tail :
    readTimestamp m uptime (cs ++ ']' :: rest) =
      items.head?.bind fun v => v.word?.bind fun timestamp =>
        if items.tail.isEmpty then some (⟨m, uptime, timestamp⟩, rest) else none :=
  bind_readNextWord h rest (fun n _ _ ht => readEnd_tail m uptime n ht rest)
    (readEnd_short m uptime)

theorem readUptime_tail :
    readUptime m (cs ++ ']' :: rest) =
      items.head?.bind fun v => v.word?.bind fun uptime =>
        items.tail.head?.bind fun v => v.word?.bind fun timestamp =>
          if items.tail.tail.isEmpty then some (⟨m, uptime, timestamp⟩, rest) else none :=
  bind_readNextWord h rest (fun n _ _ ht => readTimestamp_tail m n ht rest) (readTimestamp_short m)

end

theorem readList_items {cs : List Char} {items : List Value} (h : SpellsItems cs items)
    (rest : List Char) :
    readList (cs ++ ']' :: rest) = (Value.list items).snapshot?.map fun s => (s, rest) := by
  rw [readList_eq]
  rcases items with _ | ⟨v, items⟩
  · cases h with
    | nil h =>
      rw [skipSpace_append h]
      rfl
  · refine (bind_comes (comes_first (fun h _ => comes_readCounters h) h rest)
      (fun m _ ht => readUptime_tail m ht rest) readUptime_short).trans ?_
    rcases items with _ | ⟨u, _ | ⟨t, _ | ⟨x, items⟩⟩⟩
    · simp [Value.snapshot?]
    · simp [Value.snapshot?]
    · simp only [Value.snapshot?]
      cases v.counters? with
      | none => rfl
      | some m =>
        cases hu : u.word? with
        | none => simp [hu]
        | some n => cases ht : t.word? <;> simp [hu, ht]
    · simp [Value.snapshot?]

/-! ## Whole texts -/

theorem read_spells {cs : List Char} {v : Value} (h : Spells cs v) (rest : List Char) :
    read (cs ++ rest) = v.snapshot?.map fun s => (s, rest) := by
  cases h with
  | object h =>
    rw [List.cons_append, List.append_assoc, List.singleton_append, read,
      readGroup_spells readsMember_readField h, ← ofFields_members]
    cases List.mapM Field.ofMember? _ with
    | none => rfl
    | some fields =>
      simp only [Option.map_some, Option.bind_eq_bind, Option.bind_some]
      cases ofFields fields <;> rfl
  | list h =>
    rw [List.cons_append, List.append_assoc]
    exact readList_items h rest
  | number n =>
    obtain ⟨c, left, hw, -, hc⟩ := n.head
    rw [hw, List.cons_append, read.eq_3 _ (fun _ heq => hc _ (by simp) (List.cons.inj heq).1)
      fun _ heq => hc _ (by simp) (List.cons.inj heq).1]
    rfl
  | text h =>
    obtain ⟨h⟩ := h
    rfl
  | null => rfl
  | yes => rfl
  | no => rfl

/-- Of every text of a value the snapshot is read that the value stands for, or none if it stands
for none. -/
theorem parse_text {text : String} {v : Value} (h : IsTextOf text v) :
    parse? text = v.snapshot? := by
  obtain ⟨hb, h, ha⟩ := h
  rw [parse?, String.toList_ofList, skipSpace_append hb, skipSpace_value h, read_spells h]
  cases v.snapshot? with
  | none => rfl
  | some s =>
    simp only [Option.map_some, Option.bind_eq_bind, Option.bind_some, skipSpace_blank ha]
    rfl

end Snapshot

end Courier

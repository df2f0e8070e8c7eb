import Courier.Counter
import Courier.Json.Skip
import Courier.TextMap

/-!
# Snapshots of the counters

The counts by name at one moment, and their form in JSON: an object with three fields, or a list of
their values when reading. A reader passes over unknown fields and refuses missing, repeated and
mistyped ones.
-/
namespace Courier

structure Snapshot where
  counters : TextMap UInt64
  uptimeMillis : UInt64
  timestampMillis : UInt64
  deriving DecidableEq

namespace Snapshot

/-- The counts of all counters under their names. -/
def ofCounters (t : Counters) (uptimeMillis timestampMillis : UInt64) : Snapshot where
  counters := TextMap.ofList (Counter.all.map fun c => (c.name, t.get c))
  uptimeMillis := uptimeMillis
  timestampMillis := timestampMillis

/-- The count of a counter, zero if the snapshot lacks it. -/
def get (s : Snapshot) (c : Counter) : UInt64 := (s.counters.get? c.name).getD 0

/-- The sum of all counts. -/
def total (s : Snapshot) : UInt64 := s.counters.entries.foldl (fun n e => n + e.2) 0

/-! ## JSON -/

open Json

/-- Members separated by commas. -/
def joinMembers : List (List Char) → List Char
  | [] => []
  | [m] => m
  | m :: rest => m ++ ',' :: joinMembers rest

def writeCounters (m : TextMap UInt64) : List Char :=
  '{' :: joinMembers (m.entries.map fun e => writeText e.1 ++ ':' :: writeWord e.2) ++ ['}']

def write (s : Snapshot) : List Char :=
  "\x7b\"counters\":".toList ++ writeCounters s.counters ++
    ",\"uptime_ms\":".toList ++ writeWord s.uptimeMillis ++
    ",\"timestamp_ms\":".toList ++ writeWord s.timestampMillis ++ ['}']

def toJson (s : Snapshot) : String := String.ofList s.write

def readCounter (cs : List Char) : Option ((String × UInt64) × List Char) := do
  let (key, cs) ← readKey cs
  let (n, cs) ← readWord cs
  return ((key, n), cs)

/-- An object of counts; the last of several with one name counts. -/
def readCounters : List Char → Option (TextMap UInt64 × List Char)
  | '{' :: cs => do
    let (entries, cs) ← readGroup '}' readCounter cs
    return (TextMap.ofList entries, cs)
  | _ => none

/-- A field of the object. -/
inductive Field
  | counters (m : TextMap UInt64)
  | uptime (n : UInt64)
  | timestamp (n : UInt64)
  | unknown

def readField (cs : List Char) : Option (Field × List Char) := do
  let (key, cs) ← readKey cs
  if key = "counters" then
    let (m, cs) ← readCounters cs
    return (.counters m, cs)
  else if key = "uptime_ms" then
    let (n, cs) ← readWord cs
    return (.uptime n, cs)
  else if key = "timestamp_ms" then
    let (n, cs) ← readWord cs
    return (.timestamp n, cs)
  else
    return (.unknown, ← Skip.value cs)

/-- The snapshot of fields of which each known one occurs once. -/
def ofFields (fields : List Field) : Option Snapshot :=
  let counters := fields.filterMap fun | .counters m => some m | _ => none
  let uptimes := fields.filterMap fun | .uptime n => some n | _ => none
  let timestamps := fields.filterMap fun | .timestamp n => some n | _ => none
  match counters, uptimes, timestamps with
  | [c], [u], [t] => some ⟨c, u, t⟩
  | _, _, _ => none

/-- The characters behind a comma. -/
def readComma (cs : List Char) : Option (List Char) :=
  match skipSpace cs with
  | ',' :: cs => some (skipSpace cs)
  | _ => none

/-- Exactly the three values of the fields, in the order of the fields. -/
def readList (cs : List Char) : Option (Snapshot × List Char) := do
  let (counters, cs) ← readCounters (skipSpace cs)
  let (uptime, cs) ← readWord (← readComma cs)
  let (timestamp, cs) ← readWord (← readComma cs)
  match skipSpace cs with
  | ']' :: cs => return (⟨counters, uptime, timestamp⟩, cs)
  | _ => none

def read (cs : List Char) : Option (Snapshot × List Char) :=
  match cs with
  | '{' :: cs => do
    let (fields, cs) ← readGroup '}' readField cs
    return (← ofFields fields, cs)
  | '[' :: cs => readList cs
  | _ => none

/-- The snapshot that the whole text stands for. -/
def parse? (s : String) : Option Snapshot := do
  let (snapshot, cs) ← read (skipSpace s.toList)
  if (skipSpace cs).isEmpty then return snapshot else none

end Snapshot

end Courier

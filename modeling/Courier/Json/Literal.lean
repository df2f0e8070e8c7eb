/-!
# Texts and numbers of JSON

How a text stands between quotes and a natural number in digits. A reader takes the characters that
are left and gives back those behind what it read. The writer escapes quotes, backslashes and
control characters and nothing else; the reader takes every escape of the format, surrogates in
pairs only.
-/
namespace Courier.Json

/-- The four characters between tokens. -/
def isSpace (c : Char) : Bool := c = ' ' || c = '\n' || c = '\t' || c = '\r'

def skipSpace (cs : List Char) : List Char := cs.dropWhile isSpace

/-! ## Texts -/

def hexDigit (n : Nat) : Char := if n < 10 then Char.ofNat (48 + n) else Char.ofNat (87 + n)

def hexValue? (c : Char) : Option Nat :=
  if '0' ≤ c ∧ c ≤ '9' then some (c.toNat - 48)
  else if 'a' ≤ c ∧ c ≤ 'f' then some (c.toNat - 87)
  else if 'A' ≤ c ∧ c ≤ 'F' then some (c.toNat - 55)
  else none

/-- The number of four hexadecimal digits. -/
def hexUnit? (a b c d : Char) : Option Nat := do
  return 4096 * (← hexValue? a) + 256 * (← hexValue? b) + 16 * (← hexValue? c) + (← hexValue? d)

/-- How a character stands between quotes. -/
def escape (c : Char) : List Char :=
  match c with
  | '"' => ['\\', '"']
  | '\\' => ['\\', '\\']
  | '\x08' => ['\\', 'b']
  | '\x0c' => ['\\', 'f']
  | '\n' => ['\\', 'n']
  | '\r' => ['\\', 'r']
  | '\t' => ['\\', 't']
  | c =>
    if c.toNat < 0x20 then ['\\', 'u', '0', '0', hexDigit (c.toNat / 16), hexDigit (c.toNat % 16)]
    else [c]

/-- The character that a letter behind a backslash stands for. -/
def unescape? : Char → Option Char
  | '"' => some '"'
  | '\\' => some '\\'
  | '/' => some '/'
  | 'b' => some '\x08'
  | 'f' => some '\x0c'
  | 'n' => some '\n'
  | 'r' => some '\r'
  | 't' => some '\t'
  | _ => none

def isHighSurrogate (n : Nat) : Bool := 0xd800 ≤ n && n < 0xdc00

def isLowSurrogate (n : Nat) : Bool := 0xdc00 ≤ n && n < 0xe000

def pairValue (high low : Nat) : Char :=
  Char.ofNat (0x10000 + 1024 * (high - 0xd800) + (low - 0xdc00))

/-- The characters of a text up to its closing quote. -/
def readChars : List Char → Option (List Char × List Char)
  | [] => none
  | '"' :: rest => some ([], rest)
  | '\\' :: 'u' :: a :: b :: c :: d :: '\\' :: 'u' :: e :: f :: g :: h :: rest => do
    let n ← hexUnit? a b c d
    if isHighSurrogate n then
      let m ← hexUnit? e f g h
      if isLowSurrogate m then
        let (cs, rest) ← readChars rest
        return (pairValue n m :: cs, rest)
      else none
    else if isLowSurrogate n then none
    else
      let (cs, rest) ← readChars ('\\' :: 'u' :: e :: f :: g :: h :: rest)
      return (Char.ofNat n :: cs, rest)
  | '\\' :: 'u' :: a :: b :: c :: d :: rest => do
    let n ← hexUnit? a b c d
    if isHighSurrogate n || isLowSurrogate n then none
    else
      let (cs, rest) ← readChars rest
      return (Char.ofNat n :: cs, rest)
  | '\\' :: e :: rest => do
    let c ← unescape? e
    let (cs, rest) ← readChars rest
    return (c :: cs, rest)
  | c :: rest =>
    if c.toNat < 0x20 then none
    else do
      let (cs, rest) ← readChars rest
      return (c :: cs, rest)

def writeText (s : String) : List Char := '"' :: s.toList.flatMap escape ++ ['"']

/-- A text that begins with its opening quote. -/
def readText : List Char → Option (String × List Char)
  | '"' :: rest => do
    let (cs, rest) ← readChars rest
    return (String.ofList cs, rest)
  | _ => none

/-! ## Numbers -/

def digitValue (c : Char) : Nat := c.toNat - 48

/-- The decimal digits of a number. -/
def writeNat (n : Nat) : List Char := Nat.toDigits 10 n

/-- The number of the digits in front, which have no zero in front of them. -/
def readNat : List Char → Option (Nat × List Char)
  | '0' :: rest => some (0, rest)
  | c :: rest =>
    if c.isDigit then
      some ((c :: rest.takeWhile Char.isDigit).foldl (fun n d => 10 * n + digitValue d) 0,
        rest.dropWhile Char.isDigit)
    else none
  | [] => none

def writeWord (n : UInt64) : List Char := writeNat n.toNat

/-- A number that fits 64 bits. -/
def readWord (cs : List Char) : Option (UInt64 × List Char) := do
  let (n, rest) ← readNat cs
  if n < UInt64.size then return (n.toUInt64, rest) else none

/-! ## Groups -/

/-- Members separated by commas, up to the closing character; `fuel` bounds their number. -/
def readMembers {α : Type} (close : Char) (member : List Char → Option (α × List Char)) :
    Nat → List Char → Option (List α × List Char)
  | 0, _ => none
  | fuel + 1, cs => do
    let (a, cs) ← member (skipSpace cs)
    match skipSpace cs with
    | [] => none
    | c :: cs =>
      if c = ',' then
        let (as, cs) ← readMembers close member fuel cs
        return (a :: as, cs)
      else if c = close then return ([a], cs)
      else none

/-- The members behind an opening character, perhaps none. -/
def readGroup {α : Type} (close : Char) (member : List Char → Option (α × List Char))
    (cs : List Char) : Option (List α × List Char) :=
  match skipSpace cs with
  | [] => none
  | c :: rest =>
    if c = close then some ([], rest) else readMembers close member (cs.length + 1) (c :: rest)

/-- A key, a colon, and the characters of the value. -/
def readKey (cs : List Char) : Option (String × List Char) := do
  let (key, cs) ← readText cs
  match skipSpace cs with
  | ':' :: cs => return (key, skipSpace cs)
  | _ => none

end Courier.Json

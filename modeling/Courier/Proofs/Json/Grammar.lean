import Courier.Json.Skip

/-!
# The grammar of JSON

The values of JSON, and which texts stand for which of them. Between the tokens there may be any
white space, and between quotes a character may stand for itself or be escaped in one of several
ways, so a value has many texts.
-/
namespace Courier.Json

/-! ## Values -/

/-- Decimal digits, at least one. -/
structure Digits where
  first : Fin 10
  rest : List (Fin 10)

namespace Digits

def write (ds : Digits) : List Char := (ds.first :: ds.rest).map fun d : Fin 10 => Nat.digitChar d

end Digits

/-- The power of ten at the end of a number. If a sign is there, it may be a minus. -/
structure Exponent where
  capital : Bool
  minus : Option Bool
  digits : Digits

namespace Exponent

def write (e : Exponent) : List Char :=
  (if e.capital then 'E' else 'e') ::
    (match e.minus with
      | none => []
      | some false => ['+']
      | some true => ['-']) ++ e.digits.write

end Exponent

/-- A number as it is written. -/
structure Numeral where
  negative : Bool := false
  whole : Nat
  fraction : Option Digits := none
  exponent : Option Exponent := none

namespace Numeral

def writeFraction (n : Numeral) : List Char :=
  match n.fraction with
  | none => []
  | some ds => '.' :: ds.write

def writeExponent (n : Numeral) : List Char :=
  match n.exponent with
  | none => []
  | some e => e.write

def write (n : Numeral) : List Char :=
  (if n.negative then ['-'] else []) ++ (writeNat n.whole ++ (n.writeFraction ++ n.writeExponent))

end Numeral

inductive Value
  | null
  | boolean (b : Bool)
  | number (n : Numeral)
  | text (s : String)
  | list (items : List Value)
  | object (members : List (String × Value))

/-! ## Texts -/

/-- White space, perhaps none. -/
def IsBlank (cs : List Char) : Prop := ∀ c ∈ cs, isSpace c = true

/-- How a character can stand between quotes. -/
inductive SpellsChar : List Char → Char → Prop
  | plain {c : Char} (h : 0x20 ≤ c.toNat) (hq : c ≠ '"') (hb : c ≠ '\\') : SpellsChar [c] c
  | short {e c : Char} (h : unescape? e = some c) : SpellsChar ['\\', e] c
  | unit {a b c d : Char} {n : Nat} (h : hexUnit? a b c d = some n) (hh : isHighSurrogate n = false)
      (hl : isLowSurrogate n = false) : SpellsChar ['\\', 'u', a, b, c, d] (Char.ofNat n)
  | pair {a b c d e f g h : Char} {n m : Nat} (hn : hexUnit? a b c d = some n)
      (hh : isHighSurrogate n = true) (hm : hexUnit? e f g h = some m)
      (hl : isLowSurrogate m = true) :
      SpellsChar ['\\', 'u', a, b, c, d, '\\', 'u', e, f, g, h] (pairValue n m)

/-- How several characters can stand between quotes. -/
inductive SpellsChars : List Char → List Char → Prop
  | nil : SpellsChars [] []
  | cons {cs rest : List Char} {c : Char} {s : List Char} (h : SpellsChar cs c)
      (hr : SpellsChars rest s) : SpellsChars (cs ++ rest) (c :: s)

/-- A text with its quotes. -/
inductive SpellsText : List Char → String → Prop
  | quoted {cs : List Char} {s : String} (h : SpellsChars cs s.toList) :
      SpellsText ('"' :: (cs ++ ['"'])) s

mutual

/-- The texts of a value. -/
inductive Spells : List Char → Value → Prop
  | null : Spells ['n', 'u', 'l', 'l'] .null
  | yes : Spells ['t', 'r', 'u', 'e'] (.boolean true)
  | no : Spells ['f', 'a', 'l', 's', 'e'] (.boolean false)
  | number (n : Numeral) : Spells n.write (.number n)
  | text {cs : List Char} {s : String} (h : SpellsText cs s) : Spells cs (.text s)
  | list {cs : List Char} {items : List Value} (h : SpellsItems cs items) :
      Spells ('[' :: (cs ++ [']'])) (.list items)
  | object {cs : List Char} {members : List (String × Value)} (h : SpellsMembers cs members) :
      Spells ('{' :: (cs ++ ['}'])) (.object members)

/-- The texts of what is between the brackets of a list. -/
inductive SpellsItems : List Char → List Value → Prop
  | nil {blank : List Char} (h : IsBlank blank) : SpellsItems blank []
  | one {before cs after : List Char} {v : Value} (hb : IsBlank before) (h : Spells cs v)
      (ha : IsBlank after) : SpellsItems (before ++ (cs ++ after)) [v]
  | cons {before cs after rest : List Char} {v w : Value} {items : List Value} (hb : IsBlank before)
      (h : Spells cs v) (ha : IsBlank after) (hr : SpellsItems rest (w :: items)) :
      SpellsItems (before ++ (cs ++ (after ++ ',' :: rest))) (v :: w :: items)

/-- The texts of a key with its value. -/
inductive SpellsMember : List Char → String × Value → Prop
  | pair {quoted before after cs : List Char} {key : String} {v : Value}
      (hk : SpellsText quoted key) (hb : IsBlank before) (ha : IsBlank after) (h : Spells cs v) :
      SpellsMember (quoted ++ (before ++ ':' :: (after ++ cs))) (key, v)

/-- The texts of what is between the braces of an object. -/
inductive SpellsMembers : List Char → List (String × Value) → Prop
  | nil {blank : List Char} (h : IsBlank blank) : SpellsMembers blank []
  | one {before cs after : List Char} {m : String × Value} (hb : IsBlank before)
      (h : SpellsMember cs m) (ha : IsBlank after) : SpellsMembers (before ++ (cs ++ after)) [m]
  | cons {before cs after rest : List Char} {m n : String × Value} {members : List (String × Value)}
      (hb : IsBlank before) (h : SpellsMember cs m) (ha : IsBlank after)
      (hr : SpellsMembers rest (n :: members)) :
      SpellsMembers (before ++ (cs ++ (after ++ ',' :: rest))) (m :: n :: members)

end

/-- The whole text stands for the value, with white space around it. -/
inductive IsTextOf : String → Value → Prop
  | mk {before cs after : List Char} {v : Value} (hb : IsBlank before) (h : Spells cs v)
      (ha : IsBlank after) : IsTextOf (String.ofList (before ++ (cs ++ after))) v

end Courier.Json

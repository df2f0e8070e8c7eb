import Courier.Json.Literal

/-!
# Values that are passed over

A field that nobody asked for may hold any value of JSON. The characters of the value are passed one
by one; the state says what may come next, and a stack remembers which lists and objects are open.
In a text that is passed over an escaped code unit need not be half of a pair.
-/
namespace Courier.Json.Skip

/-- What is open around the value. -/
inductive Opening
  | list
  | object
  deriving DecidableEq

/-- How far a number has come. -/
inductive Number
  | minus
  | zero
  | whole
  | point
  | fraction
  | exponent
  | sign
  | power
  deriving DecidableEq

namespace Number

/-- Whether the number may end here. -/
def complete : Number → Bool
  | zero | whole | fraction | power => true
  | minus | point | exponent | sign => false

/-- The number with one more character, if that belongs to it. -/
def extend? (n : Number) (c : Char) : Option Number :=
  match n with
  | minus => if c = '0' then some zero else if c.isDigit then some whole else none
  | zero => if c = '.' then some point else if c = 'e' ∨ c = 'E' then some exponent else none
  | whole =>
    if c.isDigit then some whole
    else if c = '.' then some point
    else if c = 'e' ∨ c = 'E' then some exponent
    else none
  | point => if c.isDigit then some fraction else none
  | fraction =>
    if c.isDigit then some fraction else if c = 'e' ∨ c = 'E' then some exponent else none
  | exponent =>
    if c.isDigit then some power else if c = '+' ∨ c = '-' then some sign else none
  | sign => if c.isDigit then some power else none
  | power => if c.isDigit then some power else none

end Number

/-- What may come next. The first value of a list and the first key of an object may be missing; a
text may be a key, and an escaped code unit in it lacks some digits; a word is one of three. -/
inductive State
  | value
  | firstValue
  | key
  | firstKey
  | colon
  | afterValue
  | chars (isKey : Bool)
  | escaped (isKey : Bool)
  | unit (isKey : Bool) (missing : Nat)
  | number (n : Number)
  | word (rest : List Char)

/-- What a character does. The value may end with the character or before it. -/
inductive Move
  | go (stack : List Opening) (s : State)
  | done
  | doneBefore
  | stuck

/-- The state behind a value, or the end if nothing is open. -/
def close (stack : List Opening) : Move :=
  if stack.isEmpty then .done else .go stack .afterValue

def beginValue (stack : List Opening) (c : Char) : Move :=
  if c = '"' then .go stack (.chars false)
  else if c = '[' then .go (.list :: stack) .firstValue
  else if c = '{' then .go (.object :: stack) .firstKey
  else if c = '-' then .go stack (.number .minus)
  else if c = '0' then .go stack (.number .zero)
  else if c.isDigit then .go stack (.number .whole)
  else if c = 't' then .go stack (.word ['r', 'u', 'e'])
  else if c = 'f' then .go stack (.word ['a', 'l', 's', 'e'])
  else if c = 'n' then .go stack (.word ['u', 'l', 'l'])
  else .stuck

def afterValue (stack : List Opening) (c : Char) : Move :=
  match stack with
  | .list :: outer =>
    if c = ',' then .go stack .value else if c = ']' then close outer else .stuck
  | .object :: outer =>
    if c = ',' then .go stack .key else if c = '}' then close outer else .stuck
  | [] => .stuck

/-- The move on one character. -/
def move (stack : List Opening) (s : State) (c : Char) : Move :=
  match s with
  | .value => if isSpace c then .go stack s else beginValue stack c
  | .firstValue =>
    if isSpace c then .go stack s else if c = ']' then close stack.tail else beginValue stack c
  | .key => if isSpace c then .go stack s else if c = '"' then .go stack (.chars true) else .stuck
  | .firstKey =>
    if isSpace c then .go stack s
    else if c = '}' then close stack.tail
    else if c = '"' then .go stack (.chars true)
    else .stuck
  | .colon => if isSpace c then .go stack s else if c = ':' then .go stack .value else .stuck
  | .afterValue => if isSpace c then .go stack s else afterValue stack c
  | .chars isKey =>
    if c = '"' then (if isKey then .go stack .colon else close stack)
    else if c = '\\' then .go stack (.escaped isKey)
    else if c.toNat < 0x20 then .stuck
    else .go stack s
  | .escaped isKey =>
    if c = 'u' then .go stack (.unit isKey 4)
    else if (unescape? c).isSome then .go stack (.chars isKey)
    else .stuck
  | .unit isKey missing =>
    if (hexValue? c).isSome then
      .go stack (if missing ≤ 1 then .chars isKey else .unit isKey (missing - 1))
    else .stuck
  | .number n =>
    match n.extend? c with
    | some n => .go stack (.number n)
    | none =>
      if !n.complete then .stuck
      else if stack.isEmpty then .doneBefore
      else if isSpace c then .go stack .afterValue
      else afterValue stack c
  | .word [] => .stuck
  | .word [d] => if c = d then close stack else .stuck
  | .word (d :: rest) => if c = d then .go stack (.word rest) else .stuck

/-- The characters behind the value. -/
def run (stack : List Opening) (s : State) : List Char → Option (List Char)
  | [] =>
    match s with
    | .number n => if stack.isEmpty && n.complete then some [] else none
    | _ => none
  | c :: rest =>
    match move stack s c with
    | .go stack s => run stack s rest
    | .done => some rest
    | .doneBefore => some (c :: rest)
    | .stuck => none

/-- Passes over one value. -/
def value (cs : List Char) : Option (List Char) := run [] .value cs

end Courier.Json.Skip

import Courier.Text.Numeral
import Courier.Text.Split

/-!
# Hosts in figures

A host in figures belongs to one of two families: four numbers of 8 bits, or eight groups of 16
bits, where one run of zero groups may be left out. The numbers of the first family can also be
written in other bases, and the last ones can be put together to one. A host of the second family
can name a zone behind a percent sign.
-/
namespace Courier.Network

inductive Family
  | v4
  | v6
  deriving DecidableEq, Repr

namespace Host
open Text (number? splitOn)

/-! ## Four numbers -/

/-- A number of 8 bits without zeros in front. -/
def octet? (cs : List Char) : Option Nat :=
  if cs.length = 1 ∨ cs.head? ≠ some '0' then (number? 10 cs).filter (· < 256) else none

def four? (cs : List Char) : Option (List Nat) :=
  ((splitOn '.' cs).mapM octet?).filter (·.length == 4)

/-- A number that is hexadecimal behind `0x`, octal behind any other zero, and decimal else. -/
def based? : List Char → Option Nat
  | '0' :: 'x' :: rest | '0' :: 'X' :: rest => number? 16 rest
  | '0' :: c :: rest => number? 8 (c :: rest)
  | cs => number? 10 cs

/-- Up to four numbers. The last stands for all the bytes that are left, every other for one. -/
def areLoose : List Nat → Bool
  | [a] => a < 0x100000000
  | [a, b] => a < 256 && b < 0x1000000
  | [a, b, c] => a < 256 && b < 256 && c < 0x10000
  | [a, b, c, d] => a < 256 && b < 256 && c < 256 && d < 256
  | _ => false

def isLooseFour (cs : List Char) : Bool := ((splitOn '.' cs).mapM based?).any areLoose

/-! ## Eight groups -/

def group? (cs : List Char) : Option Nat :=
  if cs.length ≤ 4 then number? 16 cs else none

/-- The groups that the pieces stand for; with `tail` the last piece may be four numbers, which
stand for two groups. -/
def groups? (tail : Bool) : List (List Char) → Option (List Nat)
  | [] => some []
  | [piece] =>
    match group? piece, four? piece with
    | some g, _ => some [g]
    | none, some [a, b, c, d] => if tail then some [256 * a + b, 256 * c + d] else none
    | none, _ => none
  | piece :: rest =>
    match group? piece, groups? tail rest with
    | some g, some gs => some (g :: gs)
    | _, _ => none

def groupsOf? (tail : Bool) (cs : List Char) : Option (List Nat) :=
  if cs.isEmpty then some [] else groups? tail (splitOn ':' cs)

/-- What stands before and behind the first pair of colons. -/
def cutRun : List Char → Option (List Char × List Char)
  | [] => none
  | ':' :: ':' :: rest => some ([], rest)
  | c :: rest => (cutRun rest).map fun (before, behind) => (c :: before, behind)

/-- Eight groups, or fewer around a pair of colons, which stands for the zeros that are missing. -/
def eight? (cs : List Char) : Option (List Nat) :=
  match cutRun cs with
  | none => (groupsOf? true cs).filter (·.length == 8)
  | some (before, behind) =>
    match groupsOf? false before, groupsOf? true behind with
    | some a, some b =>
      if a.length + b.length < 8 then some (a ++ List.replicate (8 - a.length - b.length) 0 ++ b)
      else none
    | _, _ => none

/-! ## Zones -/

/-- The host and what stands behind its percent sign, if there is one. -/
def cutZone (cs : List Char) : List Char × Option (List Char) :=
  match cs.span (· != '%') with
  | (host, []) => (host, none)
  | (host, _ :: zone) => (host, some zone)

/-- A zone by its number, which has 32 bits. -/
def isZoneNumber (zone : List Char) : Bool := (number? 10 zone).any (· < UInt32.size)

/-- Addresses that only mean something within a zone, of one receiver or of many. -/
def isLinkLocal (groups : List Nat) : Bool :=
  groups.head?.any fun g => g / 64 = 0xfe80 / 64 || (g / 256 = 0xff && g % 16 = 2)

/-- A zone of an address that needs one can have the name of an interface; there is only the
loopback. -/
def isZone (groups : List Nat) (zone : List Char) : Bool :=
  isZoneNumber zone || (isLinkLocal groups && zone == ['l', 'o'])

end Host

end Courier.Network

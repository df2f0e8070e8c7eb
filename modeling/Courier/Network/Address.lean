import Courier.Network.Host

/-!
# Socket addresses

An address is a host and a port with a colon between them. The plain form needs no lookup: four
numbers, or groups in brackets, with a port without a sign. Of every other host a lookup makes what
it can; no name service is modelled, so a host that is a name is not known.
-/
namespace Courier.Network

namespace Address
open Text (number?)

/-- Why a text stands for no address. The null character ends a text where hosts are looked up, so
no host can hold one. -/
inductive Problem
  | noPort
  | badPort
  | nullInHost
  | unknownZone
  | unknownHost
  deriving DecidableEq, Repr

namespace Problem

def message : Problem → String
  | noPort => "invalid socket address"
  | badPort => "invalid port value"
  | nullInHost => "file name contained an unexpected NUL byte"
  | unknownZone => "failed to lookup address information: Name or service not known"
  | unknownHost => "failed to lookup address information: Temporary failure in name resolution"

end Problem

def isPort (cs : List Char) : Bool := (number? 10 cs).any (· < 65536)

/-- A port where hosts are looked up may have a sign. -/
def isSignedPort : List Char → Bool
  | '+' :: rest => isPort rest
  | cs => isPort cs

/-- What stands between brackets. -/
def bracketed? (cs : List Char) : Option (List Char) :=
  match cs, cs.getLast? with
  | '[' :: rest, some ']' => some rest.dropLast
  | _, _ => none

/-- The family of a host in the plain form. -/
def plain? (host : List Char) : Option Family :=
  if (Host.four? host).isSome then some .v4
  else
    match (bracketed? host).map Host.cutZone with
    | some (groups, zone) =>
      if (Host.eight? groups).isSome ∧ zone.all Host.isZoneNumber then some .v6 else none
    | none => none

/-- The family that a lookup finds for a host. -/
def lookup (host : List Char) : Except Problem Family :=
  if '\x00' ∈ host then .error .nullInHost
  else if Host.isLooseFour host then .ok .v4
  else
    let (figures, zone) := Host.cutZone host
    match Host.eight? figures with
    | some groups => if zone.all (Host.isZone groups) then .ok .v6 else .error .unknownZone
    | none => .error .unknownHost

/-- The family of an address in the plain form. -/
def literal? (text : String) : Option Family :=
  match Text.splitLast ':' text.toList with
  | some (host, port) => if isPort port then plain? host else none
  | none => none

/-- The family of the address that a text stands for. -/
def parse (text : String) : Except Problem Family :=
  match literal? text with
  | some family => .ok family
  | none =>
    match Text.splitLast ':' text.toList with
    | none => .error .noPort
    | some (host, port) => if isSignedPort port then lookup host else .error .badPort

/-- An address in the plain form needs no lookup. -/
def isLiteral (text : String) : Bool := (literal? text).isSome

end Address

end Courier.Network

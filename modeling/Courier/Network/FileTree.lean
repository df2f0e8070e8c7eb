import Courier.Fault.Cause
import Courier.Text.Split

/-!
# Paths

A place in the tree of files is given by the names on the way from the root. A path leads to a place
name by name: each name is looked up in a directory, and so is an empty one, which means the
directory itself. A socket is addressed by a path, or by a name outside of the tree behind a null
character.
-/
namespace Courier.Network

/-- The names on the way from the root. -/
abbrev Place := List String

/-- The directories, what is there besides, and the place where paths start that do not start at the
root. -/
structure FileTree where
  directories : List Place
  files : List Place
  start : Place

namespace FileTree

/-- What every system has, as far as it matters. -/
def standard : FileTree where
  directories :=
    [[], ["bin"], ["boot"], ["dev"], ["dev", "shm"], ["etc"], ["home"], ["lib"], ["mnt"], ["opt"],
      ["proc"], ["proc", "self"], ["root"], ["run"], ["sbin"], ["srv"], ["sys"], ["tmp"], ["usr"],
      ["usr", "bin"], ["usr", "lib"], ["usr", "local"], ["usr", "share"], ["var"], ["var", "lib"],
      ["var", "log"], ["var", "run"], ["var", "tmp"], ["work"]]
  files :=
    [["dev", "full"], ["dev", "null"], ["dev", "random"], ["dev", "stderr"], ["dev", "stdin"],
      ["dev", "stdout"], ["dev", "tty"], ["dev", "urandom"], ["dev", "zero"], ["etc", "group"],
      ["etc", "hostname"], ["etc", "hosts"], ["etc", "passwd"], ["etc", "resolv.conf"]]
  start := ["work"]

def has (t : FileTree) (p : Place) : Bool := p ∈ t.directories || p ∈ t.files

/-- Looks up a name in a directory. -/
def enter (t : FileTree) (p : Place) (name : String) : Except IoError Place :=
  if p ∉ t.directories then .error (.ofNumber 20)
  else if name = "" ∨ name = "." then .ok p
  else if name = ".." then .ok p.dropLast
  else if t.has (p ++ [name]) then .ok (p ++ [name])
  else .error (.ofNumber 2)

def names (path : String) : List String := (Text.splitOn '/' path.toList).map String.ofList

/-- The place that a path leads to. -/
def locate (t : FileTree) (path : String) : Except IoError Place :=
  (names path).foldlM t.enter (if path.toList.head? = some '/' then [] else t.start)

/-- The place that a path from the root names, whether there is something or not. -/
def placeOf (path : String) : Place := (names path).filter (· ≠ "")

/-- Puts a file into the tree, and the directories above it. -/
def add (t : FileTree) (p : Place) : FileTree :=
  { t with
    directories := t.directories ++ (List.range p.length).map p.take
    files := t.files ++ [p] }

/-! ## Sockets -/

/-- The bytes that there is room for in the address of a socket. A path has a null character behind
it. -/
def addressSize : Nat := 108

/-- The place of the socket that an address stands for, or none if its name is outside of the
tree. -/
def socket? (t : FileTree) (address : String) : Except IoError (Option Place) :=
  match address.toList with
  | [] | ['\x00'] => .error (.ofNumber 22)
  | '\x00' :: _ =>
    if addressSize < address.utf8ByteSize then
      .error ⟨.invalidInput, "abstract socket name must be shorter than SUN_LEN"⟩
    else .ok none
  | cs =>
    if '\x00' ∈ cs then .error ⟨.invalidInput, "paths must not contain interior null bytes"⟩
    else if addressSize ≤ address.utf8ByteSize then
      .error ⟨.invalidInput, "path must be shorter than SUN_LEN"⟩
    else (t.locate address).map some

end FileTree

end Courier.Network

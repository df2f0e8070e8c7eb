import Courier.Selector

/-!
# Selectors by scheme

A target is a scheme, the mark `://` and an endpoint. The scheme ends at the first mark and names a
registered selector; of several selectors registered under one scheme the last one holds.
-/
namespace Courier

/-- Selectors of some kind `σ` under their schemes, the latest first. -/
structure SelectorRegistry (σ : Type) where
  entries : List (String × σ)

/-- A target taken apart. -/
structure Target where
  scheme : String
  endpoint : String
  deriving DecidableEq, Repr

namespace Target

/-- What stands before and behind the first mark. -/
def cut : List Char → Option (List Char × List Char)
  | [] => none
  | ':' :: '/' :: '/' :: rest => some ([], rest)
  | c :: rest => (cut rest).map fun (before, behind) => (c :: before, behind)

def text (t : Target) : String := t.scheme ++ "://" ++ t.endpoint

/-- Scheme and endpoint, neither of them empty. -/
def parse (target : String) : Except Fault Target :=
  match cut target.toList with
  | none =>
    .error (.route ("invalid target " ++ Text.Quoted.quote target ++ ", expect scheme://endpoint"))
  | some (scheme, endpoint) =>
    if scheme.isEmpty || endpoint.isEmpty then
      .error (.route ("invalid target " ++ Text.Quoted.quote target ++
        ", scheme and endpoint must not be empty"))
    else .ok ⟨String.ofList scheme, String.ofList endpoint⟩

end Target

namespace SelectorRegistry
variable {σ : Type}

def empty : SelectorRegistry σ := ⟨[]⟩

/-- Puts a selector under a scheme in place of any other. -/
def register (r : SelectorRegistry σ) (scheme : String) (selector : σ) : SelectorRegistry σ :=
  ⟨(scheme, selector) :: r.entries⟩

def get? (r : SelectorRegistry σ) (scheme : String) : Option σ := r.entries.lookup scheme

/-- The registry of a client that registers nothing: one selector under both names. -/
def withDefaults (static : σ) : SelectorRegistry σ :=
  (empty.register "ip" static).register "dns" static

/-- The selector and the endpoint that a target names. -/
def resolve (r : SelectorRegistry σ) (target : String) : Except Fault (σ × String) :=
  match Target.parse target with
  | .error e => .error e
  | .ok t =>
    match r.get? t.scheme with
    | some selector => .ok (selector, t.endpoint)
    | none => .error (.route ("selector " ++ Text.Quoted.quote t.scheme ++ " not registered"))

end SelectorRegistry

end Courier

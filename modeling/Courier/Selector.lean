import Courier.Context
import Courier.Text.Blank
import Courier.Text.Quoted
import Courier.Text.Split

/-!
# Nodes and selectors

A selector turns an endpoint into a node, the place a call goes to. The static one reads the
endpoint as a list of addresses separated by commas and takes one of them, as a draw says.
-/
namespace Courier

/-- A place that a call can go to, over the network of the client if it names none. A recorded copy
has the time a call took. -/
structure Node where
  serviceName : String := ""
  network : String := ""
  address : String := ""
  cost : Option Span := none
  deriving DecidableEq, Repr

namespace AddressList

/-- The addresses of an endpoint: its pieces without blanks around them, empty ones left out. -/
def addresses (endpoint : String) : List String :=
  ((Text.splitOn ',' endpoint.toList).map Text.Blank.trimChars).filterMap fun cs =>
    if cs.isEmpty then none else some (String.ofList cs)

/-- The node of a draw: the addresses are numbered, and the draw counts modulo their number. -/
def select (network endpoint : String) (draw : Nat) : Except Fault Node :=
  if endpoint = "" then .error (.route "ip selector: service name is empty")
  else
    match addresses endpoint with
    | [] =>
      .error (.route ("ip selector: no address in endpoint " ++ Text.Quoted.quote endpoint))
    | a :: rest =>
      .ok { serviceName := endpoint
            network
            address := (a :: rest).get ⟨draw % (a :: rest).length, Nat.mod_lt _ (by simp)⟩ }

end AddressList

/-- What a call learned about its node, with the address of the other end of the connection. -/
structure CallResult where
  node : Node
  remote : String
  cost : Span
  deriving DecidableEq, Repr

/-- A cell that keeps the first result put into it. -/
structure NodeCell where
  content : Option CallResult
  deriving DecidableEq

namespace NodeCell

def empty : NodeCell := ⟨none⟩

/-- Whether the result was stored, and the cell afterwards. -/
def set (cell : NodeCell) (r : CallResult) : Bool × NodeCell :=
  match cell.content with
  | none => (true, ⟨some r⟩)
  | some _ => (false, cell)

end NodeCell

end Courier

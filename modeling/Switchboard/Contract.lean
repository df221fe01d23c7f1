/-
  Service contracts.

  A `Contract` names a service, says how a call picks one of its operations, and lists their names.
  An `Operation` of a contract is one of these names with the types of its request and its response,
  and how both are written and read.
-/
import Switchboard.Json.Codec

namespace Switchboard

/-- How a call picks the operation it is for. -/
inductive Selector where
  /-- By name: from the query parameter `param`, and without that from the member `param` of the
      body. -/
  | named (param : String)
  /-- The service has one operation only. -/
  | fixed (operation : String)
  deriving Repr, DecidableEq

/-- A service as its clients know it: its name, how a call picks an operation, and the names of the
    operations. -/
structure Contract where
  name : String
  selector : Selector
  operations : List String
  deriving Repr, DecidableEq

/-- The declared operation of a name, if there is one. -/
def Contract.declares (c : Contract) (name : String) : Option String :=
  c.operations.find? (· == name)

/-- One declared operation of a contract, with the types of its request and response and their
    codecs. -/
structure Operation (c : Contract) where
  name : String
  Request : Type
  Response : Type
  request : Json.Codec Request
  response : Json.Codec Response
  declared : name ∈ c.operations := by decide

end Switchboard

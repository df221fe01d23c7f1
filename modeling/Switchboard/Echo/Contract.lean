/-
  The `Echo` service: one operation, which answers with the message it is sent.
-/
import Switchboard.Contract
import Switchboard.Wire

namespace Switchboard.Echo

open Json

/-- The request of `echo`. -/
structure EchoRequest where
  message : String
  deriving Repr, DecidableEq

/-- The one field of the request. -/
def EchoRequest.record : Record EchoRequest where
  name := "EchoRequest"
  fields := .cons ⟨"message", .text⟩ .nil
  ofValues v := ⟨v.1⟩
  toValues r := (r.message, ())

/-- The contract of the service, whose calls need not name their operation. -/
def contract : Contract where
  name := "Echo"
  selector := .fixed "echo"
  operations := ["echo"]

/-- Answers with the message. -/
def echo : Operation contract where
  name := "echo"
  Request := EchoRequest
  Response := String
  request := EchoRequest.record.codec
  response := .text

end Switchboard.Echo

/-
  The context of a call: what a handler is told besides the request.
-/
import Switchboard.Http.Message
import Switchboard.Http.Form

namespace Switchboard

open Http

/-- The header that carries the id of a request. -/
def requestIdHeader : String := "x-request-id"

/-- What a handler can ask about its call: the id, and the request around the payload. -/
structure CallContext where
  callId : Nat
  service : String
  method : Method
  uri : Uri
  version : Version
  headers : Headers
  /-- Whether the call came through a router. -/
  routed : Bool
  deriving Repr, DecidableEq

namespace CallContext

/-- The context of a call that arrives as a request. -/
def ofRequest (callId : Nat) (service : String) (r : Request) : CallContext :=
  ⟨callId, service, r.method, r.uri, r.version, r.headers, r.routed⟩

/-- The context of a call from inside the process. -/
def inProcess (service : String) : CallContext := ⟨0, service, .post, .root, .http11, [], false⟩

/-- The first header of a name in any case; absent when it does not read as text. -/
def header (c : CallContext) (name : String) : Option String := c.headers.text? name

/-- The last parameter of a name in the query. -/
def queryParam (c : CallContext) (name : String) : Option String :=
  (Form.decode (c.uri.query.getD "")).last? name

/-- The id of the request, if it reads as text. -/
def requestId (c : CallContext) : Option String := c.header requestIdHeader

end CallContext

end Switchboard

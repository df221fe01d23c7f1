/-
  How a call fails.

  `HandlerError` is what a handler reports; its message reaches the client word for word.
  `CallError` is any way in which a call ends without an answer; it has a message, a status, and a
  label that stays the same when the wording changes.
-/
import Switchboard.Http.Message
import Switchboard.Wire

namespace Switchboard

/-- The failure that a handler reports. -/
structure HandlerError where
  message : String
  deriving Repr, DecidableEq

/-- The error of a cause and the contexts around it, the innermost first: the outermost is named
    first. -/
def HandlerError.ofChain (root : String) (contexts : List String) : HandlerError :=
  ⟨": ".intercalate (contexts.reverse ++ [root])⟩

/-- Every way in which a call ends without an answer, panics apart. -/
inductive CallError where
  | methodNotAllowed (method : Http.Method)
  | payloadTooLarge (limit : Nat)
  | missingOperation (param : String)
  | unknownOperation (name : String)
  | notRegistered (service operation : String)
  | badRequest (reason : String)
  | handler (error : HandlerError)
  | encoding (reason : String)
  deriving Repr, DecidableEq

namespace CallError

/-- The message of a failure, which the client reads. -/
def message : CallError → String
  | methodNotAllowed method => "method not allowed: " ++ method.name
  | payloadTooLarge limit => "request body exceeds " ++ toString limit ++ " bytes"
  | missingOperation param => "missing operation selector `" ++ param ++ "`"
  | unknownOperation name => "invalid function: " ++ name
  | notRegistered service operation => "no handler registered for " ++ service ++ "." ++ operation
  | badRequest reason => "bad request: " ++ reason
  | handler error => error.message
  | encoding reason => "failed to encode response: " ++ reason

/-- What a client can mend by changing its request is a client error; the rest are server errors. -/
def status : CallError → Nat
  | methodNotAllowed _ => 405
  | payloadTooLarge _ => 413
  | missingOperation _ | unknownOperation _ | badRequest _ => 400
  | notRegistered .. | handler _ | encoding _ => 500

/-- The label for logs and metrics. -/
def kind : CallError → String
  | methodNotAllowed _ => "method_not_allowed"
  | payloadTooLarge _ => "payload_too_large"
  | missingOperation _ => "missing_operation"
  | unknownOperation _ => "unknown_operation"
  | notRegistered .. => "operation_not_registered"
  | badRequest _ => "bad_request"
  | handler _ => "handler_error"
  | encoding _ => "encoding_error"

/-- The status is one of the server errors. -/
def isServerError (e : CallError) : Bool := 500 ≤ e.status && e.status ≤ 599

/-- The body of the response. -/
def body (e : CallError) : ErrorBody := ⟨e.message⟩

end CallError

end Switchboard

/-
  Handlers, and the operations that have one.

  A `Handler` answers the requests of one operation.  It sees its surroundings and the context of
  the call, and may change the state of the world.  In a `Registry` the types of request and
  response are gone: a `Slot` takes a payload, reads the request from it, and writes the response.
-/
import Switchboard.Call.Context
import Switchboard.Call.Error
import Switchboard.Contract
import Switchboard.Service.Run

namespace Switchboard

/-- Answers requests of type `α` with responses of type `β`, in surroundings `ε` and a world `σ`. -/
abbrev Handler (ε σ α β : Type) := ε → CallContext → α → σ → Ran σ (Outcome HandlerError β)

/-- Answers payloads. -/
abbrev Slot (ε σ : Type) := ε → CallContext → Bytes → σ → Ran σ (Outcome CallError Bytes)

variable {ε σ : Type} {c : Contract}

namespace Operation

/-- Writes a response. -/
def answer (op : Operation c) : Outcome HandlerError op.Response → Outcome CallError Bytes
  | .done response =>
    match op.response.encode response with
    | .ok bytes => .done bytes
    | .error reason => .failed (.encoding reason)
  | .failed error => .failed (.handler error)
  | .panicked panic => .panicked panic

/-- Reads a request, hands it to the handler, and writes the response.  Without a request there is
    no run. -/
def slot (op : Operation c) (handler : Handler ε σ op.Request op.Response) : Slot ε σ :=
  fun surroundings context payload world =>
    match op.request.decode payload with
    | .error fault => .of (.failed (.badRequest (fault.message payload))) world
    | .ok request => (handler surroundings context request world).map op.answer

end Operation

/-! ## Registries -/

/-- The operations of a service that have a handler, in increasing order of their names. -/
abbrev Registry (ε σ : Type) := Named (Slot ε σ)

namespace Registry

/-- No operation has a handler. -/
def empty : Registry ε σ := []

/-- Puts the handler of an operation in place, whether it had one or not. -/
def register (r : Registry ε σ) (op : Operation c) (handler : Handler ε σ op.Request op.Response) :
    Registry ε σ := r.put op.name (op.slot handler)

/-- The handler of an operation. -/
def slot? (r : Registry ε σ) (operation : String) : Option (Slot ε σ) := r.first? operation

/-- Whether an operation has a handler. -/
def isRegistered (r : Registry ε σ) (operation : String) : Bool := (r.slot? operation).isSome

/-- The names of the operations that have a handler, in increasing order. -/
def registered (r : Registry ε σ) : List String := r.names

end Registry

end Switchboard

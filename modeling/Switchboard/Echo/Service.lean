/-
  The `Echo` service.
-/
import Switchboard.Echo.Contract
import Switchboard.Service.Basic

namespace Switchboard.Echo

variable {ε σ : Type}

/-- Gives the message back and changes nothing. -/
def handleEcho : Handler ε σ EchoRequest String :=
  fun _ _ request world => .of (.done request.message) world

/-- Registers the handler. -/
def register (s : Service contract ε σ) : Service contract ε σ := s.register echo handleEcho

/-- The events of registering the handler. -/
def registerEvents : List Event := [Service.registeredEvent contract echo.name]

end Switchboard.Echo

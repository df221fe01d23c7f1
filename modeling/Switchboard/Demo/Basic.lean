/-
  The demo server: the todos and the echo behind one host.

    * `prepare`  reads the command line and the log filter, or tells how the program ends without
                 them;
    * `host`     the host that answers, with the services at their paths.
-/
import Switchboard.Demo.CommandLine
import Switchboard.Echo.Service
import Switchboard.Host.Basic
import Switchboard.Telemetry.Filter
import Switchboard.Todos.Service

namespace Switchboard.Demo

open Host Telemetry

/-! ## Ending early -/

/-- How the program ends when it does not serve. -/
inductive Ending where
  | help (text : String)
  | usage (error : UsageError)
  | failed (message : String) (cause : Option String)
  deriving Repr, DecidableEq

namespace Ending

/-- The exit code of the program. -/
def exitCode : Ending → UInt32
  | help _ => 0
  | usage _ => 2
  | failed .. => 1

/-- What is printed on the standard output. -/
def output : Ending → String
  | help text => text
  | _ => ""

/-- What is printed on the error output. -/
def report : Ending → String
  | help _ => ""
  | usage error => error.report
  | failed message cause =>
    "Error: " ++ message ++ "\n" ++
      (match cause with
        | some c => "\nCaused by:\n    " ++ c ++ "\n"
        | none => "")

/-- The end of a host whose address cannot be taken. -/
def unbound (config : Config) (reason : String) : Ending :=
  failed (bindFailure config) (some reason)

end Ending

/-- The environment variable that sets the log filter. -/
def filterSetting : String := "RUST_LOG"

/-- What the program runs with. -/
structure Plan where
  options : Options
  filter : Filter
  deriving Repr, DecidableEq

/-- Reads the command line, then the filter. -/
def prepare (setting : String → Option String) (arguments : List String) : Except Ending Plan :=
  match parse setting arguments with
  | .error e => .error (.usage e)
  | .ok (.help full) => .error (.help (help setting full))
  | .ok (.run options) =>
    match install none (setting filterSetting) with
    | .error e => .error (.failed e.message none)
    | .ok filter => .ok ⟨options, filter⟩

/-! ## The host -/

/-- Puts a service at a path of a host, and adds the events of that. -/
def withService {σ : Type} (path : String) {c : Contract} (service : Service c Controller σ) :
    Host σ × Trace → Host σ × Trace
  | (h, t) =>
    match h.mount path service with
    | (.mounted next, u) => (next, t ++ u)
    | (_, u) => (h, t ++ u)

/-- The host with both services, and the events of setting it up. -/
def host (o : Options) (read : String → Option Bytes) : Host Todos.Store × Trace :=
  let todos : Service Todos.contract Controller Todos.Store := { config := o.dispatchConfig }
  let echo : Service Echo.contract Controller Todos.Store := { config := o.dispatchConfig }
  let registered : Trace := ⟨Todos.registerEvents ++ Echo.registerEvents, []⟩
  withService "/echo" (Echo.register echo)
    (withService "/todos" (Todos.register .whole todos)
      ({ config := o.hostConfig read }, registered))

/-- The target of the events of the host and its services. -/
def hostTarget : String := "cedar_server"

/-- The target of the events of the program itself. -/
def programTarget : String := "cedar_demo"

/-- The event of a metrics page that can be reached. -/
def metricsEvent (address : String) : Event :=
  ⟨.info, "metrics exporter listening", [("addr", .text address)], none⟩

/-- The event of a server that answers on a port. -/
def readyEvent (port : Nat) : Event :=
  ⟨.info, "cedar-demo ready", [("port", Event.count port)], none⟩

end Switchboard.Demo

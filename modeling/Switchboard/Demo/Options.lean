/-
  What the demo server can be told.
-/
import Switchboard.Host.Config
import Switchboard.Service.Basic
import Switchboard.Telemetry.Format

namespace Switchboard.Demo

open Telemetry

/-- What the command line and its settings decide, with the standard values. -/
structure Options where
  host : String := "0.0.0.0"
  port : Nat := 8081
  /-- The path of the file that `GET /` answers with. -/
  staticIndex : Option String := none
  requestTimeoutSecs : Nat := 30
  maxRequestBytes : Nat := 1048576
  logFormat : LogFormat := .standard
  /-- The address and port where the metrics are shown. -/
  metricsAddress : Option (String × Nat) := none
  deriving Repr, DecidableEq

namespace Options

/-- The configuration of the host; `read` gives the content of a file. -/
def hostConfig (o : Options) (read : String → Option Bytes) : Host.Config :=
  { host := o.host, port := o.port, requestTimeout := o.requestTimeoutSecs * 1000,
    staticIndex := o.staticIndex.map fun path => ⟨path, read path⟩ }

/-- The configuration of both services. -/
def dispatchConfig (o : Options) : DispatchConfig := { maxRequestBytes := o.maxRequestBytes }

end Options

end Switchboard.Demo

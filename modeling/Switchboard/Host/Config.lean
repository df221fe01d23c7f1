/-
  What a host is told when it is made.
-/
import Switchboard.Text.Utf8

namespace Switchboard.Host

/-- The file that `GET /` answers with; without content the file does not exist. -/
structure StaticFile where
  name : String
  content : Option Bytes
  deriving Repr, DecidableEq

/-- Where a host listens, who may read its responses, and how long a request may take. -/
structure Config where
  host : String := "0.0.0.0"
  /-- The port to listen on; `0` leaves the choice to the system. -/
  port : Nat := 0
  /-- The origins that may read responses; `*` stands for all of them. -/
  corsOrigins : List String := ["*"]
  /-- The longest time for a request, in milliseconds. -/
  requestTimeout : Nat := 30000
  staticIndex : Option StaticFile := none
  deriving Repr, DecidableEq

/-- The address to listen on. -/
def Config.bindAddress (c : Config) : String := c.host ++ ":" ++ toString c.port

end Switchboard.Host

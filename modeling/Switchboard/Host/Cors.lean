/-
  Which origins may read a response.

  When `*` is among the configured origins, every response says so.  Otherwise a response names the
  origin of its request if that is one of the configured origins, byte for byte.
-/
import Switchboard.Host.Config
import Switchboard.Http.Message

namespace Switchboard.Host

open Http

/-- The headers that a response depends on. -/
def varyHeader : String × Bytes :=
  header "vary" "origin, access-control-request-method, access-control-request-headers"

/-- The configured origins that can be the value of a header. -/
def listedOrigins (origins : List String) : List Bytes :=
  (origins.map Utf8.encode).filter fun o => o.all isHeaderByte

/-- Which origins may read responses. -/
inductive Admission where
  | all
  | listed (origins : List Bytes)
  deriving Repr, DecidableEq

namespace Admission

/-- Admits the origins of a list; `*` cannot be one of them. -/
def ofList? (origins : List Bytes) : Option Admission :=
  if origins.contains (Utf8.encode "*") then none else some (.listed origins)

/-- The origin that a response to a request names. -/
def named (request : Headers) : Admission → Option Bytes
  | all => some (Utf8.encode "*")
  | listed origins => (request.value? "origin").filter (origins.contains ·)

end Admission

/-- Which origins the configured ones admit; `none` when there is no saying. -/
def admission? (origins : List String) : Option Admission :=
  if origins.contains "*" then some .all else Admission.ofList? (listedOrigins origins)

/-- The origin that a response to a request names under the configured origins. -/
def allowedOrigin (origins : List String) (request : Headers) : Option Bytes :=
  (admission? origins).bind (·.named request)

/-- The headers that every response has. -/
def corsHeaders (origins : List String) (request : Headers) : Headers :=
  ((allowedOrigin origins request).map fun o => ("access-control-allow-origin", o)).toList ++
    [varyHeader]

/-- The answer to every `OPTIONS` request. -/
def preflight : Response where
  status := 200
  headers :=
    [header "access-control-allow-methods" "GET,POST", header "access-control-allow-headers" "*"]
  body := []

/-- Adds the headers that every response has. -/
def withCors (origins : List String) (request : Headers) (r : Response) : Response :=
  { r with headers := r.headers ++ corsHeaders origins request }

end Switchboard.Host

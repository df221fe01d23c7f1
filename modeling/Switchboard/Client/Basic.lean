/-
  Clients: typed calls over HTTP.

  A client encodes a request, posts it to its endpoint, and reads either the typed response or the
  error body.  Where the operations of a service share an endpoint, the name of the operation goes
  behind the query of the endpoint.

  The connection that a client sends through is open: which authorities it knows, and what it says
  of itself in the header of every request.
-/
import Switchboard.Host.Basic
import Switchboard.Http.Url

namespace Switchboard

open Http

/-- What clients send their requests through. -/
structure Connection where
  /-- Reads the authority of a URL, and gives `none` if there can be no such host. -/
  authority? : List Char → Option String := Url.plainAuthority?
  /-- The headers that every request gets. -/
  headers : Headers := []

/-- A client of one endpoint. -/
structure Client (c : Contract) where
  endpoint : String
  connection : Connection := {}

/-- Why a call of a client has failed. -/
inductive ClientError where
  /-- No response came, or not all of it. -/
  | transport
  /-- The response is a failure. -/
  | rpc (service operation : String) (status : Nat) (message : String)
  /-- The response is a success, but its body does not read as the type it should have. -/
  | decode (reason : String)
  deriving Repr, DecidableEq

namespace ClientError

/-- The status of a failure that the service has answered with. -/
def status : ClientError → Option Nat
  | rpc _ _ status _ => some status
  | _ => none

/-- The text of an error. -/
def message : ClientError → String
  | transport => "transport error"
  | rpc service operation status message =>
    service ++ "." ++ operation ++ " failed with status " ++ toString status ++ ": " ++ message
  | decode reason => "failed to decode response: " ++ reason

end ClientError

namespace Client

variable {c : Contract}

/-! ## Sending -/

/-- The URL of a call: the endpoint, with the operation behind its query where it has to be
    named. -/
def url? (client : Client c) (operation : String) : Option Url :=
  (Url.parse? client.connection.authority? client.endpoint).map fun u =>
    match c.selector with
    | .named param => u.withPair param operation
    | .fixed _ => u

/-- The request of a call. -/
def request? (client : Client c) (op : Operation c) (request : op.Request) : Option Request := do
  let url ← client.url? op.name
  let body ← (op.request.encode request).toOption
  let built ← (Request.build Method.post.name url.target .http11
    [header "content-type" jsonContentType] [.data body]).toOption
  return { built with headers := built.headers ++ client.connection.headers }

/-! ## Receiving -/

/-- The message of a failure: that of the error body, or else the body as text. -/
def failureMessage (body : Bytes) : String :=
  match ErrorBody.record.codec.decode body with
  | .ok e => e.message
  | .error _ => Utf8.decodeLossy body

/-- What a response means to the caller. -/
def interpret (op : Operation c) (status : Nat) (body : Bytes) : Except ClientError op.Response :=
  if 200 ≤ status ∧ status ≤ 299 then
    (op.response.decode body).mapError fun fault => .decode (fault.message body)
  else .error (.rpc c.name op.name status (failureMessage body))

/-- The event of a response that has arrived. -/
def receivedEvent (c : Contract) (operation : String) (status bytes : Nat) : Event :=
  ⟨.debug, "rpc response received", [("service", .text c.name), ("operation", .text operation),
    ("status", Event.count status), ("bytes", Event.count bytes)], none⟩

/-- A reply as it comes over the wire: its body, the length it announces, and whether it comes at
    all. -/
structure Reply where
  status : Nat
  body : Bytes
  announced : Option Nat := none
  closed : Bool := false
  deriving Repr, DecidableEq

/-- Whether replies of a status never have a body. -/
def isBodyless (status : Nat) : Bool := status == 101 || status == 204 || status == 304

/-- The status and body that arrive, unless the connection ends first.  A status that announces
    another response is passed over, and none follows. -/
def Reply.arrives? (r : Reply) : Option (Nat × Bytes) :=
  if r.closed then none
  else if isBodyless r.status then some (r.status, [])
  else if r.status < 200 then none
  else
    match r.announced with
    | none => some (r.status, r.body)
    | some n => if r.body.length < n then none else some (r.status, r.body.take n)

/-- What a caller gets for what arrives, and the event of its arrival. -/
def receive (op : Operation c) : Option (Nat × Bytes) → Except ClientError op.Response × Trace
  | none => (.error .transport, {})
  | some (status, body) =>
    (interpret op status body, .event (receivedEvent c op.name status body.length))

/-! ## Calling -/

/-- Calls an operation of a service behind a host. -/
def call {σ : Type} (client : Client c) (op : Operation c) (request : op.Request) (host : Host σ)
    (generatedId : Bytes) (world : σ) : Ran σ (Except ClientError op.Response) × Host σ :=
  match client.request? op request with
  | none => (.of (.error .transport) world, host)
  | some r =>
    let (ran, next) := host.answer generatedId r world
    let (result, trace) := receive op (some (ran.result.status, ran.result.body))
    (⟨result, ran.state, ran.trace ++ trace⟩, next)

end Client

end Switchboard

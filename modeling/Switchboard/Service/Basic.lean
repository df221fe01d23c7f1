/-
  Services: contracts with handlers, which answer calls.

    * `Service.perform`  finds the handler of a call and runs it;
    * `Service.dispatch` does so in a span, and measures it;
    * `Service.call`     is `dispatch` on a typed request and response;
    * `Service.serve`    answers an HTTP request.

  A call is refused by the first of these that fails: the method, the body, the selection of the
  operation, its declaration, its registration, the reading of the request; then the handler
  decides, and last the writing of the response.
-/
import Switchboard.Call.Body
import Switchboard.Call.Selection
import Switchboard.Service.Registry

namespace Switchboard

open Http

/-- What a service is told when it is made. -/
structure DispatchConfig where
  /-- The largest body that is read. -/
  maxRequestBytes : Nat := 1048576
  /-- Whether only `POST` is served. -/
  requirePost : Bool := true
  deriving Repr, DecidableEq

/-- A service in surroundings `ε` and a world `σ`. -/
structure Service (c : Contract) (ε σ : Type) where
  config : DispatchConfig := {}
  registry : Registry ε σ := .empty
  lastCallId : Nat := 0

namespace Service

variable {c : Contract} {ε σ : Type}

/-- The name of the contract. -/
def name (_ : Service c ε σ) : String := c.name

/-! ## Registration -/

/-- The event of a registration. -/
def registeredEvent (c : Contract) (operation : String) : Event :=
  ⟨.debug, "handler registered", [("service", .text c.name), ("operation", .text operation)], none⟩

/-- Registers the handler of an operation, in place of the one it has. -/
def register (s : Service c ε σ) (op : Operation c) (handler : Handler ε σ op.Request op.Response) :
    Service c ε σ := { s with registry := s.registry.register op handler }

/-! ## Call ids -/

/-- Takes the next call id. -/
def nextCallId (s : Service c ε σ) : Nat × Service c ε σ :=
  (s.lastCallId + 1, { s with lastCallId := s.lastCallId + 1 })

/-- A context for a call from inside the process, with the next call id. -/
def localContext (s : Service c ε σ) : CallContext × Service c ε σ :=
  ({ CallContext.inProcess c.name with callId := s.nextCallId.1 }, s.nextCallId.2)

/-! ## Dispatch -/

/-- Finds the handler of an operation and runs it. -/
def perform (s : Service c ε σ) (surroundings : ε) (context : CallContext) (operation : String)
    (payload : Bytes) (world : σ) : Ran σ (Outcome CallError Bytes) :=
  match c.declares operation with
  | none => .of (.failed (.unknownOperation operation)) world
  | some declared =>
    match s.registry.slot? declared with
    | none => .of (.failed (.notRegistered c.name declared)) world
    | some slot => slot surroundings context payload world

/-- The label of every operation that is not declared. -/
def unknownLabel : String := "unknown"

/-- The label of an operation: its name if it is declared. -/
def label (c : Contract) (operation : String) : String := (c.declares operation).getD unknownLabel

/-- The label of how a call has ended, and its error; nothing after a panic. -/
def ending? : Outcome CallError Bytes → Option (String × Option CallError)
  | .done _ => some ("ok", none)
  | .failed e => some (e.kind, some e)
  | .panicked _ => none

/-- The event of a call that has ended: a warning if it is a server error. -/
def completion (outcome : String) (error : Option CallError) (span : Span) : Event :=
  match error.filter CallError.isServerError with
  | some e =>
    ⟨.warn, "rpc call failed", [("error", .text e.message), ("outcome", .text outcome)], some span⟩
  | none => ⟨.info, "rpc call complete", [("outcome", .text outcome)], some span⟩

/-- Puts what a call did into its span, and adds the event and the samples of its end. -/
def measured (c : Contract) (context : CallContext) (operation : String)
    (r : Ran σ (Outcome CallError Bytes)) : Ran σ (Outcome CallError Bytes) :=
  let span : Span := ⟨context.service, label c operation, context.callId, none⟩
  let inside := r.trace.within span
  match ending? r.result with
  | none => { r with trace := inside }
  | some (outcome, error) =>
    let last := completion outcome error { span with outcome := some outcome }
    let samples := [Sample.counted span.service span.operation outcome,
      Sample.timed span.service span.operation]
    { r with trace := inside ++ ⟨[last], samples⟩ }

/-- Performs a call and measures it. -/
def dispatch (s : Service c ε σ) (surroundings : ε) (context : CallContext) (operation : String)
    (payload : Bytes) (world : σ) : Ran σ (Outcome CallError Bytes) :=
  measured c context operation (s.perform surroundings context operation payload world)

/-- Reads the response of a call. -/
def readResponse (op : Operation c) : Outcome CallError Bytes → Outcome CallError op.Response
  | .done bytes =>
    match op.response.decode bytes with
    | .ok response => .done response
    | .error fault => .failed (.encoding (fault.message bytes))
  | .failed error => .failed error
  | .panicked panic => .panicked panic

/-- Calls an operation with a request and reads the response. -/
def call (s : Service c ε σ) (surroundings : ε) (context : CallContext) (op : Operation c)
    (request : op.Request) (world : σ) : Ran σ (Outcome CallError op.Response) :=
  match op.request.encode request with
  | .error reason => .of (.failed (.badRequest reason)) world
  | .ok payload => (s.dispatch surroundings context op.name payload world).map (readResponse op)

/-! ## Requests -/

/-- How the serving of a request ends.  It never does when the body does not. -/
inductive Served where
  | answered (response : Response)
  | panicked (panic : Panic)
  | unfinished
  deriving Repr, DecidableEq

/-- A response with a document. -/
def documentResponse (status : Nat) (body : Bytes) : Response :=
  ⟨status, [header "content-type" jsonContentType], body⟩

/-- The response to a call that has failed. -/
def errorResponse (e : CallError) : Response :=
  let r := documentResponse e.status (Utf8.encode e.body.render)
  match e with
  | .methodNotAllowed _ => r.setHeader "allow" "POST"
  | _ => r

/-- The response to a call that has ended; a panic is left to the host. -/
def respond : Outcome CallError Bytes → Served
  | .done bytes => .answered (documentResponse 200 bytes)
  | .failed e => .answered (errorResponse e)
  | .panicked panic => .panicked panic

/-- The body of a request that is worth reading, and its context and operation; `none` when the body
    does not end. -/
def prepare (s : Service c ε σ) (callId : Nat) (r : Request) :
    Except CallError (Option (CallContext × String × Bytes)) :=
  if s.config.requirePost ∧ r.method ≠ .post then .error (.methodNotAllowed r.method)
  else
    match readBody s.config.maxRequestBytes r.body with
    | .tooLarge => .error (.payloadTooLarge s.config.maxRequestBytes)
    | .failed message => .error (.badRequest ("failed to read request body: " ++ message))
    | .unfinished => .ok none
    | .complete payload =>
      let context := CallContext.ofRequest callId c.name r
      (selectOperation c.selector context payload).map fun operation =>
        some (context, operation, payload)

/-- The event of a request that does not become a call. -/
def rejectedEvent (c : Contract) (callId : Nat) (e : CallError) : Event :=
  ⟨.debug, "call rejected before dispatch",
    [("service", .text c.name), ("call_id", Event.count callId), ("error", .text e.message)], none⟩

/-- Answers a request under a call id. -/
def serveAs (s : Service c ε σ) (callId : Nat) (surroundings : ε) (r : Request) (world : σ) :
    Ran σ Served :=
  match s.prepare callId r with
  | .error e => ⟨.answered (errorResponse e), world, .event (rejectedEvent c callId e)⟩
  | .ok none => .of .unfinished world
  | .ok (some (context, operation, payload)) =>
    (s.dispatch surroundings context operation payload world).map respond

/-- Answers a request under the next call id. -/
def serve (s : Service c ε σ) (surroundings : ε) (r : Request) (world : σ) :
    Ran σ Served × Service c ε σ :=
  (s.serveAs s.nextCallId.1 surroundings r world, s.nextCallId.2)

end Service

end Switchboard

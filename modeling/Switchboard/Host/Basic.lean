/-
  Hosts: any number of services behind one listener.

    * `Host.mount`   puts a service at a path;
    * `Host.answer`  answers a request;
    * `Host.start`   takes an address, `Host.serve` serves there until a shutdown and drains.

  A request first gets an id, if it brings none.  `OPTIONS` is answered at once.  Everything else
  has to be done within the time limit.  Health probes and the static file answer in every state;
  all other requests are refused while the host drains and after it has stopped, and are in flight
  until they are answered.  A handler that panics becomes a server error.  Every answer but those to
  `OPTIONS` and those of the time limit carries the id of its request.
-/
import Switchboard.Host.Cors
import Switchboard.Host.Lifecycle
import Switchboard.Host.Route
import Switchboard.Host.Static
import Switchboard.Service.Basic

namespace Switchboard

open Http Host

namespace Host

/-- A service at a path. -/
structure Mount (σ : Type) where
  path : String
  pattern : Pattern
  contract : Contract
  service : Service contract Controller σ

/-- Where a request goes. -/
inductive Target where
  | health
  | live
  | ready
  | index
  | mount (number : Nat)
  deriving Repr, DecidableEq

end Host

/-- A host over a world `σ`. -/
structure Host (σ : Type) where
  config : Config := {}
  controller : Controller := {}
  mounts : List (Mount σ) := []
  /-- Whether an address has been taken. -/
  bound : Bool := false
  /-- The age of the host in seconds. -/
  uptime : Nat := 0

namespace Host

variable {σ : Type}

/-! ## Mounting -/

/-- The path of the health report. -/
def healthPath : String := "/health"
/-- The path that tells whether the host answers at all. -/
def livePath : String := "/health/live"
/-- The path that tells whether the host is ready. -/
def readyPath : String := "/health/ready"

/-- The paths of the probes, where nothing can be mounted. -/
def reservedPaths : List String := [healthPath, livePath, readyPath]

/-- Why a mount is refused. -/
inductive MountError where
  | noSlash (path : String)
  | reserved (path : String)
  | inUse (path : String)
  deriving Repr, DecidableEq

/-- What is said of a mount that is refused. -/
def MountError.message : MountError → String
  | noSlash path => "mount path `" ++ path ++ "` must start with `/`"
  | reserved path => "mount path `" ++ path ++ "` is reserved"
  | inUse path => "mount path `" ++ path ++ "` is already in use"

/-- How mounting ends.  A path that is no pattern, or that clashes with another mount, breaks it
    off. -/
inductive Mounting (σ : Type) where
  | mounted (host : Host σ)
  | refused (error : MountError)
  | broken

/-- The event of a mount, which comes before the path is known to be a pattern. -/
def mountedEvent (c : Contract) (path : String) : Event :=
  ⟨.info, "service mounted", [("service", .text c.name), ("path", .text path)], none⟩

/-- Why a path cannot be taken, if it cannot. -/
def mountError? (h : Host σ) (path : String) : Option MountError :=
  if path.toList.head? ≠ some '/' then some (.noSlash path)
  else if reservedPaths.contains path || (path == "/" && h.config.staticIndex.isSome) then
    some (.reserved path)
  else if h.mounts.any (·.path == path) then some (.inUse path)
  else none

/-- Puts a service at a path. -/
def mount (h : Host σ) (path : String) {c : Contract} (service : Service c Controller σ) :
    Mounting σ × Trace :=
  match h.mountError? path with
  | some error => (.refused error, {})
  | none =>
    match Pattern.parse path with
    | none => (.broken, .event (mountedEvent c path))
    | some pattern =>
      if h.mounts.any fun m => m.pattern.clashes pattern then
        (.broken, .event (mountedEvent c path))
      else
        (.mounted { h with mounts := h.mounts ++ [⟨path, pattern, c, service⟩] },
          .event (mountedEvent c path))

/-! ## Health -/

/-- The health report. -/
def healthReport (h : Host σ) : Json.Value :=
  .object [("in_flight", Event.count h.controller.inFlight),
    ("services", .list (h.mounts.map fun m =>
      .object [("name", .text m.contract.name),
        ("operations", .list (m.service.registry.registered.map .text)), ("path", .text m.path)])),
    ("state", .text h.controller.state.name), ("uptime_secs", Event.count h.uptime)]

/-- The answer of a probe to `GET`. -/
def probe (h : Host σ) : Target → Response
  | .health => Service.documentResponse 200 (Utf8.encode h.healthReport.render)
  | .ready => .ofStatus (if h.controller.state = .ready then 200 else 503)
  | _ => .ofStatus 200

/-! ## Routing -/

/-- Every path the host knows. -/
def routes (h : Host σ) : List (Pattern × Target) :=
  [(.ofText healthPath, .health), (.ofText livePath, .live), (.ofText readyPath, .ready)] ++
    (h.config.staticIndex.map fun _ => (Pattern.ofText "/", Target.index)).toList ++
    h.mounts.mapIdx fun i m => (m.pattern, .mount i)

/-- Where a path leads, if it leads anywhere. -/
def target? (h : Host σ) (path : String) : Option Target := select h.routes path

/-! ## Answering -/

/-- The response to a request that comes while the host drains or after it has stopped. -/
def shuttingDown : Response :=
  Service.documentResponse 503 (Utf8.encode (ErrorBody.render ⟨"server is shutting down"⟩))

/-- The response to a request whose handler has panicked. -/
def internalError : Response :=
  Service.documentResponse 500 (Utf8.encode (ErrorBody.render ⟨"internal server error"⟩))

/-- What is known of a panic. -/
def panicText : Panic → String
  | .text message => message
  | .other => "unknown panic"

/-- The event of a handler that has panicked. -/
def panicEvent (p : Panic) : Event :=
  ⟨.error, "handler panicked", [("panic", .text (panicText p))], none⟩

/-- A successful answer to `CONNECT` has no body. -/
def withoutTunnelBody (m : Method) (r : Response) : Response :=
  if m = .connect ∧ 200 ≤ r.status ∧ r.status ≤ 299 then { r with body := [] } else r

/-- What a mounted service makes of a request; `none` when it never answers. -/
def fromService (m : Method) (r : Ran σ Service.Served) : Ran σ (Option Response) :=
  match r.result with
  | .answered response => { r with result := some (withoutTunnelBody m response) }
  | .panicked p =>
    { r with result := some internalError, trace := r.trace ++ .event (panicEvent p) }
  | .unfinished => { r with result := none }

/-- Serves a request at mount number `i`. -/
def atMount (h : Host σ) (i : Nat) (r : Request) (world : σ) : Ran σ Service.Served × Host σ :=
  match h.mounts[i]? with
  | none => (.of (.answered (.ofStatus 404)) world, h)
  | some m =>
    let (ran, service) := m.service.serve h.controller { r with routed := true } world
    (ran, { h with mounts := h.mounts.set i { m with service := service } })

/-- Lets a request in and counts it as in flight while it is served, so the service sees it among
    the calls in flight.  In whatever way the serving ends, with an answer, with a panic or by being
    given up, the request counts no longer.  While no calls are accepted it is refused and does not
    count at all. -/
def tracked (h : Host σ) (m : Method) (serve : Host σ → Ran σ Service.Served × Host σ) (world : σ) :
    Ran σ (Option Response) × Host σ :=
  if h.controller.state.acceptsCalls then
    let (ran, after) := serve { h with controller := h.controller.acquire }
    (fromService m ran, { after with controller := after.controller.release })
  else (.of (some shuttingDown) world, h)

/-- Answers a request at its target; `none` when there will be no answer. -/
def atTarget (h : Host σ) (target : Option Target) (r : Request) (world : σ) :
    Ran σ (Option Response) × Host σ :=
  match target with
  | some .index =>
    (.of (h.config.staticIndex.map fun f => serveFile f r.method) world, h)
  | some (.mount i) => h.tracked r.method (·.atMount i r world) world
  | some probed =>
    (.of (some (if r.method = .get ∨ r.method = .head then h.probe probed else .ofStatus 405))
      world, h)
  | none => h.tracked r.method (fun h => (.of (.answered (.ofStatus 404)) world, h)) world

/-- Gives a request an id if it brings none. -/
def identified (generatedId : Bytes) (r : Request) : Request :=
  if r.headers.has requestIdHeader then r
  else { r with headers := r.headers ++ [(requestIdHeader, generatedId)] }

/-- Copies the id of a request onto a response that has none. -/
def withRequestId (request : Headers) (r : Response) : Response :=
  match request.value? requestIdHeader with
  | some id =>
    if r.headers.has requestIdHeader then r
    else { r with headers := r.headers ++ [(requestIdHeader, id)] }
  | none => r

/-- Completes the response of a probe: the methods it answers where others were asked for, the
    length of the body, and no body for `HEAD`. -/
def completeProbe (m : Method) (r : Response) : Response :=
  let allow := if m = .get ∨ m = .head then [] else [header "allow" "GET,HEAD"]
  let length := if r.headers.has "content-length" then [] else [contentLength r.body.length]
  { r with
    headers := r.headers ++ allow ++ length
    body := if m = .head then [] else r.body }

/-- Whether a target is a probe. -/
def Target.isProbe : Target → Bool
  | .health | .live | .ready => true
  | .index | .mount _ => false

/-- The response to a request that takes too long. -/
def timedOut : Response := .ofStatus 408

/-- Answers a request within the time limit, which a limit of zero leaves no room for. -/
def inTime (h : Host σ) (target : Option Target) (r : Request) (world : σ) :
    Ran σ Response × Host σ :=
  if h.config.requestTimeout = 0 then (.of timedOut world, h)
  else
    let (ran, next) := h.atTarget target r world
    (ran.map fun
      | some response => withRequestId r.headers response
      | none => timedOut, next)

/-- Answers a request; `generatedId` is the id it gets if it brings none. -/
def answer (h : Host σ) (generatedId : Bytes) (request : Request) (world : σ) :
    Ran σ Response × Host σ :=
  let r := identified generatedId request
  let target := h.target? r.uri.path
  let (ran, next) :=
    if r.method = .options then (.of preflight world, h) else h.inTime target r world
  (ran.map fun response =>
    let response := withCors h.config.corsOrigins r.headers response
    if (target.map Target.isProbe).getD false then completeProbe r.method response
      else response, next)

/-! ## Serving -/

/-- The event of an address that has been taken. -/
def boundEvent (c : Config) : Event := ⟨.info, "TCP listener bound", [("host", .text c.host)], none⟩

/-- The message of an address that cannot be taken. -/
def bindFailure (c : Config) : String := "failed to bind " ++ c.bindAddress

/-- Takes the address to listen on; `reason` is what the system says when it cannot be taken. -/
def start (h : Host σ) (reason : Option String) : Except String Unit × Trace × Host σ :=
  match reason with
  | some reason => (.error (bindFailure h.config ++ ": " ++ reason), {}, h)
  | none => (.ok (), .event (boundEvent h.config), { h with bound := true })

/-- The event of a shutdown that begins. -/
def signalledEvent : Event := ⟨.info, "shutdown signalled, draining", [], none⟩
/-- The event of a drain that finds no call in flight. -/
def drainedEvent : Event := ⟨.info, "all calls drained", [], none⟩

/-- The event of a drain whose time is up, with the calls that are left. -/
def drainFailedEvent (inFlight : Nat) : Event :=
  ⟨.warn, "drain timeout expired with calls in flight", [("in_flight", Event.count inFlight)], none⟩

/-- The longest wait for calls in flight when the host stops serving, in milliseconds. -/
def drainTimeout : Nat := 30000

/-- Begins to serve. -/
def opened (h : Host σ) : Host σ := { h with controller := h.controller.setReady }

/-- Refuses further calls and waits for those in flight, of which some are known to end at certain
    times.  The schedule that comes out is what is left of these times. -/
def shutDown (h : Host σ) (now : Nat := 0) (endings : List Nat := []) : Trace × Schedule × Host σ :=
  let (drained, after) := Schedule.drain ⟨h.controller.trigger.2, now, endings⟩ drainTimeout
  let last := if drained.complete then drainedEvent else drainFailedEvent after.controller.inFlight
  (⟨[signalledEvent, last], []⟩, after, { h with controller := after.controller, bound := false })

/-- Serves until a shutdown that is signalled already, and drains. -/
def serve (h : Host σ) (now : Nat := 0) (endings : List Nat := []) :
    Except String Unit × Trace × Schedule × Host σ :=
  if h.bound then (.ok (), h.opened.shutDown now endings)
  else (.error "start() must be called before serve()", {}, ⟨h.controller, now, endings⟩, h)

end Host

end Switchboard

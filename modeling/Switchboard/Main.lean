/-
  The demo server over TCP.

  Everything that decides an answer is in `Demo.host` and `Host.answer`.  Here are the sockets, the
  clock, the random ids, the files and the signals around them.
-/
import Std.Async.DNS
import Std.Async.Signal
import Std.Http.Server
import Switchboard.Demo.Basic
import Switchboard.Host.RequestId
import Switchboard.Telemetry.Line
import Switchboard.Telemetry.Totals

namespace Switchboard.Demo

open Http Telemetry Std.Async Std.Net

/-- What changes while the server runs. -/
structure Running where
  host : Host Todos.Store
  world : Todos.Store := {}
  totals : Totals := []

/-- A running server: what it was told, when it began, and what changes meanwhile. -/
structure Server where
  plan : Plan
  /-- When the server was started, in milliseconds of the clock. -/
  started : Nat
  state : Std.Mutex Running

/-! ## Logging -/

/-- Writes the lines of some events. -/
def log (plan : Plan) (target : String) (t : Trace) : IO Unit := do
  for e in t.events do
    if let some line := line? plan.options.logFormat plan.filter target e then
      IO.eprintln line

/-! ## Messages -/

/-- The body of a request, up to the frame that leaves the limit. -/
def frames (limit : Nat) (body : Std.Http.Body.Stream) : Async (List Frame) := do
  let mut read := 0
  let mut frames := []
  for chunk in body do
    frames := .data chunk.data.toList :: frames
    read := read + chunk.data.size
    if limit < read then break
  return frames.reverse

/-- The version of a request, in the terms of `Http`. -/
def version : Std.Http.Version → Version
  | .v10 => .http10
  | .v11 => .http11
  | .v20 => .http2
  | .v30 => .http3

/-- The request that a head and the frames behind it make, unless a part of it is not valid. -/
def requestOf (head : Std.Http.Request.Head) (body : List Frame) : Except RequestFault Request :=
  Request.build (toString head.method) (toString head.uri) (version head.version)
    (head.headers.toList.map fun (name, value) => header name.value value.value) body

/-- The response as it is sent.  The connection itself says how long it is. -/
def sent (r : Response) : Async (Std.Http.Response Std.Http.Body.Any) := do
  let status := (Std.Http.Status.ofCode none r.status.toUInt16).getD .internalServerError
  let headers := (Named.remove "content-length" r.headers).foldl
    (fun headers (name, value) => (headers.insert? name (Utf8.decodeLossy value)).getD headers)
      .empty
  let body ← Std.Http.Body.Full.ofByteArray ⟨r.body.toArray⟩
  return { line := { status, headers }, body := .ofBody body }

/-! ## Answering -/

/-- The content of a file, if it can be read. -/
def contentOf (path : String) : IO (Option Bytes) := do
  try
    return some (← IO.FS.readBinFile path).toList
  catch _ => return none

/-- Answers a request, and keeps what it leaves behind. -/
def Server.answer (s : Server) (r : Request) : IO Response := do
  let id := Host.randomUuid (← IO.getRandomBytes 16).toList
  let index ← match s.plan.options.staticIndex with
    | some path => contentOf path
    | none => pure none
  let age := ((← IO.monoMsNow) - s.started) / 1000
  s.state.atomically do
    let running ← get
    let host :=
      { running.host with config := s.plan.options.hostConfig fun _ => index, uptime := age }
    let (ran, next) := host.answer id r running.world
    set { host := next, world := ran.state,
          totals := ran.trace.samples.foldl Totals.add running.totals : Running }
    log s.plan hostTarget ran.trace
    return ran.result

/-- A request that cannot be built is answered with 400 before it reaches the host. -/
instance : Std.Http.Server.Handler Server where
  onRequest s request := do
    let body ← frames s.plan.options.maxRequestBytes request.body
    match requestOf request.line body with
    | .ok r => sent (← s.answer r)
    | .error _ => sent (.ofStatus 400)

/-- Shows the running totals to every request. -/
def metricsPage (s : Server) : Std.Http.Server.StatelessHandler :=
  Std.Http.Server.Handler.ofFn fun _ => do
    let running ← s.state.atomically get
    sent ⟨200, [header "content-type" "text/plain"], Utf8.encode running.totals.page⟩

/-! ## Addresses -/

/-- The number of an error of the system, which may come as the negative of it. -/
def errorNumber (code : UInt32) : Nat := (if code < 0x80000000 then code else 0 - code).toNat

/-- The number of an error of the system, `0` for one that has none. -/
def osCode : IO.Error → Nat
  | .otherError code _ | .resourceBusy code _ | .permissionDenied _ code _ | .alreadyExists _ code _
  | .unsupportedOperation code _ | .invalidArgument _ code _ | .resourceVanished code _ =>
    errorNumber code
  | _ => 0

/-- An address together with a port. -/
def socketAddress (port : Nat) : IPAddr → SocketAddress
  | .v4 addr => .v4 ⟨addr, port.toUInt16⟩
  | .v6 addr => .v6 ⟨addr, port.toUInt16⟩

/-- The addresses of a host name. -/
def addresses (host : String) : Async (List IPAddr) := do
  if let some addr := IPv4Addr.ofString host then return [.v4 addr]
  if let some addr := IPv6Addr.ofString host then return [.v6 addr]
  try
    return (← DNS.getAddrInfo host "").toList
  catch _ => return []

/-- Listens on the first address of a host name. -/
def listen {σ : Type} [Std.Http.Server.Handler σ] (host : String) (port : Nat) (handler : σ) :
    Async (Except String Std.Http.Server) := do
  match ← addresses host with
  | [] => return .error Host.lookupFailure
  | addr :: _ =>
    try
      return .ok (← Std.Http.Server.serve (socketAddress port addr) handler)
    catch e => return .error (Host.bindReason (osCode e))

/-! ## Running -/

/-- Prints why the program ends without serving. -/
def stop (e : Ending) : IO UInt32 := do
  IO.print e.output
  IO.eprint e.report
  return e.exitCode

/-- Waits for one of the signals that end the server. -/
def awaitSignal : Async Unit := do
  let interrupted ← Signal.Waiter.mk .sigint false
  let terminated ← Signal.Waiter.mk .sigterm false
  Selectable.one #[.case interrupted.selector pure, .case terminated.selector pure]

/-- The port that a server listens on. -/
def boundPort (server : Std.Http.Server) : Nat :=
  match server.localAddr with
  | some addr => addr.port.toNat
  | none => 0

/-- Shows the metrics, if that is asked for.  The answer is why they cannot be shown. -/
def startMetrics (s : Server) : Async (Option String) := do
  match s.plan.options.metricsAddress with
  | none => return none
  | some (host, port) =>
    match ← listen host port (metricsPage s) with
    | .error reason => return some reason
    | .ok _ =>
      log s.plan programTarget (.event (metricsEvent (host ++ ":" ++ toString port)))
      return none

/-- Runs the server until a signal ends it. -/
def run (plan : Plan) : Async UInt32 := do
  let (host, trace) := Demo.host plan.options fun _ => none
  let s : Server := ⟨plan, ← IO.monoMsNow, ← Std.Mutex.new { host := host.opened }⟩
  if let some reason ← startMetrics s then
    return ← stop (.failed "failed to install Prometheus exporter" (some reason))
  log plan hostTarget trace
  match ← listen plan.options.host plan.options.port s with
  | .error reason => stop (.unbound host.config reason)
  | .ok server =>
    log plan hostTarget (.event (Host.boundEvent host.config))
    log plan programTarget (.event (readyEvent (boundPort server)))
    awaitSignal
    let trace ← s.state.atomically do
      let running ← get
      let (trace, _, stopped) := running.host.shutDown
      set { running with host := stopped }
      return trace
    log plan hostTarget trace
    server.shutdownAndWait
    return 0

end Switchboard.Demo

open Switchboard.Demo in
/-- The demo server. -/
def main (arguments : List String) : IO UInt32 := do
  let names := filterSetting :: flags.map (·.setting)
  let settings ← names.mapM fun name => return (name, ← IO.getEnv name)
  match prepare (fun name => (settings.lookup name).bind id) arguments with
  | .error e => stop e
  | .ok plan => (run plan).block

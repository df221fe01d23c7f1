/-
  Log lines.

  `line?` turns an event into a line of its format, if the filter lets it through.
-/
import Switchboard.Service.Run
import Switchboard.Telemetry.Filter
import Switchboard.Telemetry.Format

namespace Switchboard

/-- What a span says of its call. -/
def Span.fields (s : Span) : Named Json.Value :=
  [("service", .text s.service), ("operation", .text s.operation),
    ("call_id", Event.count s.callId)] ++
    s.outcome.toList.map fun o => ("outcome", .text o)

namespace Telemetry

/-- The name of the span of a call. -/
def callSpan : String := "rpc_call"

/-- The place of a level among those that a filter names. -/
def verbosity : Level → Verbosity
  | .debug => .debug
  | .info => .info
  | .warn => .warn
  | .error => .error

/-- Fields in a line for people. -/
def plainFields (fields : Named Json.Value) : List String :=
  fields.map fun (name, value) => name ++ "=" ++ value.render

/-- A line for people: level, span, target, message, fields. -/
def plainLine (target : String) (e : Event) : String :=
  let span := match e.span with
    | some s => [callSpan ++ "\x7b" ++ " ".intercalate (plainFields s.fields) ++ "\x7d:"]
    | none => []
  " ".intercalate ([e.level.name] ++ span ++ [target ++ ":", e.message] ++ plainFields e.fields)

/-- The event as one JSON object. -/
def jsonLine (target : String) (e : Event) : String :=
  let span := e.span.toList.map fun s =>
    ("span", Json.Value.object (("name", .text callSpan) :: s.fields))
  (Json.Value.object ([("level", .text e.level.name), ("message", .text e.message)] ++ e.fields ++
    [("target", .text target)] ++ span)).render

/-- The line of an event under a target, unless the filter holds it back. -/
def line? (format : LogFormat) (filter : Filter) (target : String) (e : Event) : Option String :=
  if filter.enables target (verbosity e.level) (e.span.map fun _ => callSpan) then
    some (match format with
      | .plain => plainLine target e
      | .json => jsonLine target e)
  else none

end Telemetry

end Switchboard

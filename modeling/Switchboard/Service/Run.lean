/-
  What running a handler or a call does.

  A run takes the state of the world to another one, and leaves a trace: events for the log and
  samples for the metrics, in order.  It ends with an answer, a failure, or a panic, which is what a
  handler does when it gives up without either.
-/
import Switchboard.Json.Value

namespace Switchboard

/-! ## How a run ends -/

/-- What a handler leaves behind when it panics. -/
inductive Panic where
  | text (message : String)
  | other
  deriving Repr, DecidableEq

/-- How a run ends: with an answer, with a failure, or with a panic. -/
inductive Outcome (ε α : Type) where
  | done (value : α)
  | failed (error : ε)
  | panicked (panic : Panic)
  deriving Repr, DecidableEq

/-! ## Traces -/

/-- How much an event matters, the least first. -/
inductive Level where
  | debug
  | info
  | warn
  | error
  deriving Repr, DecidableEq

/-- The level as a log line shows it. -/
def Level.name : Level → String
  | debug => "DEBUG"
  | info => "INFO"
  | warn => "WARN"
  | error => "ERROR"

/-- The call that an event belongs to; the outcome is there once the call has ended. -/
structure Span where
  service : String
  operation : String
  callId : Nat
  outcome : Option String
  deriving Repr, DecidableEq

/-- One line of the log: a message with fields, in a span if it belongs to a call. -/
structure Event where
  level : Level
  message : String
  fields : Named Json.Value
  span : Option Span
  deriving Repr

/-- A number as the field of an event. -/
def Event.count (n : Nat) : Json.Value := .number (.integer n)

/-- One measurement: a call is counted under its outcome, and timed. -/
inductive Sample where
  | counted (service operation outcome : String)
  | timed (service operation : String)
  deriving Repr, DecidableEq

namespace Sample

/-- The metric that a sample belongs to. -/
def metric : Sample → String
  | counted .. => "cedar_rpc_calls_total"
  | timed .. => "cedar_rpc_call_duration_seconds"

/-- The labels of a sample, in the order of their names. -/
def labels : Sample → Named String
  | counted service operation outcome =>
    [("operation", operation), ("outcome", outcome), ("service", service)]
  | timed service operation => [("operation", operation), ("service", service)]

/-- The metric with its labels. -/
def render (s : Sample) : String :=
  s.metric ++ "\x7b" ++
    ",".intercalate (s.labels.map fun (name, value) => name ++ "=" ++ value) ++ "\x7d"

end Sample

/-- What a run leaves behind, in order: events for the log and samples for the metrics. -/
structure Trace where
  events : List Event := []
  samples : List Sample := []
  deriving Repr

namespace Trace

/-- The trace of one event. -/
def event (e : Event) : Trace := { events := [e] }

/-- One trace behind another. -/
def append (t u : Trace) : Trace := ⟨t.events ++ u.events, t.samples ++ u.samples⟩

/-- Traces are joined with `++`. -/
instance : Append Trace := ⟨append⟩

/-- Puts every event into a span. -/
def within (span : Span) (t : Trace) : Trace :=
  { t with events := t.events.map fun e => { e with span := some span } }

end Trace

/-! ## Runs -/

/-- What a run has come to: its result, the state it leaves, and its trace. -/
structure Ran (σ α : Type) where
  result : α
  state : σ
  trace : Trace

namespace Ran

variable {σ α β : Type}

/-- Nothing but a result. -/
def of (a : α) (s : σ) : Ran σ α := ⟨a, s, {}⟩

/-- The same run with its result changed. -/
def map (f : α → β) (r : Ran σ α) : Ran σ β := { r with result := f r.result }

end Ran

/-- A part of a state, to look at and to replace. -/
structure Part (σ τ : Type) where
  get : σ → τ
  set : τ → σ → σ

/-- The whole state as a part of itself. -/
def Part.whole {σ : Type} : Part σ σ := ⟨id, fun t _ => t⟩

end Switchboard

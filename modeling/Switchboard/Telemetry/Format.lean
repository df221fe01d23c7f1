/-
  How log lines look.
-/

namespace Switchboard.Telemetry

/-- How log lines look. -/
inductive LogFormat where
  /-- Lines for people. -/
  | plain
  /-- One JSON object for each event. -/
  | json
  deriving Repr, DecidableEq

namespace LogFormat

/-- Every format, in the order of the help. -/
def all : List LogFormat := [plain, json]

/-- The format when none is asked for. -/
def standard : LogFormat := plain

/-- The name of a format. -/
def name : LogFormat → String
  | plain => "plain"
  | json => "json"

/-- What the help says of it. -/
def about : LogFormat → String
  | plain => "Human-readable lines"
  | json => "One JSON object per event"

/-- A text with its ASCII letters in lower case. -/
def lower (s : String) : String := String.ofList (s.toList.map Char.toLower)

/-- The format of a name, or a message. -/
def parse (ignoreCase : Bool) (s : String) : Except String LogFormat :=
  match all.find? fun f => f.name == if ignoreCase then lower s else s with
  | some f => .ok f
  | none => .error ("invalid variant: " ++ s)

end LogFormat

end Switchboard.Telemetry

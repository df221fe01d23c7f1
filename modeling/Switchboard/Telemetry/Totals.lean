/-
  Running totals of the samples, and the page that shows them.
-/
import Switchboard.Service.Run

namespace Switchboard.Telemetry

/-- A label as the page shows it. -/
def labelText (label : String × String) : String := label.1 ++ "=" ++ Json.writeText label.2

/-- The name under which a sample is counted. -/
def seriesName (s : Sample) : String :=
  let suffix := match s with
    | .counted .. => ""
    | .timed .. => "_count"
  s.metric ++ suffix ++ "\x7b" ++ ",".intercalate (s.labels.map labelText) ++ "\x7d"

/-- How often every kind of sample has been taken, in the order of the names. -/
abbrev Totals := Named Nat

namespace Totals

/-- Counts one more sample. -/
def add (t : Totals) (s : Sample) : Totals :=
  Named.put (seriesName s) ((Named.first? (seriesName s) t).getD 0 + 1) t

/-- The page: a line for each total. -/
def page (t : Totals) : String :=
  String.join (t.map fun (name, n) => name ++ " " ++ toString n ++ "\n")

end Totals

end Switchboard.Telemetry

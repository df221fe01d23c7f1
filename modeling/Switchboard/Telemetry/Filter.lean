/-
  Which events are logged.

  A filter is a list of directives, parted by commas.  A directive is a level, or a target with a
  level, or a target without one, which stands for everything; it may name a span and its fields in
  brackets.  A directive for a longer target goes before one for a shorter, and of two for one
  target the later holds.  A directive that names no span filters by target alone; one that names a
  span or fields applies inside spans.
-/

namespace Switchboard.Telemetry

/-! ## Levels -/

/-- How much is logged, from nothing to everything. -/
inductive Verbosity where
  | off
  | error
  | warn
  | info
  | debug
  | trace
  deriving Repr, DecidableEq

namespace Verbosity

/-- Every level, at the index that is its number. -/
def all : List Verbosity := [off, error, warn, info, debug, trace]

/-- The name of a level. -/
def name : Verbosity → String
  | off => "off"
  | error => "error"
  | warn => "warn"
  | info => "info"
  | debug => "debug"
  | trace => "trace"

/-- The number of a level. -/
def rank : Verbosity → Nat
  | off => 0
  | error => 1
  | warn => 2
  | info => 3
  | debug => 4
  | trace => 5

/-- The level of a name in any case, or of its number. -/
def parse? (s : String) : Option Verbosity :=
  match s.toNat? with
  | some n => all[n]?
  | none => all.find? (·.name == String.ofList (s.toList.map Char.toLower))

end Verbosity

/-! ## Directives -/

/-- Which events a directive is for, and how much of them is logged. -/
structure Directive where
  target : Option String := none
  span : Option String := none
  fields : List String := []
  level : Verbosity := .trace
  deriving Repr, DecidableEq

/-- What is wrong with a filter. -/
inductive FilterFault where
  | directive
  | level
  deriving Repr, DecidableEq

/-- What is said of a filter that is wrong. -/
def FilterFault.message : FilterFault → String
  | directive => "invalid filter directive"
  | level =>
    "error parsing level filter: expected one of \"off\", \"error\", \"warn\", \"info\", " ++
      "\"debug\", \"trace\", or a number 0-5"

namespace Directive

/-- The level behind an equals sign; nothing stands for everything. -/
def levelOf (cs : List Char) : Except FilterFault Verbosity :=
  if cs = [] then .ok .trace
  else
    match Verbosity.parse? (String.ofList cs) with
    | some v => .ok v
    | none => .error .level

/-- A text, unless it is empty. -/
def some? (cs : List Char) : Option String := if cs = [] then none else some (String.ofList cs)

/-- Reads what follows a closing bracket: nothing, or a level. -/
def afterSpan (d : Directive) : List Char → Except FilterFault Directive
  | [] => .ok d
  | '=' :: cs => (levelOf cs).map fun v => { d with level := v }
  | _ => .error .directive

/-- Reads a span and its field behind the opening bracket. -/
def spanOf (d : Directive) (cs : List Char) : Except FilterFault Directive :=
  let name := cs.takeWhile fun c => c != ']' && c != '\x7b'
  match cs.dropWhile fun c => c != ']' && c != '\x7b' with
  | ']' :: rest => afterSpan { d with span := some (String.ofList name) } rest
  | _ :: inside =>
    let field := inside.takeWhile (· != '\x7d')
    match inside.dropWhile (· != '\x7d') with
    | _ :: ']' :: rest =>
      if field = [] then .error .directive
      else afterSpan { d with span := some? name, fields := [String.ofList field] } rest
    | _ => .error .directive
  | [] => .error .directive

/-- A letter, a digit, or one of the marks that a target may begin with.  Characters outside ASCII
    count as letters. -/
def beginsTarget (c : Char) : Bool :=
  c.isAlphanum || c == '-' || c == ':' || c == '_' || '\x7f' < c

/-- Reads a directive without the blanks around it. -/
def parse (text : String) : Except FilterFault Directive :=
  match text.trimAscii.toString.toList with
  | [] => .error .directive
  | '[' :: cs => spanOf {} cs
  | c :: cs =>
    if !beginsTarget c then .error .directive
    else
      let first := (c :: cs).takeWhile fun c => c != '=' && c != '['
      match (c :: cs).dropWhile fun c => c != '=' && c != '[' with
      | [] =>
        match Verbosity.parse? (String.ofList first) with
        | some v => .ok { level := v }
        | none => .ok { target := some (String.ofList first) }
      | '=' :: rest =>
        (levelOf rest).map fun v => { target := some (String.ofList first), level := v }
      | _ :: rest => spanOf { target := some (String.ofList first) } rest

/-- Whether it applies inside spans. -/
def isDynamic (d : Directive) : Bool := d.span.isSome || !d.fields.isEmpty

/-- Whether it filters by target and names of fields alone. -/
def isStatic (d : Directive) : Bool := d.span.isNone && d.fields.all (!·.contains '=')

/-- The part in brackets. -/
def inBrackets (d : Directive) : String :=
  if d.isDynamic then
    "[" ++ d.span.getD "" ++
      (if d.fields.isEmpty then "" else "\x7b" ++ ",".intercalate d.fields ++ "\x7d") ++ "]"
  else ""

/-- The directive as a text. -/
def render (d : Directive) : String :=
  let front := d.target.getD "" ++ d.inBrackets
  (if d.target.isSome || d.isDynamic then front ++ "=" else "") ++ d.level.name

/-- The order of directives: of the longer target, then of more fields, then of the larger text. -/
def before (a b : Directive) : Bool :=
  let key (d : Directive) := (d.target.map String.utf8ByteSize).elim 0 (· + 1)
  if key a ≠ key b then key b < key a
  else if a.fields.length ≠ b.fields.length then b.fields.length < a.fields.length
  else b.target.getD "" < a.target.getD "" ||
    (a.target == b.target && (b.fields.head?.getD "" < a.fields.head?.getD "" ||
      (a.fields == b.fields && b.span.getD "" < a.span.getD "")))

/-- Whether two directives are for the same events. -/
def sameScope (a b : Directive) : Bool :=
  a.target == b.target && a.span == b.span && a.fields == b.fields

/-- Puts a directive at its place, in place of one for the same events. -/
def insert (d : Directive) : List Directive → List Directive
  | [] => [d]
  | e :: ds =>
    if d.sameScope e then d :: ds
    else if d.before e then d :: e :: ds
    else e :: insert d ds

end Directive

/-! ## Filters -/

/-- The directives that go by target, and those that apply inside spans, each in their order. -/
structure Filter where
  byTarget : List Directive
  inSpans : List Directive
  deriving Repr, DecidableEq

namespace Filter

/-- Reads a filter.  Without directives only errors are logged. -/
def parse (text : String) : Except FilterFault Filter := do
  let ds ← ((text.splitOn ",").filter (· ≠ "")).mapM Directive.parse
  let inSpans := (ds.filter Directive.isDynamic).foldl (fun all d => d.insert all) []
  let plain := ds.filter fun d => !d.isDynamic
  let byTarget := (plain ++ inSpans.filter Directive.isStatic).foldl (fun all d => d.insert all) []
  if byTarget.isEmpty && inSpans.isEmpty then return ⟨[{ level := .error }], []⟩
  else return ⟨byTarget, inSpans⟩

/-- The filter as a text. -/
def render (f : Filter) : String := ",".intercalate ((f.byTarget ++ f.inSpans).map Directive.render)

/-- Whether an event is logged: the first directive whose target begins the target of the event
    decides, or a directive for the span that the event is in lets it through.  Directives on the
    fields of a span let nothing through. -/
def enables (f : Filter) (target : String) (level : Verbosity) (span : Option String) : Bool :=
  let applies (d : Directive) := d.fields.isEmpty && target.startsWith (d.target.getD "")
  let admits (d : Directive) : Bool := level.rank ≤ d.level.rank
  ((f.byTarget.find? applies).map admits).getD false ||
    (span.isSome && f.inSpans.any fun d => applies d && d.span == span && admits d)

end Filter

/-- The filter when none is set. -/
def standardFilter : String := "info"

/-- The filter that is in force: the one that is set, unless it is blank, and else `fallback`. -/
def filterInForce (setting : Option String) (fallback : String) : Except FilterFault Filter :=
  match setting with
  | some s => Filter.parse (if s.trimAscii.isEmpty then fallback else s)
  | none => Filter.parse fallback

/-! ## Installing -/

/-- Why logging cannot be set up. -/
inductive TelemetryError where
  | filter (fault : FilterFault)
  | installed
  deriving Repr, DecidableEq

/-- What is said when logging cannot be set up. -/
def TelemetryError.message : TelemetryError → String
  | filter fault => "invalid log filter: " ++ fault.message
  | installed => "failed to install tracing subscriber: " ++
      "a global default trace dispatcher has already been set"

/-- Installs a filter for the whole process, which can be done once. -/
def install (current : Option Filter) (setting : Option String) : Except TelemetryError Filter :=
  match filterInForce setting standardFilter with
  | .error fault => .error (.filter fault)
  | .ok f => if current.isSome then .error .installed else .ok f

end Switchboard.Telemetry

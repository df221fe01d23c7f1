/-
  The command line of the demo server.

    * `flags`  the options that take a value, with the setting that stands in for each;
    * `parse`  reads a command line: what to run, or that help is asked for;
    * `help`   the text of the help.

  Arguments are read from left to right, and the first that is wrong decides.  The value of an
  option follows it, as the next argument or behind an equals sign.  It is checked when the argument
  after it turns out to be an option, or at the end; an argument that is not known is the fault
  before that.  Options that are not given are then taken from their settings, in the order of
  `flags`.
-/
import Switchboard.Demo.Options
import Switchboard.Host.Address

namespace Switchboard.Demo

open Number Telemetry

/-! ## Faults -/

/-- Why a command line is refused. -/
inductive UsageError where
  | unexpected (argument : String)
  | missingValue (flag : String)
  | repeated (flag : String)
  /-- A value that an option does not take, with the reason if there is more to say. -/
  | invalid (value flag : String) (reason : Option String)
  /-- A value behind an option that takes none. -/
  | unneededValue (value flag : String)
  deriving Repr, DecidableEq

/-- What is said of a command line that is wrong, without the hints around it. -/
def UsageError.message : UsageError → String
  | unexpected argument => "unexpected argument '" ++ argument ++ "' found"
  | missingValue flag => "a value is required for '" ++ flag ++ "' but none was supplied"
  | repeated flag => "the argument '" ++ flag ++ "' cannot be used multiple times"
  | invalid value flag reason =>
    "invalid value '" ++ value ++ "' for '" ++ flag ++ "'" ++ (reason.map (": " ++ ·)).getD ""
  | unneededValue value flag =>
    "unexpected value '" ++ value ++ "' for '" ++ flag ++ "' found; no more were expected"

/-- What is wrong with a value. -/
inductive ValueFault where
  | missing
  | reason (text : String)
  /-- The value is none of those that can be chosen. -/
  | notAmong
  deriving Repr, DecidableEq

/-! ## Options with a value -/

/-- An option with a value: its texts, what stands in for it, and what it does to the options. -/
structure Flag where
  name : String
  /-- The environment variable that stands in for the option. -/
  setting : String
  /-- What the value is called. -/
  value : String
  about : String := ""
  standard : Option String := none
  /-- The values to choose from, with what they mean. -/
  choices : List (String × String) := []
  take : String → Options → Except ValueFault Options

namespace Flag

/-- The option as the messages show it. -/
def render (f : Flag) : String := "--" ++ f.name ++ " <" ++ f.value ++ ">"

/-- Takes a value, or says which option has the wrong one. -/
def assign (f : Flag) (value : String) (o : Options) : Except UsageError Options :=
  (f.take value o).mapError fun
    | .missing => .missingValue f.render
    | .reason text => .invalid value f.render (some text)
    | .notAmong => if value = "" then .missingValue f.render else .invalid value f.render none

end Flag

/-- A number up to a limit, or the fault of the text. -/
def natural (limit : Nat) (s : String) : Except ValueFault Nat :=
  (parseNatural limit s).mapError fun fault => .reason fault.message

/-- A port. -/
def port (s : String) : Except ValueFault Nat :=
  match parseInteger maxSigned64 s with
  | .error fault => .error (.reason fault.message)
  | .ok n =>
    if 0 ≤ n ∧ n ≤ 65535 then .ok n.toNat
    else .error (.reason (toString n ++ " is not in 0..=65535"))

/-- The options that take a value, in the order of the help. -/
def flags : List Flag :=
  [{ name := "host", setting := "CEDAR_HOST", value := "HOST", about := "Bind address",
     standard := some "0.0.0.0",
     take := fun s o => .ok { o with host := s } },
   { name := "port", setting := "CEDAR_PORT", value := "PORT",
     about := "Listen port (0 lets the OS pick)", standard := some "8081",
     take := fun s o => (port s).map fun n => { o with port := n } },
   { name := "static-index", setting := "CEDAR_STATIC_INDEX", value := "PATH",
     about := "File served at `GET /`",
     take := fun s o => if s = "" then .error .missing else .ok { o with staticIndex := some s } },
   { name := "request-timeout-secs", setting := "CEDAR_REQUEST_TIMEOUT_SECS",
     value := "REQUEST_TIMEOUT_SECS", about := "Per-request timeout in seconds",
     standard := some "30",
     take := fun s o => (natural maxUnsigned64 s).map fun n => { o with requestTimeoutSecs := n } },
   { name := "max-request-bytes", setting := "CEDAR_MAX_REQUEST_BYTES",
     value := "MAX_REQUEST_BYTES", about := "Largest accepted request body in bytes",
     standard := some "1048576",
     take := fun s o => (natural maxUnsigned64 s).map fun n => { o with maxRequestBytes := n } },
   { name := "log-format", setting := "CEDAR_LOG_FORMAT", value := "LOG_FORMAT",
     standard := some LogFormat.standard.name,
     choices := LogFormat.all.map fun f => (f.name, f.about),
     take := fun s o =>
       match LogFormat.parse false s with
       | .ok f => .ok { o with logFormat := f }
       | .error _ => .error .notAmong },
   { name := "metrics-addr", setting := "CEDAR_METRICS_ADDR", value := "ADDR",
     about := "Serve Prometheus metrics on this address",
     take := fun s o =>
       match Host.parseSocketAddress? s with
       | some address => .ok { o with metricsAddress := some address }
       | none => .error (.reason "invalid socket address syntax") }]

/-! ## Reading -/

/-- What the arguments so far amount to. -/
structure Progress where
  options : Options := {}
  /-- The options that have been given. -/
  given : List String := []
  /-- The option that stands last, with its value once that has come. -/
  pending : Option (Flag × Option String) := none

namespace Progress

/-- Gives an option its value. -/
def give (p : Progress) (f : Flag) (value : String) : Except UsageError Progress :=
  if p.given.contains f.name then .error (.repeated f.render)
  else
    (f.assign value p.options).map fun o =>
      { options := o, given := f.name :: p.given, pending := none }

/-- Completes the option that stands last. -/
def settle (p : Progress) : Except UsageError Progress :=
  match p.pending with
  | none => .ok p
  | some (f, none) => .error (.missingValue f.render)
  | some (f, some value) => p.give f value

/-- Takes the options that are not given from their settings. -/
def fromSettings (p : Progress) (setting : String → Option String) :
    List Flag → Except UsageError Options
  | [] => .ok p.options
  | f :: fs =>
    match if p.given.contains f.name then none else setting f.setting with
    | none => p.fromSettings setting fs
    | some value =>
      match p.give f value with
      | .ok next => next.fromSettings setting fs
      | .error e => .error e

end Progress

/-- What a command line asks for: a run, or the help, in full or in short. -/
inductive Invocation where
  | run (options : Options)
  | help (full : Bool)
  deriving Repr, DecidableEq

/-- An argument by its form. -/
inductive Argument where
  /-- Two dashes, behind which no option is read. -/
  | separator
  | long (name : String) (value : Option String)
  /-- One dash and a letter. -/
  | short (letter : Char)
  | plain (text : String)
  deriving Repr, DecidableEq

/-- The form of an argument, by its dashes. -/
def Argument.ofText (s : String) : Argument :=
  match s.toList with
  | ['-', '-'] => .separator
  | '-' :: '-' :: cs =>
    .long (String.ofList (cs.takeWhile (· != '=')))
      (match cs.dropWhile (· != '=') with
        | _ :: value => some (String.ofList value)
        | [] => none)
  | '-' :: c :: _ => .short c
  | _ => .plain s

/-- What is to be run once all arguments have been read. -/
def Progress.finish (p : Progress) (setting : String → Option String) :
    Except UsageError Invocation := do
  let p ← p.settle
  return .run (← p.fromSettings setting flags)

/-- Reads the arguments up to the separator, or to a call for help. -/
def scan (setting : String → Option String) (p : Progress) :
    List String → Except UsageError Invocation
  | [] => p.finish setting
  | a :: rest =>
    match Argument.ofText a with
    | .separator =>
      match rest with
      | [] => p.finish setting
      | b :: _ => .error (.unexpected b)
    | .plain text =>
      match p.pending with
      | some (f, none) => scan setting { p with pending := some (f, some text) } rest
      | _ => .error (.unexpected text)
    | .short letter =>
      if letter = 'h' then p.settle.map fun _ => .help false
      else .error (.unexpected (String.ofList ['-', letter]))
    | .long "help" none => p.settle.map fun _ => .help true
    | .long "help" (some value) => .error (.unneededValue value "--help")
    | .long name value =>
      match flags.find? (·.name == name) with
      | none => .error (.unexpected ("--" ++ name))
      | some f =>
        match p.settle with
        | .error e => .error e
        | .ok p =>
          match value with
          | none => scan setting { p with pending := some (f, none) } rest
          | some value =>
            match p.give f value with
            | .error e => .error e
            | .ok p => scan setting p rest

/-- Reads a command line, with the settings around it. -/
def parse (setting : String → Option String) (arguments : List String) :
    Except UsageError Invocation := scan setting {} arguments

/-! ## Texts -/

/-- The name of the program in its help. -/
def programName : String := "cedar-demo"

/-- The line on how to call the program. -/
def usage : String := "Usage: " ++ programName ++ " [OPTIONS]"

/-- What is printed for a command line that is wrong. -/
def UsageError.report (e : UsageError) : String :=
  "error: " ++ e.message ++ "\n\n" ++ usage ++ "\n\nFor more information, try '--help'.\n"

/-- The notes on an option: its setting, its standard value, and in short help what to choose
    from. -/
def Flag.notes (f : Flag) (setting : String → Option String) (full : Bool) : List String :=
  ["[env: " ++ f.setting ++ "=" ++ (setting f.setting).getD "" ++ "]"] ++
    (f.standard.map fun s => "[default: " ++ s ++ "]").toList ++
    (if full || f.choices.isEmpty then []
      else ["[possible values: " ++ ", ".intercalate (f.choices.map Prod.fst) ++ "]"])

/-- The lines on what can be chosen. -/
def Flag.choiceLines (f : Flag) : List String :=
  let width := (f.choices.map fun c => c.1.length).foldl max 0
  f.choices.map fun (name, about) =>
    "- " ++ name ++ ": " ++ String.ofList (List.replicate (width - name.length) ' ') ++ about

/-- The paragraphs on an option, each a list of lines. -/
def Flag.paragraphs (f : Flag) (setting : String → Option String) (full : Bool) :
    List (List String) :=
  let about := if f.about = "" then [] else [f.about]
  if full then
    [about, if f.choices.isEmpty then [] else "Possible values:" :: f.choiceLines,
      f.notes setting true].filter (!·.isEmpty)
  else [[" ".intercalate (about ++ f.notes setting false)]]

/-- A line moved to the right, unless it is empty. -/
def indent (width : Nat) (line : String) : String :=
  if line = "" then "" else String.ofList (List.replicate width ' ') ++ line

/-- The entry of the help on an option. -/
def entry (head : String) (paragraphs : List (List String)) : String :=
  "\n".intercalate (head :: (([""].intercalate paragraphs).map (indent 10)))

/-- The help, with the values that the settings have. -/
def help (setting : String → Option String) (full : Bool) : String :=
  let last := if full then "Print help (see a summary with '-h')"
    else "Print help (see more with '--help')"
  let entries := flags.map (fun f => entry (indent 6 f.render) (f.paragraphs setting full)) ++
    [entry "  -h, --help" [[last]]]
  "Serves the Todos and Echo demo services over HTTP\n\n" ++ usage ++ "\n\nOptions:\n" ++
    (if full then "\n\n" else "\n").intercalate entries ++ "\n"

end Switchboard.Demo

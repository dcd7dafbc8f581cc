/-
JoosStatics.CommandLine — the command `joosc`.

`joosc [--config FILE] [--format text|json] [--no-stdlib] INPUTS...`
analyzes the units of all inputs together. An input file holds a program or
a single compilation unit as JSON.

* `Request.ofArgs` — the meaning of the arguments.
* `CommandLine.run` — reads the configuration, then the inputs in order,
  and reports the verdict. How files are read is a parameter.

The exit code is 0 for an accepted program, 42 for a rejected one, 1 when a
file cannot be used and 2 when the arguments make no sense.
-/
import JoosStatics.Analysis
import JoosStatics.Json.Reader
import JoosStatics.Json.Writer
import JoosStatics.Syntax.Decode
import JoosStatics.Syntax.Encode

namespace JoosStatics

/-! ## Arguments -/

/-- The form of the report. -/
inductive ReportFormat where
  | text | json
  deriving DecidableEq, Repr

/-- The format that an argument names. -/
def ReportFormat.ofText? : String → Option ReportFormat
  | "text" => some .text
  | "json" => some .json
  | _ => none

/-- The options and inputs given by arguments. -/
structure Options where
  inputs : List String := []
  config : Option String := none
  format : Option ReportFormat := none
  noStdlib : Bool := false
  deriving DecidableEq, Repr

/-- What the arguments ask for. -/
inductive Request where
  | analyze (options : Options)
  | version
  | help
  /-- The arguments make no sense. -/
  | misuse
  deriving DecidableEq, Repr

namespace Request

/-- Gives an option its value. No option may be given twice, and no value may
be empty. -/
def give? (o : Options) (option value : String) : Option Options :=
  match option with
  | "--config" =>
    if o.config.isSome || value.isEmpty then none else some { o with config := some value }
  | "--format" =>
    match o.format, ReportFormat.ofText? value with
    | none, some format => some { o with format := some format }
    | _, _ => none
  | _ => none

/-- Adds an input, which may not be empty. -/
def addInput? (o : Options) (path : String) : Option Options :=
  if path.isEmpty then none else some { o with inputs := o.inputs ++ [path] }

/-- Adds inputs in order. -/
def addInputs? (o : Options) : List String → Option Options
  | [] => some o
  | path :: rest => do addInputs? (← addInput? o path) rest

/-- An argument `option=value` as its two parts. -/
def splitAssignment (arg : String) : String × Option String :=
  match arg.toList.span (· != '=') with
  | (option, '=' :: value) => (String.ofList option, some (String.ofList value))
  | (option, _) => (String.ofList option, none)

/-- Whether an argument has the form of an option; a single dash has not. -/
def isOption (arg : String) : Bool :=
  match arg.toList with
  | '-' :: _ :: _ => true
  | _ => false

/-- The meaning of arguments, given what the arguments before them say. -/
def ofArgsFrom (o : Options) : List String → Request
  | [] => if o.inputs.isEmpty then .misuse else .analyze o
  | "--" :: rest =>
    match addInputs? o rest with
    | some o => if o.inputs.isEmpty then .misuse else .analyze o
    | none => .misuse
  | "--version" :: _ => .version
  | "--help" :: _ => .help
  | "--no-stdlib" :: rest =>
    if o.noStdlib then .misuse else ofArgsFrom { o with noStdlib := true } rest
  | arg :: rest =>
    match arg.toList with
    | '-' :: 'V' :: _ => .version
    | '-' :: 'h' :: _ => .help
    | _ =>
      if !isOption arg then
        match addInput? o arg with
        | some o => ofArgsFrom o rest
        | none => .misuse
      else
        match splitAssignment arg, rest with
        | (option, some value), rest =>
          match give? o option value with
          | some o => ofArgsFrom o rest
          | none => .misuse
        | (option, none), value :: rest =>
          if isOption value then .misuse
          else
            match give? o option value with
            | some o => ofArgsFrom o rest
            | none => .misuse
        | (_, none), [] => .misuse

/-- The meaning of the arguments. Options may follow inputs, and `--` ends the
options. -/
def ofArgs (args : List String) : Request := ofArgsFrom {} args

end Request

/-! ## Files -/

/-- What an input file holds. -/
inductive InputFile where
  | whole (program : Program)
  | single (unit : CompilationUnit)
  deriving DecidableEq

namespace InputFile

/-- The content of an input file: a program, or else a compilation unit. In a
file the kinds of statements, expressions and imports may be numbered. -/
def ofJson? (j : Json) : Option InputFile :=
  ((Program.ofJson? .numbered j).map .whole).or
    ((CompilationUnit.ofJson? .numbered j).map .single)

/-- The content of the text of an input file. -/
def ofText? (text : String) : Option InputFile := (Json.ofText? text).bind ofJson?

/-- The units of the file at `path`; a single unit that names no file gets
this one. -/
def units (path : String) : InputFile → List CompilationUnit
  | .whole program => program.units
  | .single unit => [{ unit with file := some (unit.file.getD path) }]

end InputFile

/-- Why a run cannot reach a verdict. -/
inductive Failure where
  | unreadableConfig (path : String)
  | invalidConfig
  | unreadableInput (path : String)
  | invalidInput (path : String)
  | malformedUnit (type : QualifiedName)
  deriving DecidableEq, Repr

namespace Failure

/-- The message about a failure, with its reason where there is one. -/
def message : Failure → String
  | .unreadableConfig path => "failed to read config file " ++ path ++ ": cannot be read as text"
  | .invalidConfig => "failed to parse toml config: not a valid configuration"
  | .unreadableInput path => "failed to read " ++ path ++ ": cannot be read as text"
  | .invalidInput path =>
    "failed to decode " ++ path ++ ": neither a program nor a compilation unit"
  | .malformedUnit type => malformedMessage type

/-- The text before the first occurrence of a colon and a blank. -/
def beforeReason : List Char → List Char
  | ':' :: ' ' :: _ => []
  | c :: rest => c :: beforeReason rest
  | [] => []

/-- The first line of a text. A line ends before a line feed, or before a
carriage return that stands directly in front of one. -/
def firstLine : List Char → List Char
  | [] => []
  | '\n' :: _ => []
  | '\r' :: '\n' :: _ => []
  | c :: rest => c :: firstLine rest

/-- The first line of the message without its reason. -/
def headline (f : Failure) : String :=
  String.ofList (beforeReason (firstLine f.message.toList))

end Failure

/-! ## Reports -/

/-- A violation in a report. -/
def Violation.toJson (v : Violation) : Json :=
  .obj [("code", .str v.code), ("phase", .str v.phase.reportKey), ("message", .str v.message),
    ("location", v.location.toJson)]

/-- The report on a list of violations. -/
def report (format : ReportFormat) (violations : List Violation) : String :=
  match format with
  | .text =>
    if violations.isEmpty then "OK\n"
    else String.join (violations.map (fun v => v.line ++ "\n"))
  | .json =>
    (Json.obj [("accepted", .bool violations.isEmpty),
      ("errors", Json.ofList Violation.toJson violations)]).pretty ++ "\n"

/-- What a run leaves: the exit code, the text on the standard output, and why
no verdict was reached. -/
structure Outcome where
  exit : Nat
  stdout : String := ""
  failure : Option Failure := none

namespace CommandLine

/-- The name and version of the command. -/
def version : String := "joosc 0.1.0\n"

/-- How the command is used. -/
def usage : String :=
  "Static semantic analysis of parsed Joos programs\n\n" ++
  "Usage: joosc [--config FILE] [--format text|json] [--no-stdlib] INPUTS...\n"

/-- The exit code for a list of violations. -/
def exitCode (violations : List Violation) : Nat := if violations.isEmpty then 0 else 42

/-- The outcome of a verdict. -/
def outcome (format : ReportFormat) : Verdict → Outcome
  | .accepted _ => { exit := exitCode [], stdout := report format [] }
  | .rejected rejection =>
    { exit := exitCode rejection.violations, stdout := report format rejection.violations }
  | .malformed type => { exit := 1, failure := some (.malformedUnit type) }

variable {m : Type → Type} [Monad m]

/-- The configuration of a run. -/
def loadConfig (read : String → m (Option String)) (options : Options) :
    ExceptT Failure m Configuration := do
  let config ← match options.config with
    | none => pure {}
    | some path =>
      match ← ExceptT.lift (read path) with
      | none => throw (.unreadableConfig path)
      | some text =>
        match Configuration.ofText? text with
        | some config => pure config
        | none => throw .invalidConfig
  return if options.noStdlib then { config with includeStdlib := false } else config

/-- The units of one input. -/
def loadInput (read : String → m (Option String)) (path : String) :
    ExceptT Failure m (List CompilationUnit) := do
  match ← ExceptT.lift (read path) with
  | none => throw (.unreadableInput path)
  | some text =>
    match InputFile.ofText? text with
    | some file => return file.units path
    | none => throw (.invalidInput path)

/-- The program of all inputs, in order. -/
def loadProgram (read : String → m (Option String)) (paths : List String) :
    ExceptT Failure m Program := do
  let units ← paths.mapM (loadInput read)
  return { units := units.flatten }

/-- Analyzes the inputs of a run. -/
def analyzeInputs (read : String → m (Option String)) (options : Options) :
    ExceptT Failure m Verdict := do
  let config ← loadConfig read options
  let program ← loadProgram read options.inputs
  return analyze program config

/-- Runs the command. -/
def run (read : String → m (Option String)) (args : List String) : m Outcome := do
  match Request.ofArgs args with
  | .misuse => return { exit := 2 }
  | .version => return { exit := 0, stdout := version }
  | .help => return { exit := 0, stdout := usage }
  | .analyze options =>
    match ← (analyzeInputs read options).run with
    | .ok verdict => return outcome (options.format.getD .text) verdict
    | .error failure => return { exit := 1, failure := some failure }

end CommandLine

end JoosStatics

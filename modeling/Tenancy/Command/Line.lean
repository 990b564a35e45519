import Tenancy.Command.Check
import Tenancy.Command.Init
import Tenancy.Command.Options
import Tenancy.Command.ShowSchema
import Tenancy.Wire.Node

/-!
# The command line

The first argument names the command, the others are its options and operands. A command that is
carried out prints its result, then its notices, and ends with an exit code.
-/

set_option autoImplicit false

namespace Tenancy

/-- What can be asked for on the command line. -/
inductive Command where
  | check (request : Command.Check)
  | schema (request : Command.ShowSchema)
  | init (request : Command.Init)
  deriving DecidableEq, Repr, Inhabited

namespace Command

/-- The variable of the environment that asks for plain output. -/
def plainVariable : String := "TENANTGUARD_PLAIN"

/-- Whether a text can be a path. -/
def isPath (text : String) : Bool := text ≠ ""

/-- Reads a number of workers. -/
def jobs? (text : String) : Option UInt64 :=
  let digits := match text.toList with
    | '+' :: rest => rest
    | cs => cs
  match Wire.Node.digits? 10 digits with
  | some n => if n < UInt64.size then some (UInt64.ofNat n) else none
  | none => none

/-- The format that an option names; only whole names in small letters are accepted. -/
def format? (text : String) : Option OutputFormat :=
  OutputFormat.all.find? fun f => f.key = text

/-- Options that several commands have. -/
def settingsOption : OptionSpec := ⟨"config", some 'c', .value isPath⟩

/-- The option for plain output. -/
def plainOption : OptionSpec := ⟨"plain", none, .switch⟩

/-- The option for more log lines. -/
def verboseOption : OptionSpec := ⟨"verbose", some 'v', .count⟩

/-- What `check` accepts. -/
def checkSpec : ArgumentSpec where
  options := [
    ⟨"format", some 'f', .value fun text => (format? text).isSome⟩,
    ⟨"output", some 'o', .value isPath⟩,
    settingsOption,
    ⟨"strict", none, .switch⟩,
    ⟨"include-safe", none, .switch⟩,
    plainOption,
    ⟨"jobs", some 'j', .value fun text => (jobs? text).isSome⟩,
    verboseOption]
  operands := 1
  acceptsOperand := isPath

/-- What `schema` accepts. -/
def schemaSpec : ArgumentSpec where
  options := [
    ⟨"format", some 'f', .value fun text => (SchemaFormat.ofText? text).isSome⟩,
    settingsOption,
    plainOption,
    verboseOption]
  operands := 1
  acceptsOperand := isPath

/-- What `init` accepts. -/
def initSpec : ArgumentSpec where
  options := [⟨"force", none, .switch⟩]
  operands := 1
  acceptsOperand := isPath

/-- Whether plain output is asked for, by the option or by the environment. -/
def plainOf (env : String → Option String) (a : Arguments) : Except UsageError Bool :=
  if a.has "plain" then .ok true
  else match env plainVariable with
    | none => .ok false
    | some "true" => .ok true
    | some "false" => .ok false
    | some other => .error (.invalid s!"invalid value '{other}' for '--plain'")

/-- The path that a command needs. -/
def pathOf (a : Arguments) : Except UsageError String :=
  match a.operands with
  | path :: _ => .ok path
  | [] => .error (.invalid "the following required arguments were not provided: <PATH>")

/-- Reads the arguments of `check`. -/
def readCheck (env : String → Option String) (arguments : List String) :
    Except UsageError Command := do
  let a ← checkSpec.read arguments
  let plain ← plainOf env a
  let path ← pathOf a
  return .check {
    path
    format := (a.value? "format").bind format?
    output := a.value? "output"
    settings := a.value? "config"
    strict := a.has "strict"
    includeSafe := a.has "include-safe"
    plain
    jobs := (a.value? "jobs").bind jobs? }

/-- Reads the arguments of `schema`. -/
def readSchema (env : String → Option String) (arguments : List String) :
    Except UsageError Command := do
  let a ← schemaSpec.read arguments
  let plain ← plainOf env a
  let path ← pathOf a
  return .schema {
    path
    format := ((a.value? "format").bind SchemaFormat.ofText?).getD .terminal
    settings := a.value? "config"
    plain }

/-- Reads the arguments of `init`. -/
def readInit (arguments : List String) : Except UsageError Command := do
  let a ← initSpec.read arguments
  return .init ⟨a.operands.head?.getD ".", a.has "force"⟩

/-- The names of the commands. -/
def names : List String := ["check", "schema", "init"]

/-- Reads a command from the arguments of the process. -/
def read (env : String → Option String) : List String → Except UsageError Command
  | [] => .error .nothing
  | "check" :: rest => readCheck env rest
  | "schema" :: rest => readSchema env rest
  | "init" :: rest => readInit rest
  | ["help"] => .error .help
  | ["help", name] =>
    if names.contains name then .error .help
    else .error (.invalid s!"unrecognized subcommand '{name}'")
  | "--help" :: _ => .error .help
  | "--version" :: _ => .error .version
  | argument :: _ =>
    match argument.toList with
    | '-' :: 'h' :: _ => .error .help
    | '-' :: 'V' :: _ => .error .version
    | _ => .error (.invalid s!"unrecognized subcommand '{argument}'")

/-- Carries out a command. `capable` says whether the output can show colour. -/
def run (c : Command) (files : FileTree) (env : String → Option String) (capable : Bool) :
    Outcome :=
  let result := match c with
    | .check request => request.run files env capable
    | .schema request => .ok (request.run files)
    | .init request => request.run files
  match result with
  | .ok outcome => outcome
  | .error e => .failed [] e

/-- How the tool is used. -/
def usage : String := textOfLines [
  "Static tenant-isolation checker for data-access code",
  "",
  "Usage: tenantguard <COMMAND>",
  "",
  "Commands:",
  "  check   Check handlers for tenant-isolation violations",
  "  schema  Classify the schema and print every entity",
  "  init    Write a default .tenantguard.toml",
  "  help    Print this message or the help of the given subcommand(s)"]

/-- What is printed when the arguments make up no command. -/
def refuse : UsageError → Outcome
  | .help => ⟨.clean, usage, [], none⟩
  | .version => ⟨.clean, s!"{Report.toolName} {Report.toolVersion}\n", [], none⟩
  | .nothing => ⟨.fatal, "", Text.lines usage, none⟩
  | .invalid message => ⟨.fatal, "", [s!"error: {message}"], none⟩

/-- Reads the arguments and carries out the command that they make up. -/
def execute (arguments : List String) (files : FileTree) (env : String → Option String)
    (capable : Bool) : Outcome :=
  match read env arguments with
  | .ok c => c.run files env capable
  | .error e => refuse e

end Command

end Tenancy

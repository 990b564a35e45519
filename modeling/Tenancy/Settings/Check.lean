import Tenancy.Files.Fault
import Tenancy.Glob
import Tenancy.Render.Format
import Tenancy.Settings.Basic
import Tenancy.Text.Blank
import Tenancy.Verdict.Basic
import Tenancy.Wire.Problem

/-!
# Problems of settings

Settings that were read are checked as a whole, and all faults are reported together, in a fixed
order: names of scoping columns, patterns, providers, limits, suppressions, output.
-/

set_option autoImplicit false

namespace Tenancy

/-- Why settings cannot be used. -/
inductive SettingsError where
  /-- The file could not be read. -/
  | unreadable (path : String) (fault : FileFault)
  /-- The file is no settings document. -/
  | unparsable (path : String) (problem : Wire.Problem)
  /-- A setting has a value that makes no sense. -/
  | invalid (field message : String)
  | invalidPattern (pattern : String) (error : Glob.Error)
  deriving DecidableEq, Repr, Inhabited

namespace SettingsError

/-- The code of an error. -/
def code : SettingsError → String
  | unreadable _ _ => "E040"
  | unparsable _ _ => "E040"
  | invalid _ _ => "E041"
  | invalidPattern _ _ => "E041"

/-- The text of an error. -/
def message : SettingsError → String
  | unreadable path fault => s!"failed to read config {path}: {fault.message}"
  | unparsable path problem =>
    let why := problem.message?.getD "not a configuration document"
    s!"failed to parse config {path}: {why}"
  | invalid field message => s!"invalid configuration value for `{field}`: {message}"
  | invalidPattern pattern error => s!"invalid glob pattern `{pattern}`: {error.message}"

end SettingsError

namespace Settings

/-- Faults of the names of scoping columns. -/
def columnFaults (s : Settings) : List SettingsError :=
  let columns := s.schema.scopingColumns
  (if columns.isEmpty then
    [.invalid "schema.scoping_columns" "at least one scoping column convention is required"]
  else [])
  ++ (if columns.any fun c => Text.trim c = "" then
    [.invalid "schema.scoping_columns" "scoping column names must not be empty"]
  else [])

/-- Whether a text is meant as a pattern. -/
def hasWildcard (text : String) : Bool := text.toList.any Glob.isPatternChar

/-- All texts that have to be patterns. -/
def patterns (s : Settings) : List String :=
  s.analysis.ignore
    ++ s.schema.scopingColumns.filter (fun c => c.toList.contains '*')
    ++ (s.suppressions.map SuppressionEntry.location).filter hasWildcard

/-- Patterns that are none. -/
def patternFaults (s : Settings) : List SettingsError :=
  s.patterns.filterMap fun pattern =>
    match Glob.compile pattern with
    | .ok _ => none
    | .error e => some (.invalidPattern pattern e)

/-- Providers that are in both lists. -/
def providerFaults (s : Settings) : List SettingsError :=
  (s.providers.admin.filter (· ∈ s.providers.tenantContext)).map fun p =>
    .invalid "providers" s!"provider `{p}` is listed as both tenant_context and admin"

/-- Limits under which nothing could be analyzed. -/
def limitFaults (s : Settings) : List SettingsError :=
  let check (field : String) (isZero : Bool) : List SettingsError :=
    if isZero then [.invalid field "must be greater than 0"] else []
  check "limits.max_paths_per_operation" (s.limits.maxPathsPerOperation = 0)
    ++ check "limits.max_nesting_depth" (s.limits.maxNestingDepth = 0)
    ++ check "limits.max_operations_per_handler" (s.limits.maxOperationsPerHandler = 0)

/-- Whether a suppression names a rule that exists. -/
def isKnownRule (rule : String) : Bool :=
  rule = "*" || ViolationKind.all.any fun k => k.ruleId = rule

/-- Faults of one suppression. -/
def entryFaults (index : Nat) (entry : SuppressionEntry) : List SettingsError :=
  (if Text.trim entry.location = "" then
    [.invalid s!"suppressions[{index}].location" "location must not be empty"]
  else [])
  ++ (if isKnownRule entry.rule then []
  else
    let known := ", ".intercalate (ViolationKind.all.map ViolationKind.ruleId)
    [.invalid s!"suppressions[{index}].rule"
      s!"unknown rule `{entry.rule}` (expected `*` or one of: {known})"])

/-- Faults of all suppressions. -/
def suppressionFaults (s : Settings) : List SettingsError :=
  s.suppressions.zipIdx.flatMap fun (entry, index) => entryFaults index entry

/-- A preferred format that does not exist. -/
def outputFaults (s : Settings) : List SettingsError :=
  match s.output.defaultFormat with
  | none => []
  | some format =>
    if (OutputFormat.ofText? format).isSome then []
    else [.invalid "output.default_format"
      s!"unknown format `{format}` (expected terminal, json or markdown)"]

/-- All faults of settings, in order. -/
def faults (s : Settings) : List SettingsError :=
  s.columnFaults ++ s.patternFaults ++ s.providerFaults ++ s.limitFaults ++ s.suppressionFaults
    ++ s.outputFaults

end Settings

end Tenancy

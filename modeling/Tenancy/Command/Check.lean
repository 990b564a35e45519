import Tenancy.Command.Outcome
import Tenancy.Files.Load
import Tenancy.Files.SettingsFile
import Tenancy.Render.Output

/-!
# Checking an application

All documents below a path are analyzed and the report is printed or written to a file. What is
asked for on the command line adds to the settings and never takes anything back.
-/

set_option autoImplicit false

namespace Tenancy.Command

/-- What is to be checked, and how. -/
structure Check where
  path : String
  format : Option OutputFormat
  output : Option String
  settings : Option String
  strict : Bool
  includeSafe : Bool
  plain : Bool
  jobs : Option UInt64
  deriving DecidableEq, Repr, Inhabited

namespace Check

/-- The settings with what is asked for besides. -/
def override (c : Check) (s : Settings) : Settings :=
  { s with
    analysis :=
      { s.analysis with
        strict := s.analysis.strict || c.strict
        includeSafe := s.analysis.includeSafe || c.includeSafe
        jobs := c.jobs <|> s.analysis.jobs } }

/-- The format of a report: the one that is asked for, or that of the settings, or the one for
terminals. -/
def resolveFormat (asked : Option OutputFormat) (s : Settings) : OutputFormat :=
  (asked <|> s.output.defaultFormat.bind OutputFormat.ofText?).getD .terminal

/-- How the report looks; in a file it has no colour. -/
def appearance (c : Check) (env : String → Option String) : Appearance :=
  let look := if c.plain then .bare else .ofEnvironment env
  if c.output.isSome then { look with color := .never } else look

/-- Makes sure that a report can be written to a file. -/
def canWrite (files : FileTree) (path : String) : Except Error Unit :=
  match files.ensureParent path with
  | .error fault => .error (.file fault)
  | .ok ready =>
    match ready.writeFile path .empty with
    | .error fault => .error (.notCreated path fault)
    | .ok _ => .ok ()

/-- The report and the format it is wanted in. -/
def report (c : Check) (files : FileTree) : Except Error (Report × OutputFormat) :=
  if !files.leadsSomewhere c.path then .error (.missingPath c.path)
  else match files.runSettings c.path c.settings with
    | .error errors => .error (.settings errors)
    | .ok found =>
      let s := c.override found
      match files.analyze c.path s with
      | .error e => .error (.analysis e)
      | .ok r => .ok (r, resolveFormat c.format s)

/-- Carries out a check. `capable` says whether the output can show colour. -/
def run (c : Check) (files : FileTree) (env : String → Option String) (capable : Bool) :
    Except Error Outcome := do
  let (r, format) ← c.report files
  let text := r.render format (c.appearance env) capable
  match c.output with
  | none => return ⟨r.exitStatus, text, [], none⟩
  | some path =>
    canWrite files path
    return ⟨r.exitStatus, "", [], some ⟨path, text⟩⟩

end Check

end Tenancy.Command

import Tenancy.Analysis
import Tenancy.Files.Tree
import Tenancy.Settings.Check

/-!
# Outcomes of commands

What a command prints and writes and how it ends, and why it may end without a result.
-/

set_option autoImplicit false

namespace Tenancy.Command

/-- Why a command ends without a result. -/
inductive Error where
  | missingPath (path : String)
  | settings (errors : List SettingsError)
  | analysis (error : AnalysisError)
  /-- The file would be overwritten. -/
  | alreadyThere (path : String)
  /-- The file cannot be created. -/
  | notCreated (path : String) (fault : FileFault)
  | file (fault : FileFault)
  deriving DecidableEq, Repr, Inhabited

namespace Error

/-- One line for each fault of settings. -/
def settingsLines (errors : List SettingsError) : String :=
  "\n".intercalate (errors.map fun e => s!"  [{e.code}] {e.message}")

/-- The text of an error. -/
def message : Error → String
  | missingPath path => s!"path does not exist: {path}"
  | settings errors =>
    s!"invalid configuration ({errors.length} error(s)):\n{settingsLines errors}"
  | analysis e => e.message
  | alreadyThere path => s!"{path} already exists. Use --force to overwrite."
  | notCreated path _ => s!"failed to create {path}"
  | file fault => fault.message

/-- What led to an error, if that is not part of its text. -/
def cause? : Error → Option String
  | notCreated _ fault => some fault.message
  | _ => none

/-- An error as it is printed. -/
def report : Error → String
  | analysis e => s!"error[{e.code}]: {e.message}"
  | e =>
    match e.cause? with
    | some cause => s!"error: {e.message}: {cause}"
    | none => s!"error: {e.message}"

end Error

/-- A file and the text that is written to it. -/
structure Written where
  path : String
  text : String
  deriving DecidableEq, Repr, Inhabited

/-- What a command prints and writes, and how it ends. -/
structure Outcome where
  status : ExitStatus
  /-- What is printed as the result. -/
  output : String
  /-- The lines that are printed beside it. -/
  notices : List String
  file : Option Written
  deriving DecidableEq, Repr, Inhabited

namespace Outcome

/-- A command that ends with an error after some lines. -/
def failed (notices : List String) (e : Error) : Outcome :=
  ⟨.fatal, "", notices ++ [e.report], none⟩

/-- The files after a command. -/
def filesAfter (o : Outcome) (files : FileTree) : FileTree :=
  match o.file with
  | some w =>
    match files.save w.path w.text with
    | .ok after => after
    | .error _ => files
  | none => files

end Outcome

end Tenancy.Command

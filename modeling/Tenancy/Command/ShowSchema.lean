import Tenancy.Command.Outcome
import Tenancy.Files.Load
import Tenancy.Files.SettingsFile
import Tenancy.Render.Output
import Tenancy.Render.SchemaTable

/-!
# Showing a schema

The declarations of all documents below a path are classified and printed. Documents that cannot be
loaded give a warning each and make the run incomplete.
-/

set_option autoImplicit false

namespace Tenancy.Command

/-- The forms in which a schema can be printed. -/
inductive SchemaFormat where
  | terminal
  | json
  deriving DecidableEq, Repr, Inhabited

/-- The form that a word names. -/
def SchemaFormat.ofText? : String → Option SchemaFormat
  | "terminal" => some .terminal
  | "json" => some .json
  | _ => none

/-- Which schema is to be shown, and how. -/
structure ShowSchema where
  path : String
  format : SchemaFormat
  settings : Option String
  plain : Bool
  deriving DecidableEq, Repr, Inhabited

namespace ShowSchema

/-- The warning for a document that cannot be loaded. -/
def warning (f : LoadFailure) : String :=
  s!"warning: {f.step.label} failed for {f.path}: {f.error}"

/-- The text of a schema. -/
def render (c : ShowSchema) (s : Schema) : String :=
  match c.format with
  | .json => textOfLines [s.toValue.pretty]
  | .terminal =>
    textOfLines [s.table.render (.ofPlain c.plain),
      s!"{s.size} entities, {s.tenantScoped.length} tenant-scoped"]

/-- Shows a schema. -/
def run (c : ShowSchema) (files : FileTree) : Outcome :=
  if !files.leadsSomewhere c.path then .failed [] (.missingPath c.path)
  else match files.runSettings c.path c.settings with
    | .error errors => .failed [] (.settings errors)
    | .ok s =>
      let loaded := files.loadUnits c.path s.analysis.ignore
      let warnings := loaded.failures.map warning
      match Analysis.classify s loaded.successes with
      | .error e => .failed warnings (.analysis (.schema e))
      | .ok schema =>
        ⟨if loaded.isComplete then .clean else .incomplete, c.render schema, warnings, none⟩

end ShowSchema

end Tenancy.Command

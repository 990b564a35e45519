import Tenancy.Command.Outcome
import Tenancy.Files.SettingsFile

/-!
# A first settings file

A settings file with explanations is written into a directory, unless one is there already.
-/

set_option autoImplicit false

namespace Tenancy.Command

/-- Where a settings file is to be written. -/
structure Init where
  directory : String
  /-- A file that is there already is overwritten. -/
  force : Bool
  deriving DecidableEq, Repr, Inhabited

namespace Init

/-- The text of a new settings file. -/
def template : String := "# tenantguard configuration

[schema]
# Column names that scope a row to a tenant, highest priority first.
# Entries containing `*` are glob patterns.
scoping_columns = [\"workspace_id\"]
# Entities (name or table) forced to a classification.
tenant_tables = []
global_tables = []
tenant_roots = []
# Treat the target of a scoping-column foreign key as a tenant root.
infer_roots = true
# Entities with no annotation or relationship: \"global\" or \"marker_column\".
unresolved_scope = \"global\"

[providers]
# Dependencies that yield the caller's tenant context.
tenant_context = [\"get_current_workspace\"]
# Dependencies that restrict a handler to administrators.
admin = [\"require_admin\"]

[providers.mapping]
# \"auth.deps.current_org\" = \"tenant_context_provider\"

[exemptions]
admin_route_prefixes = [\"/admin\"]

[analysis]
strict = false
include_safe = false
ignore = [\"tests/**\"]

[limits]
max_paths_per_operation = 64
max_nesting_depth = 32
max_operations_per_handler = 256

[output]
default_format = \"terminal\"

# [[suppressions]]
# location = \"app/routes.py::list_public_projects\"
# rule = \"tenant/unused-dependency\"
# reason = \"projects listed here are public\"
"

/-- The path of the new file. -/
def target (c : Init) : String := Path.join c.directory Settings.fileName

/-- Writes the new file; the result says where it is. -/
def run (c : Init) (files : FileTree) : Except Error Outcome :=
  if files.leadsSomewhere c.target && !c.force then .error (.alreadyThere c.target)
  else match files.save c.target template with
    | .error fault => .error (.file fault)
    | .ok _ => .ok ⟨.clean, s!"Created {c.target}\n", [], some ⟨c.target, template⟩⟩

end Init

end Tenancy.Command

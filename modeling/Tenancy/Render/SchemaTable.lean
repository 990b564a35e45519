import Tenancy.Render.Table
import Tenancy.Schema.Basic

/-!
# Schemas as tables

One row per entity: its names, its scope, its scoping column and the reason for its scope.
-/

set_option autoImplicit false

namespace Tenancy

/-- The scope of an entity, with a remark if tenants are rows of it. -/
def Entity.scopeText (e : Entity) : String :=
  if e.tenantRoot then e.scope.label ++ " (root)" else e.scope.label

/-- The row of an entity. -/
def Entity.row (e : Entity) : List String :=
  [e.name, e.storageKey, e.scopeText, e.scopingColumn.getD "-", e.origin.label]

/-- A schema as a table. -/
def Schema.table (s : Schema) : Table :=
  ⟨["Entity", "Storage key", "Scope", "Scoping column", "Source"], s.entities.map Entity.row⟩

end Tenancy

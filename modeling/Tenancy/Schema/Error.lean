/-!
# Contradictory schemas

Why declarations do not make up a schema.
-/

set_option autoImplicit false

namespace Tenancy

/-- Why declarations do not make up a schema. -/
inductive SchemaError where
  | conflictingMarks (entity first second : String)
  | missingScopingColumn (entity expected : String)
  | unknownScopingColumn (entity column : String)
  | duplicateEntity (entity first second : String)
  | duplicateStorageKey (storageKey first second : String)
  deriving DecidableEq, Repr, Inhabited

namespace SchemaError

/-- The code of an error. -/
def code : SchemaError → String
  | conflictingMarks .. => "E010"
  | missingScopingColumn .. => "E011"
  | unknownScopingColumn .. => "E011"
  | duplicateEntity .. => "E012"
  | duplicateStorageKey .. => "E012"

/-- The text of an error. -/
def message : SchemaError → String
  | conflictingMarks entity first second =>
    s!"entity `{entity}` is annotated both {first} and {second}"
  | missingScopingColumn entity expected =>
    s!"entity `{entity}` is tenant-scoped but has no scoping column (expected one of: {expected})"
  | unknownScopingColumn entity column =>
    s!"entity `{entity}` declares scoping column `{column}` which is not one of its columns"
  | duplicateEntity entity first second =>
    s!"entity `{entity}` is declared with storage keys `{first}` and `{second}`"
  | duplicateStorageKey storageKey first second =>
    s!"storage key `{storageKey}` is used by both `{first}` and `{second}`"

end SchemaError

end Tenancy

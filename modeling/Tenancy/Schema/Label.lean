import Tenancy.Facts.Declaration
import Tenancy.Schema.Basic
import Tenancy.Schema.Convention
import Tenancy.Schema.Error
import Tenancy.Settings.Basic

/-!
# Labels

What is said outright about an entity, by a mark it carries or by the settings. An entity that is
labelled tenant-scoped needs a scoping column and cannot have another label; a root counts more than
a global entity.
-/

set_option autoImplicit false

namespace Tenancy

/-- What is said outright about an entity. -/
inductive Label where
  | tenant (column : String) (origin : Origin)
  | global (origin : Origin)
  | root (origin : Origin)
  | unlabelled
  deriving DecidableEq, Repr, Inhabited

namespace Label

/-- Whether an entity is listed by name or storage key. -/
def isListed (list : List String) (d : Declaration) : Bool :=
  list.any fun entry => entry = d.entity || entry = d.storageKey

/-- Where a label comes from: a mark counts more than the settings. -/
def origin? (marked listed : Bool) : Option Origin :=
  if marked then some .mark else if listed then some .configuration else none

/-- The columns that tenant marks name. -/
def tenantColumns (d : Declaration) : List (Option String) :=
  d.marks.filterMap fun
    | .tenantScoped column => some column
    | _ => none

/-- Why an entity is labelled tenant-scoped, if it is. -/
def tenantOrigin? (d : Declaration) (s : SchemaSettings) : Option Origin :=
  origin? (!(tenantColumns d).isEmpty) (isListed s.tenantTables d)

/-- Why an entity is labelled global, if it is. -/
def globalOrigin? (d : Declaration) (s : SchemaSettings) : Option Origin :=
  origin? (d.marks.contains .global) (isListed s.globalTables d)

/-- Why an entity is labelled a tenant root, if it is. -/
def rootOrigin? (d : Declaration) (s : SchemaSettings) : Option Origin :=
  origin? (d.marks.contains .tenantRoot) (isListed s.tenantRoots d)

/-- The scoping columns that are named outright, in order and each once. -/
def namedColumns (d : Declaration) : List String := Ordered.ofList ((tenantColumns d).filterMap id)

/-- The scoping column of an entity that is labelled tenant-scoped. -/
def scopingColumn (d : Declaration) (c : Conventions) : Except SchemaError String :=
  match namedColumns d with
  | first :: second :: _ =>
    .error (.conflictingMarks d.entity s!"tenant-scoped ({first})" s!"tenant-scoped ({second})")
  | [column] =>
    if d.columns.isEmpty || d.columns.contains column then .ok column
    else .error (.unknownScopingColumn d.entity column)
  | [] =>
    match c.best? d.columns with
    | some column => .ok column
    | none => .error (.missingScopingColumn d.entity c.describe)

/-- The label of an entity. -/
def ofDeclaration (s : SchemaSettings) (c : Conventions) (d : Declaration) :
    Except SchemaError Label :=
  match tenantOrigin? d s with
  | none =>
    match rootOrigin? d s, globalOrigin? d s with
    | some origin, _ => .ok (.root origin)
    | none, some origin => .ok (.global origin)
    | none, none => .ok .unlabelled
  | some origin =>
    -- Conflicts come before any fault of the column.
    if (globalOrigin? d s).isSome then
      .error (.conflictingMarks d.entity (ScopeMark.tenantScoped none).label ScopeMark.global.label)
    else if (rootOrigin? d s).isSome then
      .error
        (.conflictingMarks d.entity (ScopeMark.tenantScoped none).label ScopeMark.tenantRoot.label)
    else do
      let column ← scopingColumn d c
      return .tenant column origin

end Label

end Tenancy

import Tenancy.Schema.Merge
import Tenancy.Schema.Propagation

/-!
# Classification

Declarations and settings make up a schema in four steps: declarations are merged, entities that
are labelled keep their labels, tenancy is carried along scoping foreign keys, and what is left over
follows the settings.
-/

set_option autoImplicit false

namespace Tenancy.Schema

/-- What the steps before have found out. -/
structure Plan where
  conventions : Conventions
  settings : SchemaSettings
  labelled : List Labelled
  relationships : List Relationship

/-- The relationships that carry tenancy. -/
def Plan.edges (p : Plan) : List Relationship :=
  Propagation.scopingEdges p.conventions p.relationships

/-- An entity whose rows belong to tenants by a column. -/
def scopedEntity (d : Declaration) (column : String) (origin : Origin) : Entity :=
  ⟨d.entity, d.storageKey, .tenantScoped, some column, false, .ofList d.columns, origin⟩

/-- An entity whose rows belong to no tenant. -/
def globalEntity (d : Declaration) (isRoot : Bool) (origin : Origin) : Entity :=
  ⟨d.entity, d.storageKey, .global, none, isRoot, .ofList d.columns, origin⟩

/-- An entity that nothing classifies. -/
def leftover (p : Plan) (d : Declaration) : Entity :=
  match p.settings.unresolvedScope with
  | .global => globalEntity d false .default
  | .markerColumn =>
    match p.conventions.best? d.columns with
    | some column => scopedEntity d column .markerColumn
    | none => globalEntity d false .default

/-- The entity of a declaration. `edges` are the relationships that carry tenancy and `reached` the
names that it starts from or is carried to. -/
def entityOf (p : Plan) (edges : List Relationship) (reached : List String) (l : Labelled) :
    Entity :=
  let d := l.declaration
  let root := Propagation.rootOrigin? p.settings.inferRoots edges l
  match l.label with
  | .tenant column origin => scopedEntity d column origin
  | .global origin => globalEntity d root.isSome origin
  | .root origin => globalEntity d true origin
  | .unlabelled =>
    match root with
    | some origin => globalEntity d true origin
    | none =>
      if reached.contains l.name then
        match Propagation.choose? p.conventions edges reached l.name with
        | some choice =>
          scopedEntity d choice.column (.relationship choice.column choice.target)
        | none => leftover p d
      else leftover p d

/-- The schema of a plan. -/
def ofPlan (p : Plan) : Schema :=
  let edges := p.edges
  let reached := Propagation.anchored p.settings.inferRoots edges p.labelled
  { entities := p.labelled.map (entityOf p edges reached)
    relationships := Ordered.ofList p.relationships }

/-- Merges declarations and labels the entities; the first error in the order of names counts. -/
def plan (s : SchemaSettings) (declarations : List Declaration) : Except SchemaError Plan := do
  let merged ← Declaration.merge declarations
  let conventions : Conventions := ⟨s.scopingColumns⟩
  let labelled ← merged.mapM fun d => do
    let label ← Label.ofDeclaration s conventions d
    return Labelled.mk d label
  return ⟨conventions, s, labelled, Propagation.relationships merged⟩

/-- Classifies every entity that is declared. -/
def classify (s : SchemaSettings) (declarations : List Declaration) : Except SchemaError Schema :=
  ofPlan <$> plan s declarations

end Tenancy.Schema

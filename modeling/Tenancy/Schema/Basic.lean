import Tenancy.Wire.Variant

/-!
# Classified schemas

A schema holds every entity once, in the order of their names, with the scope it was found to have
and the reason for it, and the relationships between them.
-/

set_option autoImplicit false

namespace Tenancy

open Wire

/-- Whom the rows of an entity belong to. -/
inductive Scope where
  | tenantScoped
  | global
  deriving DecidableEq, Repr, Inhabited

namespace Scope

/-- The words for a scope. -/
def label : Scope → String
  | tenantScoped => "tenant-scoped"
  | global => "global"

/-- The written form of a scope. -/
def key : Scope → String
  | tenantScoped => "tenant_scoped"
  | global => "global"

/-- How scopes are written. -/
def codec : Codec Scope := .choice [tenantScoped, global] key

end Scope

/-- Why an entity has its scope. -/
inductive Origin where
  /-- It carries a scope mark. -/
  | mark
  /-- The settings list it. -/
  | configuration
  /-- A scoping foreign key leads to a tenant-scoped entity or a root. -/
  | relationship (viaColumn toEntity : String)
  /-- A scoping foreign key leads to it. -/
  | inferredRoot
  /-- It has a column named like a scoping column. -/
  | markerColumn
  /-- Nothing else applied. -/
  | default
  deriving DecidableEq, Repr, Inhabited

namespace Origin

/-- The words for an origin. -/
def label : Origin → String
  | mark => "annotation"
  | configuration => "configuration"
  | relationship viaColumn toEntity => s!"relationship ({viaColumn} -> {toEntity})"
  | inferredRoot => "inferred root"
  | markerColumn => "marker column"
  | default => "default"

/-- How origins are written. -/
def codec : Codec Origin :=
  Codec.tagged "kind" [
    .bare "annotation" .mark (· == .mark),
    .bare "configuration" .configuration (· == .configuration),
    .fields "relationship"
      (.cons (.required "via_column" .text) (.cons (.required "to_entity" .text) .nil))
      (fun (viaColumn, toEntity, _) => .relationship viaColumn toEntity)
      (fun
        | .relationship viaColumn toEntity => some (viaColumn, toEntity, ())
        | _ => none),
    .bare "inferred_root" .inferredRoot (· == .inferredRoot),
    .bare "marker_column" .markerColumn (· == .markerColumn),
    .bare "default" .default (· == .default)]

end Origin

/-- A persisted entity with its scope. -/
structure Entity where
  name : String
  storageKey : String
  scope : Scope
  scopingColumn : Option String
  /-- Tenants are rows of this entity. -/
  tenantRoot : Bool
  columns : NameSet
  origin : Origin
  deriving DecidableEq

namespace Entity

instance : Inhabited Entity := ⟨⟨"", "", .global, none, false, .empty, .default⟩⟩

/-- Whether every row belongs to a tenant. -/
def isTenantScoped (e : Entity) : Bool := e.scope = .tenantScoped

/-- Whether a column may be one of this entity. Without known columns every one may be. -/
def acceptsColumn (e : Entity) (column : String) : Bool :=
  e.columns.isEmpty || decide (column ∈ e.columns)

/-- Whether a text is the name or the storage key of this entity. -/
def isNamed (e : Entity) (text : String) : Bool := e.name = text || e.storageKey = text

/-- The name of an entity, its scope and the reason for it. -/
def toText (e : Entity) : String := s!"{e.name}: {e.scope.label} [{e.origin.label}]"

/-- How entities are written. -/
def codec : Codec Entity :=
  (Codec.record false
    (.cons (.required "name" .text)
    (.cons (.required "storage_key" .text)
    (.cons (.required "tenant_scope" Scope.codec)
    (.cons (.optional "scoping_column" .text)
    (.cons (.required "tenant_root" .flag)
    (.cons (.required "columns" .names)
    (.cons (.required "source" Origin.codec) .nil)))))))).imap
    (fun (name, storageKey, scope, scopingColumn, tenantRoot, columns, origin, _) =>
      ⟨name, storageKey, scope, scopingColumn, tenantRoot, columns, origin⟩)
    (fun e => (e.name, e.storageKey, e.scope, e.scopingColumn, e.tenantRoot, e.columns, e.origin,
      ()))

end Entity

/-- A foreign key between two entities that are known. -/
structure Relationship where
  fromEntity : String
  toEntity : String
  viaColumn : String
  deriving DecidableEq, Repr, Inhabited

namespace Relationship

instance : Ord Relationship :=
  ⟨compareLex (compareOn fromEntity) (compareLex (compareOn toEntity) (compareOn viaColumn))⟩

instance : Std.TransOrd Relationship :=
  inferInstanceAs (Std.TransCmp (compareLex (compareOn fromEntity)
    (compareLex (compareOn toEntity) (compareOn viaColumn))))

/-- A relationship as a value. -/
def toValue (r : Relationship) : Value :=
  .record [("from_entity", .text r.fromEntity), ("to_entity", .text r.toEntity),
    ("via_column", .text r.viaColumn)]

end Relationship

/-- All entities in the order of their names, and the relationships between them. -/
structure Schema where
  entities : List Entity
  relationships : List Relationship
  deriving DecidableEq, Inhabited

namespace Schema

/-- The entity of a name. -/
def get? (s : Schema) (name : String) : Option Entity := s.entities.find? fun e => e.name = name

/-- The entity of a name or, if there is none, of a storage key. -/
def resolve? (s : Schema) (text : String) : Option Entity :=
  match s.get? text with
  | some e => some e
  | none => s.entities.find? fun e => e.storageKey = text

/-- The number of entities. -/
def size (s : Schema) : Nat := s.entities.length

/-- The entities whose rows belong to tenants. -/
def tenantScoped (s : Schema) : List Entity := s.entities.filter Entity.isTenantScoped

/-- A schema as a value. -/
def toValue (s : Schema) : Value :=
  .record [
    ("entities", .record (s.entities.map fun e => (e.name, Entity.codec.write e))),
    ("relationships", .list (s.relationships.map Relationship.toValue))]

end Schema

end Tenancy

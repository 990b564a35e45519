import Tenancy.Wire.Variant

/-!
# Declarations

A declaration tells what the models of an application say about one persisted entity: its columns,
its foreign keys and the scope marks it carries. One entity may be declared in several pieces.
-/

set_option autoImplicit false

namespace Tenancy

open Wire

/-- A foreign key column and the entity it refers to, by name or storage key. -/
structure ForeignKey where
  column : String
  references : String
  referencedColumn : Option String
  deriving DecidableEq, Repr, Inhabited

namespace ForeignKey

instance : Ord ForeignKey :=
  ⟨compareLex (compareOn column) (compareLex (compareOn references) (compareOn referencedColumn))⟩

instance : Std.TransOrd ForeignKey :=
  inferInstanceAs (Std.TransCmp (compareLex (compareOn column)
    (compareLex (compareOn references) (compareOn referencedColumn))))

/-- How foreign keys are written. -/
def codec : Codec ForeignKey :=
  (Codec.record true
    (.cons (.required "column" .text)
    (.cons (.required "references" .text)
    (.cons (.optional "referenced_column" .text) .nil)))).imap
    (fun (column, references, referencedColumn, _) => ⟨column, references, referencedColumn⟩)
    (fun k => (k.column, k.references, k.referencedColumn, ()))

end ForeignKey

/-- A scope that is written at an entity. -/
inductive ScopeMark where
  /-- Rows belong to a tenant, by the given column if one is named. -/
  | tenantScoped (column : Option String)
  | global
  | tenantRoot
  deriving DecidableEq, Repr, Inhabited

namespace ScopeMark

/-- The word for a mark. -/
def label : ScopeMark → String
  | tenantScoped _ => "tenant-scoped"
  | global => "global"
  | tenantRoot => "tenant-root"

/-- How scope marks are written. -/
def codec : Codec ScopeMark :=
  Codec.tagged "scope" [
    .fields "tenant_scoped" (.cons (.optional "column" .text) .nil)
      (fun (column, _) => .tenantScoped column)
      (fun
        | .tenantScoped column => some (column, ())
        | _ => none),
    .bare "global" .global (· == .global),
    .bare "tenant_root" .tenantRoot (· == .tenantRoot)]

end ScopeMark

/-- What is known about an entity from one place. -/
structure Declaration where
  entity : String
  storageKey : String
  columns : List String
  foreignKeys : List ForeignKey
  marks : List ScopeMark
  file : Option String
  line : Option UInt32
  deriving DecidableEq, Repr, Inhabited

namespace Declaration

/-- How declarations are written. -/
def codec : Codec Declaration :=
  (Codec.record true
    (.cons (.required "entity_name" .text)
    (.cons (.required "storage_key" .text)
    (.cons (.many "columns" .text)
    (.cons (.many "foreign_keys" ForeignKey.codec)
    (.cons ((Field.many "annotations" ScopeMark.codec).alsoNamed "explicit_scope_annotation")
    (.cons (.optional "file" .text)
    (.cons (.optional "line" .uint32) .nil)))))))).imap
    (fun (entity, storageKey, columns, foreignKeys, marks, file, line, _) =>
      ⟨entity, storageKey, columns, foreignKeys, marks, file, line⟩)
    (fun d =>
      (d.entity, d.storageKey, d.columns, d.foreignKeys, d.marks, d.file, d.line, ()))

end Declaration

end Tenancy

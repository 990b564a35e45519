import Tenancy.Access.Error
import Tenancy.Access.Operand
import Tenancy.Schema.Basic
import Tenancy.Text.Split

/-!
# Filters

A filter is a condition whose column is known to belong to one target of its operation. A column may
be written with the entity in front, by name or storage key; without one it has to belong to exactly
one target.
-/

set_option autoImplicit false

namespace Tenancy

open Wire

/-- How a filter compares. -/
inductive Comparison where
  | equals
  | other
  deriving DecidableEq, Repr, Inhabited

namespace Comparison

/-- How comparisons are written. -/
def codec : Codec Comparison :=
  .choice [.equals, .other] fun
    | .equals => "equals"
    | .other => "other"

/-- The operators that test for equality. -/
def equalityOperators : List String := ["==", "=", "eq", "is", "__eq__"]

/-- The comparison that an operator makes. -/
def ofText (operator : String) : Comparison :=
  if Text.trim operator ∈ equalityOperators then .equals else .other

end Comparison

/-- A condition whose column belongs to a target. -/
structure Filter where
  entity : String
  column : String
  comparison : Comparison
  source : OperandSource
  conjunction : Conjunction
  branch : Option String
  deriving DecidableEq, Repr, Inhabited

namespace Filter

/-- How filters are written. -/
def codec : Codec Filter :=
  (Codec.record false
    (.cons (.required "entity" .text)
    (.cons (.required "column" .text)
    (.cons (.required "comparison" Comparison.codec)
    (.cons (.required "rhs_source" OperandSource.codec)
    (.cons (.required "conjunction" Conjunction.codec)
    (.cons (.optional "branch" .text) .nil))))))).imap
    (fun (entity, column, comparison, source, conjunction, branch, _) =>
      ⟨entity, column, comparison, source, conjunction, branch⟩)
    (fun f => (f.entity, f.column, f.comparison, f.source, f.conjunction, f.branch, ()))

/-- Whether a filter restricts an entity to the rows of the caller's tenant. -/
def scopes (f : Filter) (e : Entity) : Bool :=
  f.entity = e.name && e.scopingColumn = some f.column && f.comparison = .equals
    && f.source = .tenantContext

/-- Whether a filter applies on a path. -/
def activeOn (f : Filter) (path : Option String) : Bool :=
  match f.branch with
  | none => true
  | some branch => path = some branch

end Filter

/-- A column of an entity. -/
structure ColumnRef where
  entity : String
  column : String
  deriving DecidableEq, Repr, Inhabited

namespace ColumnRef

/-- The part of a qualifier that names the entity. -/
def lastPart (qualifier : String) : String :=
  match Text.splitLast? '.' qualifier with
  | some (_, last) => last
  | none => qualifier

/-- A column of an entity, if the entity accepts it. -/
def ofEntity (e : Entity) (column : String) (operation : Nat) : Except ExtractionError ColumnRef :=
  if e.acceptsColumn column then .ok ⟨e.name, column⟩
  else .error (.unknownColumn e.name column operation)

/-- Finds the target that a qualified column belongs to. -/
def ofQualified (targets : List Entity) (qualifier column : String) (operation : Nat) :
    Except ExtractionError ColumnRef :=
  match targets.find? fun e => e.isNamed qualifier with
  | none => .error (.foreignQualifier qualifier column operation)
  | some e => if column = "" then .error (.emptyColumn operation) else ofEntity e column operation

/-- Finds the target that a bare column belongs to. -/
def ofBare (targets : List Entity) (column : String) (operation : Nat) :
    Except ExtractionError ColumnRef :=
  match targets with
  | [only] => ofEntity only column operation
  | _ =>
    match targets.filter fun e => decide (column ∈ e.columns) with
    | [e] => .ok ⟨e.name, column⟩
    | _ => .error (.ambiguousColumn column (", ".intercalate (targets.map Entity.name)) operation)

/-- Finds the target that a column belongs to. -/
def resolve (targets : List Entity) (text : String) (operation : Nat) :
    Except ExtractionError ColumnRef :=
  let column := Text.trim text
  if column = "" then .error (.emptyColumn operation)
  else match Text.splitLast? '.' column with
    | some (qualifier, name) => ofQualified targets (lastPart qualifier) name operation
    | none => ofBare targets column operation

end ColumnRef

/-- The filter of a condition. -/
def Filter.ofCondition (names : NameScope) (targets : List Entity) (operation : Nat)
    (c : Condition) : Except ExtractionError Filter := do
  let ref ← ColumnRef.resolve targets c.column operation
  return ⟨ref.entity, ref.column, .ofText c.comparison, names.sourceOf c.operand, c.joinedBy,
    c.branch⟩

end Tenancy

import Tenancy.Facts.Document

/-!
# Facts written in code

Declarations, handlers and operations that are built up step by step, each step adding to what the
fact holds already.
-/

set_option autoImplicit false

namespace Tenancy

open Wire

namespace Declaration

/-- An entity of which only the names are known. -/
def named (entity storageKey : String) : Declaration := ⟨entity, storageKey, [], [], [], none, none⟩

/-- Adds columns. -/
def addColumns (d : Declaration) (columns : List String) : Declaration :=
  { d with columns := d.columns ++ columns }

/-- Adds a foreign key to the column `id` of another entity. -/
def addForeignKey (d : Declaration) (column references : String) : Declaration :=
  { d with foreignKeys := d.foreignKeys ++ [⟨column, references, some "id"⟩] }

/-- Adds a scope mark. -/
def addMark (d : Declaration) (mark : ScopeMark) : Declaration :=
  { d with marks := d.marks ++ [mark] }

/-- Says where the entity is declared. -/
def declaredAt (d : Declaration) (file : String) (line : UInt32) : Declaration :=
  { d with file := some file, line := some line }

end Declaration

namespace Handler

/-- A handler that does nothing. -/
def named (file : String) (line : UInt32) (name : String) : Handler :=
  ⟨⟨file, some line, name, none⟩, [], [], []⟩

/-- Says which route leads to the handler. -/
def onRoute (h : Handler) (route : String) : Handler :=
  { h with location := { h.location with route := some route } }

/-- Adds a dependency of which no hint is known. -/
def addDependency (h : Handler) (name provider : String) : Handler :=
  { h with dependencies := h.dependencies ++ [⟨name, provider, none⟩] }

/-- Adds a local name. -/
def addBinding (h : Handler) (name expr : String) : Handler :=
  { h with bindings := h.bindings ++ [⟨name, expr⟩] }

/-- Adds an operation. -/
def addOperation (h : Handler) (operation : Operation) : Handler :=
  { h with operations := h.operations ++ [operation] }

end Handler

namespace Operation

/-- An operation without conditions on a straight line. -/
def on (kind : OperationKind) (targets : List String) : Operation :=
  ⟨kind, none, targets, [], .straight⟩

/-- Adds a condition. -/
def addCondition (o : Operation) (condition : Condition) : Operation :=
  { o with conditions := o.conditions ++ [condition] }

/-- Adds the condition that a column equals an expression. -/
def filter (o : Operation) (column expr : String) : Operation :=
  o.addCondition ⟨column, "==", .reference expr, .and, none⟩

/-- Adds the condition that a column equals a fixed value. -/
def filterLiteral (o : Operation) (column : String) (value : Value) : Operation :=
  o.addCondition ⟨column, "==", .literal value, .and, none⟩

/-- Adds the condition that a column equals an expression, on one branch only. -/
def filterOnBranch (o : Operation) (column expr branch : String) : Operation :=
  o.addCondition ⟨column, "==", .reference expr, .and, some branch⟩

/-- Says on which line the operation stands. -/
def onLine (o : Operation) (line : UInt32) : Operation := { o with line := some line }

/-- Sets the paths around the operation. -/
def withPaths (o : Operation) (paths : List FlowPath) : Operation :=
  { o with flow := { o.flow with paths } }

/-- Sets the branches on which the operation is built and executed. -/
def withBranches (o : Operation) (branches : List String) : Operation :=
  o.withPaths (branches.map fun branch => ⟨some branch, true, true⟩)

/-- Sets how deep the operation is nested. -/
def withNesting (o : Operation) (depth : UInt32) : Operation :=
  { o with flow := { o.flow with nestingDepth := depth } }

end Operation

end Tenancy

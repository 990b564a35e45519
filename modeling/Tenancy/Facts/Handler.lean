import Tenancy.Facts.Location
import Tenancy.Wire.Variant

/-!
# Handlers

A handler is a route of the application with the dependencies that are injected into it, the local
names it binds and the data operations it carries out. An operation has conditions that restrict it
and a summary of the control flow around it.
-/

set_option autoImplicit false

namespace Tenancy

open Wire

/-- What a dependency gives to its handler. -/
inductive ProviderKind where
  | tenantContext
  | admin
  | other
  deriving DecidableEq, Repr, Inhabited

namespace ProviderKind

/-- All kinds, in the order in which they are listed. -/
def all : List ProviderKind := [tenantContext, admin, other]

/-- The written form of a kind. -/
def key : ProviderKind → String
  | tenantContext => "tenant_context_provider"
  | admin => "admin_provider"
  | other => "other"

/-- The word for a kind. -/
def label : ProviderKind → String
  | tenantContext => "tenant context"
  | admin => "admin"
  | other => "other"

/-- How provider kinds are written. -/
def codec : Codec ProviderKind := .choice all key

end ProviderKind

/-- An injected dependency. The provider is empty when only a hint on its kind is known. -/
structure Dependency where
  name : String
  provider : String
  hint : Option ProviderKind
  deriving DecidableEq, Repr, Inhabited

/-- How dependencies are written. -/
def Dependency.codec : Codec Dependency :=
  (Codec.record true
    (.cons (.required "name" .text)
    (.cons (.fallingBack "provider" .text "")
    (.cons (.optional "provider_kind_hint" ProviderKind.codec) .nil)))).imap
    (fun (name, provider, hint, _) => ⟨name, provider, hint⟩)
    (fun d => (d.name, d.provider, d.hint, ()))

/-- A local name and the expression it stands for. -/
structure Binding where
  name : String
  expr : String
  deriving DecidableEq, Repr, Inhabited

/-- How bindings are written. -/
def Binding.codec : Codec Binding :=
  (Codec.record true
    (.cons (.required "name" .text)
    (.cons (.required "expr" .text) .nil))).imap
    (fun (name, expr, _) => ⟨name, expr⟩)
    (fun b => (b.name, b.expr, ()))

/-- What an operation does to the stored data. -/
inductive OperationKind where
  | read
  | update
  | delete
  | create
  deriving DecidableEq, Repr, Inhabited

namespace OperationKind

/-- All kinds, in the order in which they are listed. -/
def all : List OperationKind := [read, update, delete, create]

/-- The word for a kind, which is also its written form. -/
def label : OperationKind → String
  | read => "read"
  | update => "update"
  | delete => "delete"
  | create => "create"

/-- Whether an operation changes stored data. -/
def isMutation : OperationKind → Bool
  | read => false
  | _ => true

/-- How operation kinds are written. -/
def codec : Codec OperationKind := .choice all label

end OperationKind

/-- The right-hand side of a condition. -/
inductive Operand where
  | reference (expr : String)
  | literal (value : Value)
  | unknown
  deriving Repr, Inhabited

namespace Operand

/-- Whether nothing is known about an operand. -/
def isUnknown : Operand → Bool
  | unknown => true
  | _ => false

/-- How operands are written. -/
def codec : Codec Operand :=
  Codec.tagged "source" [
    .fields "reference" (.cons (.required "expr" .text) .nil)
      (fun (expr, _) => .reference expr)
      (fun
        | .reference expr => some (expr, ())
        | _ => none),
    .fields "literal" (.cons (.required "value" .literal) .nil)
      (fun (value, _) => .literal value)
      (fun
        | .literal value => some (value, ())
        | _ => none),
    .bare "unknown" .unknown isUnknown]

end Operand

/-- How a condition is joined to those before it. -/
inductive Conjunction where
  | and
  | or
  deriving DecidableEq, Repr, Inhabited

namespace Conjunction

/-- All conjunctions, in the order in which they are listed. -/
def all : List Conjunction := [and, or]

/-- The written form of a conjunction. -/
def key : Conjunction → String
  | and => "and"
  | or => "or"

/-- How conjunctions are written. -/
def codec : Codec Conjunction := .choice all key

end Conjunction

/-- A filter of an operation or, when a row is created, a value given to a column. -/
structure Condition where
  /-- A column, with or without the entity in front. -/
  column : String
  comparison : String
  operand : Operand
  joinedBy : Conjunction
  /-- The branch on which the condition applies, if it does not apply on all. -/
  branch : Option String
  deriving Repr, Inhabited

/-- How conditions are written. -/
def Condition.codec : Codec Condition :=
  (Codec.record true
    (.cons (.required "column" .text)
    (.cons (.fallingBack "comparison" .text "==")
    (.cons (.required "rhs" Operand.codec)
    (.cons (.fallingBack "joined_by" Conjunction.codec .and)
    (.cons (.optional "branch" .text) .nil)))))).imap
    (fun (column, comparison, operand, joinedBy, branch, _) =>
      ⟨column, comparison, operand, joinedBy, branch⟩)
    (fun c => (c.column, c.comparison, c.operand, c.joinedBy, c.branch, ()))

/-- One way through a handler, and whether the query is built and executed on it. -/
structure FlowPath where
  branch : Option String
  builds : Bool
  executes : Bool
  deriving DecidableEq, Repr, Inhabited

/-- How ways through a handler are written. -/
def FlowPath.codec : Codec FlowPath :=
  (Codec.record true
    (.cons (.optional "branch" .text)
    (.cons (.fallingBack "builds" .flag true)
    (.cons (.required "executes" .flag) .nil)))).imap
    (fun (branch, builds, executes, _) => ⟨branch, builds, executes⟩)
    (fun p => (p.branch, p.builds, p.executes, ()))

/-- The control flow around an operation. Without paths it is one straight line. -/
structure Flow where
  paths : List FlowPath
  nestingDepth : UInt32
  deriving DecidableEq, Repr, Inhabited

namespace Flow

/-- A straight line. -/
def straight : Flow := ⟨[], 0⟩

/-- How control flow is written. -/
def codec : Codec Flow :=
  (Codec.record true
    (.cons (.many "paths" FlowPath.codec)
    (.cons (.fallingBack "nesting_depth" .uint32 0) .nil))).imap
    (fun (paths, nestingDepth, _) => ⟨paths, nestingDepth⟩)
    (fun f => (f.paths, f.nestingDepth, ()))

end Flow

/-- One access to stored data inside a handler. -/
structure Operation where
  kind : OperationKind
  line : Option UInt32
  targets : List String
  conditions : List Condition
  flow : Flow
  deriving Repr, Inhabited

/-- How operations are written. -/
def Operation.codec : Codec Operation :=
  (Codec.record true
    (.cons (.required "kind" OperationKind.codec)
    (.cons (.optional "line" .uint32)
    (.cons (.required "target_entities" Codec.text.list)
    (.cons (.many "predicates" Condition.codec)
    (.cons
      ((Field.fallingBack "control_flow" Flow.codec .straight).alsoNamed "control_flow_summary")
      .nil)))))).imap
    (fun (kind, line, targets, conditions, flow, _) => ⟨kind, line, targets, conditions, flow⟩)
    (fun o => (o.kind, o.line, o.targets, o.conditions, o.flow, ()))

/-- A route handler and what it does. -/
structure Handler where
  location : Location
  dependencies : List Dependency
  bindings : List Binding
  operations : List Operation
  deriving Repr, Inhabited

/-- How handlers are written. -/
def Handler.codec : Codec Handler :=
  (Codec.record true
    (.cons ((Field.required "location" Location.codec).alsoNamed "handler_location")
    (.cons (.many "declared_dependencies" Dependency.codec)
    (.cons (.many "bindings" Binding.codec)
    (.cons (.many "operations" Operation.codec) .nil))))).imap
    (fun (location, dependencies, bindings, operations, _) =>
      ⟨location, dependencies, bindings, operations⟩)
    (fun h => (h.location, h.dependencies, h.bindings, h.operations, ()))

end Tenancy

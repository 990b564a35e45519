import Tenancy.Facts.Handler

/-!
# Verdicts

What is said about an access to stored data: it is safe, exempt, a violation of one of four rules,
or it could not be judged. A violation has a severity that depends on its rule and on what the
operation does.
-/

set_option autoImplicit false

namespace Tenancy

open Wire

/-- The outcome for one access. -/
inductive Classification where
  | safe
  | exempt
  | violation
  | unknown
  deriving DecidableEq, Repr, Inhabited

namespace Classification

/-- All outcomes, in the order in which they are counted. -/
def all : List Classification := [safe, exempt, violation, unknown]

/-- The word for an outcome, which is also its written form. -/
def label : Classification → String
  | safe => "safe"
  | exempt => "exempt"
  | violation => "violation"
  | unknown => "unknown"

/-- The place of an outcome in a report: what needs attention comes first. -/
def rank : Classification → Nat
  | violation => 0
  | unknown => 1
  | exempt => 2
  | safe => 3

/-- How outcomes are written. -/
def codec : Codec Classification := .choice all label

end Classification

/-- How much a violation matters. -/
inductive Severity where
  | low
  | medium
  | high
  | critical
  deriving DecidableEq, Repr, Inhabited

namespace Severity

/-- All severities, the least first. -/
def all : List Severity := [low, medium, high, critical]

/-- The word for a severity, which is also its written form. -/
def label : Severity → String
  | low => "low"
  | medium => "medium"
  | high => "high"
  | critical => "critical"

/-- Severities as numbers, the least first. -/
def rank : Severity → Nat
  | low => 0
  | medium => 1
  | high => 2
  | critical => 3

/-- How severities are written. -/
def codec : Codec Severity := .choice all label

end Severity

/-- The rules that an access can break. -/
inductive ViolationKind where
  | missingDependency
  | unusedDependency
  | missingFilterOnMutation
  | partialFilterCoverage
  deriving DecidableEq, Repr, Inhabited

namespace ViolationKind

/-- All rules, in the order in which they are counted. -/
def all : List ViolationKind :=
  [missingDependency, unusedDependency, missingFilterOnMutation, partialFilterCoverage]

/-- The written form of a rule. -/
def key : ViolationKind → String
  | missingDependency => "missing_dependency"
  | unusedDependency => "unused_dependency"
  | missingFilterOnMutation => "missing_filter_on_mutation"
  | partialFilterCoverage => "partial_filter_coverage"

/-- The name under which a rule can be suppressed. -/
def ruleId : ViolationKind → String
  | missingDependency => "tenant/missing-dependency"
  | unusedDependency => "tenant/unused-dependency"
  | missingFilterOnMutation => "tenant/missing-filter-on-mutation"
  | partialFilterCoverage => "tenant/partial-filter-coverage"

/-- The words for a rule. -/
def label : ViolationKind → String
  | missingDependency => "missing dependency"
  | unusedDependency => "unused dependency"
  | missingFilterOnMutation => "missing filter on mutation"
  | partialFilterCoverage => "partial filter coverage"

/-- How much breaking a rule matters: most when stored data is changed or removed, less when the
tenant context is there and merely unused. -/
def severity (kind : ViolationKind) (operation : OperationKind) : Severity :=
  match operation, kind with
  | .update, _ => .critical
  | .delete, _ => .critical
  | _, unusedDependency => .medium
  | _, _ => .high

/-- How rules are written. -/
def codec : Codec ViolationKind := .choice all key

end ViolationKind

/-- What is said about one access. -/
structure Verdict where
  accessPoint : String
  classification : Classification
  kind : Option ViolationKind
  severity : Option Severity
  rationale : String
  suggestedFix : Option String
  deriving DecidableEq, Repr, Inhabited

/-- How verdicts are written. -/
def Verdict.codec : Codec Verdict :=
  (Codec.record false
    (.cons (.required "access_point_id" .text)
    (.cons (.required "classification" Classification.codec)
    (.cons (.sparse "violation_kind" ViolationKind.codec)
    (.cons (.sparse "severity" Severity.codec)
    (.cons (.required "rationale" .text)
    (.cons (.sparse "suggested_fix" .text) .nil))))))).imap
    (fun (accessPoint, classification, kind, severity, rationale, suggestedFix, _) =>
      ⟨accessPoint, classification, kind, severity, rationale, suggestedFix⟩)
    (fun v =>
      (v.accessPoint, v.classification, v.kind, v.severity, v.rationale, v.suggestedFix, ()))

end Tenancy

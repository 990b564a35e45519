import Tenancy.Report.Finding

/-!
# Reports

A report lists findings and counts them. What is counted is kept apart from what is listed, because
safe accesses are counted even when they are not listed.
-/

set_option autoImplicit false

namespace Tenancy

open Wire

/-- The number of findings of each sort; a sort that does not occur has no number. -/
structure Summary where
  total : Nat
  byClassification : Classification → Option Nat
  byViolationKind : ViolationKind → Option Nat
  bySeverity : Severity → Option Nat
  suppressed : Nat
  analyzerErrors : Nat

/-- A number of 64 bits. -/
def counter : Codec Nat := .natBelow UInt64.size

namespace Summary

instance : Inhabited Summary := ⟨⟨0, fun _ => none, fun _ => none, fun _ => none, 0, 0⟩⟩

/-- How often an outcome occurs. -/
def count (s : Summary) (c : Classification) : Nat := (s.byClassification c).getD 0

/-- How many accesses break a rule. -/
def violations (s : Summary) : Nat := s.count .violation

/-- How many elements satisfy a test, or nothing if none does. -/
def tally {α : Type} (l : List α) (test : α → Bool) : Option Nat :=
  if l.countP test = 0 then none else some (l.countP test)

/-- The summary of findings. -/
def ofFindings (fs : List Finding) : Summary where
  total := fs.countP fun f => f.classification ≠ .unknown
  byClassification c := tally fs fun f => f.classification = c
  byViolationKind k := tally fs fun f => f.kind = some k
  bySeverity s := tally fs fun f => f.severity = some s
  suppressed := fs.countP Finding.suppressed
  analyzerErrors := fs.countP fun f => f.classification = .unknown

/-- How summaries are written. -/
def codec : Codec Summary :=
  (Codec.record false
    (.cons (.required "total" counter)
    (.cons (.required "by_classification"
      (.tableOf Classification.all Classification.label counter))
    (.cons (.required "by_violation_kind" (.tableOf ViolationKind.all ViolationKind.key counter))
    (.cons (.required "by_severity" (.tableOf Severity.all Severity.label counter))
    (.cons (.required "suppressed" counter)
    (.cons (.required "analyzer_errors" counter) .nil))))))).imap
    (fun (total, byClassification, byViolationKind, bySeverity, suppressed, analyzerErrors, _) =>
      ⟨total, byClassification, byViolationKind, bySeverity, suppressed, analyzerErrors⟩)
    (fun s => (s.total, s.byClassification, s.byViolationKind, s.bySeverity, s.suppressed,
      s.analyzerErrors, ()))

end Summary

/-- How a run ends. -/
inductive ExitStatus where
  /-- Nothing is wrong and nothing was left out. -/
  | clean
  /-- There are violations that nobody has accepted. -/
  | violations
  /-- The run could not be completed. -/
  | fatal
  /-- Nothing is wrong, but something could not be analyzed. -/
  | incomplete
  deriving DecidableEq, Repr, Inhabited

namespace ExitStatus

/-- The exit code of the process. -/
def code : ExitStatus → Nat
  | clean => 0
  | violations => 1
  | fatal => 2
  | incomplete => 3

/-- The word for a status. -/
def label : ExitStatus → String
  | clean => "clean"
  | violations => "violations"
  | fatal => "fatal"
  | incomplete => "incomplete"

end ExitStatus

/-- The result of a run. -/
structure Report where
  tool : String
  version : String
  findings : List Finding
  summary : Summary
  warnings : List String
  deriving Inhabited

namespace Report

/-- The name of the tool in its reports. -/
def toolName : String := "tenantguard"

/-- The version of the tool in its reports. -/
def toolVersion : String := "0.1.0"

/-- The violations that nobody has accepted. -/
def blocking (r : Report) : List Finding := r.findings.filter Finding.isBlocking

/-- The first finding of a handler. -/
def findingFor? (r : Report) (handler : String) : Option Finding :=
  r.findings.find? fun f => f.location.handler = handler

/-- How a run with this report ends. -/
def exitStatus (r : Report) : ExitStatus :=
  if r.findings.any Finding.isBlocking then .violations
  else if 0 < r.summary.analyzerErrors then .incomplete
  else .clean

/-- How reports are written. -/
def codec : Codec Report :=
  (Codec.record false
    (.cons (.required "tool" .text)
    (.cons (.required "version" .text)
    (.cons (.required "findings" Finding.codec.list)
    (.cons (.required "summary" Summary.codec)
    (.cons { Field.many "warnings" Codec.text with omits := List.isEmpty } .nil)))))).imap
    (fun (tool, version, findings, summary, warnings, _) =>
      ⟨tool, version, findings, summary, warnings⟩)
    (fun r => (r.tool, r.version, r.findings, r.summary, r.warnings, ()))

/-- The JSON text of a report. -/
def toJson (r : Report) : String := (codec.write r).pretty

end Report

end Tenancy

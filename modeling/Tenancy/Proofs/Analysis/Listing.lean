import Tenancy.Proofs.Report.Counts
import Tenancy.Analysis

/-!
# Leaving safe findings out

A report lists safe findings only if the settings ask for it. The setting is read when everything
else has been done (`run_withSafe`), and what it takes off the list matters to nothing else in the
report: safe findings are counted before, no entry applies to them, and none of them blocks
(`hidesSafe_assemble`). So a run under one setting shows what the run under the other would be:
`run_hides_safe`.
-/

set_option autoImplicit false

namespace Tenancy

namespace Report

/-- A report is another one with the safe findings taken off the list and nothing else changed. -/
structure HidesSafe (whole hidden : Report) : Prop where
  findings : hidden.findings = whole.findings.filter fun f => f.classification ≠ .safe
  summary : hidden.summary = whole.summary
  warnings : hidden.warnings = whole.warnings
  exitStatus : hidden.exitStatus = whole.exitStatus

/-- Leaving safe findings out changes the list only. -/
theorem hidesSafe_assemble (entries : List SuppressionEntry) (fs : List Finding) :
    HidesSafe (assemble true entries fs) (assemble false entries fs) where
  findings := findings_assemble_false
  summary := rfl
  warnings := rfl
  exitStatus := by
    -- What blocks is listed in both, and errors are counted whether or not they are listed.
    have hblocking : (assemble false entries fs).blocking.length =
        (assemble true entries fs).blocking.length := by
      rw [length_blocking_assemble, length_blocking_assemble]
    rw [exitStatus_eq, exitStatus_eq, hblocking]
    rfl

end Report

namespace Analysis

/-- The same settings, with safe findings listed or not. -/
def withSafe (s : Settings) (includeSafe : Bool) : Settings :=
  { s with analysis := { s.analysis with includeSafe } }

/-- What a run has found when it comes to the report. -/
def found (s : Settings) (units : List SourceUnit) (failures : List LoadFailure) :
    Except AnalysisError (List Finding) :=
  match s.analysis.strict, failures with
  | true, failure :: _ => .error (.load failure)
  | _, _ =>
    match classify s units with
    | .error e => .error (.schema e)
    | .ok schema => (findings s schema units).map (failures.map Finding.ofLoadFailure ++ ·)

variable (s : Settings) (units : List SourceUnit) (failures : List LoadFailure)

/-- A run assembles a report from what it has found. -/
theorem run_eq_map_found : run s units failures =
    (found s units failures).map (.assemble s.analysis.includeSafe s.suppressions) := by
  fun_cases found s units failures with
  | case1 failure rest hstrict =>
    unfold run
    rw [hstrict]
    rfl
  | case2 _ e hclassify _ =>
    simp only [run, hclassify]
    rfl
  | case3 _ schema hclassify _ =>
    simp only [run, hclassify]
    cases findings s schema units with
    | error e => rfl
    | ok fs => rfl

/-- Whether safe findings are listed is asked for the report only: up to then the runs are the
same. -/
theorem run_withSafe (includeSafe : Bool) : run (withSafe s includeSafe) units failures =
    (found s units failures).map (.assemble includeSafe s.suppressions) :=
  run_eq_map_found (withSafe s includeSafe) units failures

/-- **Hiding safe findings is only a filter.** Under settings that differ in nothing but whether
safe findings are listed, two runs end in the same error, or one gives the report of the other with
the safe findings taken off the list. -/
theorem run_hides_safe :
    (∃ e, run (withSafe s true) units failures = .error e ∧
      run (withSafe s false) units failures = .error e) ∨
    ∃ whole hidden, run (withSafe s true) units failures = .ok whole ∧
      run (withSafe s false) units failures = .ok hidden ∧ whole.HidesSafe hidden := by
  rw [run_withSafe, run_withSafe]
  cases found s units failures with
  | error e => exact .inl ⟨e, rfl, rfl⟩
  | ok fs => exact .inr ⟨_, _, rfl, rfl, Report.hidesSafe_assemble s.suppressions fs⟩

end Analysis

end Tenancy

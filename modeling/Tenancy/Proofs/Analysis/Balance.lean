import Tenancy.Proofs.Analysis.Strictness

/-!
# Reports of runs are balanced

`run_balanced`: whatever is analyzed, strictly or not, the numbers of the report add up, and they
agree with the findings that are listed and with the exit status (`Report.Balanced`).

The findings of a run are consistent (`isConsistent_of_mem_arrivals`), because a verdict names a
rule and a severity exactly if the access breaks a rule (`isConsistent_ofVerdict`).
-/

set_option autoImplicit false

namespace Tenancy.Analysis

variable {s : Settings} {x : Extractor} {schema : Schema} {units : List SourceUnit}
  {failures : List LoadFailure} {report : Report}

/-- A verdict names a rule and a severity exactly if the access breaks a rule. -/
theorem isConsistent_ofVerdict {p : AccessPoint} {v : Verdict}
    (hv : p.evaluate schema = .ok (some v)) : (Finding.ofVerdict p v).IsConsistent := by
  rcases AccessPoint.evaluate_cases hv with
    ⟨-, rfl⟩ | ⟨-, ⟨text, rfl⟩ | ⟨kind, text, fix, rfl⟩⟩
  · exact ⟨rfl, rfl, fun hmarked => by cases hmarked⟩
  · exact ⟨rfl, rfl, fun hmarked => by cases hmarked⟩
  · exact ⟨rfl, rfl, fun hmarked => by cases hmarked⟩

/-- What could not be analyzed breaks no rule. -/
theorem isConsistent_unknown (location : Location) (text code : String) :
    (Finding.unknown location text code).IsConsistent :=
  ⟨rfl, rfl, fun hmarked => by cases hmarked⟩

/-- Whatever a report is assembled from is consistent. -/
theorem isConsistent_of_mem_arrivals {f : Finding} (hf : f ∈ arrivals x units failures) :
    f.IsConsistent := by
  rcases List.mem_append.mp hf with hf | hf
  · obtain ⟨failure, -, rfl⟩ := List.mem_map.mp hf
    exact isConsistent_unknown _ _ _
  · obtain ⟨h, -, hf⟩ := List.mem_flatMap.mp hf
    cases findingOf_of_mem hf with
    | unreadable => exact isConsistent_unknown _ _ _
    | verdict _ _ _ _ hv => exact isConsistent_ofVerdict hv

/-- **Reports are balanced.** In every report of a run, the numbers add up and agree with the
findings that are listed and with the exit status. -/
theorem run_balanced (hrun : run s units failures = .ok report) :
    report.Balanced s.analysis.includeSafe := by
  obtain ⟨schema, -, rfl⟩ :=
    (run_eq_ok_iff_assemble (s := withStrict s false) rfl).mp (run_lenient_of_run hrun)
  exact Report.balanced_assemble _ _ fun f => isConsistent_of_mem_arrivals

/-- The sample application with a violation suppressed, a document that could not be loaded, and
safe accesses not listed. -/
theorem run_balanced_suppressed :
    ∃ (s : Settings) (failure : LoadFailure) (report : Report),
      s.analysis.includeSafe = false ∧ s.suppressions ≠ [] ∧
      run s Sample.units [failure] = .ok report ∧ report.Balanced false := by
  let s := { Sample.settings with
    suppressions := [⟨"routes.py::list_users_bad", "*", some "behind the firewall"⟩] }
  let failure : LoadFailure := ⟨"facts/broken.json", .fileParse, "unexpected end"⟩
  have hclassify : classify s Sample.units =
      .ok ((classify s Sample.units).toOption.getD default) := by
    decide +kernel
  obtain ⟨report, hrun⟩ := exists_run_eq_ok (s := s) rfl hclassify [failure]
  exact ⟨s, failure, report, rfl, List.cons_ne_nil _ _, hrun, run_balanced hrun⟩

end Tenancy.Analysis

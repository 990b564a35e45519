import Tenancy.Proofs.Analysis.Layout
import Tenancy.Proofs.Analysis.Totality
import Tenancy.Proofs.Report.Counts
import Tenancy.Proofs.Verdict.Exemption

/-!
# Strict settings

Strict settings end a run at the first document or handler that makes no sense, where others list it
as unknown and go on. Strictness is asked for in two places: before the schema is classified, and
again for each handler. `run_strict_eq_ok_iff` puts both together: a strict run gives a report
exactly if the run that is not strict gives the same one and counts no error in it.

* `findings_strict_eq_ok_iff`: what a strict run finds, and that it can read every handler then.
* `analyzerErrors_arrivals_eq_zero_iff`: no error is counted exactly if every document could be
  loaded and every handler can be read. Errors are neither lost nor mistaken for verdicts.
-/

set_option autoImplicit false

namespace Tenancy.Analysis

open Tenancy.Support

/-- The same settings, made strict or not. -/
def withStrict (s : Settings) (strict : Bool) : Settings :=
  { s with analysis := { s.analysis with strict } }

/-- A handler can be read: its operations make up access points. -/
def Readable (x : Extractor) (h : Handler) : Prop := ∃ points, x.extract h = .ok points

variable {s : Settings} {x : Extractor} {schema : Schema} {units : List SourceUnit}
  {failures : List LoadFailure} {report : Report}

/-! ### Handlers -/

/-- Judging strictly gives findings for handlers that can be read, and the same findings. -/
theorem judgeHandler_strict_eq_ok_iff {h : Handler} {fs : List Finding} :
    judgeHandler true x h = .ok fs ↔ judgeHandler false x h = .ok fs ∧ Readable x h := by
  unfold judgeHandler Readable
  cases x.extract h with
  | error e => simp
  | ok points => simp

/-- A strict run goes past the handlers exactly if all of them can be read, and finds what it would
find otherwise. -/
theorem findings_strict_eq_ok_iff (hclassify : classify s units = .ok schema) {fs : List Finding} :
    findings (withStrict s true) schema units = .ok fs ↔
      (∀ h ∈ handlers (.ofSettings schema s) units, Readable (.ofSettings schema s) h) ∧
        fs = (handlers (.ofSettings schema s) units).flatMap
          (findingsOf (.ofSettings schema s)) := by
  constructor
  · intro hok
    obtain ⟨found, hfound, hflat⟩ := bind_eq_ok_iff.mp hok
    have hjudged := mapM_eq_ok_iff.mp hfound
    refine ⟨?_, ?_⟩
    · intro h hh
      obtain ⟨_, -, hstrict⟩ := exists_of_forall₂_left hjudged hh
      exact (judgeHandler_strict_eq_ok_iff.mp hstrict).2
    · -- The run that is not strict finds the same, and that is known.
      have hlenient : findings (withStrict s false) schema units = .ok fs :=
        bind_eq_ok_iff.mpr ⟨found, mapM_eq_ok_iff.mpr (hjudged.imp fun h fs hstrict =>
          (judgeHandler_strict_eq_ok_iff.mp hstrict).1), hflat⟩
      rw [findings_eq_ok (s := withStrict s false) rfl hclassify] at hlenient
      exact (Except.ok.inj hlenient).symm
  · rintro ⟨hreadable, rfl⟩
    refine bind_eq_ok_iff.mpr ⟨_, mapM_eq_ok_iff.mpr (List.forall₂_map_right_iff.mpr ?_), rfl⟩
    refine List.forall₂_same.mpr ?_
    intro h hh
    exact judgeHandler_strict_eq_ok_iff.mpr
      ⟨judgeHandler_eq_ok (x := .ofSettings schema s) hclassify h, hreadable h hh⟩

/-! ### Errors -/

/-- A verdict is never that nothing is known. -/
theorem classification_ne_unknown {p : AccessPoint} {v : Verdict}
    (hv : p.evaluate schema = .ok (some v)) : v.classification ≠ .unknown := by
  rcases AccessPoint.evaluate_cases hv with
    ⟨-, rfl⟩ | ⟨-, ⟨text, rfl⟩ | ⟨kind, text, fix, rfl⟩⟩
  · exact Classification.noConfusion
  · exact Classification.noConfusion
  · exact Classification.noConfusion

/-- Nothing is known about a handler exactly if it cannot be read. -/
theorem FindingOf.unknown_iff {h : Handler} {f : Finding} (hf : FindingOf x h f) :
    f.classification = .unknown ↔ ¬ Readable x h := by
  cases hf with
  | unreadable herror =>
    refine iff_of_true rfl ?_
    rintro ⟨points, hpoints⟩
    rw [herror] at hpoints
    cases hpoints
  | verdict hpoints ho hrun hp hv =>
    exact iff_of_false (classification_ne_unknown hv) (not_not.mpr ⟨_, hpoints⟩)

/-- A handler that cannot be read has a finding. -/
theorem findingsOf_ne_nil {h : Handler} (hh : ¬ Readable x h) : findingsOf x h ≠ [] := by
  cases hextract : x.extract h with
  | ok points => exact absurd ⟨points, hextract⟩ hh
  | error e =>
    unfold findingsOf judgeHandler
    rw [hextract]
    exact List.cons_ne_nil _ _

/-- No error is counted exactly if every document could be loaded and every handler can be read. -/
theorem analyzerErrors_arrivals_eq_zero_iff (includeSafe : Bool)
    (entries : List SuppressionEntry) :
    (Report.assemble includeSafe entries (arrivals x units failures)).summary.analyzerErrors = 0 ↔
      failures = [] ∧ ∀ h ∈ handlers x units, Readable x h := by
  have harrivals : ∀ f ∈ arrivals x units failures, f.classification = .unknown →
      f.accessPoint = none := by
    intro f hf hunknown
    rcases List.mem_append.mp hf with hf | hf
    · exact accessPoint_of_mem_failures hf
    · obtain ⟨h, -, hf⟩ := List.mem_flatMap.mp hf
      cases findingOf_of_mem hf with
      | unreadable => rfl
      | verdict _ _ _ _ hv => exact absurd hunknown (classification_ne_unknown hv)
  rw [Report.analyzerErrors_assemble_eq_zero_iff includeSafe entries harrivals]
  unfold arrivals
  rw [List.forall_mem_append, List.forall_mem_map]
  refine and_congr ?_ ?_
  · rw [List.eq_nil_iff_forall_not_mem]
    refine forall_congr' fun failure => imp_congr_right fun _ => ?_
    exact iff_of_false (not_not.mpr rfl) id
  · constructor
    · intro hnone h hh
      by_contra hunread
      obtain ⟨f, hf⟩ := List.exists_mem_of_ne_nil _ (findingsOf_ne_nil hunread)
      exact hnone f (List.mem_flatMap.mpr ⟨h, hh, hf⟩)
        ((findingOf_of_mem hf).unknown_iff.mpr hunread)
    · intro hall f hf hunknown
      obtain ⟨h, hh, hf⟩ := List.mem_flatMap.mp hf
      exact (findingOf_of_mem hf).unknown_iff.mp hunknown (hall h hh)

/-! ### Runs -/

/-- A strict run gives a report exactly if every document could be loaded and every handler can be
read, and the report is assembled from what arrives. -/
theorem run_strict_eq_ok_iff_assemble :
    run (withStrict s true) units failures = .ok report ↔
      ∃ schema, classify s units = .ok schema ∧
        (failures = [] ∧
          ∀ h ∈ handlers (.ofSettings schema s) units, Readable (.ofSettings schema s) h) ∧
        report = .assemble s.analysis.includeSafe s.suppressions
          (arrivals (.ofSettings schema s) units failures) := by
  cases failures with
  | cons failure rest =>
    constructor
    · intro hrun
      cases hrun
    · rintro ⟨_, -, ⟨hnone, -⟩, -⟩
      cases hnone
  | nil =>
    rw [run_eq_ok_iff_of_loaded fun _ => rfl]
    constructor
    · rintro ⟨schema, fs, hclassify, hfs, rfl⟩
      obtain ⟨hreadable, rfl⟩ := (findings_strict_eq_ok_iff hclassify).mp hfs
      exact ⟨schema, hclassify, ⟨rfl, hreadable⟩, rfl⟩
    · rintro ⟨schema, hclassify, ⟨-, hreadable⟩, rfl⟩
      exact ⟨schema, _, hclassify, (findings_strict_eq_ok_iff hclassify).mpr ⟨hreadable, rfl⟩, rfl⟩

/-- A strict run gives a report exactly if the run that is not strict gives it and counts no error
in it. -/
theorem run_strict_eq_ok_iff :
    run (withStrict s true) units failures = .ok report ↔
      run (withStrict s false) units failures = .ok report ∧
        report.summary.analyzerErrors = 0 := by
  rw [run_strict_eq_ok_iff_assemble, run_eq_ok_iff_assemble (s := withStrict s false) rfl]
  constructor
  · rintro ⟨schema, hclassify, hall, rfl⟩
    exact ⟨⟨schema, hclassify, rfl⟩, (analyzerErrors_arrivals_eq_zero_iff _ _).mpr hall⟩
  · rintro ⟨⟨schema, hclassify, rfl⟩, hzero⟩
    exact ⟨schema, hclassify, (analyzerErrors_arrivals_eq_zero_iff _ _).mp hzero, rfl⟩

/-- A report does not depend on whether the settings are strict. -/
theorem run_lenient_of_run (hrun : run s units failures = .ok report) :
    run (withStrict s false) units failures = .ok report := by
  have hown : run (withStrict s s.analysis.strict) units failures = .ok report := hrun
  cases hstrict : s.analysis.strict with
  | false =>
    rw [hstrict] at hown
    exact hown
  | true =>
    rw [hstrict] at hown
    exact (run_strict_eq_ok_iff.mp hown).1

/-- How the result of a strict run goes with that of a run that is not strict. -/
structure Agree (lenient strict : Except AnalysisError Report) : Prop where
  clean : ∀ r, lenient = .ok r → r.summary.analyzerErrors = 0 → strict = .ok r
  stopped : ∀ r, lenient = .ok r → 0 < r.summary.analyzerErrors →
    (∃ failure, strict = .error (.load failure)) ∨
      ∃ location e, strict = .error (.extraction location e)
  failed : ∀ e, lenient = .error e → ∃ e', strict = .error e'
  same : ∀ r, strict = .ok r → lenient = .ok r

/-- **Strict runs agree with others.** Under settings that differ in nothing but strictness, a
strict run gives the same report if no error is counted in it, ends in a document or a handler if
one is, and fails if the other run fails. -/
theorem run_strict_agrees (s : Settings) (units : List SourceUnit) (failures : List LoadFailure) :
    Agree (run (withStrict s false) units failures) (run (withStrict s true) units failures) where
  clean r hlenient hzero := run_strict_eq_ok_iff.mpr ⟨hlenient, hzero⟩
  stopped r hlenient herrors := by
    cases hstrict : run (withStrict s true) units failures with
    | ok r' =>
      obtain ⟨hsame, hzero⟩ := run_strict_eq_ok_iff.mp hstrict
      rw [hlenient] at hsame
      cases hsame
      omega
    | error e =>
      cases stops_of_run hstrict with
      | load => exact .inl ⟨_, rfl⟩
      | extraction => exact .inr ⟨_, _, rfl⟩
      | schema herror =>
        -- The other run has classified the same declarations.
        obtain ⟨schema, hclassify, -⟩ :=
          (run_eq_ok_iff_assemble (s := withStrict s false) rfl).mp hlenient
        have hcontra : Except.ok schema = Except.error _ := hclassify.symm.trans herror
        cases hcontra
  failed e hlenient := by
    cases hstrict : run (withStrict s true) units failures with
    | ok r =>
      rw [(run_strict_eq_ok_iff.mp hstrict).1] at hlenient
      cases hlenient
    | error e' => exact ⟨e', rfl⟩
  same r hstrict := (run_strict_eq_ok_iff.mp hstrict).1

end Tenancy.Analysis

import Tenancy.Proofs.Analysis.Completeness
import Tenancy.Sample

/-!
# Judging never fails

An access point can contradict the schema or itself: it may name an entity nobody declares, need a
scoping column that is missing, or be executed on no path. Points that come out of a handler do
none of this, so whatever ends a run without a report was found before any point was judged.

* `Extractor.exists_evaluate_eq_ok`: every access point of a handler can be evaluated.
* `stops_of_run`: the reasons for which a run ends without a report (`Stops`); an access point that
  cannot be judged is not among them.
-/

set_option autoImplicit false

namespace Tenancy.Analysis

open Tenancy.Support

/-- Why a run ends without a report: a document could not be loaded, the declarations contradict
each other, or a handler makes no sense. The first and the last count under strict settings only. -/
inductive Stops (s : Settings) (units : List SourceUnit) (failures : List LoadFailure) :
    AnalysisError → Prop where
  | load {failure : LoadFailure} (hstrict : s.analysis.strict = true)
      (hfirst : failures.head? = some failure) : Stops s units failures (.load failure)
  | schema {e : SchemaError} (hclassify : classify s units = .error e) :
      Stops s units failures (.schema e)
  | extraction {schema : Schema} {h : Handler} {e : HandlerError}
      (hstrict : s.analysis.strict = true) (hclassify : classify s units = .ok schema)
      (hh : h ∈ handlers (.ofSettings schema s) units)
      (hextract : (Extractor.ofSettings schema s).extract h = .error e) :
      Stops s units failures (.extraction e.location.toText e.error)

variable {s : Settings} {units : List SourceUnit} {failures : List LoadFailure}

/-- A handler ends a run only if the settings are strict and its operations make no sense. -/
theorem judgeHandler_eq_error {x : Extractor} {settings : SchemaSettings}
    {declarations : List Declaration}
    (hschema : Schema.classify settings declarations = .ok x.schema) {strict : Bool} {h : Handler}
    {e : AnalysisError} (herror : judgeHandler strict x h = .error e) :
    strict = true ∧
      ∃ e', x.extract h = .error e' ∧ e = .extraction e'.location.toText e'.error := by
  unfold judgeHandler at herror
  cases hextract : x.extract h with
  | ok points =>
    obtain ⟨fs, hfs⟩ := exists_judgePoints_eq_ok fun p hp =>
      (Extractor.exists_evaluate_eq_ok hschema hextract hp).imp fun _ hv => hv.1
    simp [hextract, hfs] at herror
  | error e' =>
    cases strict with
    | false => simp [hextract] at herror
    | true =>
      simp only [hextract, if_true, Except.error.injEq] at herror
      exact ⟨rfl, e', rfl, herror.symm⟩

/-- The units end a run only with a handler that does. -/
theorem stops_of_findings {schema : Schema} (hclassify : classify s units = .ok schema)
    {e : AnalysisError} (herror : findings s schema units = .error e) :
    Stops s units failures e := by
  unfold findings at herror
  rcases bind_eq_error_iff.mp herror with hmap | ⟨found, -, hpure⟩
  · obtain ⟨h, hh, hjudge⟩ := exists_of_mapM_eq_error hmap
    obtain ⟨hstrict, e', hextract, rfl⟩ :=
      judgeHandler_eq_error (x := .ofSettings schema s) hclassify hjudge
    exact .extraction hstrict hclassify hh hextract
  · cases hpure

/-- Whatever ends a run without a report is a document, the schema or a handler. -/
theorem stops_of_run {e : AnalysisError} (hrun : run s units failures = .error e) :
    Stops s units failures e := by
  unfold run at hrun
  split at hrun
  · rename_i failure rest hstrict
    cases hrun
    exact .load hstrict rfl
  · cases hclassify : classify s units with
    | error e' =>
      simp only [hclassify, Except.error.injEq] at hrun
      subst hrun
      exact .schema hclassify
    | ok schema =>
      simp only [hclassify] at hrun
      -- Assembling the report cannot fail.
      rcases bind_eq_error_iff.mp hrun with herror | ⟨fs, -, hpure⟩
      · exact stops_of_findings hclassify herror
      · cases hpure

/-- **Judging never fails.** Against a schema that was classified, every access point that a handler
is read into can be evaluated, and it has a verdict exactly when it is executed. A run therefore
never ends in an access point that cannot be judged, whatever the units, the failures and the
settings are. -/
theorem evaluate_total :
    (∀ (settings : SchemaSettings) (declarations : List Declaration) (x : Extractor) (h : Handler)
        (points : List AccessPoint), Schema.classify settings declarations = .ok x.schema →
      x.extract h = .ok points → ∀ p ∈ points,
        ∃ verdict, p.evaluate x.schema = .ok verdict ∧ verdict.isSome = p.reachesExecution) ∧
    ∀ (s : Settings) (units : List SourceUnit) (failures : List LoadFailure) (e : EvaluationError),
      run s units failures ≠ .error (.evaluation e) := by
  constructor
  · intro settings declarations x h points hschema hpoints p hp
    exact Extractor.exists_evaluate_eq_ok hschema hpoints hp
  · intro s units failures e hrun
    cases stops_of_run hrun

/-- In the sample application with an entity whose storage key is the name of another one: a handler
that reads both, and builds a deletion on one branch that it executes on another. -/
theorem evaluate_total_shared_name :
    ∃ (declarations : List Declaration) (x : Extractor) (h : Handler) (points : List AccessPoint),
      Schema.classify .default declarations = .ok x.schema ∧ x.extract h = .ok points ∧
      points.map AccessPoint.reachesExecution = [true, false] ∧
      ∀ p ∈ points,
        ∃ verdict, p.evaluate x.schema = .ok verdict ∧ verdict.isSome = p.reachesExecution := by
  let declarations := Sample.schema ++ [Declaration.named "Person" "User"]
  let schema := (Schema.classify .default declarations).toOption.getD default
  let x := Extractor.ofSettings schema Sample.settings
  let h := Sample.scopedHandler 1 "people" "/people"
    |>.addOperation (Operation.on .read ["Person", "User", "users"])
    |>.addOperation ((Operation.on .delete ["User"]).withPaths
      [⟨some "build", true, false⟩, ⟨some "run", false, true⟩])
  let points := (x.extract h).toOption.getD []
  have hschema : Schema.classify .default declarations = .ok x.schema := by decide +kernel
  have hpoints : x.extract h = .ok points := by decide +kernel
  exact ⟨declarations, x, h, points, hschema, hpoints, by decide +kernel,
    evaluate_total.1 _ _ x h points hschema hpoints⟩

end Tenancy.Analysis

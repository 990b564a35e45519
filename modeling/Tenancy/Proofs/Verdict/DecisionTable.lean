import Tenancy.Proofs.Verdict.Exemption

/-!
# The decision table

The verdict on an access is found by a cascade of questions, and each is asked only if those before
it left the matter open. `evaluate_follows_table` says for every outcome exactly when it comes up,
without following the cascade: an access that is not executed, one that contradicts itself or the
schema, an exempt one, and for all others the row of the table that applies.

The table (`Row`) speaks about the targets that need a filter (`Requires`) and those of them that
have one on every path (`Covered`). Its rows are found in no particular order:

* `exists_row`: some row applies to every access.
* `judge_of_row`: the verdict is what the row says. So only one row applies.
* `required_eq_error_iff`: the targets cannot be looked up exactly if one of them is at fault, and
  the error is about the least of these (`FirstFault`).
-/

set_option autoImplicit false

namespace Tenancy

open Tenancy.Support

/-- How much breaking a rule matters. -/
theorem ViolationKind.severity_eq (kind : ViolationKind) (operation : OperationKind) :
    kind.severity operation =
      if operation = .update ∨ operation = .delete then .critical
      else if kind = .unusedDependency then .medium
      else .high := by
  cases kind <;> cases operation <;> rfl

namespace AccessPoint

/-! ### Targets and filters -/

/-- An entity is a target that needs a filter. -/
def Requires (p : AccessPoint) (s : Schema) (e : Entity) : Prop :=
  (∃ name ∈ p.targets, s.get? name = some e) ∧ e.scope = .tenantScoped

/-- On every path all filters that apply are joined by `and`, and one of them says that the scoping
column of an entity equals a value of the tenant. -/
def Covered (p : AccessPoint) (e : Entity) : Prop :=
  ∀ path ∈ p.paths,
    (∀ f ∈ p.filters, f.branch = none ∨ f.branch = path → f.conjunction = .and) ∧
      ∃ f ∈ p.filters, (f.branch = none ∨ f.branch = path) ∧ f.entity = e.name ∧
        e.scopingColumn = some f.column ∧ f.comparison = .equals ∧ f.source = .tenantContext

/-- The error for a target that contradicts the schema: nobody declares it, or it is tenant-scoped
without a scoping column. -/
inductive Fault (p : AccessPoint) (s : Schema) (name : String) : EvaluationError → Prop
  | unknown : s.get? name = none → Fault p s name (.unknownEntity p.id name)
  | column {e : Entity} : s.get? name = some e → e.scope = .tenantScoped →
      e.scopingColumn = none → Fault p s name (.missingScopingColumn p.id name)

/-- The error is about the least of the targets that contradict the schema. -/
def FirstFault (p : AccessPoint) (s : Schema) (error : EvaluationError) : Prop :=
  ∃ name ∈ p.targets, p.Fault s name error ∧
    ∀ other ∈ p.targets, ∀ error', p.Fault s other error' → name ≤ other

/-- The table for an access that is executed and not exempt: what is said about it, and which rule
it breaks. -/
inductive Row (p : AccessPoint) (s : Schema) : Classification → Option ViolationKind → Prop
  | global : (∀ e, ¬ p.Requires s e) → Row p s .safe none
  | isolated : .tenantContext ∈ p.dependencies → (∀ e, p.Requires s e → p.Covered e) →
      Row p s .safe none
  | missingDependency : (∃ e, p.Requires s e) → .tenantContext ∉ p.dependencies →
      Row p s .violation (some .missingDependency)
  | partialFilterCoverage : .tenantContext ∈ p.dependencies →
      (∃ e, p.Requires s e ∧ p.Covered e) → (∃ e, p.Requires s e ∧ ¬ p.Covered e) →
      Row p s .violation (some .partialFilterCoverage)
  | missingFilterOnMutation : p.kind ≠ .read → .tenantContext ∈ p.dependencies →
      (∃ e, p.Requires s e) → (∀ e, p.Requires s e → ¬ p.Covered e) →
      Row p s .violation (some .missingFilterOnMutation)
  | unusedDependency : p.kind = .read → .tenantContext ∈ p.dependencies →
      (∃ e, p.Requires s e) → (∀ e, p.Requires s e → ¬ p.Covered e) →
      Row p s .violation (some .unusedDependency)

variable {p : AccessPoint} {s : Schema} {required : List Entity}

/-- Some row of the table applies to every access. -/
theorem exists_row (p : AccessPoint) (s : Schema) :
    ∃ classification broken, p.Row s classification broken := by
  by_cases hrequires : ∃ e, p.Requires s e
  · by_cases hcontext : .tenantContext ∈ p.dependencies
    · by_cases hgap : ∃ e, p.Requires s e ∧ ¬ p.Covered e
      · by_cases hdone : ∃ e, p.Requires s e ∧ p.Covered e
        · exact ⟨_, _, .partialFilterCoverage hcontext hdone hgap⟩
        · have hnone : ∀ e, p.Requires s e → ¬ p.Covered e :=
            fun e he hcovered => hdone ⟨e, he, hcovered⟩
          by_cases hread : p.kind = .read
          · exact ⟨_, _, .unusedDependency hread hcontext hrequires hnone⟩
          · exact ⟨_, _, .missingFilterOnMutation hread hcontext hrequires hnone⟩
      · refine ⟨_, _, .isolated hcontext fun e he => ?_⟩
        by_contra hcovered
        exact hgap ⟨e, he, hcovered⟩
    · exact ⟨_, _, .missingDependency hrequires hcontext⟩
  · exact ⟨_, _, .global fun e he => hrequires ⟨e, he⟩⟩

/-! ### Looking targets up -/

/-- A target is not found exactly for its fault. -/
theorem target_eq_error_iff {name : String} {error : EvaluationError} :
    p.target s name = .error error ↔ p.Fault s name error := by
  unfold target
  cases hget : s.get? name with
  | none =>
    constructor
    · intro h
      cases h
      exact .unknown hget
    · intro h
      cases h with
      | unknown => rfl
      | column he => simp [hget] at he
  | some e =>
    simp only
    split
    · rename_i hmissing
      obtain ⟨hscope, hcolumn⟩ := Bool.and_eq_true_iff.mp hmissing
      constructor
      · intro h
        cases h
        exact .column hget (of_decide_eq_true hscope) (by simpa using hcolumn)
      · intro h
        cases h with
        | unknown hnone => simp [hget] at hnone
        | column => rfl
    · rename_i hmissing
      constructor
      · intro h
        cases h
      · intro h
        cases h with
        | unknown hnone => simp [hget] at hnone
        | column he hscope hcolumn =>
          rw [hget] at he
          cases he
          simp [Entity.isTenantScoped, hscope, hcolumn] at hmissing

/-- A target that is found is the entity of its name. -/
theorem get?_of_target {name : String} {e : Entity} (h : p.target s name = .ok e) :
    s.get? name = some e := by
  unfold target at h
  split at h
  · cases h
  · rename_i other hget
    split at h
    · cases h
    · cases h
      exact hget

/-- The targets that need a filter cannot be looked up exactly if one is at fault, and the error is
about the least of these. -/
theorem required_eq_error_iff {error : EvaluationError} :
    p.required s = .error error ↔ p.FirstFault s error := by
  have hsorted : Ordered.Increasing (p.targets.toList.map fun name => name) := by
    rw [List.map_id']
    exact p.targets.increasing
  have hfirst : p.targets.toList.mapM (p.target s) = .error error ↔ p.FirstFault s error := by
    rw [hsorted.mapM_eq_error_iff]
    simp only [target_eq_error_iff]
    rfl
  unfold required
  rw [bind_eq_error_iff, ← hfirst]
  refine or_iff_left ?_
  rintro ⟨targets, -, h⟩
  cases h

/-- They can be looked up exactly if no target is at fault. -/
theorem exists_required_iff :
    (∃ required, p.required s = .ok required) ↔
      ∀ name ∈ p.targets, ∀ error, ¬ p.Fault s name error := by
  simp only [← target_eq_error_iff]
  unfold required
  constructor
  · rintro ⟨required, hrequired⟩ name hname error herror
    obtain ⟨found, hfound, -⟩ := bind_eq_ok_iff.mp hrequired
    obtain ⟨e, -, he⟩ := exists_of_forall₂_left (mapM_eq_ok_iff.mp hfound) hname
    rw [herror] at he
    cases he
  · intro hnone
    have hall : ∀ name ∈ p.targets.toList, ∃ e, p.target s name = .ok e := by
      intro name hname
      cases htarget : p.target s name with
      | ok e => exact ⟨e, rfl⟩
      | error error => exact absurd htarget (hnone name hname error)
    obtain ⟨found, hfound⟩ := exists_mapM_eq_ok hall
    exact ⟨found.filter Entity.isTenantScoped, by rw [hfound]; rfl⟩

/-- If they can be looked up, those that are found are the targets that need a filter. -/
theorem mem_required_iff (hrequired : p.required s = .ok required) {e : Entity} :
    e ∈ required ↔ p.Requires s e := by
  unfold AccessPoint.required at hrequired
  obtain ⟨found, hfound, hok⟩ := bind_eq_ok_iff.mp hrequired
  cases hok
  rw [mapM_eq_ok_iff] at hfound
  unfold Requires Entity.isTenantScoped
  rw [List.mem_filter, decide_eq_true_eq]
  refine and_congr_left fun _ => ⟨fun he => ?_, ?_⟩
  · obtain ⟨name, hname, htarget⟩ := exists_of_forall₂_right hfound he
    exact ⟨name, hname, get?_of_target htarget⟩
  · rintro ⟨name, hname, hget⟩
    obtain ⟨other, hother, htarget⟩ := exists_of_forall₂_left hfound hname
    rw [get?_of_target htarget] at hget
    cases hget
    exact hother

/-- What is covered is found to be, as long as there is a path. -/
theorem covers_iff (hpaths : p.paths ≠ []) {e : Entity} : p.covers e = true ↔ p.Covered e := by
  unfold covers Covered
  rw [coversEveryPath_iff]
  simp only [Filter.activeOn_iff, Filter.scopes_iff]
  exact and_iff_right hpaths

/-! ### Rules -/

/-- If the tenant context is missing, nothing else counts. -/
theorem judge_of_no_context (hrequired : required ≠ [])
    (hcontext : .tenantContext ∉ p.dependencies) :
    p.judge required = p.withoutContext required := by
  unfold judge
  rw [if_neg (by simpa using hrequired), if_pos (by simpa using hcontext)]

/-- If it is there and a target is left open, the verdict is on the gaps. -/
theorem judge_of_gap (hcontext : .tenantContext ∈ p.dependencies)
    (hgap : ∃ e ∈ required, p.covers e = false) :
    p.judge required = p.withGaps required (required.filter p.covers)
      (required.filter fun e => !p.covers e) := by
  obtain ⟨e, he, hopen⟩ := hgap
  have hmem : e ∈ required.filter fun e => !p.covers e :=
    List.mem_filter.mpr ⟨he, by simp [hopen]⟩
  unfold judge
  rw [if_neg (by simpa using List.ne_nil_of_mem he), if_neg (by simpa using hcontext)]
  simp only
  rw [if_neg (by simpa only [List.isEmpty_iff] using List.ne_nil_of_mem hmem)]

/-- The rule that is broken by gaps depends on what is covered, and else on what the access does. -/
theorem kind_withGaps (required covered uncovered : List Entity) :
    (p.withGaps required covered uncovered).kind = some
      (if covered ≠ [] then .partialFilterCoverage
      else if p.kind = .read then .unusedDependency
      else .missingFilterOnMutation) := by
  unfold withGaps
  cases covered with
  | cons e rest => rfl
  | nil =>
    cases hkind : p.kind <;> rfl

/-- The verdict on an access that is executed and not exempt is what the table says. -/
theorem judge_of_row (hpaths : p.paths ≠ []) (hrequired : ∀ e, e ∈ required ↔ p.Requires s e)
    {classification : Classification} {broken : Option ViolationKind}
    (h : p.Row s classification broken) :
    (p.judge required).classification = classification ∧ (p.judge required).kind = broken := by
  have hsome : (∃ e, p.Requires s e) → required ≠ [] := by
    rintro ⟨e, he⟩
    exact List.ne_nil_of_mem ((hrequired e).mpr he)
  have hopen : ∀ e, ¬ p.Covered e → p.covers e = false := by
    intro e hcovered
    rw [← Bool.not_eq_true, covers_iff hpaths]
    exact hcovered
  -- Whichever row says so, an access that is safe breaks no rule.
  have hsafe : (p.judge required).classification = .safe →
      (p.judge required).classification = .safe ∧ (p.judge required).kind = none := by
    intro h
    rcases judge_cases (p := p) required with ⟨text, hjudge⟩ | ⟨kind, text, fix, hjudge⟩
    · rw [hjudge]
      exact ⟨rfl, rfl⟩
    · rw [hjudge] at h
      cases h
  -- Where no target is covered and there is one, the rule depends on what the access does.
  have hbare : .tenantContext ∈ p.dependencies → (∃ e, p.Requires s e) →
      (∀ e, p.Requires s e → ¬ p.Covered e) →
      (p.judge required).classification = .violation ∧ (p.judge required).kind =
        some (if p.kind = .read then .unusedDependency else .missingFilterOnMutation) := by
    intro hcontext hrequires hnone
    obtain ⟨e, he⟩ := hrequires
    have hgap := hopen e (hnone e he)
    have hcovered : required.filter p.covers = [] := by
      rw [List.filter_eq_nil_iff]
      intro other hother
      rw [hopen other (hnone other ((hrequired other).mp hother))]
      exact Bool.false_ne_true
    rw [judge_of_gap hcontext ⟨e, (hrequired e).mpr he, hgap⟩, hcovered]
    exact ⟨classification_withGaps _ _ _, kind_withGaps _ _ _⟩
  cases h with
  | global hnone =>
    refine hsafe (judge_safe_iff.mpr (.inl (List.eq_nil_iff_forall_not_mem.mpr fun e he => ?_)))
    exact hnone e ((hrequired e).mp he)
  | isolated hcontext hall =>
    refine hsafe (judge_safe_iff.mpr (.inr ⟨hcontext, fun e he => ?_⟩))
    exact (covers_iff hpaths).mpr (hall e ((hrequired e).mp he))
  | missingDependency hrequires hcontext =>
    rw [judge_of_no_context (hsome hrequires) hcontext]
    exact ⟨rfl, rfl⟩
  | partialFilterCoverage hcontext hdone hgap =>
    obtain ⟨e, he, hcovered⟩ := hdone
    obtain ⟨other, hother, hleft⟩ := hgap
    have hmem : e ∈ required.filter p.covers :=
      List.mem_filter.mpr ⟨(hrequired e).mpr he, (covers_iff hpaths).mpr hcovered⟩
    rw [judge_of_gap hcontext ⟨other, (hrequired other).mpr hother, hopen other hleft⟩]
    refine ⟨classification_withGaps _ _ _, ?_⟩
    rw [kind_withGaps, if_pos (List.ne_nil_of_mem hmem)]
  | missingFilterOnMutation hkind hcontext hrequires hnone =>
    have hbroken := hbare hcontext hrequires hnone
    rwa [if_neg hkind] at hbroken
  | unusedDependency hkind hcontext hrequires hnone =>
    have hbroken := hbare hcontext hrequires hnone
    rwa [if_pos hkind] at hbroken

/-- A verdict that breaks a rule has the severity of that rule, and no other verdict has one. -/
theorem severity_judge (required : List Entity) :
    (p.judge required).severity = (p.judge required).kind.map (·.severity p.kind) := by
  rcases judge_cases (p := p) required with ⟨text, hjudge⟩ | ⟨kind, text, fix, hjudge⟩
  · rw [hjudge]
    rfl
  · rw [hjudge]
    rfl

/-! ### Verdicts -/

/-- An access that is not executed has no verdict. -/
theorem evaluate_of_not_reached (hreaches : p.reachesExecution = false) :
    p.evaluate s = .ok none := by
  unfold evaluate
  rw [if_pos (by simp [hreaches])]

/-- An access that is executed on no path contradicts itself. -/
theorem evaluate_of_no_paths (hreaches : p.reachesExecution = true) (hpaths : p.paths = []) :
    p.evaluate s = .error (.noExecutionPaths p.id) := by
  unfold evaluate
  rw [if_neg (by simp [hreaches]), if_pos (by simp [hpaths])]

/-- An access with an exemption is exempt. -/
theorem evaluate_of_exempt (hreaches : p.reachesExecution = true) (hpaths : p.paths ≠ [])
    (hexempt : p.exemptions ≠ []) : p.evaluate s = .ok (some p.exempt) := by
  unfold evaluate
  rw [if_neg (by simp [hreaches]), if_neg (by simpa using hpaths),
    if_pos (by simpa using hexempt)]

/-- Every other access is judged by its targets. -/
theorem evaluate_of_executed (hreaches : p.reachesExecution = true) (hpaths : p.paths ≠ [])
    (hexempt : p.exemptions = []) :
    p.evaluate s = (p.required s).map fun required => some (p.judge required) := by
  unfold evaluate
  rw [if_neg (by simp [hreaches]), if_neg (by simpa using hpaths), if_neg (by simp [hexempt])]
  cases p.required s <;> rfl

/-- An access has no verdict exactly if it is not executed. -/
theorem evaluate_eq_none_iff : p.evaluate s = .ok none ↔ p.reachesExecution = false := by
  refine ⟨fun h => ?_, evaluate_of_not_reached⟩
  by_contra hreaches
  rw [Bool.not_eq_false] at hreaches
  by_cases hpaths : p.paths = []
  · rw [evaluate_of_no_paths hreaches hpaths] at h
    cases h
  by_cases hexempt : p.exemptions = []
  · rw [evaluate_of_executed hreaches hpaths hexempt] at h
    cases hrequired : p.required s <;> simp [hrequired, Except.map] at h
  · rw [evaluate_of_exempt hreaches hpaths hexempt] at h
    cases h

section Executed

variable (hreaches : p.reachesExecution = true)
include hreaches

/-- Of the accesses that are executed, those without a path contradict themselves. -/
theorem evaluate_eq_noExecutionPaths_iff :
    p.evaluate s = .error (.noExecutionPaths p.id) ↔ p.paths = [] := by
  refine ⟨fun h => ?_, evaluate_of_no_paths hreaches⟩
  by_contra hpaths
  by_cases hexempt : p.exemptions = []
  · -- Only targets can be at fault here, and their errors are others.
    rw [evaluate_of_executed hreaches hpaths hexempt] at h
    cases hrequired : p.required s with
    | ok required => simp [hrequired, Except.map] at h
    | error error =>
      simp only [hrequired, Except.map, Except.error.injEq] at h
      subst h
      obtain ⟨name, -, hfault, -⟩ := required_eq_error_iff.mp hrequired
      cases hfault
  · rw [evaluate_of_exempt hreaches hpaths hexempt] at h
    cases h

variable (hpaths : p.paths ≠ [])
include hpaths

/-- Of those that are executed on a path, the ones with an exemption are exempt. -/
theorem exists_evaluate_exempt_iff :
    (∃ v, p.evaluate s = .ok (some v) ∧ v.classification = .exempt) ↔ p.exemptions ≠ [] := by
  constructor
  · rintro ⟨v, hv, hclass⟩
    exact (classification_eq_exempt_iff hv).mp hclass
  · intro hexempt
    exact ⟨p.exempt, evaluate_of_exempt hreaches hpaths hexempt, rfl⟩

variable (hexempt : p.exemptions = [])
include hexempt

/-- Every other access fails with the first fault among its targets. -/
theorem evaluate_eq_error_iff {error : EvaluationError} :
    p.evaluate s = .error error ↔ p.FirstFault s error := by
  rw [evaluate_of_executed hreaches hpaths hexempt, ← required_eq_error_iff]
  cases p.required s <;> simp [Except.map]

/-- It fails exactly if one of its targets is at fault. -/
theorem exists_evaluate_error_iff :
    (∃ error, p.evaluate s = .error error) ↔
      ∃ name ∈ p.targets, ∃ error, p.Fault s name error := by
  constructor
  · rintro ⟨error, herror⟩
    obtain ⟨name, hname, hfault, -⟩ := (evaluate_eq_error_iff hreaches hpaths hexempt).mp herror
    exact ⟨name, hname, error, hfault⟩
  · rintro ⟨name, hname, error, hfault⟩
    cases hrequired : p.required s with
    | ok required =>
      exact absurd hfault (exists_required_iff.mp ⟨required, hrequired⟩ name hname error)
    | error error =>
      exact ⟨error, by rw [evaluate_of_executed hreaches hpaths hexempt, hrequired]; rfl⟩

/-- If none is, it has the verdict of the row that applies. -/
theorem exists_evaluate_iff_row (hsense : ∀ name ∈ p.targets, ∀ error, ¬ p.Fault s name error) :
    ∃ v, p.evaluate s = .ok (some v) ∧
      (∀ classification broken,
        v.classification = classification ∧ v.kind = broken ↔ p.Row s classification broken) ∧
      v.severity = v.kind.map (·.severity p.kind) := by
  obtain ⟨required, hrequired⟩ := exists_required_iff.mpr hsense
  have hsays : ∀ classification broken, p.Row s classification broken →
      (p.judge required).classification = classification ∧ (p.judge required).kind = broken :=
    fun _ _ => judge_of_row hpaths fun _ => mem_required_iff hrequired
  refine ⟨p.judge required, ?_, fun classification broken => ⟨?_, hsays _ _⟩, severity_judge _⟩
  · rw [evaluate_of_executed hreaches hpaths hexempt, hrequired]
    rfl
  · -- Some row applies, and as the verdict is what it says it is the one that was asked for.
    rintro ⟨rfl, rfl⟩
    obtain ⟨classification, broken, hrow⟩ := exists_row p s
    obtain ⟨rfl, rfl⟩ := hsays classification broken hrow
    exact hrow

end Executed

/-- **The rules are a decision table.** An access has no verdict exactly if it is not executed.
Otherwise it is an error if it is executed on no path; otherwise it is exempt exactly if it has an
exemption; otherwise it is an error exactly if one of its targets contradicts the schema, and the
error is about the least of these. Otherwise its verdict is what the row of the table says that
applies. A violation is critical if stored data is changed or removed, medium if the tenant context
is merely unused, and else high. -/
theorem evaluate_follows_table (p : AccessPoint) (s : Schema) :
    (p.evaluate s = .ok none ↔ p.reachesExecution = false) ∧
    (p.reachesExecution = true →
      (p.evaluate s = .error (.noExecutionPaths p.id) ↔ p.paths = []) ∧
      (p.paths ≠ [] →
        ((∃ v, p.evaluate s = .ok (some v) ∧ v.classification = .exempt) ↔ p.exemptions ≠ []) ∧
        (p.exemptions = [] →
          ((∃ error, p.evaluate s = .error error) ↔
            ∃ name ∈ p.targets, ∃ error, p.Fault s name error) ∧
          (∀ error, p.evaluate s = .error error ↔ p.FirstFault s error) ∧
          ((∀ name ∈ p.targets, ∀ error, ¬ p.Fault s name error) →
            ∃ v, p.evaluate s = .ok (some v) ∧
              (∀ classification broken,
                v.classification = classification ∧ v.kind = broken ↔
                  p.Row s classification broken) ∧
              v.severity = v.kind.map fun kind =>
                if p.kind = .update ∨ p.kind = .delete then .critical
                else if kind = .unusedDependency then .medium
                else .high)))) := by
  refine ⟨evaluate_eq_none_iff, fun hreaches => ⟨evaluate_eq_noExecutionPaths_iff hreaches,
    fun hpaths => ⟨exists_evaluate_exempt_iff hreaches hpaths, fun hexempt =>
      ⟨exists_evaluate_error_iff hreaches hpaths hexempt,
        fun _ => evaluate_eq_error_iff hreaches hpaths hexempt, fun hsense => ?_⟩⟩⟩⟩
  simp only [← ViolationKind.severity_eq]
  exact exists_evaluate_iff_row hreaches hpaths hexempt hsense

/-- In the sample application, an update of users and projects on two branches restricts users on
both and projects on one of them only. The row that applies is that for targets of which some are
left open, and what is broken there is critical. -/
theorem evaluate_follows_table_sample :
    ∃ (s : Schema) (p : AccessPoint) (v : Verdict),
      Schema.classify Sample.settings.schema Sample.schema = .ok s ∧
      p.reachesExecution = true ∧ p.paths = [some "own", some "all"] ∧ p.exemptions = [] ∧
      (∀ name ∈ p.targets, ∀ error, ¬ p.Fault s name error) ∧
      p.evaluate s = .ok (some v) ∧ v.severity = some .critical ∧
      p.Row s .violation (some .partialFilterCoverage) := by
  let s := (Schema.classify Sample.settings.schema Sample.schema).toOption.getD default
  let o := Operation.on .update ["Project", "User"]
    |>.withBranches ["own", "all"]
    |>.filter "User.workspace_id" "workspace.id"
    |>.filterOnBranch "Project.workspace_id" "workspace.id" "own"
  let h := (Sample.scopedHandler 1 "rename" "/rename").addOperation o
  let p := (((Extractor.ofSettings s Sample.settings).extract h).toOption.getD [])[0]?.getD default
  let v := ((p.evaluate s).toOption.getD none).getD default
  let required := (p.required s).toOption.getD []
  obtain ⟨hschema, hreaches, hpaths, hexempt, hrequired, hv, hclass, hkind, hseverity⟩ :
      Schema.classify Sample.settings.schema Sample.schema = .ok s ∧
      p.reachesExecution = true ∧ p.paths = [some "own", some "all"] ∧ p.exemptions = [] ∧
      p.required s = .ok required ∧ p.evaluate s = .ok (some v) ∧
      v.classification = .violation ∧ v.kind = some .partialFilterCoverage ∧
      v.severity = some .critical := by decide +kernel
  have hsense := exists_required_iff.mp ⟨required, hrequired⟩
  obtain ⟨v', hv', hrow, -⟩ :=
    (((evaluate_follows_table p s).2 hreaches).2 (by simp [hpaths])).2 hexempt |>.2.2 hsense
  rw [hv] at hv'
  cases hv'
  exact ⟨s, p, v, hschema, hreaches, hpaths, hexempt, hsense, hv, hseverity,
    (hrow _ _).mp ⟨hclass, hkind⟩⟩

end AccessPoint

end Tenancy

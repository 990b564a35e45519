import Tenancy.Proofs.Access.Extraction
import Tenancy.Sample
import Tenancy.Verdict.Decide

/-!
# When an access is safe

The verdict on an access is read off an access point, which is several steps away from what the
handler says. `evaluate_safe_iff` goes all the way back: for an operation that is executed and not
exempt, the verdict is that it is safe exactly when none of its targets is tenant-scoped, or each
tenant-scoped target is restricted to the caller's tenant on every branch
(`Extractor.Isolates`). The latter speaks about the conditions, the local names and the
dependencies as they stand in the handler.

The steps in between are:

* `required_eq_ok`: the targets that need a filter can always be looked up.
* `judge_safe_iff`: what the rules ask of an access point.
* `coversEveryPath_iff`: what coverage asks of filters and paths.
* `scopes_iff_restricts`: a filter scopes an entity exactly when its condition restricts it.

Only five operators restrict anything (`Comparison.ofText_eq_equals_iff`); with another one for each
condition an operation isolates nothing (`not_isolates_of_comparison`).
-/

set_option autoImplicit false

namespace Tenancy

open Tenancy.Support

/-! ### Coverage -/

/-- On one path, all filters that apply are joined by `and`, and one of them is as required. -/
theorem coversPath_iff {filters : List Filter} {required : Filter → Bool} {path : Option String} :
    coversPath filters required path = true ↔
      (∀ f ∈ filters, f.activeOn path = true → f.conjunction = .and) ∧
        ∃ f ∈ filters, f.activeOn path = true ∧ required f = true := by
  unfold coversPath
  simp only [Bool.and_eq_true, List.all_eq_true, List.any_eq_true, List.mem_filter,
    decide_eq_true_eq, and_imp, and_assoc]

/-- There is a path, and the requirement is met on every one. -/
theorem coversEveryPath_iff {paths : List (Option String)} {filters : List Filter}
    {required : Filter → Bool} :
    coversEveryPath paths filters required = true ↔
      paths ≠ [] ∧ ∀ path ∈ paths,
        (∀ f ∈ filters, f.activeOn path = true → f.conjunction = .and) ∧
          ∃ f ∈ filters, f.activeOn path = true ∧ required f = true := by
  unfold coversEveryPath
  simp only [Bool.and_eq_true, Bool.not_eq_true', List.isEmpty_eq_false_iff, List.all_eq_true,
    coversPath_iff]

namespace AccessPoint

variable {p : AccessPoint}

/-! ### The rules -/

/-- Whichever rule is broken, an access that leaves targets open is a violation. -/
theorem classification_withGaps (required covered uncovered : List Entity) :
    (p.withGaps required covered uncovered).classification = .violation := by
  unfold withGaps
  simp only
  split
  · rfl
  · split
    · rfl
    · rfl

/-- The verdict is that an access is safe exactly when no target is tenant-scoped, or the tenant
context is there and every target that needs it is covered. -/
theorem judge_safe_iff {required : List Entity} :
    (p.judge required).classification = .safe ↔
      required = [] ∨ .tenantContext ∈ p.dependencies ∧ ∀ e ∈ required, p.covers e = true := by
  unfold judge
  by_cases hempty : required = []
  · simp [hempty, safe]
  · rw [if_neg (by simpa using hempty)]
    by_cases hcontext : .tenantContext ∈ p.dependencies
    · rw [if_neg (by simpa using hcontext)]
      simp only [hempty, hcontext, false_or, true_and]
      split
      · rename_i huncovered
        simp only [List.isEmpty_iff, List.filter_eq_nil_iff, Bool.not_eq_true', Bool.not_eq_false]
          at huncovered
        exact ⟨fun _ => huncovered, fun _ => rfl⟩
      · rename_i huncovered
        simp only [List.isEmpty_iff, List.filter_eq_nil_iff, Bool.not_eq_true', Bool.not_eq_false]
          at huncovered
        rw [classification_withGaps]
        constructor
        · intro h
          cases h
        · intro h
          exact absurd h huncovered
    · rw [if_pos (by simpa using hcontext)]
      simp [hempty, hcontext, withoutContext, violation]

/-- A verdict names the access point that it is on. -/
@[simp] theorem accessPoint_judge (required : List Entity) :
    (p.judge required).accessPoint = p.id := by
  unfold judge withGaps
  simp only
  repeat' split
  all_goals rfl

/-- A verdict names the access point that it is on. -/
theorem accessPoint_of_evaluate {schema : Schema} {v : Verdict}
    (h : p.evaluate schema = .ok (some v)) : v.accessPoint = p.id := by
  unfold evaluate at h
  split at h
  · cases h
  split at h
  · cases h
  split at h
  · cases h
    rfl
  · obtain ⟨required, -, hjudge⟩ := bind_eq_ok_iff.mp h
    cases hjudge
    exact accessPoint_judge required

/-- An entity of a classified schema is found by its name, and is not missing a column. -/
theorem target_eq_ok {s : SchemaSettings} {declarations : List Declaration} {schema : Schema}
    (hschema : Schema.classify s declarations = .ok schema) {e : Entity}
    (he : e ∈ schema.entities) : p.target schema e.name = .ok e := by
  unfold target
  rw [(Schema.get?_eq_some_iff (Schema.increasing_entities hschema)).mpr ⟨he, rfl⟩]
  simp only
  rw [if_neg]
  intro hmissing
  obtain ⟨hscope, hnone⟩ := Bool.and_eq_true_iff.mp hmissing
  obtain ⟨column, hcolumn⟩ := Schema.exists_scopingColumn hschema he (of_decide_eq_true hscope)
  rw [hcolumn] at hnone
  cases hnone

/-- The targets that need a filter are looked up by the names of the targets. The name of the access
point shows in errors only. -/
theorem required_congr {p' : AccessPoint} (hid : p'.id = p.id) (htargets : p'.targets = p.targets)
    (schema : Schema) : p'.required schema = p.required schema := by
  have htarget : p'.target schema = p.target schema := by
    funext name
    unfold target
    rw [hid]
  unfold required
  rw [htargets, htarget]

/-- If the targets are names of entities, those that are tenant-scoped can be looked up. -/
theorem required_eq_ok {s : SchemaSettings} {declarations : List Declaration} {schema : Schema}
    (hschema : Schema.classify s declarations = .ok schema)
    (htargets : ∀ name ∈ p.targets, ∃ e ∈ schema.entities, e.name = name) :
    ∃ required, p.required schema = .ok required ∧
      ∀ e, e ∈ required ↔
        e ∈ schema.entities ∧ e.name ∈ p.targets ∧ e.scope = .tenantScoped := by
  have hall : ∀ name ∈ p.targets.toList, ∃ e, p.target schema name = .ok e := by
    intro name hname
    obtain ⟨e, he, rfl⟩ := htargets name hname
    exact ⟨e, target_eq_ok hschema he⟩
  obtain ⟨found, hfound⟩ := exists_mapM_eq_ok hall
  refine ⟨found.filter Entity.isTenantScoped, ?_, ?_⟩
  · unfold required
    rw [hfound]
    rfl
  · intro e
    rw [List.mem_filter]
    have hmem : e ∈ found ↔ e ∈ schema.entities ∧ e.name ∈ p.targets := by
      have hfound := mapM_eq_ok_iff.mp hfound
      constructor
      · intro he
        obtain ⟨name, hname, hok⟩ := exists_of_forall₂_right hfound he
        obtain ⟨other, hother, rfl⟩ := htargets name hname
        rw [target_eq_ok hschema hother] at hok
        cases hok
        exact ⟨hother, hname⟩
      · rintro ⟨he, hname⟩
        obtain ⟨other, hother, hok⟩ := exists_of_forall₂_left hfound hname
        rw [target_eq_ok hschema he] at hok
        cases hok
        exact hother
    rw [hmem, and_assoc]
    exact and_congr_right fun _ => and_congr_right fun _ => decide_eq_true_iff

end AccessPoint

/-! ### Conditions -/

/-- An operator tests for equality exactly if it is one of five, blanks around it aside. -/
theorem Comparison.ofText_eq_equals_iff {operator : String} :
    ofText operator = .equals ↔ Text.trim operator ∈ ["==", "=", "eq", "is", "__eq__"] := by
  unfold ofText equalityOperators
  split
  · rename_i hequality
    exact iff_of_true rfl hequality
  · rename_i hother
    exact iff_of_false nofun hother

/-- A condition applies on a branch if it names no branch or this one. -/
def Condition.AppliesOn (c : Condition) (branch : Option String) : Prop :=
  c.branch = none ∨ c.branch = branch

/-- A filter is active on a path exactly when a condition with its branch applies there. -/
theorem Filter.activeOn_iff {f : Filter} {path : Option String} :
    f.activeOn path = true ↔ f.branch = none ∨ f.branch = path := by
  unfold activeOn
  cases f.branch with
  | none => simp
  | some branch => simp [eq_comm]

/-- A filter scopes an entity exactly when it says that the scoping column of the entity equals a
value of the tenant. -/
theorem Filter.scopes_iff {f : Filter} {e : Entity} :
    f.scopes e = true ↔ f.entity = e.name ∧ e.scopingColumn = some f.column ∧
      f.comparison = .equals ∧ f.source = .tenantContext := by
  unfold scopes
  simp only [Bool.and_eq_true, decide_eq_true_eq, and_assoc]

namespace Extractor

variable {x : Extractor} {h : Handler}

/-- An expression is a value of the tenant: the names it leads to come to a dependency that gives
the tenant context. -/
def TracesToTenant (x : Extractor) (h : Handler) (expr : String) : Prop :=
  ∃ d ∈ h.dependencies, x.kindOf d = .tenantContext ∧
    ∃ k, (x.namesOf h).after k (rootName expr) = some d.name

/-- A condition restricts an entity to the rows of the caller's tenant: it says that a column of the
entity equals a value of the tenant. -/
structure Restricts (x : Extractor) (h : Handler) (operation : Nat) (targets : List Entity)
    (e : Entity) (column : String) (c : Condition) : Prop where
  column : ColumnRef.resolve targets c.column operation = .ok ⟨e.name, column⟩
  comparison : Comparison.ofText c.comparison = .equals
  operand : ∃ expr, c.operand = .reference expr ∧ x.TracesToTenant h expr

/-- Every tenant-scoped target is restricted to the caller's tenant on every branch on which the
operation is executed, by a condition that no other can undo. -/
def Isolates (x : Extractor) (h : Handler) (operation : Nat) (targets : List Entity)
    (o : Operation) : Prop :=
  ∀ e ∈ targets, ∀ column, e.scope = .tenantScoped → e.scopingColumn = some column →
    ∀ branch, o.flow.IsRun branch →
      (∀ c ∈ o.conditions, c.AppliesOn branch → c.joinedBy = .and) ∧
        ∃ c ∈ o.conditions, c.AppliesOn branch ∧ x.Restricts h operation targets e column c

/-- Conditions that do not test for equality isolate no operation that is executed on a
tenant-scoped target. -/
theorem not_isolates_of_comparison {operation : Nat} {targets : List Entity} {o : Operation}
    {e : Entity} (he : e ∈ targets) (hscope : e.scope = .tenantScoped) {column : String}
    (hcolumn : e.scopingColumn = some column) {branch : Option String}
    (hbranch : o.flow.IsRun branch)
    (hother : ∀ c ∈ o.conditions, Text.trim c.comparison ∉ ["==", "=", "eq", "is", "__eq__"]) :
    ¬ x.Isolates h operation targets o := by
  intro hisolates
  obtain ⟨-, c, hc, -, hrestricts⟩ := hisolates e he column hscope hcolumn branch hbranch
  exact hother c hc (Comparison.ofText_eq_equals_iff.mp hrestricts.comparison)

/-- An operand comes from the tenant context exactly when it is an expression that traces to it. -/
theorem sourceOf_namesOf_iff {operand : Operand} :
    (x.namesOf h).sourceOf operand = .tenantContext ↔
      ∃ expr, operand = .reference expr ∧ x.TracesToTenant h expr := by
  rw [NameScope.sourceOf_eq_tenantContext_iff]
  refine exists_congr fun expr => and_congr_right fun _ => ?_
  constructor
  · rintro ⟨k, last, hlast, hafter⟩
    obtain ⟨d, hd, hkind, rfl⟩ := mem_tenantValues_iff.mp hlast
    exact ⟨d, hd, hkind, k, hafter⟩
  · rintro ⟨d, hd, hkind, k, hafter⟩
    exact ⟨k, d.name, mem_tenantValues_iff.mpr ⟨d, hd, hkind, rfl⟩, hafter⟩

/-- A filter scopes an entity exactly when its condition restricts the scoping column. -/
theorem scopes_iff_restricts {operation : Nat} {targets : List Entity} {c : Condition} {f : Filter}
    (hf : Filter.ofCondition (x.namesOf h) targets operation c = .ok f) {e : Entity} :
    f.scopes e = true ↔
      ∃ column, e.scopingColumn = some column ∧ x.Restricts h operation targets e column c := by
  obtain ⟨ref, href, rfl⟩ := Filter.ofCondition_eq_ok hf
  unfold Filter.scopes
  simp only [Bool.and_eq_true, decide_eq_true_eq, sourceOf_namesOf_iff]
  constructor
  · rintro ⟨⟨⟨hentity, hcolumn⟩, hcomparison⟩, hoperand⟩
    refine ⟨ref.column, hcolumn, ?_, hcomparison, hoperand⟩
    rw [href, ← hentity]
  · rintro ⟨column, hcolumn, hrestricts⟩
    have hsame := hrestricts.column
    rw [href] at hsame
    cases hsame
    exact ⟨⟨⟨rfl, hcolumn⟩, hrestricts.comparison⟩, hrestricts.operand⟩

/-- A target is covered exactly when on every branch all conditions that apply are joined by `and`
and one of them restricts the scoping column. -/
theorem covers_pointOf_iff {operation : Nat} {o : Operation} {targets : List Entity}
    {filters : List Filter}
    (hfilters : List.Forall₂
      (fun c f => Filter.ofCondition (x.namesOf h) targets operation c = .ok f)
      o.conditions filters)
    (hrun : ∃ branch, o.flow.IsRun branch) {e : Entity} {column : String}
    (hcolumn : e.scopingColumn = some column) :
    (x.pointOf h operation o targets filters).covers e = true ↔
      ∀ branch, o.flow.IsRun branch →
        (∀ c ∈ o.conditions, c.AppliesOn branch → c.joinedBy = .and) ∧
          ∃ c ∈ o.conditions, c.AppliesOn branch ∧ x.Restricts h operation targets e column c := by
  have hscopes : ∀ c f, Filter.ofCondition (x.namesOf h) targets operation c = .ok f →
      (f.scopes e = true ↔ x.Restricts h operation targets e column c) := by
    intro c f hf
    rw [scopes_iff_restricts hf]
    simp only [hcolumn, Option.some.injEq, exists_eq_left']
  have happlies : ∀ c f, Filter.ofCondition (x.namesOf h) targets operation c = .ok f →
      ∀ branch, (f.activeOn branch = true ↔ c.AppliesOn branch) := by
    intro c f hf branch
    obtain ⟨ref, -, rfl⟩ := Filter.ofCondition_eq_ok hf
    exact Filter.activeOn_iff
  have hjoined : ∀ c f, Filter.ofCondition (x.namesOf h) targets operation c = .ok f →
      f.conjunction = c.joinedBy := by
    intro c f hf
    obtain ⟨ref, -, rfl⟩ := Filter.ofCondition_eq_ok hf
    rfl
  unfold AccessPoint.covers
  rw [coversEveryPath_iff]
  refine (and_iff_right (Flow.executionPaths_ne_nil_iff.mpr hrun)).trans ?_
  -- Filters belong to conditions one by one, so both quantifiers are carried over.
  refine forall_congr' fun branch => imp_congr Flow.mem_executionPaths_iff ?_
  refine and_congr ⟨?_, ?_⟩ ⟨?_, ?_⟩
  · intro hall c hc hon
    obtain ⟨f, hmem, hf⟩ := exists_of_forall₂_left hfilters hc
    rw [← hjoined c f hf]
    exact hall f hmem ((happlies c f hf branch).mpr hon)
  · intro hall f hmem hon
    obtain ⟨c, hc, hf⟩ := exists_of_forall₂_right hfilters hmem
    rw [hjoined c f hf]
    exact hall c hc ((happlies c f hf branch).mp hon)
  · rintro ⟨f, hmem, hon, hscope⟩
    obtain ⟨c, hc, hf⟩ := exists_of_forall₂_right hfilters hmem
    exact ⟨c, hc, (happlies c f hf branch).mp hon, (hscopes c f hf).mp hscope⟩
  · rintro ⟨c, hc, hon, hrestricts⟩
    obtain ⟨f, hmem, hf⟩ := exists_of_forall₂_left hfilters hc
    exact ⟨f, hmem, (happlies c f hf branch).mpr hon, (hscopes c f hf).mpr hrestricts⟩

/-! ### Verdicts -/

/-- The names of the targets of an operation are names of entities, and the entities of these names
are the targets. -/
theorem mem_targets_pointOf_iff {s : SchemaSettings} {declarations : List Declaration}
    (hschema : Schema.classify s declarations = .ok x.schema) {operation : Nat} {o : Operation}
    {targets : List Entity} (htargets : x.targets operation [] o.targets = .ok targets)
    (filters : List Filter) :
    (∀ name ∈ (x.pointOf h operation o targets filters).targets,
        ∃ e ∈ x.schema.entities, e.name = name) ∧
      ∀ e, e ∈ x.schema.entities ∧ e.name ∈ (x.pointOf h operation o targets filters).targets ↔
        e ∈ targets := by
  have hnames := Schema.increasing_entities hschema
  have hmem : ∀ e ∈ targets, e ∈ x.schema.entities := by
    intro e he
    rw [mem_targets_iff hnames (by simp) htargets] at he
    rcases he with he | ⟨name, -, hresolve⟩
    · cases he
    · exact Schema.mem_of_resolve? hresolve
  -- The point keeps names only; no two entities share one.
  have hset : ∀ name, name ∈ (x.pointOf h operation o targets filters).targets ↔
      name ∈ targets.map Entity.name := fun name => OrdSet.mem_ofList
  constructor
  · intro name hname
    rw [hset] at hname
    obtain ⟨e, he, rfl⟩ := List.mem_map.mp hname
    exact ⟨e, hmem e he, rfl⟩
  · intro e
    rw [hset]
    constructor
    · rintro ⟨he, hname⟩
      obtain ⟨other, hother, hsame⟩ := List.mem_map.mp hname
      rw [← List.inj_on_of_nodup_map hnames.nodup (hmem other hother) he hsame]
      exact hother
    · intro he
      exact ⟨hmem e he, List.mem_map_of_mem he⟩

/-- An operation that is never executed has no verdict. -/
theorem evaluate_of_not_run {operation : Nat} {o : Operation} (targets : List Entity)
    (filters : List Filter) (schema : Schema) (hrun : ¬∃ branch, o.flow.IsRun branch) :
    (x.pointOf h operation o targets filters).evaluate schema = .ok none := by
  have hpaths : o.flow.executionPaths = [] :=
    not_not.mp fun hne => hrun (Flow.executionPaths_ne_nil_iff.mp hne)
  unfold AccessPoint.evaluate
  simp [pointOf, hpaths]

/-- An operation that is executed has a verdict. If it is not exempt the verdict is on its
tenant-scoped targets. -/
theorem evaluate_of_run {s : SchemaSettings} {declarations : List Declaration}
    (hschema : Schema.classify s declarations = .ok x.schema) {operation : Nat} {o : Operation}
    {targets : List Entity} (htargets : x.targets operation [] o.targets = .ok targets)
    (filters : List Filter) (hrun : ∃ branch, o.flow.IsRun branch) :
    ∃ v, (x.pointOf h operation o targets filters).evaluate x.schema = .ok (some v) ∧
      v.accessPoint = AccessPoint.idOf h.location operation ∧
      (x.exemptions h = [] → ∃ required,
        v = (x.pointOf h operation o targets filters).judge required ∧
          ∀ e, e ∈ required ↔ e ∈ targets ∧ e.scope = .tenantScoped) := by
  have hpaths := Flow.executionPaths_ne_nil_iff.mpr hrun
  unfold AccessPoint.evaluate
  rw [if_neg (by simp [pointOf, hpaths]), if_neg (by simp [pointOf, hpaths])]
  by_cases hexempt : x.exemptions h = []
  · obtain ⟨hknown, hmem⟩ := mem_targets_pointOf_iff (h := h) hschema htargets filters
    obtain ⟨required, hrequired, hiff⟩ := AccessPoint.required_eq_ok hschema hknown
    rw [if_neg (by simp [pointOf, hexempt]), hrequired]
    refine ⟨_, rfl, AccessPoint.accessPoint_judge _, fun _ => ⟨required, rfl, ?_⟩⟩
    intro e
    rw [hiff, ← and_assoc, hmem]
  · rw [if_pos (by simp [pointOf, hexempt])]
    exact ⟨_, rfl, rfl, fun h => absurd h hexempt⟩

/-- Every access point of a handler can be evaluated, and it has a verdict exactly when it is
executed. -/
theorem exists_evaluate_eq_ok {s : SchemaSettings} {declarations : List Declaration}
    (hschema : Schema.classify s declarations = .ok x.schema) {found : List AccessPoint}
    (hfound : x.extract h = .ok found) {p : AccessPoint} (hp : p ∈ found) :
    ∃ verdict, p.evaluate x.schema = .ok verdict ∧ verdict.isSome = p.reachesExecution := by
  obtain ⟨operation, o, -, -, hpoint⟩ := exists_operation hfound hp
  obtain ⟨targets, filters, htargets, -, rfl⟩ := point_eq_ok hpoint
  by_cases hrun : ∃ branch, o.flow.IsRun branch
  · obtain ⟨v, hv, -⟩ := evaluate_of_run hschema htargets filters hrun
    exact ⟨_, hv, by simp [pointOf, Flow.executionPaths_ne_nil_iff.mpr hrun]⟩
  · have hpaths : o.flow.executionPaths = [] :=
      not_not.mp fun hne => hrun (Flow.executionPaths_ne_nil_iff.mp hne)
    exact ⟨_, evaluate_of_not_run targets filters x.schema hrun, by simp [pointOf, hpaths]⟩

/-- What traces to the tenant context needs a dependency that gives it. -/
theorem TracesToTenant.mem_kinds {expr : String} (htraces : x.TracesToTenant h expr) :
    .tenantContext ∈ x.kinds h := by
  obtain ⟨d, hd, hkind, -⟩ := htraces
  exact mem_kinds_iff.mpr ⟨d, hd, hkind⟩

/-- If some target is tenant-scoped, the rules ask for nothing but isolation: where a tenant-scoped
target is isolated the tenant context is there. -/
theorem isolates_iff_covers {s : SchemaSettings} {declarations : List Declaration}
    (hschema : Schema.classify s declarations = .ok x.schema) {operation : Nat} {o : Operation}
    {targets required : List Entity} {filters : List Filter}
    (htargets : x.targets operation [] o.targets = .ok targets)
    (hfilters : List.Forall₂
      (fun c f => Filter.ofCondition (x.namesOf h) targets operation c = .ok f)
      o.conditions filters)
    (hrun : ∃ branch, o.flow.IsRun branch)
    (hrequired : ∀ e, e ∈ required ↔ e ∈ targets ∧ e.scope = .tenantScoped)
    (hsome : required ≠ []) :
    .tenantContext ∈ x.kinds h ∧
        (∀ e ∈ required, (x.pointOf h operation o targets filters).covers e = true) ↔
      x.Isolates h operation targets o := by
  have hcolumn : ∀ e ∈ required, ∃ column, e.scopingColumn = some column := by
    intro e he
    obtain ⟨htarget, hscope⟩ := (hrequired e).mp he
    have hmem := ((mem_targets_pointOf_iff (h := h) hschema htargets filters).2 e).mpr htarget
    exact Schema.exists_scopingColumn hschema hmem.1 hscope
  have hcovers : (∀ e ∈ required, (x.pointOf h operation o targets filters).covers e = true) ↔
      x.Isolates h operation targets o := by
    constructor
    · intro hall e htarget column hscope hcolumn
      exact (covers_pointOf_iff hfilters hrun hcolumn).mp
        (hall e ((hrequired e).mpr ⟨htarget, hscope⟩))
    · intro hisolates e he
      obtain ⟨column, hcolumn⟩ := hcolumn e he
      obtain ⟨htarget, hscope⟩ := (hrequired e).mp he
      exact (covers_pointOf_iff hfilters hrun hcolumn).mpr
        (hisolates e htarget column hscope hcolumn)
  rw [hcovers, and_iff_right_iff_imp]
  -- One target on one branch is enough to come across the dependency.
  intro hisolates
  obtain ⟨e, he⟩ := List.exists_mem_of_ne_nil required hsome
  obtain ⟨column, hcolumn⟩ := hcolumn e he
  obtain ⟨htarget, hscope⟩ := (hrequired e).mp he
  obtain ⟨branch, hbranch⟩ := hrun
  obtain ⟨-, c, -, -, hrestricts⟩ := hisolates e htarget column hscope hcolumn branch hbranch
  obtain ⟨expr, -, htraces⟩ := hrestricts.operand
  exact htraces.mem_kinds

/-- **Safe means isolated.** An operation that is executed and not exempt is safe exactly when it
has no tenant-scoped target, or every tenant-scoped target is restricted to the caller's tenant on
every branch on which the operation is executed. -/
theorem evaluate_safe_iff {s : SchemaSettings} {declarations : List Declaration}
    (hschema : Schema.classify s declarations = .ok x.schema) {found : List AccessPoint}
    (hfound : x.extract h = .ok found) {operation : Nat} {o : Operation}
    (ho : h.operations[operation]? = some o) (hexempt : x.exemptions h = [])
    (hrun : ∃ branch, o.flow.IsRun branch) :
    ∃ p targets v, found[operation]? = some p ∧
      x.targets operation [] o.targets = .ok targets ∧
      (∀ e, e ∈ targets ↔ ∃ name ∈ o.targets, x.schema.resolve? (Text.trim name) = some e) ∧
      p.evaluate x.schema = .ok (some v) ∧
      (v.classification = .safe ↔
        (∀ e ∈ targets, e.scope ≠ .tenantScoped) ∨ x.Isolates h operation targets o) := by
  obtain ⟨p, hp, hpoint⟩ := (extract_eq_ok hfound).2 operation o ho
  obtain ⟨targets, filters, htargets, hfilters, rfl⟩ := point_eq_ok hpoint
  obtain ⟨v, hv, -, hjudge⟩ := evaluate_of_run (h := h) hschema htargets filters hrun
  obtain ⟨required, rfl, hrequired⟩ := hjudge hexempt
  refine ⟨_, targets, _, hp, htargets, ?_, hv, ?_⟩
  · intro e
    rw [mem_targets_iff (Schema.increasing_entities hschema) (by simp) htargets]
    simp only [List.not_mem_nil, false_or]
  · rw [AccessPoint.judge_safe_iff]
    have hnone : required = [] ↔ ∀ e ∈ targets, e.scope ≠ .tenantScoped := by
      simp only [List.eq_nil_iff_forall_not_mem, hrequired, not_and]
    by_cases hempty : required = []
    · exact ⟨fun _ => .inl (hnone.mp hempty), fun _ => .inl hempty⟩
    · rw [← hnone]
      exact or_congr_right (isolates_iff_covers hschema htargets hfilters hrun hrequired hempty)

/-- In the sample application, a query for projects and users that is restricted by a local name on
one branch and by the workspace itself on the other isolates both. The same query with `!=` for each
comparison isolates nothing, and is not safe. -/
theorem isolates_of_alias :
    ∃ (x : Extractor) (h : Handler) (o o' : Operation) (targets : List Entity)
      (found : List AccessPoint),
      Schema.classify Sample.settings.schema Sample.schema = .ok x.schema ∧
      x.extract h = .ok found ∧ h.operations = [o, o'] ∧ x.exemptions h = [] ∧
      o'.conditions = o.conditions.map (fun c : Condition => { c with comparison := "!=" }) ∧
      o.flow.IsRun (some "all") ∧ o'.flow.IsRun (some "all") ∧
      x.targets 0 [] o.targets = .ok targets ∧ x.targets 1 [] o'.targets = .ok targets ∧
      targets.map Entity.scope = [.tenantScoped, .tenantScoped] ∧
      x.Isolates h 0 targets o ∧ ¬ x.Isolates h 1 targets o' ∧
      ∃ p v, found[1]? = some p ∧ p.evaluate x.schema = .ok (some v) ∧
        v.classification ≠ .safe := by
  let schema := (Schema.classify Sample.settings.schema Sample.schema).toOption.getD default
  let x := Extractor.ofSettings schema Sample.settings
  let o := Operation.on .read ["projects", "User"]
    |>.withBranches ["own", "all"]
    |>.filter "User.workspace_id" "workspace.id"
    |>.filterOnBranch "Project.workspace_id" "own" "own"
    |>.filterOnBranch "projects.workspace_id" "workspace" "all"
  let o' : Operation :=
    { o with conditions := o.conditions.map fun c => { c with comparison := "!=" } }
  let h := Sample.scopedHandler 1 "overview" "/overview"
    |>.addBinding "own" "workspace.id"
    |>.addOperation o
    |>.addOperation o'
  let found := (x.extract h).toOption.getD []
  let targets := (x.targets 0 [] o.targets).toOption.getD []
  have hschema : Schema.classify Sample.settings.schema Sample.schema = .ok x.schema := by
    decide +kernel
  have hfound : x.extract h = .ok found := by decide +kernel
  have hrun : o.flow.IsRun (some "all") :=
    .inr ⟨⟨some "all", true, true⟩, by decide +kernel, rfl, rfl, rfl⟩
  have hexempt : x.exemptions h = [] := by decide +kernel
  have htargets : x.targets 0 [] o.targets = .ok targets := by decide +kernel
  have htargets' : x.targets 1 [] o'.targets = .ok targets := by decide +kernel
  have hscopes : targets.map Entity.scope = [.tenantScoped, .tenantScoped] := by decide +kernel
  have ho : h.operations[0]? = some o := rfl
  have ho' : h.operations[1]? = some o' := rfl
  obtain ⟨p, _, v, hp, hread, htarget, hv, hsafe⟩ :=
    evaluate_safe_iff hschema hfound ho hexempt ⟨_, hrun⟩
  obtain ⟨p', _, v', hp', hread', -, hv', hsafe'⟩ :=
    evaluate_safe_iff hschema hfound ho' hexempt ⟨_, hrun⟩
  cases htargets.symm.trans hread
  cases htargets'.symm.trans hread'
  have hverdict : v.classification = .safe := by
    have hcomputed : found[0]?.map (fun p =>
        (p.evaluate x.schema).map (Option.map Verdict.classification)) =
          some (.ok (some .safe)) := by decide +kernel
    rw [hp, Option.map_some, hv] at hcomputed
    exact Option.some.inj (Except.ok.inj (Option.some.inj hcomputed))
  -- One tenant-scoped target is enough to rule out that an operation is safe for want of any.
  obtain ⟨e, he, hscope⟩ := List.mem_map.mp (hscopes ▸ List.mem_cons_self)
  have hsome : ¬ ∀ e ∈ targets, e.scope ≠ .tenantScoped := fun hnone => hnone e he hscope
  obtain ⟨name, -, hresolve⟩ := (htarget e).mp he
  obtain ⟨column, hcolumn⟩ :=
    Schema.exists_scopingColumn hschema (Schema.mem_of_resolve? hresolve) hscope
  have hother : ¬ x.Isolates h 1 targets o' :=
    not_isolates_of_comparison he hscope hcolumn (o := o') hrun (by decide +kernel)
  exact ⟨x, h, o, o', targets, found, hschema, hfound, rfl, hexempt, rfl, hrun, hrun, htargets,
    htargets', hscopes, (hsafe.mp hverdict).resolve_left hsome, hother, p', v', hp', hv',
    fun hverdict' => (hsafe'.mp hverdict').elim hsome hother⟩

end Extractor

end Tenancy

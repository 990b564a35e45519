import Mathlib.Data.List.Perm.Basic
import Tenancy.Proofs.Verdict.Dependencies

/-!
# The order in which facts are listed

Whoever lists the facts about a handler is free in the order: dependencies and conditions may be
permuted, and the paths around an operation may be permuted and repeated (`Handler.Relisted`).
`verdicts_ignore_listing` says that this changes neither whether the handler can be analyzed nor any
verdict on its operations, down to the texts.

The order is forgotten in three steps. Names and kinds of dependencies are asked for membership only
(`Handler.Relisted.ofCondition`, `Handler.Relisted.kinds`). Filters and execution paths are again
permutations (`Extractor.point_of_relisted`): no condition is read differently because of those
before it, and a repeated path is dropped. And a verdict asks of its filters and paths whether some
or all of them have a property, and how many paths there are (`AccessPoint.Relisted.evaluate`).
-/

set_option autoImplicit false

namespace Tenancy

open Tenancy.Support

/-! ### Facts -/

/-- An operation is the same but for the order of its conditions and for the order and number of its
paths, where either both numbers are within the limit or none is. -/
structure Operation.Relisted (limits : ScanLimits) (o o' : Operation) : Prop where
  kind : o'.kind = o.kind
  line : o'.line = o.line
  targets : o'.targets = o.targets
  conditions : o.conditions.Perm o'.conditions
  paths : ∀ path, path ∈ o.flow.paths ↔ path ∈ o'.flow.paths
  limit : o.flow.paths.length ≤ limits.maxPathsPerOperation.toNat ↔
    o'.flow.paths.length ≤ limits.maxPathsPerOperation.toNat
  nestingDepth : o'.flow.nestingDepth = o.flow.nestingDepth

/-- A handler is the same but for the order of its dependencies and for how its operations are
listed. -/
structure Handler.Relisted (limits : ScanLimits) (h h' : Handler) : Prop where
  location : h'.location = h.location
  bindings : h'.bindings = h.bindings
  dependencies : h.dependencies.Perm h'.dependencies
  operations : List.Forall₂ (Operation.Relisted limits) h.operations h'.operations

/-- What was listed anew can be listed as before. -/
theorem Operation.Relisted.symm {limits : ScanLimits} {o o' : Operation}
    (h : o.Relisted limits o') : o'.Relisted limits o where
  kind := h.kind.symm
  line := h.line.symm
  targets := h.targets.symm
  conditions := h.conditions.symm
  paths := fun path => (h.paths path).symm
  limit := h.limit.symm
  nestingDepth := h.nestingDepth.symm

/-- So can the facts about a handler. -/
theorem Handler.Relisted.symm {limits : ScanLimits} {h h' : Handler}
    (hlisted : h.Relisted limits h') : h'.Relisted limits h where
  location := hlisted.location.symm
  bindings := hlisted.bindings.symm
  dependencies := hlisted.dependencies.symm
  operations := hlisted.operations.flip.imp fun _ _ ho => ho.symm

/-! ### Dependencies -/

/-- Where an operand comes from depends on which names are of the tenant context, not on how these
are listed. -/
theorem NameScope.sourceOf_congr {s s' : NameScope} (hbindings : s'.bindings = s.bindings)
    (hvalues : ∀ name, name ∈ s.tenantValues ↔ name ∈ s'.tenantValues) (operand : Operand) :
    s'.sourceOf operand = s.sourceOf operand := by
  cases operand with
  | literal value => rfl
  | unknown => rfl
  | reference expr =>
    -- Of the names of the tenant context, the answer depends on which there are.
    have hleads : s'.leadsToTenant (.startingAt (rootName expr)) =
        s.leadsToTenant (.startingAt (rootName expr)) := by
      rw [Bool.eq_iff_iff, leadsToTenant_iff, leadsToTenant_iff]
      simp only [after_congr hbindings, hvalues]
    rw [sourceOf, sourceOf, hleads]

namespace Handler.Relisted

variable {x : Extractor} {h h' : Handler}

/-- The dependencies give the same kinds. -/
theorem kinds (hlisted : h.Relisted x.limits h') : x.kinds h' = x.kinds h := by
  unfold Extractor.kinds
  refine List.filter_congr fun kind _ => ?_
  exact ((hlisted.dependencies.map x.kindOf).contains_eq).symm

/-- The same exemptions hold. -/
theorem exemptions (hlisted : h.Relisted x.limits h') : x.exemptions h' = x.exemptions h := by
  unfold Extractor.exemptions Extractor.isAdminRoute
  rw [hlisted.kinds, hlisted.location]

/-- Conditions are read with the same outcome. -/
theorem ofCondition (hlisted : h.Relisted x.limits h') (targets : List Entity) (operation : Nat) :
    Filter.ofCondition (x.namesOf h') targets operation =
      Filter.ofCondition (x.namesOf h) targets operation := by
  funext c
  unfold Filter.ofCondition
  have hvalues (name : String) :
      name ∈ (x.namesOf h).tenantValues ↔ name ∈ (x.namesOf h').tenantValues := by
    rw [Extractor.mem_tenantValues_iff, Extractor.mem_tenantValues_iff]
    simp only [hlisted.dependencies.mem_iff]
  rw [NameScope.sourceOf_congr hlisted.bindings hvalues]

end Handler.Relisted

/-! ### Paths -/

namespace Flow

variable {f f' : Flow}

/-- The same branches are run if the same paths are listed. -/
theorem isRun_congr (hpaths : ∀ path, path ∈ f.paths ↔ path ∈ f'.paths) (branch : Option String) :
    f.IsRun branch ↔ f'.IsRun branch := by
  unfold IsRun
  simp only [List.eq_nil_iff_forall_not_mem, hpaths]

/-- The execution paths are permuted if the same paths are listed. -/
theorem executionPaths_perm (hpaths : ∀ path, path ∈ f.paths ↔ path ∈ f'.paths) :
    f.executionPaths.Perm f'.executionPaths := by
  rw [List.perm_ext_iff_of_nodup f.nodup_executionPaths f'.nodup_executionPaths]
  intro branch
  rw [mem_executionPaths_iff, mem_executionPaths_iff, isRun_congr hpaths]

end Flow

/-! ### Verdicts -/

/-- An access point is the same but for the order of its filters and paths. -/
structure AccessPoint.Relisted (p p' : AccessPoint) : Prop where
  others : p' = { p with filters := p'.filters, paths := p'.paths }
  filters : p.filters.Perm p'.filters
  paths : p.paths.Perm p'.paths

namespace AccessPoint.Relisted

variable {p p' : AccessPoint} {schema : Schema}

/-- The same targets are covered. -/
theorem covers (h : p.Relisted p') : p'.covers = p.covers := by
  funext e
  unfold AccessPoint.covers
  rw [Bool.eq_iff_iff, coversEveryPath_iff, coversEveryPath_iff]
  simp only [h.filters.mem_iff, h.paths.mem_iff, ne_eq, List.eq_nil_iff_forall_not_mem]

/-- The remark on branches is the same. -/
theorem branchNote (h : p.Relisted p') : p'.branchNote = p.branchNote := by
  unfold AccessPoint.branchNote
  rw [h.paths.length_eq, h.filters.any_eq]

/-- The verdict is the same. -/
theorem judge (h : p.Relisted p') (required : List Entity) :
    p'.judge required = p.judge required := by
  unfold AccessPoint.judge AccessPoint.withGaps
  -- Filters and paths enter by these two; the texts are made from fields that are the same.
  rw [h.covers, h.branchNote, h.others]
  rfl

/-- The outcome is the same. -/
theorem evaluate (h : p.Relisted p') : p'.evaluate schema = p.evaluate schema := by
  unfold AccessPoint.evaluate
  rw [funext h.judge, h.paths.isEmpty_eq, h.others]
  rfl

end AccessPoint.Relisted

/-! ### Extraction -/

namespace Extractor

variable {x : Extractor} {h h' : Handler}

/-- A point is made again, from permuted filters and paths. -/
theorem point_of_relisted (hlisted : h.Relisted x.limits h') {index : Nat} {o o' : Operation}
    (ho : o.Relisted x.limits o') {p : AccessPoint} (hp : x.point h index o = .ok p) :
    ∃ p', x.point h' index o' = .ok p' ∧ p.Relisted p' := by
  obtain ⟨hlimits, hnamed, targets, filters, htargets, hfilters, rfl⟩ := point_eq_ok_iff.mp hp
  -- Each condition is read for itself, so its filter moves along with it.
  obtain ⟨filters', hfilters', hperm⟩ := List.perm_comp_forall₂ ho.conditions.symm hfilters
  have hpaths := Flow.executionPaths_perm ho.paths
  refine ⟨x.pointOf h' index o' targets filters', point_eq_ok_iff.mpr ⟨?_, ?_, ?_⟩, ?_, hperm.symm,
    hpaths⟩
  · rw [Flow.exceeded?_eq_none_iff] at hlimits ⊢
    unfold Flow.FitsIn
    rw [ho.nestingDepth, ← ho.limit]
    exact hlimits
  · rw [ho.targets]
    exact hnamed
  · refine ⟨targets, filters', ?_, ?_, rfl⟩
    · rw [ho.targets]
      exact htargets
    · rw [hlisted.ofCondition]
      exact hfilters'
  · unfold pointOf
    rw [hlisted.kinds, hlisted.exemptions, hlisted.location, ho.kind, ho.line, hpaths.isEmpty_eq]

/-- The points of operations are made again. -/
theorem pointsFrom_of_relisted (hlisted : h.Relisted x.limits h')
    {operations operations' : List Operation}
    (hoperations : List.Forall₂ (Operation.Relisted x.limits) operations operations')
    {index : Nat} {found : List AccessPoint}
    (hfound : x.pointsFrom h index operations = .ok found) :
    ∃ found', x.pointsFrom h' index operations' = .ok found' ∧
      List.Forall₂ AccessPoint.Relisted found found' := by
  induction hoperations generalizing index found with
  | nil =>
    cases hfound
    exact ⟨[], rfl, .nil⟩
  | cons ho _ ih =>
    unfold pointsFrom at hfound ⊢
    obtain ⟨p, hp, hfound⟩ := bind_eq_ok_iff.mp hfound
    obtain ⟨others, hothers, hfound⟩ := bind_eq_ok_iff.mp hfound
    cases hfound
    obtain ⟨p', hp', hpoint⟩ := point_of_relisted hlisted ho hp
    obtain ⟨others', hothers', hpoints⟩ := ih hothers
    refine ⟨p' :: others', ?_, .cons hpoint hpoints⟩
    rw [hp', hothers']
    rfl

/-- A handler that can be analyzed can be analyzed however it is listed. -/
theorem extract_of_relisted (hlisted : h.Relisted x.limits h') {found : List AccessPoint}
    (hfound : x.extract h = .ok found) :
    ∃ found', x.extract h' = .ok found' ∧ List.Forall₂ AccessPoint.Relisted found found' := by
  obtain ⟨hmost, hpoints⟩ := extract_eq_ok_iff.mp hfound
  obtain ⟨found', hpoints', hrelated⟩ := pointsFrom_of_relisted hlisted hlisted.operations hpoints
  rw [hlisted.operations.length_eq] at hmost
  exact ⟨found', extract_eq_ok_iff.mpr ⟨hmost, hpoints'⟩, hrelated⟩

/-- **The listing does not matter.** If a handler is listed with its dependencies and the conditions
of its operations in another order, and with their paths in another order or number within the
limits, it can be analyzed exactly if it could be before. Then there is an access for each operation
again, and it has the same verdict with the same texts, or none as before; if the schema is the
outcome of a classification there is no other case. -/
theorem verdicts_ignore_listing (x : Extractor) {h h' : Handler}
    (hlisted : h.Relisted x.limits h') :
    ((∃ found, x.extract h = .ok found) ↔ ∃ found', x.extract h' = .ok found') ∧
      ∀ found found', x.extract h = .ok found → x.extract h' = .ok found' →
        found.length = h.operations.length ∧
        List.Forall₂ (fun p p' => p'.evaluate x.schema = p.evaluate x.schema) found found' ∧
        ((∃ s declarations, Schema.classify s declarations = .ok x.schema) →
          ∀ p ∈ found, ∃ verdict, p.evaluate x.schema = .ok verdict) := by
  refine ⟨⟨?_, ?_⟩, fun found found' hfound hfound' => ⟨(extract_eq_ok hfound).1, ?_, ?_⟩⟩
  · rintro ⟨found, hfound⟩
    obtain ⟨found', hfound', -⟩ := extract_of_relisted hlisted hfound
    exact ⟨found', hfound'⟩
  · rintro ⟨found', hfound'⟩
    obtain ⟨found, hfound, -⟩ := extract_of_relisted hlisted.symm hfound'
    exact ⟨found, hfound⟩
  · obtain ⟨again, hagain, hrelated⟩ := extract_of_relisted hlisted hfound
    rw [hfound'] at hagain
    cases hagain
    exact hrelated.imp fun p p' hp => hp.evaluate
  · rintro ⟨s, declarations, hschema⟩ p hp
    obtain ⟨verdict, hverdict, -⟩ := exists_evaluate_eq_ok hschema hfound hp
    exact ⟨verdict, hverdict⟩

/-- In the sample application, a query for projects on two branches is restricted on one of them.
Listed the other way round and with one branch twice, it breaks the same rule in the same words,
although its paths are found in another order. -/
theorem verdicts_ignore_listing_sample :
    ∃ (x : Extractor) (h h' : Handler) (found found' : List AccessPoint) (p p' : AccessPoint)
        (v : Verdict),
      Schema.classify Sample.settings.schema Sample.schema = .ok x.schema ∧
      h.Relisted x.limits h' ∧ x.extract h = .ok found ∧ x.extract h' = .ok found' ∧
      found = [p] ∧ found' = [p'] ∧ p.paths = [some "own", some "all"] ∧
      p'.paths = [some "all", some "own"] ∧ p.evaluate x.schema = .ok (some v) ∧
      v.rationale = "tenant context is injected but the read on Project does not filter by it " ++
        "on every execution path" ∧
      p'.evaluate x.schema = .ok (some v) := by
  let schema := (Schema.classify Sample.settings.schema Sample.schema).toOption.getD default
  let x := Extractor.ofSettings schema Sample.settings
  let query := Sample.operation .read "Project" 2
    |>.filter "Project.name" "name"
    |>.filterOnBranch "Project.workspace_id" "workspace.id" "own"
  let o := query.withBranches ["own", "all"]
  let o' := { query with conditions := query.conditions.reverse }.withBranches ["all", "own", "all"]
  let h := (Sample.scopedHandler 1 "overview" "/overview").addOperation o
  let h' := { h with dependencies := h.dependencies.reverse, operations := [o'] }
  let found := (x.extract h).toOption.getD []
  let found' := (x.extract h').toOption.getD []
  let p := found[0]?.getD default
  let p' := found'[0]?.getD default
  let v := ((p.evaluate schema).toOption.getD none).getD default
  have ho : o.Relisted x.limits o' := {
    kind := rfl
    line := rfl
    targets := rfl
    conditions := (List.reverse_perm _).symm
    paths := fun path => by simp [o, o', Operation.withBranches, Operation.withPaths, or_comm]
    limit := by decide
    nestingDepth := rfl }
  have hlisted : h.Relisted x.limits h' :=
    ⟨rfl, rfl, (List.reverse_perm _).symm, .cons ho .nil⟩
  obtain ⟨hschema, hfound, hfound', hp, hp', hpaths, hpaths', hv, hrationale⟩ :
      Schema.classify Sample.settings.schema Sample.schema = .ok x.schema ∧
      x.extract h = .ok found ∧ x.extract h' = .ok found' ∧ found = [p] ∧ found' = [p'] ∧
      p.paths = [some "own", some "all"] ∧ p'.paths = [some "all", some "own"] ∧
      p.evaluate x.schema = .ok (some v) ∧
      v.rationale = "tenant context is injected but the read on Project does not filter by it " ++
        "on every execution path" := by decide +kernel
  obtain ⟨-, hsame, -⟩ := (verdicts_ignore_listing x hlisted).2 found found' hfound hfound'
  rw [hp, hp', List.forall₂_cons, hv] at hsame
  exact ⟨x, h, h', found, found', p, p', v, hschema, hlisted, hfound, hfound', hp, hp', hpaths,
    hpaths', hv, hrationale, hsame.1⟩

end Extractor

end Tenancy

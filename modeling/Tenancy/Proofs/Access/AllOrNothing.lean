import Tenancy.Proofs.Access.Binding
import Tenancy.Proofs.Access.Identity

/-!
# A handler has all its access points or none

Every operation of a handler is checked, and one that fails a check leaves the whole handler without
access points. `HandlerFault` says which check that is: the number of operations is checked first,
and then the operations one after the other, each by the checks of `OperationFault` in their order.

`extract_all_or_nothing` puts both outcomes together. If nothing fails there is one point for each
operation (`IsPointOf`), the points have different names, and each is well-formed
(`AccessPoint.IsWellFormed`): its parts fit together in the way that its judgement relies on.

* `point_eq_error_iff`: the check that an operation fails.
* `pointsFrom_eq_error_iff`: the first operation that fails is the one that is reported.
* `extract_eq_error_iff`: the fault of a handler.
* `isPointOf_of_point` and `isWellFormed_of_point`: what one operation gives.
-/

set_option autoImplicit false

namespace Tenancy

open Tenancy.Support

/-! ### What a check refuses -/

/-- The number of paths is checked before their depth. -/
theorem Flow.exceeded?_eq_some_iff {f : Flow} {limits : ScanLimits} {err : ExtractionError} :
    f.exceeded? limits = some err ↔
      limits.maxPathsPerOperation.toNat < f.paths.length ∧
          err = .scanCapExceeded "max_paths_per_operation" f.paths.length
            limits.maxPathsPerOperation.toNat ∨
        f.paths.length ≤ limits.maxPathsPerOperation.toNat ∧
          limits.maxNestingDepth < f.nestingDepth ∧
          err = .scanCapExceeded "max_nesting_depth" f.nestingDepth.toNat
            limits.maxNestingDepth.toNat := by
  unfold exceeded?
  by_cases hpaths : limits.maxPathsPerOperation.toNat < f.paths.length
  · simp [hpaths, eq_comm, Nat.not_le.mpr hpaths]
  · by_cases hdepth : limits.maxNestingDepth < f.nestingDepth
    · simp [hpaths, hdepth, eq_comm, Nat.not_lt.mp hpaths]
    · simp [hpaths, hdepth]

/-- A condition makes no filter if its column cannot be resolved. -/
theorem Filter.ofCondition_eq_error_iff {names : NameScope} {targets : List Entity}
    {operation : Nat} {c : Condition} {err : ExtractionError} :
    Filter.ofCondition names targets operation c = .error err ↔
      ColumnRef.resolve targets c.column operation = .error err := by
  unfold ofCondition
  rw [bind_eq_error_iff]
  constructor
  · rintro (h | ⟨ref, -, h⟩)
    · exact h
    · cases h
  · exact .inl

/-- A condition makes a filter if its column can be resolved. -/
theorem Filter.exists_ofCondition_eq_ok_iff {names : NameScope} {targets : List Entity}
    {operation : Nat} {c : Condition} :
    (∃ f, Filter.ofCondition names targets operation c = .ok f) ↔
      ∃ ref, ColumnRef.resolve targets c.column operation = .ok ref := by
  constructor
  · rintro ⟨f, hf⟩
    obtain ⟨ref, href, -⟩ := ofCondition_eq_ok hf
    exact ⟨ref, href⟩
  · rintro ⟨ref, href⟩
    exact ⟨_, bind_eq_ok_iff.mpr ⟨ref, href, rfl⟩⟩

/-! ### Well-formed points -/

/-- The parts of an access point fit together. -/
structure AccessPoint.IsWellFormed (schema : Schema) (p : AccessPoint) : Prop where
  targets_nonempty : ∃ name, name ∈ p.targets
  targets_known : ∀ name ∈ p.targets, ∃ e ∈ schema.entities, e.name = name
  filters_targeted : ∀ f ∈ p.filters, f.entity ∈ p.targets
  paths_nodup : p.paths.Nodup
  reachesExecution : p.reachesExecution = true ↔ p.paths ≠ []
  exempt_of_admin : .adminProvider ∈ p.exemptions ↔ .admin ∈ p.dependencies
  /-- Without the tenant context nothing is compared with a value of the tenant. -/
  tenant_given : ∀ f ∈ p.filters, f.source = .tenantContext → .tenantContext ∈ p.dependencies

namespace Extractor

variable {x : Extractor} {h : Handler} {settings : SchemaSettings}
  {declarations : List Declaration}

/-- An access point is the one of an operation of a handler. -/
structure IsPointOf (x : Extractor) (h : Handler) (index : Nat) (o : Operation)
    (p : AccessPoint) : Prop where
  /-- The name ends in the place of the operation. -/
  id : p.id = s!"{h.location.address}#{index}"
  location : p.location = { h.location with line := o.line <|> h.location.line }
  kind : p.kind = o.kind
  targets : ∀ name, name ∈ p.targets ↔ ∃ written ∈ o.targets, ∃ e,
    x.schema.resolve? (Text.trim written) = some e ∧ e.name = name
  dependencies : ∀ kind, kind ∈ p.dependencies ↔ ∃ d ∈ h.dependencies, x.kindOf d = kind
  filters : List.Forall₂ (fun (c : Condition) (f : Filter) =>
    f.comparison = .ofText c.comparison ∧ f.source = (x.namesOf h).sourceOf c.operand ∧
      f.conjunction = c.joinedBy ∧ f.branch = c.branch) o.conditions p.filters
  paths : ∀ branch, branch ∈ p.paths ↔ o.flow.IsRun branch

/-- The point that is made for an operation is the one of this operation. -/
theorem isPointOf_of_point (hschema : Schema.classify settings declarations = .ok x.schema)
    {index : Nat} {o : Operation} {p : AccessPoint} (hp : x.point h index o = .ok p) :
    x.IsPointOf h index o p := by
  obtain ⟨targets, filters, htargets, hfilters, rfl⟩ := point_eq_ok hp
  have hmem := mem_targets_iff (Schema.increasing_entities hschema) (by simp) htargets
  exact {
    id := rfl
    location := rfl
    kind := rfl
    targets := by
      intro name
      refine (OrdSet.mem_ofList).trans ?_
      simp only [List.mem_map, hmem, List.not_mem_nil, false_or]
      constructor
      · rintro ⟨e, ⟨written, hwritten, hresolve⟩, rfl⟩
        exact ⟨written, hwritten, e, hresolve, rfl⟩
      · rintro ⟨written, hwritten, e, hresolve, rfl⟩
        exact ⟨e, ⟨written, hwritten, hresolve⟩, rfl⟩
    dependencies := fun kind => mem_kinds_iff
    filters := by
      refine hfilters.imp fun c f hf => ?_
      obtain ⟨ref, -, rfl⟩ := Filter.ofCondition_eq_ok hf
      simp only [and_self]
    paths := fun branch => Flow.mem_executionPaths_iff }

/-- Administrators are exempt exactly if a dependency gives their rights. -/
theorem adminProvider_mem_exemptions_iff :
    .adminProvider ∈ x.exemptions h ↔ .admin ∈ x.kinds h := by
  unfold exemptions
  by_cases hadmin : .admin ∈ x.kinds h
  · simp [hadmin]
  · simp [hadmin]

/-- A value of the tenant comes from a dependency that gives the tenant context. -/
theorem tenantContext_mem_kinds {operand : Operand}
    (hsource : (x.namesOf h).sourceOf operand = .tenantContext) :
    .tenantContext ∈ x.kinds h := by
  obtain ⟨-, -, -, last, hlast, -⟩ := NameScope.sourceOf_eq_tenantContext_iff.mp hsource
  obtain ⟨d, hd, hkind, -⟩ := mem_tenantValues_iff.mp hlast
  exact mem_kinds_iff.mpr ⟨d, hd, hkind⟩

/-- The point that is made for an operation is well-formed. -/
theorem isWellFormed_of_point (hschema : Schema.classify settings declarations = .ok x.schema)
    {index : Nat} {o : Operation} {p : AccessPoint} (hp : x.point h index o = .ok p) :
    p.IsWellFormed x.schema := by
  have hof := isPointOf_of_point hschema hp
  obtain ⟨-, hnamed, targets, filters, htargets, hfilters, rfl⟩ := point_eq_ok_iff.mp hp
  obtain ⟨entities, hresolved, -⟩ :=
    (targets_eq_ok_iff (Schema.increasing_entities hschema)).mp htargets
  exact {
    targets_nonempty := by
      obtain ⟨written, hwritten⟩ := List.exists_mem_of_ne_nil _ hnamed
      obtain ⟨e, -, hresolve⟩ := exists_of_forall₂_left hresolved hwritten
      exact ⟨e.name, (hof.targets _).mpr ⟨written, hwritten, e, hresolve, rfl⟩⟩
    targets_known := by
      intro name hname
      obtain ⟨written, -, e, hresolve, rfl⟩ := (hof.targets name).mp hname
      exact ⟨e, Schema.mem_of_resolve? hresolve, rfl⟩
    filters_targeted := by
      intro f hf
      obtain ⟨c, -, hcondition⟩ := exists_of_forall₂_right hfilters hf
      obtain ⟨ref, href, rfl⟩ := Filter.ofCondition_eq_ok hcondition
      obtain ⟨e, hbinding⟩ := ColumnRef.isBinding_of_resolve href
      exact OrdSet.mem_ofList.mpr (List.mem_map.mpr ⟨e, hbinding.mem, hbinding.name⟩)
    paths_nodup := o.flow.nodup_executionPaths
    reachesExecution := by simp [pointOf]
    exempt_of_admin := adminProvider_mem_exemptions_iff
    tenant_given := by
      intro f hf hsource
      obtain ⟨c, -, hcondition⟩ := exists_of_forall₂_right hof.filters hf
      rw [hcondition.2.1] at hsource
      exact tenantContext_mem_kinds hsource }

/-! ### Faults -/

/-- The first check that an operation fails. -/
inductive OperationFault (x : Extractor) (index : Nat) (o : Operation) : ExtractionError → Prop
  /-- There are too many paths. -/
  | paths : x.limits.maxPathsPerOperation.toNat < o.flow.paths.length →
      OperationFault x index o (.scanCapExceeded "max_paths_per_operation" o.flow.paths.length
        x.limits.maxPathsPerOperation.toNat)
  /-- The paths are nested too deep. -/
  | nesting : o.flow.paths.length ≤ x.limits.maxPathsPerOperation.toNat →
      x.limits.maxNestingDepth < o.flow.nestingDepth →
      OperationFault x index o (.scanCapExceeded "max_nesting_depth" o.flow.nestingDepth.toNat
        x.limits.maxNestingDepth.toNat)
  /-- No target is named. -/
  | noTargets : o.flow.FitsIn x.limits → o.targets = [] →
      OperationFault x index o (.noTargets index)
  /-- The first name that is none of an entity. -/
  | unknownTarget {before : List String} {name : String} {after : List String} :
      o.flow.FitsIn x.limits → o.targets = before ++ name :: after →
      (∀ earlier ∈ before, ∃ e, x.schema.resolve? (Text.trim earlier) = some e) →
      x.schema.resolve? (Text.trim name) = none →
      OperationFault x index o (.unknownEntity name index)
  /-- The first condition whose column cannot be resolved among the targets, each listed once. -/
  | condition {entities : List Entity} {before : List Condition} {c : Condition}
      {after : List Condition} {err : ExtractionError} :
      o.flow.FitsIn x.limits → o.targets ≠ [] →
      List.Forall₂ (fun name e => x.schema.resolve? (Text.trim name) = some e) o.targets entities →
      o.conditions = before ++ c :: after →
      (∀ earlier ∈ before, ∃ ref,
        ColumnRef.resolve entities.eraseDups earlier.column index = .ok ref) →
      ColumnRef.resolve entities.eraseDups c.column index = .error err →
      OperationFault x index o err

/-- The check that a handler fails: it has too many operations, or the first of them that has a
fault has this one. -/
inductive HandlerFault (x : Extractor) (h : Handler) : ExtractionError → Prop
  | operations : x.limits.maxOperationsPerHandler.toNat < h.operations.length →
      HandlerFault x h (.scanCapExceeded "max_operations_per_handler" h.operations.length
        x.limits.maxOperationsPerHandler.toNat)
  | operation {before : List Operation} {o : Operation} {after : List Operation}
      {err : ExtractionError} :
      h.operations.length ≤ x.limits.maxOperationsPerHandler.toNat →
      h.operations = before ++ o :: after →
      (∀ i earlier, before[i]? = some earlier → ∀ e, ¬ x.OperationFault i earlier e) →
      x.OperationFault before.length o err → HandlerFault x h err

/-- Where no limit is exceeded and targets are named, they are looked up first and then the columns
of the conditions. -/
theorem point_of_fitsIn {index : Nat} {o : Operation} (hfits : o.flow.FitsIn x.limits)
    (hnamed : o.targets ≠ []) :
    x.point h index o = (x.targets index [] o.targets >>= fun targets =>
      o.conditions.mapM (Filter.ofCondition (x.namesOf h) targets index) >>= fun filters =>
        .ok (x.pointOf h index o targets filters)) := by
  unfold point
  simp only [Flow.exceeded?_eq_none_iff.mpr hfits]
  rw [if_neg (by simpa using hnamed)]
  rfl

/-- An operation has no point exactly if it has a fault. -/
theorem point_eq_error_iff (hschema : Schema.classify settings declarations = .ok x.schema)
    {index : Nat} {o : Operation} {err : ExtractionError} :
    x.point h index o = .error err ↔ x.OperationFault index o err := by
  have hnames := Schema.increasing_entities hschema
  constructor
  · intro hp
    cases hexceeded : o.flow.exceeded? x.limits with
    | some e =>
      unfold point at hp
      simp only [hexceeded] at hp
      cases hp
      rcases Flow.exceeded?_eq_some_iff.mp hexceeded with ⟨hpaths, rfl⟩ | ⟨hpaths, hdepth, rfl⟩
      · exact .paths hpaths
      · exact .nesting hpaths hdepth
    | none =>
      have hfits := Flow.exceeded?_eq_none_iff.mp hexceeded
      by_cases hnamed : o.targets = []
      · unfold point at hp
        simp only [hexceeded, hnamed] at hp
        cases hp
        exact .noTargets hfits hnamed
      rw [point_of_fitsIn hfits hnamed] at hp
      rcases bind_eq_error_iff.mp hp with htargets | ⟨targets, htargets, hp⟩
      · obtain ⟨before, name, after, hsplit, hbefore, hname, rfl⟩ :=
          (targets_eq_error_iff hnames).mp htargets
        exact .unknownTarget hfits hsplit hbefore hname
      obtain ⟨entities, hresolved, rfl⟩ := (targets_eq_ok_iff hnames).mp htargets
      rcases bind_eq_error_iff.mp hp with hfilters | ⟨filters, -, hp⟩
      · obtain ⟨before, c, after, hsplit, hbefore, hc⟩ := mapM_eq_error_iff.mp hfilters
        simp only [Filter.exists_ofCondition_eq_ok_iff] at hbefore
        exact .condition hfits hnamed hresolved hsplit hbefore
          (Filter.ofCondition_eq_error_iff.mp hc)
      · cases hp
  · intro hfault
    cases hfault with
    | paths hpaths =>
      unfold point
      simp only [Flow.exceeded?_eq_some_iff.mpr (.inl ⟨hpaths, rfl⟩)]
    | nesting hpaths hdepth =>
      unfold point
      simp only [Flow.exceeded?_eq_some_iff.mpr (.inr ⟨hpaths, hdepth, rfl⟩)]
    | noTargets hfits hnone =>
      unfold point
      simp only [Flow.exceeded?_eq_none_iff.mpr hfits, hnone]
      rfl
    | @unknownTarget before name after hfits hsplit hbefore hname =>
      rw [point_of_fitsIn hfits (by simp [hsplit])]
      refine bind_eq_error_iff.mpr (.inl ((targets_eq_error_iff hnames).mpr ?_))
      exact ⟨before, name, after, hsplit, hbefore, hname, rfl⟩
    | @condition entities before c after err hfits hnamed hresolved hsplit hbefore hc =>
      rw [point_of_fitsIn hfits hnamed]
      have htargets : x.targets index [] o.targets = .ok entities.eraseDups :=
        (targets_eq_ok_iff hnames).mpr ⟨entities, hresolved, rfl⟩
      refine bind_eq_error_iff.mpr (.inr ⟨_, htargets, bind_eq_error_iff.mpr (.inl ?_)⟩)
      refine mapM_eq_error_iff.mpr ⟨before, c, after, hsplit, ?_,
        Filter.ofCondition_eq_error_iff.mpr hc⟩
      intro earlier hearlier
      exact Filter.exists_ofCondition_eq_ok_iff.mpr (hbefore earlier hearlier)

/-- An operation has a point exactly if it has no fault. -/
theorem exists_point_eq_ok_iff (hschema : Schema.classify settings declarations = .ok x.schema)
    {index : Nat} {o : Operation} :
    (∃ p, x.point h index o = .ok p) ↔ ∀ err, ¬ x.OperationFault index o err := by
  simp only [← point_eq_error_iff hschema (h := h)]
  cases x.point h index o with
  | error err => simp
  | ok p => simp

/-- The operations of a handler have no points if one of them has none, and the first such operation
is reported. -/
theorem pointsFrom_eq_error_iff {index : Nat} {operations : List Operation}
    {err : ExtractionError} :
    x.pointsFrom h index operations = .error err ↔
      ∃ before o after, operations = before ++ o :: after ∧
        (∀ i earlier, before[i]? = some earlier → ∃ p, x.point h (index + i) earlier = .ok p) ∧
        x.point h (index + before.length) o = .error err := by
  induction operations generalizing index with
  | nil => simp [pointsFrom]
  | cons first rest ih =>
    -- Places in the rest are counted from the next index on.
    have hshift : ∀ i, index + 1 + i = index + (i + 1) := by omega
    unfold pointsFrom
    rw [bind_eq_error_iff]
    constructor
    · rintro (hfirst | ⟨p, hfirst, hrest⟩)
      · exact ⟨[], first, rest, rfl, by simp, hfirst⟩
      rcases bind_eq_error_iff.mp hrest with hrest | ⟨others, -, hrest⟩
      · obtain ⟨before, o, after, rfl, hbefore, ho⟩ := ih.mp hrest
        refine ⟨first :: before, o, after, rfl, ?_, hshift before.length ▸ ho⟩
        intro i earlier hearlier
        cases i with
        | zero =>
          cases hearlier
          exact ⟨p, hfirst⟩
        | succ i => exact hshift i ▸ hbefore i earlier hearlier
      · cases hrest
    · rintro ⟨before, o, after, hsplit, hbefore, ho⟩
      cases before with
      | nil =>
        cases hsplit
        exact .inl ho
      | cons b before =>
        cases hsplit
        obtain ⟨p, hp⟩ := hbefore 0 first rfl
        refine .inr ⟨p, hp, bind_eq_error_iff.mpr (.inl (ih.mpr ?_))⟩
        refine ⟨before, o, after, rfl, ?_, (hshift before.length).symm ▸ ho⟩
        intro i earlier hearlier
        exact (hshift i).symm ▸ hbefore (i + 1) earlier hearlier

/-- A handler has no points exactly if it has a fault. -/
theorem points_eq_error_iff (hschema : Schema.classify settings declarations = .ok x.schema)
    {err : ExtractionError} : x.points h = .error err ↔ x.HandlerFault h err := by
  by_cases hmost : x.limits.maxOperationsPerHandler.toNat < h.operations.length
  · rw [points_of_lt hmost]
    constructor
    · intro herror
      cases herror
      exact .operations hmost
    · intro hfault
      cases hfault with
      | operations => rfl
      | operation hle => exact absurd hmost (Nat.not_lt.mpr hle)
  · rw [points_of_not_lt hmost, pointsFrom_eq_error_iff]
    simp only [Nat.zero_add, exists_point_eq_ok_iff hschema, point_eq_error_iff hschema]
    constructor
    · rintro ⟨before, o, after, hsplit, hbefore, ho⟩
      exact .operation (Nat.not_lt.mp hmost) hsplit hbefore ho
    · intro hfault
      cases hfault with
      | operations hlt => exact absurd hlt hmost
      | operation _ hsplit hbefore ho => exact ⟨_, _, _, hsplit, hbefore, ho⟩

/-- The fault of a handler is reported with its location. -/
theorem extract_eq_error_iff (hschema : Schema.classify settings declarations = .ok x.schema)
    {failure : HandlerError} :
    x.extract h = .error failure ↔
      failure.location = h.location ∧ x.HandlerFault h failure.error := by
  obtain ⟨location, err⟩ := failure
  unfold extract
  rw [← points_eq_error_iff hschema]
  cases x.points h with
  | ok points => simp
  | error e => simp [eq_comm]

/-- **A handler has one well-formed access point for each of its operations, or none at all and an
error that says why.** The error is the first that is met: too many operations, or the first check
that is failed by the first operation that fails one. -/
theorem extract_all_or_nothing (hschema : Schema.classify settings declarations = .ok x.schema)
    (h : Handler) :
    (∀ found, x.extract h = .ok found →
      found.length = h.operations.length ∧ (found.map AccessPoint.id).Nodup ∧
      ∀ i o, h.operations[i]? = some o →
        ∃ p, found[i]? = some p ∧ x.IsPointOf h i o p ∧ p.IsWellFormed x.schema) ∧
    (∀ failure, x.extract h = .error failure ↔
      failure.location = h.location ∧ x.HandlerFault h failure.error) ∧
    ((∃ found, x.extract h = .ok found) ↔ ∀ err, ¬ x.HandlerFault h err) := by
  refine ⟨?_, fun failure => extract_eq_error_iff hschema, ?_⟩
  · intro found hok
    obtain ⟨hlength, hpoints⟩ := extract_eq_ok hok
    refine ⟨hlength, ?_, ?_⟩
    · rw [map_id_of_extract hok]
      exact AccessPoint.nodup_idOf h.location h.operations.length
    · intro i o ho
      obtain ⟨p, hp, hpoint⟩ := hpoints i o ho
      exact ⟨p, hp, isPointOf_of_point hschema hpoint, isWellFormed_of_point hschema hpoint⟩
  · simp only [← points_eq_error_iff hschema]
    unfold extract
    cases x.points h with
    | ok points => simp
    | error e => simp

/-- In the sample application, a handler that reads users and projects has two points. One that goes
on with an entity that does not exist has none, whatever else is wrong with it. -/
theorem extract_all_or_nothing_sample :
    ∃ (x : Extractor) (read : Operation) (h h' : Handler) (found : List AccessPoint),
      Schema.classify Sample.settings.schema Sample.schema = .ok x.schema ∧
      h.operations = [read, .on .read ["Project"]] ∧
      h'.operations = [read, (Operation.on .read ["User", "Ghost"]).filter "email" "1",
        .on .delete []] ∧
      x.extract h = .ok found ∧ (found.map AccessPoint.id).Nodup ∧
      (∃ p, found[1]? = some p ∧ p.id = "routes.py:34:list_all#1" ∧ p.IsWellFormed x.schema) ∧
      x.extract h' = .error ⟨h'.location, .unknownEntity "Ghost" 1⟩ := by
  let schema := (Schema.classify Sample.settings.schema Sample.schema).toOption.getD default
  let x := Extractor.ofSettings schema Sample.settings
  let read := (Operation.on .read ["users", "User"]).filter "workspace_id" "workspace.id"
  let empty := Sample.scopedHandler 34 "list_all" "/all"
  let h := { empty with operations := [read, .on .read ["Project"]] }
  let ghost := (Operation.on .read ["User", "Ghost"]).filter "email" "1"
  let h' := { empty with operations := [read, ghost, .on .delete []] }
  let found := (x.extract h).toOption.getD []
  let first := found.head?.getD default
  have hschema : Schema.classify Sample.settings.schema Sample.schema = .ok x.schema := by
    decide +kernel
  have hfound : x.extract h = .ok found := by decide +kernel
  obtain ⟨-, hnodup, hpoints⟩ := (extract_all_or_nothing hschema h).1 found hfound
  obtain ⟨p, hp, hof, hwellFormed⟩ := hpoints 1 (.on .read ["Project"]) rfl
  refine ⟨x, read, h, h', found, hschema, rfl, rfl, hfound, hnodup,
    ⟨p, hp, hof.id.trans (by decide), hwellFormed⟩, ?_⟩
  refine ((extract_all_or_nothing hschema h').2.1 _).mpr ⟨rfl, ?_⟩
  have hoperations : h'.operations = [read] ++ ghost :: [.on .delete []] := rfl
  have htargets : ghost.targets = ["User"] ++ "Ghost" :: [] := rfl
  refine .operation (by decide +kernel) hoperations ?_
    (.unknownTarget ⟨by decide +kernel, by decide +kernel⟩ htargets ?_ (by decide +kernel))
  · intro i earlier hearlier
    obtain ⟨hi, rfl⟩ := List.getElem?_eq_some_iff.mp hearlier
    obtain rfl : i = 0 := by simpa using hi
    have hread : x.point h' 0 read = .ok first := by decide +kernel
    exact (exists_point_eq_ok_iff hschema).mp ⟨first, hread⟩
  · intro earlier hearlier
    cases List.mem_singleton.mp hearlier
    exact ⟨(schema.get? "User").getD default, by decide +kernel⟩

end Extractor

end Tenancy

import Tenancy.Access.Point
import Tenancy.Proofs.Access.Trace
import Tenancy.Proofs.Schema.Plan
import Tenancy.Proofs.Support.FirstMet

/-!
# What extraction gives

An access point is made from one operation, and the points of a handler stand in the order of its
operations. This module opens each step of the extraction once:

* `extract_eq_ok_iff`: a handler without too many operations has the points of its operations.
* `extract_eq_ok`: there is one point per operation, at the same place.
* `point_eq_ok_iff`: a point is made from the targets and the filters that are found, if no limit is
  exceeded.
* `targets_eq_ok_iff` and `targets_eq_error_iff`: the targets are the entities that the names of the
  operation resolve to, or the first name that resolves to none is reported. `mem_targets_iff` does
  so for the entities alone.
* `ofCondition_eq_ok`: a filter has the column that its condition was resolved to, and everything
  else from the condition.
* `mem_executionPaths_iff`: the paths of a point are those on which the operation is built and
  executed (`Flow.IsRun`).
-/

set_option autoImplicit false

namespace Tenancy

open Tenancy.Support

/-! ### Paths and limits -/

namespace Flow

variable {f : Flow} {limits : ScanLimits}

/-- An operation is built and executed on a branch. Without paths it is executed on one straight
line that has no label. -/
def IsRun (f : Flow) (branch : Option String) : Prop :=
  f.paths = [] ∧ branch = none ∨
    ∃ path ∈ f.paths, path.builds = true ∧ path.executes = true ∧ path.branch = branch

/-- The execution paths are the branches on which the operation is built and executed. -/
theorem mem_executionPaths_iff {branch : Option String} :
    branch ∈ f.executionPaths ↔ f.IsRun branch := by
  unfold executionPaths IsRun
  cases hpaths : f.paths with
  | nil => simp
  | cons first rest =>
    rw [if_neg (by simp), List.mem_eraseDups, List.mem_map]
    constructor
    · rintro ⟨path, hpath, rfl⟩
      obtain ⟨hmem, hruns⟩ := List.mem_filter.mp hpath
      obtain ⟨hbuilds, hexecutes⟩ := Bool.and_eq_true_iff.mp hruns
      exact .inr ⟨path, hmem, hbuilds, hexecutes, rfl⟩
    · rintro (⟨hnil, -⟩ | ⟨path, hmem, hbuilds, hexecutes, rfl⟩)
      · cases hnil
      · exact ⟨path, List.mem_filter.mpr ⟨hmem, by rw [hbuilds, hexecutes]; rfl⟩, rfl⟩

/-- There are execution paths exactly when the operation is executed on some branch. -/
theorem executionPaths_ne_nil_iff :
    f.executionPaths ≠ [] ↔ ∃ branch, f.IsRun branch := by
  simp only [← mem_executionPaths_iff]
  constructor
  · exact List.exists_mem_of_ne_nil _
  · rintro ⟨branch, hbranch⟩
    exact List.ne_nil_of_mem hbranch

/-- Execution paths are listed once each. -/
theorem nodup_executionPaths (f : Flow) : f.executionPaths.Nodup := by
  unfold executionPaths
  split
  · exact List.nodup_singleton none
  · exact nodup_eraseDups _

/-- There are not too many paths, and they are not nested too deep. -/
def FitsIn (f : Flow) (limits : ScanLimits) : Prop :=
  f.paths.length ≤ limits.maxPathsPerOperation.toNat ∧ f.nestingDepth ≤ limits.maxNestingDepth

/-- No limit is exceeded if the paths fit in. -/
theorem exceeded?_eq_none_iff : f.exceeded? limits = none ↔ f.FitsIn limits := by
  unfold exceeded? FitsIn
  split
  · rename_i hpaths
    exact ⟨nofun, fun h => absurd h.1 (Nat.not_le.mpr hpaths)⟩
  split
  · rename_i hdepth
    exact ⟨nofun, fun h => absurd h.2 (UInt32.not_le.mpr hdepth)⟩
  · rename_i hpaths hdepth
    exact ⟨fun _ => ⟨Nat.not_lt.mp hpaths, UInt32.not_lt.mp hdepth⟩, fun _ => rfl⟩

end Flow

/-! ### Filters -/

/-- A filter has the column that its condition was resolved to. -/
theorem Filter.ofCondition_eq_ok {names : NameScope} {targets : List Entity} {operation : Nat}
    {c : Condition} {f : Filter} (h : Filter.ofCondition names targets operation c = .ok f) :
    ∃ ref, ColumnRef.resolve targets c.column operation = .ok ref ∧
      f = ⟨ref.entity, ref.column, .ofText c.comparison, names.sourceOf c.operand, c.joinedBy,
        c.branch⟩ := by
  obtain ⟨ref, href, h⟩ := bind_eq_ok_iff.mp h
  cases h
  exact ⟨ref, href, rfl⟩

namespace Extractor

variable {x : Extractor} {h : Handler}

/-! ### Dependencies -/

/-- The kinds of a handler are those that its dependencies give. -/
theorem mem_kinds_iff {kind : ProviderKind} :
    kind ∈ x.kinds h ↔ ∃ d ∈ h.dependencies, x.kindOf d = kind := by
  unfold kinds
  rw [List.mem_filter, List.contains_iff_mem, List.mem_map]
  constructor
  · exact fun hkind => hkind.2
  · intro hkind
    refine ⟨?_, hkind⟩
    cases kind <;> simp [ProviderKind.all]

/-- The names of tenant contexts are those of the dependencies that give it. -/
theorem mem_tenantValues_iff {name : String} :
    name ∈ (x.namesOf h).tenantValues ↔
      ∃ d ∈ h.dependencies, x.kindOf d = .tenantContext ∧ d.name = name := by
  unfold namesOf
  simp only [List.mem_map, List.mem_filter, decide_eq_true_eq, and_assoc]

/-! ### Targets -/

/-- The entity that one name of a target resolves to. -/
def target (x : Extractor) (operation : Nat) (name : String) : Except ExtractionError Entity :=
  match x.schema.resolve? (Text.trim name) with
  | none => .error (.unknownEntity name operation)
  | some e => .ok e

theorem target_eq_ok_iff {operation : Nat} {name : String} {e : Entity} :
    x.target operation name = .ok e ↔ x.schema.resolve? (Text.trim name) = some e := by
  unfold target
  cases x.schema.resolve? (Text.trim name) <;> simp

theorem target_eq_error_iff {operation : Nat} {name : String} {err : ExtractionError} :
    x.target operation name = .error err ↔
      x.schema.resolve? (Text.trim name) = none ∧ err = .unknownEntity name operation := by
  unfold target
  cases x.schema.resolve? (Text.trim name) <;> simp [eq_comm]

/-- The targets are the entities that the names resolve to, each where it is first met, behind those
that were found before. An entity is left out if its name is there already, which loses nothing as
names of entities are unique. -/
theorem targets_eq_mapM (hnames : Ordered.Increasing (x.schema.entities.map Entity.name))
    {operation : Nat} {found : List Entity} (names : List String)
    (hfound : ∀ e ∈ found, e ∈ x.schema.entities) :
    x.targets operation found names =
      (names.mapM (x.target operation)).map fun entities =>
        found ++ (entities.removeAll found).eraseDups := by
  induction names generalizing found with
  | nil => simp [targets, Except.map, pure, Except.pure]
  | cons name names ih =>
    unfold targets
    rw [List.mapM_cons, target]
    cases htarget : x.schema.resolve? (Text.trim name) with
    | none => rfl
    | some e =>
      have he := Schema.mem_of_resolve? htarget
      have hany : (found.any fun other => other.name = e.name) = true ↔ e ∈ found := by
        rw [List.any_eq_true]
        constructor
        · rintro ⟨other, hother, hname⟩
          rw [← List.inj_on_of_nodup_map hnames.nodup (hfound other hother) he
            (of_decide_eq_true hname)]
          exact hother
        · intro hmem
          exact ⟨e, hmem, decide_eq_true rfl⟩
      simp only
      by_cases hmem : e ∈ found
      · rw [if_pos (hany.mpr hmem), ih hfound]
        cases names.mapM (x.target operation) with
        | error err => rfl
        | ok entities =>
          show _ = Except.ok (found ++ ((e :: entities).removeAll found).eraseDups)
          rw [cons_removeAll_of_mem hmem]
          rfl
      · have hfound' : ∀ other ∈ found ++ [e], other ∈ x.schema.entities := by
          intro other hother
          rcases List.mem_append.mp hother with hother | hother
          · exact hfound other hother
          · rw [List.mem_singleton.mp hother]
            exact he
        rw [if_neg (mt hany.mp hmem), ih hfound']
        cases names.mapM (x.target operation) with
        | error err => rfl
        | ok entities =>
          show Except.ok (found ++ [e] ++ (entities.removeAll (found ++ [e])).eraseDups) =
            Except.ok (found ++ ((e :: entities).removeAll found).eraseDups)
          rw [eraseDups_cons_removeAll_of_not_mem hmem, ← List.append_cons]

/-- The targets of an operation are the entities that its names resolve to, each once. -/
theorem targets_eq_ok_iff (hnames : Ordered.Increasing (x.schema.entities.map Entity.name))
    {operation : Nat} {names : List String} {result : List Entity} :
    x.targets operation [] names = .ok result ↔
      ∃ entities, List.Forall₂ (fun name e => x.schema.resolve? (Text.trim name) = some e)
        names entities ∧ result = entities.eraseDups := by
  rw [targets_eq_mapM hnames names (by simp), map_eq_ok_iff]
  refine exists_congr fun entities => and_congr ?_ ?_
  · simp only [mapM_eq_ok_iff, target_eq_ok_iff]
  · rw [List.removeAll_nil, List.nil_append, eq_comm]

/-- There are no targets if a name resolves to no entity, and the first such name is reported. -/
theorem targets_eq_error_iff (hnames : Ordered.Increasing (x.schema.entities.map Entity.name))
    {operation : Nat} {names : List String} {err : ExtractionError} :
    x.targets operation [] names = .error err ↔
      ∃ before name after, names = before ++ name :: after ∧
        (∀ earlier ∈ before, ∃ e, x.schema.resolve? (Text.trim earlier) = some e) ∧
        x.schema.resolve? (Text.trim name) = none ∧ err = .unknownEntity name operation := by
  rw [targets_eq_mapM hnames names (by simp), map_eq_error_iff, mapM_eq_error_iff]
  simp only [target_eq_ok_iff, target_eq_error_iff]

/-- The targets that are found are those found before and the entities that the names resolve to. -/
theorem mem_targets_iff (hnames : Ordered.Increasing (x.schema.entities.map Entity.name))
    {operation : Nat} {found result : List Entity} {names : List String}
    (hfound : ∀ e ∈ found, e ∈ x.schema.entities)
    (hok : x.targets operation found names = .ok result) (e : Entity) :
    e ∈ result ↔ e ∈ found ∨ ∃ name ∈ names, x.schema.resolve? (Text.trim name) = some e := by
  rw [targets_eq_mapM hnames names hfound, map_eq_ok_iff] at hok
  obtain ⟨entities, hentities, rfl⟩ := hok
  have hresolved := mapM_eq_ok_iff.mp hentities
  simp only [target_eq_ok_iff] at hresolved
  have hmem : e ∈ entities ↔ ∃ name ∈ names, x.schema.resolve? (Text.trim name) = some e := by
    constructor
    · exact exists_of_forall₂_right hresolved
    · rintro ⟨name, hname, hresolve⟩
      obtain ⟨other, hother, hresolve'⟩ := exists_of_forall₂_left hresolved hname
      rw [hresolve] at hresolve'
      cases hresolve'
      exact hother
  rw [← hmem, List.mem_append, List.mem_eraseDups]
  by_cases he : e ∈ found <;> simp [List.removeAll, he]

/-! ### Points -/

/-- The access point of an operation, made from its targets and filters. -/
def pointOf (x : Extractor) (h : Handler) (index : Nat) (o : Operation) (targets : List Entity)
    (filters : List Filter) : AccessPoint where
  id := AccessPoint.idOf h.location index
  location := { h.location with line := o.line <|> h.location.line }
  kind := o.kind
  targets := .ofList (targets.map Entity.name)
  dependencies := x.kinds h
  exemptions := x.exemptions h
  filters
  paths := o.flow.executionPaths
  reachesExecution := !o.flow.executionPaths.isEmpty

/-- A point is made where no limit is exceeded and targets are named, from the targets and the
filters that are found. -/
theorem point_eq_ok_iff {index : Nat} {o : Operation} {p : AccessPoint} :
    x.point h index o = .ok p ↔ o.flow.exceeded? x.limits = none ∧ o.targets ≠ [] ∧
      ∃ targets filters, x.targets index [] o.targets = .ok targets ∧
        List.Forall₂ (fun c f => Filter.ofCondition (x.namesOf h) targets index c = .ok f)
          o.conditions filters ∧
        p = x.pointOf h index o targets filters := by
  unfold point
  constructor
  · intro hp
    split at hp
    · cases hp
    rename_i hlimits
    split at hp
    · cases hp
    rename_i hnamed
    obtain ⟨targets, htargets, hp⟩ := bind_eq_ok_iff.mp hp
    obtain ⟨filters, hfilters, hp⟩ := bind_eq_ok_iff.mp hp
    cases hp
    refine ⟨hlimits, by simpa using hnamed, ?_⟩
    exact ⟨targets, filters, htargets, mapM_eq_ok_iff.mp hfilters, rfl⟩
  · rintro ⟨hlimits, hnamed, targets, filters, htargets, hfilters, rfl⟩
    simp only [hlimits]
    rw [if_neg (by simpa using hnamed)]
    refine bind_eq_ok_iff.mpr ⟨targets, htargets, ?_⟩
    exact bind_eq_ok_iff.mpr ⟨filters, mapM_eq_ok_iff.mpr hfilters, rfl⟩

/-- A point is made from the targets and the filters that were found. -/
theorem point_eq_ok {index : Nat} {o : Operation} {p : AccessPoint}
    (hp : x.point h index o = .ok p) :
    ∃ targets filters, x.targets index [] o.targets = .ok targets ∧
      List.Forall₂ (fun c f => Filter.ofCondition (x.namesOf h) targets index c = .ok f)
        o.conditions filters ∧
      p = x.pointOf h index o targets filters :=
  (point_eq_ok_iff.mp hp).2.2

/-- There is one point per operation, made with the place of the operation. -/
theorem pointsFrom_eq_ok {index : Nat} {operations : List Operation} {points : List AccessPoint}
    (hok : x.pointsFrom h index operations = .ok points) :
    points.length = operations.length ∧
      ∀ i o, operations[i]? = some o →
        ∃ p, points[i]? = some p ∧ x.point h (index + i) o = .ok p := by
  induction operations generalizing index points with
  | nil =>
    cases hok
    exact ⟨rfl, fun i o ho => by cases ho⟩
  | cons first rest ih =>
    unfold pointsFrom at hok
    obtain ⟨p, hp, hok⟩ := bind_eq_ok_iff.mp hok
    obtain ⟨others, hothers, hok⟩ := bind_eq_ok_iff.mp hok
    cases hok
    obtain ⟨hlength, hpoints⟩ := ih hothers
    refine ⟨by rw [List.length_cons, List.length_cons, hlength], ?_⟩
    intro i o ho
    -- Places in the rest are counted from the next index on.
    cases i with
    | zero =>
      cases ho
      exact ⟨p, rfl, hp⟩
    | succ i =>
      obtain ⟨q, hq, hpoint⟩ := hpoints i o ho
      refine ⟨q, hq, ?_⟩
      rw [Nat.add_comm i 1, ← Nat.add_assoc]
      exact hpoint

/-- A handler with too many operations has no points. -/
theorem points_of_lt (hmost : x.limits.maxOperationsPerHandler.toNat < h.operations.length) :
    x.points h = .error (.scanCapExceeded "max_operations_per_handler" h.operations.length
      x.limits.maxOperationsPerHandler.toNat) := if_pos hmost

/-- Otherwise it has those of its operations. -/
theorem points_of_not_lt
    (hmost : ¬ x.limits.maxOperationsPerHandler.toNat < h.operations.length) :
    x.points h = x.pointsFrom h 0 h.operations := if_neg hmost

/-- A handler without too many operations has the points of its operations. -/
theorem extract_eq_ok_iff {found : List AccessPoint} :
    x.extract h = .ok found ↔ h.operations.length ≤ x.limits.maxOperationsPerHandler.toNat ∧
      x.pointsFrom h 0 h.operations = .ok found := by
  unfold extract
  by_cases hmost : x.limits.maxOperationsPerHandler.toNat < h.operations.length
  · rw [points_of_lt hmost]
    constructor
    · intro hok
      cases hok
    · rintro ⟨hle, -⟩
      exact absurd hmost (Nat.not_lt.mpr hle)
  · rw [points_of_not_lt hmost]
    cases x.pointsFrom h 0 h.operations with
    | error e => exact ⟨nofun, nofun⟩
    | ok points => simp [Nat.not_lt.mp hmost]

/-- There is one point per operation of a handler, at the same place. -/
theorem extract_eq_ok {found : List AccessPoint} (hok : x.extract h = .ok found) :
    found.length = h.operations.length ∧
      ∀ i o, h.operations[i]? = some o →
        ∃ p, found[i]? = some p ∧ x.point h i o = .ok p := by
  simpa only [Nat.zero_add] using pointsFrom_eq_ok (extract_eq_ok_iff.mp hok).2

/-- Every point of a handler is the one of an operation at the same place. -/
theorem exists_operation {found : List AccessPoint} (hok : x.extract h = .ok found)
    {p : AccessPoint} (hp : p ∈ found) :
    ∃ operation o, found[operation]? = some p ∧ h.operations[operation]? = some o ∧
      x.point h operation o = .ok p := by
  obtain ⟨hlength, hall⟩ := extract_eq_ok hok
  obtain ⟨operation, hget⟩ := List.mem_iff_getElem?.mp hp
  obtain ⟨hlt, -⟩ := List.getElem?_eq_some_iff.mp hget
  have ho := List.getElem?_eq_getElem (l := h.operations) (hlength ▸ hlt)
  obtain ⟨q, hq, hpoint⟩ := hall operation _ ho
  rw [hget] at hq
  cases hq
  exact ⟨operation, _, hget, ho, hpoint⟩

end Extractor

end Tenancy

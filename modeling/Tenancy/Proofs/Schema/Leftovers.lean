import Tenancy.Facts.Build
import Tenancy.Proofs.Schema.Conventions
import Tenancy.Proofs.Schema.Reachability
import Tenancy.Proofs.Support.Outcomes

/-!
# What the choice for leftovers decides

The settings choose what becomes of entities that nothing classifies: they are global, or they are
tenant-scoped by a marker column if they have one. The choice is made last, so it does not decide
which entities are left over.

* `settles_or_leaves`: under all choices an entity is made in the same way, or it is left over under
  all of them. What is left over is never reached by tenancy; of the others, those that are
  tenant-scoped or roots are what is reached.
* `leftover_cases`: what becomes of a leftover.
* `classify_of_choices`: two schemas that are classified under the two choices differ in leftovers
  with a marker column alone.
-/

set_option autoImplicit false

namespace Tenancy.Schema

open Tenancy.Support
open Propagation

variable {s : SchemaSettings} {declarations : List Declaration} {p : Plan} {l : Labelled}

/-! ### Plans under another choice -/

/-- A plan under another choice for leftovers. -/
def Plan.under (p : Plan) (choice : UnresolvedScope) : Plan :=
  { p with settings := { p.settings with unresolvedScope := choice } }

/-- The choice for leftovers is not read before entities are made. -/
theorem plan_under (s : SchemaSettings) (declarations : List Declaration)
    (choice : UnresolvedScope) :
    plan { s with unresolvedScope := choice } declarations
      = (fun p => p.under choice) <$> plan s declarations := by
  cases hmerge : Declaration.merge declarations with
  | error e =>
    unfold plan
    rw [hmerge]
    rfl
  | ok merged =>
    rw [plan_of_merge hmerge, plan_of_merge hmerge]
    show merged.mapM (labelOne s) >>= _ = _
    cases merged.mapM (labelOne s) with
    | error e => rfl
    | ok labelled => rfl

/-- A plan has the settings and conventions that it was made with. -/
theorem settings_of_plan (h : plan s declarations = .ok p) :
    p.settings = s ∧ p.conventions = ⟨s.scopingColumns⟩ := by
  obtain ⟨merged, -, -, hp⟩ := plan_eq_ok h
  rw [hp]
  exact ⟨rfl, rfl⟩

/-! ### Names that are reached -/

/-- A labelled entity is reached if it is labelled tenant-scoped or is a root, or if it is
unlabelled and a chain leads from it to an anchor. -/
theorem name_mem_reached_iff (h : plan s declarations = .ok p) (hl : l ∈ p.labelled) :
    l.name ∈ p.reached ↔ ((∃ column origin, l.label = .tenant column origin) ∨ p.IsRoot l) ∨
      l.label = .unlabelled ∧ ¬ p.IsRoot l ∧ p.Chain l.name := by
  rw [mem_reached_iff]
  constructor
  · rintro (⟨l', hl', hname, hstart⟩ | ⟨⟨l', hl', hname, hlabel, hroot⟩, hchain⟩)
    · exact .inl (eq_of_name h hl hl' hname ▸ hstart)
    · cases eq_of_name h hl hl' hname
      exact .inr ⟨hlabel, hroot, hchain⟩
  · rintro (hstart | ⟨hlabel, hroot, hchain⟩)
    · exact .inl ⟨l, hl, rfl, hstart⟩
    · exact .inr ⟨⟨l, hl, rfl, hlabel, hroot⟩, hchain⟩

/-! ### Entities that are left over -/

/-- An entity that tenancy can be carried from: its rows belong to tenants, or are tenants. -/
def BearsTenancy (e : Entity) : Prop := e.scope = .tenantScoped ∨ e.tenantRoot = true

/-- A labelled entity is made in one way under all choices. -/
structure Plan.Settles (p : Plan) (l : Labelled) (e : Entity) : Prop where
  made : ∀ choice, entityOf (p.under choice) p.edges p.reached l = e
  notDefault : e.origin ≠ .default
  notMarker : e.origin ≠ .markerColumn
  bears : BearsTenancy e ↔ l.name ∈ p.reached

/-- A labelled entity is left over under all choices. -/
structure Plan.Leaves (p : Plan) (l : Labelled) : Prop where
  made : ∀ choice, entityOf (p.under choice) p.edges p.reached l =
    leftover (p.under choice) l.declaration
  unreached : l.name ∉ p.reached

/-- What is made of a settled entity. -/
theorem Plan.Settles.entityOf_eq {e : Entity} (h : p.Settles l e) :
    entityOf p p.edges p.reached l = e := h.made p.settings.unresolvedScope

/-- What is made of an entity that is left over. -/
theorem Plan.Leaves.entityOf_eq (h : p.Leaves l) :
    entityOf p p.edges p.reached l = leftover p l.declaration :=
  h.made p.settings.unresolvedScope

/-- What is said outright is neither a default nor a marker column. -/
theorem ne_of_stated {origin : Origin} (h : origin = .mark ∨ origin = .configuration) :
    origin ≠ .default ∧ origin ≠ .markerColumn := by
  rcases h with rfl | rfl <;> simp

/-- An entity with a label is settled by it. -/
theorem settles_of_label (h : plan s declarations = .ok p) (hl : l ∈ p.labelled)
    (hlabel : l.label ≠ .unlabelled) : ∃ e, p.Settles l e := by
  have hdeclared := ofDeclaration_of_mem h hl
  have hreached := name_mem_reached_iff h hl
  cases hcase : l.label with
  | unlabelled => exact absurd hcase hlabel
  | tenant column origin =>
    rw [hcase] at hdeclared hreached
    obtain ⟨hdefault, hmarker⟩ := ne_of_stated (origin_of_tenant hdeclared)
    refine ⟨scopedEntity l.declaration column origin, ?_, hdefault, hmarker, ?_⟩
    · intro choice
      simp [entityOf, hcase]
    · exact iff_of_true (.inl rfl) (hreached.mpr (.inl (.inl ⟨column, origin, rfl⟩)))
  | global origin =>
    rw [hcase] at hdeclared hreached
    obtain ⟨hdefault, hmarker⟩ := ne_of_stated (origin_of_global_or_root hdeclared (.inl rfl))
    -- A global entity can still be a root, if roots are inferred.
    let isRoot := (rootOrigin? p.settings.inferRoots p.edges l).isSome
    refine ⟨globalEntity l.declaration isRoot origin, ?_, hdefault, hmarker, ?_⟩
    · intro choice
      simp only [entityOf, hcase]
      rfl
    · have hroot : isRoot = true ↔ p.IsRoot l := isSome_rootOrigin?_iff
      simp [hreached, BearsTenancy, globalEntity, hroot]
  | root origin =>
    rw [hcase] at hdeclared hreached
    obtain ⟨hdefault, hmarker⟩ := ne_of_stated (origin_of_global_or_root hdeclared (.inr rfl))
    refine ⟨globalEntity l.declaration true origin, ?_, hdefault, hmarker, ?_⟩
    · intro choice
      simp [entityOf, hcase]
    · exact iff_of_true (.inr rfl) (hreached.mpr (.inl (.inr (.inl ⟨origin, hcase⟩))))

/-- An unlabelled root is settled as one. -/
theorem settles_of_isRoot (h : plan s declarations = .ok p) (hl : l ∈ p.labelled)
    (hlabel : l.label = .unlabelled) (hroot : p.IsRoot l) :
    p.Settles l (globalEntity l.declaration true .inferredRoot) where
  made choice := by
    have hfound : rootOrigin? p.settings.inferRoots p.edges l = some .inferredRoot := by
      have hsome := isSome_rootOrigin?_iff.mpr hroot
      simp only [rootOrigin?, hlabel] at hsome ⊢
      by_cases hinferred : (p.settings.inferRoots && becomesRoot p.edges l &&
          p.edges.any fun r => r.toEntity = l.name) = true
      · exact if_pos hinferred
      · rw [if_neg hinferred] at hsome
        cases hsome
    have hfound' : rootOrigin? (p.under choice).settings.inferRoots p.edges l =
      some .inferredRoot := hfound
    simp only [entityOf, hlabel, hfound']
  notDefault := by simp [globalEntity]
  notMarker := by simp [globalEntity]
  bears := iff_of_true (.inr rfl) ((name_mem_reached_iff h hl).mpr (.inl (.inr hroot)))

/-- Every entity is settled before leftovers are looked at, or it is left over, whatever is chosen
for leftovers. -/
theorem settles_or_leaves (h : plan s declarations = .ok p) (hl : l ∈ p.labelled) :
    (∃ e, p.Settles l e) ∨ p.Leaves l := by
  by_cases hlabel : l.label = .unlabelled
  · by_cases hroot : p.IsRoot l
    · exact .inl ⟨_, settles_of_isRoot h hl hlabel hroot⟩
    -- Neither chains nor the edge that is chosen depend on what is chosen for leftovers.
    have hopen : ∀ choice, (p.Chain l.name ∧
        ∃ edge, choose? p.conventions p.edges p.reached l.name = some edge ∧
          entityOf (p.under choice) p.edges p.reached l = scopedEntity l.declaration edge.column
            (.relationship edge.column edge.target)) ∨
        (¬ p.Chain l.name ∧
          entityOf (p.under choice) p.edges p.reached l
            = leftover (p.under choice) l.declaration) := by
      intro choice
      have hunder : plan { s with unresolvedScope := choice } declarations
          = .ok (p.under choice) := by
        rw [plan_under, h]
        rfl
      exact entityOf_open hunder hl hlabel hroot
    have hreached := name_mem_reached_iff h hl
    by_cases hchain : p.Chain l.name
    · obtain ⟨-, edge, hedge, -⟩ := (hopen .global).resolve_right fun hnot => hnot.1 hchain
      refine .inl ⟨scopedEntity l.declaration edge.column
        (.relationship edge.column edge.target), ?_, by simp [scopedEntity],
        by simp [scopedEntity], ?_⟩
      · intro choice
        obtain ⟨-, edge', hedge', hmade⟩ :=
          (hopen choice).resolve_right fun hnot => hnot.1 hchain
        rw [hmade, Option.some.inj (hedge'.symm.trans hedge)]
      · exact iff_of_true (.inl rfl) (hreached.mpr (.inr ⟨hlabel, hroot, hchain⟩))
    · refine .inr ⟨?_, ?_⟩
      · intro choice
        exact ((hopen choice).resolve_left fun hyes => hchain hyes.1).2
      · rw [hreached]
        rintro ((⟨column, origin, htenant⟩ | hroot') | ⟨-, -, hchain'⟩)
        · rw [hlabel] at htenant
          cases htenant
        · exact hroot hroot'
        · exact hchain hchain'
  · exact .inl (settles_of_label h hl hlabel)

/-- What becomes of a leftover: it is tenant-scoped by its best column if marker columns are chosen
and it has one, and else it is global. -/
theorem leftover_cases (p : Plan) (d : Declaration) :
    (p.settings.unresolvedScope = .markerColumn ∧ ∃ column, p.conventions.IsBest d.columns column ∧
      leftover p d = scopedEntity d column .markerColumn) ∨
    ((p.settings.unresolvedScope = .markerColumn →
        ∀ column ∈ d.columns, p.conventions.accepts column = false) ∧
      leftover p d = globalEntity d false .default) := by
  unfold leftover
  cases p.settings.unresolvedScope with
  | global => exact .inr ⟨by simp, rfl⟩
  | markerColumn =>
    cases hbest : p.conventions.best? d.columns with
    | some column => exact .inl ⟨rfl, column, Conventions.best?_eq_some_iff.mp hbest, rfl⟩
    | none => exact .inr ⟨fun _ => Conventions.best?_eq_none_iff.mp hbest, rfl⟩

/-! ### Two choices -/

/-- How an entity that is classified with leftovers global is classified with marker columns: one
that was global for want of anything else and has a column that matches a convention is
tenant-scoped by the best of these, and every other is the same. -/
inductive Resettled (c : Conventions) : Entity → Entity → Prop
  | kept {e : Entity} :
      (e.origin = .default → ∀ column ∈ e.columns, c.accepts column = false) → Resettled c e e
  | marked {e : Entity} {column : String} : e.origin = .default →
      c.IsBest e.columns.toList column →
      Resettled c e
        { e with scope := .tenantScoped, scopingColumn := some column, origin := .markerColumn }

/-- A leftover is settled again by its marker column. -/
theorem resettled_leftover (p : Plan) (d : Declaration) :
    Resettled p.conventions (leftover (p.under .global) d)
      (leftover (p.under .markerColumn) d) := by
  have hglobal : leftover (p.under .global) d = globalEntity d false .default := rfl
  rw [hglobal]
  rcases leftover_cases (p.under .markerColumn) d with ⟨-, column, hbest, he⟩ | ⟨hnone, he⟩
  · rw [he]
    refine .marked rfl ⟨OrdSet.mem_ofList.mpr hbest.mem, ?_⟩
    obtain ⟨priority, hpriority, hleast⟩ := hbest.least
    exact ⟨priority, hpriority, fun other hother => hleast other (OrdSet.mem_ofList.mp hother)⟩
  · rw [he]
    exact .kept fun _ column hcolumn => hnone rfl column (OrdSet.mem_ofList.mp hcolumn)

/-- Under the two choices the entities of a plan are resettled one by one. -/
theorem resettled_entities (h : plan s declarations = .ok p) :
    List.Forall₂ (Resettled p.conventions) (ofPlan (p.under .global)).entities
      (ofPlan (p.under .markerColumn)).entities := by
  show List.Forall₂ _ (p.labelled.map (entityOf (p.under .global) p.edges p.reached))
    (p.labelled.map (entityOf (p.under .markerColumn) p.edges p.reached))
  rw [List.forall₂_map_left_iff, List.forall₂_map_right_iff, List.forall₂_same]
  intro l hl
  rcases settles_or_leaves h hl with ⟨e, hsettled⟩ | hleft
  · rw [hsettled.made, hsettled.made]
    exact .kept fun hdefault => absurd hdefault hsettled.notDefault
  · rw [hleft.made, hleft.made]
    exact resettled_leftover p l.declaration

/-- **The choice for leftovers decides on leftovers alone.** Classification with leftovers global
and with marker columns fails with the same error, or succeeds with the same relationships and the
same entities, but for those that were global for want of anything else: these are tenant-scoped by
the best of their columns if one matches a convention, and are the same otherwise. -/
theorem classify_of_choices (s : SchemaSettings) (declarations : List Declaration) :
    EndsAlike (fun schema schema' => schema.relationships = schema'.relationships ∧
        List.Forall₂ (Resettled ⟨s.scopingColumns⟩) schema.entities schema'.entities)
      (classify { s with unresolvedScope := .global } declarations)
      (classify { s with unresolvedScope := .markerColumn } declarations) := by
  unfold classify
  rw [plan_under s declarations .global, plan_under s declarations .markerColumn]
  cases hplan : plan s declarations with
  | error e => exact .error e
  | ok p =>
    have hentities := resettled_entities hplan
    rw [(settings_of_plan hplan).2] at hentities
    exact .ok ⟨rfl, hentities⟩

/-- Three entities that nothing classifies, with a pattern between two names as conventions. A name
before the pattern is preferred to what it matches, and a name after it is not; of two columns that
it matches the one with the lesser name is preferred. A flag has no such column and stays global,
and users are tenant-scoped under both choices. -/
theorem classify_of_choices_sample :
    ∃ (s : SchemaSettings) (declarations : List Declaration) (schema schema' : Schema),
      s.scopingColumns = ["tenant_id", "*_workspace_id", "account_id"] ∧
      classify { s with unresolvedScope := .global } declarations = .ok schema ∧
      classify { s with unresolvedScope := .markerColumn } declarations = .ok schema' ∧
      schema.entities.map (fun e => (e.name, e.scopingColumn)) =
        [("Audit", none), ("Event", none), ("Flag", none), ("Tenant", none),
          ("User", some "tenant_id")] ∧
      schema'.entities.map (fun e => (e.name, e.scopingColumn)) =
        [("Audit", some "old_workspace_id"), ("Event", some "tenant_id"), ("Flag", none),
          ("Tenant", none), ("User", some "tenant_id")] ∧
      schema.relationships = schema'.relationships ∧
      List.Forall₂ (Resettled ⟨s.scopingColumns⟩) schema.entities schema'.entities := by
  let s := { SchemaSettings.default with
    scopingColumns := ["tenant_id", "*_workspace_id", "account_id"] }
  let declarations := [
    (Declaration.named "Tenant" "tenants").addColumns ["id"],
    (Declaration.named "User" "users")
      |>.addColumns ["id", "tenant_id"]
      |>.addForeignKey "tenant_id" "tenants",
    (Declaration.named "Audit" "audits").addColumns
      ["account_id", "src_workspace_id", "old_workspace_id"],
    (Declaration.named "Event" "events").addColumns ["old_workspace_id", "tenant_id"],
    (Declaration.named "Flag" "flags").addColumns ["id", "workspace_id"]]
  let classified (choice : UnresolvedScope) :=
    (classify { s with unresolvedScope := choice } declarations).toOption.getD default
  have hclassified : ∀ choice, classify { s with unresolvedScope := choice } declarations =
      .ok (classified choice) := by
    intro choice
    cases choice with
    | global => decide +kernel
    | markerColumn => decide +kernel
  obtain ⟨hrelationships, hentities⟩ := (classify_of_choices s declarations).of_eq_ok
    (hclassified .global) (hclassified .markerColumn)
  exact ⟨s, declarations, classified .global, classified .markerColumn, rfl, hclassified .global,
    hclassified .markerColumn, by decide +kernel, by decide +kernel, hrelationships, hentities⟩

end Tenancy.Schema

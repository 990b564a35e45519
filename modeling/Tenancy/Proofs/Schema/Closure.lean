import Tenancy.Proofs.Schema.Leftovers
import Tenancy.Proofs.Schema.RootInference
import Tenancy.Proofs.Schema.WellFormed

/-!
# What propagation leaves open

Tenancy is carried along scoping foreign keys until nothing more can be added, so an unlabelled
entity with such a key to a tenant-scoped entity or a root is tenant-scoped itself. Leftovers come
after that. One that has a marker column is tenant-scoped too, but nothing is carried on from it: an
entity with a scoping foreign key to it is left over as well, and is tenant-scoped only if a marker
column is listed among its own columns. The column of the foreign key is one, but it counts only if
it is listed.

* `mem_reached_of_edge`: what is reached is closed under the rule.
* `scoped_iff_not_overlooked`: in a classified schema the rule fails for entities that are
  `Overlooked` alone.
* `unlisted_task_overlooked`: it does fail for them.
-/

set_option autoImplicit false

namespace Tenancy.Schema

open Propagation

variable {s : SchemaSettings} {declarations merged : List Declaration} {schema : Schema}
  {p : Plan} {l : Labelled}

/-! ### The rule -/

/-- The rule of propagation applies to an entity: a relationship through a scoping column leads from
it to an entity that is tenant-scoped or a root. -/
def IsDue (s : SchemaSettings) (schema : Schema) (e : Entity) : Prop :=
  ∃ r ∈ schema.relationships, r.fromEntity = e.name ∧
    Conventions.accepts ⟨s.scopingColumns⟩ r.viaColumn = true ∧
    ∃ target, schema.get? r.toEntity = some target ∧ BearsTenancy target

/-- An entity is overlooked: the settings choose marker columns for leftovers, none is listed among
its columns, and what its scoping relationships lead to is tenant-scoped by a marker column at
best. -/
structure Overlooked (s : SchemaSettings) (schema : Schema) (e : Entity) : Prop where
  choice : s.unresolvedScope = .markerColumn
  unlisted : ∀ column ∈ e.columns, Conventions.accepts ⟨s.scopingColumns⟩ column = false
  targets : ∀ r ∈ schema.relationships, r.fromEntity = e.name →
    Conventions.accepts ⟨s.scopingColumns⟩ r.viaColumn = true →
    ∀ target, schema.get? r.toEntity = some target → BearsTenancy target →
      target.origin = .markerColumn

/-! ### Plans -/

/-- The scoping edges are the relationships through scoping columns. -/
theorem mem_edges_iff {r : Relationship} :
    r ∈ p.edges ↔ r ∈ (ofPlan p).relationships ∧ p.conventions.accepts r.viaColumn = true := by
  show r ∈ p.relationships.filter _ ↔ r ∈ Ordered.ofList p.relationships ∧ _
  rw [List.mem_filter, Ordered.mem_ofList]

/-- What is reached is closed: an unlabelled entity that is no root is reached if a scoping edge
leads from it to what is reached. -/
theorem mem_reached_of_edge (h : plan s declarations = .ok p) (hl : l ∈ p.labelled)
    (hlabel : l.label = .unlabelled) (hroot : ¬ p.IsRoot l) {r : Relationship} (hr : r ∈ p.edges)
    (hfrom : r.fromEntity = l.name) (hto : r.toEntity ∈ p.reached) : l.name ∈ p.reached := by
  have hchain : p.Chain r.fromEntity := by
    rcases mem_reached_iff.mp hto with hanchor | ⟨hopen, hrest⟩
    · exact .arrive hr hanchor
    · exact .pass hr hopen hrest
  exact (name_mem_reached_iff h hl).mpr (.inr ⟨hlabel, hroot, hfrom ▸ hchain⟩)

/-- An unlabelled entity that is reached and no root has a scoping edge to what is reached. -/
theorem exists_edge_of_mem_reached (h : plan s declarations = .ok p) (hl : l ∈ p.labelled)
    (hlabel : l.label = .unlabelled) (hroot : ¬ p.IsRoot l) (hreached : l.name ∈ p.reached) :
    ∃ r ∈ p.edges, r.fromEntity = l.name ∧ r.toEntity ∈ p.reached := by
  rcases (name_mem_reached_iff h hl).mp hreached with (⟨column, origin, htenant⟩ | hroot') |
    ⟨-, -, hchain⟩
  · rw [hlabel] at htenant
    cases htenant
  · exact absurd hroot' hroot
  · obtain ⟨r, hr, hfrom, hto⟩ := hchain.exists_edge
    exact ⟨r, hr, hfrom, mem_reached_iff.mpr hto⟩

/-- An unlabelled root is a root in the schema. -/
theorem not_isRoot_of_tenantRoot (h : plan s declarations = .ok p) (hl : l ∈ p.labelled)
    (hlabel : l.label = .unlabelled)
    (hroot : (entityOf p p.edges p.reached l).tenantRoot = false) : ¬ p.IsRoot l := by
  intro hisRoot
  rw [(settles_of_isRoot h hl hlabel hisRoot).entityOf_eq] at hroot
  cases hroot

/-- An entity that bears tenancy is reached, unless it is left over and has a marker column. -/
theorem mem_reached_or_marker (h : plan s declarations = .ok p) (hl : l ∈ p.labelled)
    (hbears : BearsTenancy (entityOf p p.edges p.reached l)) :
    l.name ∈ p.reached ∨ s.unresolvedScope = .markerColumn ∧
      (entityOf p p.edges p.reached l).origin = .markerColumn := by
  rcases settles_or_leaves h hl with ⟨e, hsettled⟩ | hleft
  · rw [hsettled.entityOf_eq] at hbears
    exact .inl (hsettled.bears.mp hbears)
  · rw [hleft.entityOf_eq] at hbears ⊢
    rcases leftover_cases p l.declaration with ⟨hchoice, column, -, he⟩ | ⟨-, he⟩
    · rw [he, ← (settings_of_plan h).1]
      exact .inr ⟨hchoice, rfl⟩
    · rw [he] at hbears
      rcases hbears with hscope | hroot
      · cases hscope
      · cases hroot

/-- An entity that is reached is not left over, so it has another origin than a marker column. -/
theorem bears_of_mem_reached (h : plan s declarations = .ok p) (hl : l ∈ p.labelled)
    (hreached : l.name ∈ p.reached) :
    BearsTenancy (entityOf p p.edges p.reached l) ∧
      (entityOf p p.edges p.reached l).origin ≠ .markerColumn := by
  rcases settles_or_leaves h hl with ⟨e, hsettled⟩ | hleft
  · rw [hsettled.entityOf_eq]
    exact ⟨hsettled.bears.mpr hreached, hsettled.notMarker⟩
  · exact absurd hreached hleft.unreached

/-- An unlabelled entity that is no root is reached exactly when one of its scoping relationships
leads to an entity that bears tenancy otherwise than by a marker column. -/
theorem mem_reached_iff_exists (h : plan s declarations = .ok p) (hl : l ∈ p.labelled)
    (hlabel : l.label = .unlabelled) (hroot : ¬ p.IsRoot l) :
    l.name ∈ p.reached ↔ ∃ r ∈ (ofPlan p).relationships, r.fromEntity = l.name ∧
      p.conventions.accepts r.viaColumn = true ∧ ∃ target,
        (ofPlan p).get? r.toEntity = some target ∧ BearsTenancy target ∧
          target.origin ≠ .markerColumn := by
  constructor
  · intro hreached
    obtain ⟨r, hr, hfrom, hto⟩ := exists_edge_of_mem_reached h hl hlabel hroot hreached
    obtain ⟨hrelationship, hvia⟩ := mem_edges_iff.mp hr
    obtain ⟨l', hl', hname⟩ := exists_labelled_of_mem_edges h hr
    obtain ⟨hbears, hmarker⟩ := bears_of_mem_reached h hl' (hname ▸ hto)
    exact ⟨r, hrelationship, hfrom, hvia, _, hname ▸ get?_ofPlan h hl', hbears, hmarker⟩
  · rintro ⟨r, hrelationship, hfrom, hvia, target, htarget, hbears, hmarker⟩
    obtain ⟨l', hl', hname, rfl⟩ := exists_of_get?_ofPlan htarget
    rcases mem_reached_or_marker h hl' hbears with hreached | ⟨-, horigin⟩
    · exact mem_reached_of_edge h hl hlabel hroot (mem_edges_iff.mpr ⟨hrelationship, hvia⟩) hfrom
        (hname ▸ hreached)
    · exact absurd horigin hmarker

/-- An unlabelled entity that is no root is tenant-scoped exactly when it is reached, or marker
columns are chosen for leftovers and one is listed among its columns. -/
theorem scope_entityOf_open_iff (h : plan s declarations = .ok p) (hl : l ∈ p.labelled)
    (hlabel : l.label = .unlabelled) (hroot : ¬ p.IsRoot l) :
    (entityOf p p.edges p.reached l).scope = .tenantScoped ↔ l.name ∈ p.reached ∨
      s.unresolvedScope = .markerColumn ∧ ∃ column ∈ (entityOf p p.edges p.reached l).columns,
        p.conventions.accepts column = true := by
  have hreached := name_mem_reached_iff h hl
  rcases entityOf_open h hl hlabel hroot with ⟨hchain, choice, -, he⟩ | ⟨hchain, he⟩
  · rw [he]
    exact iff_of_true rfl (.inl (hreached.mpr (.inr ⟨hlabel, hroot, hchain⟩)))
  · have hunreached : l.name ∉ p.reached := by
      simp [hreached, hlabel, hroot, hchain]
    rw [he, ← (settings_of_plan h).1]
    rcases leftover_cases p l.declaration with ⟨hchoice, column, hbest, he⟩ | ⟨hnone, he⟩
    · rw [he]
      obtain ⟨priority, hpriority, -⟩ := hbest.least
      refine iff_of_true rfl (.inr ⟨hchoice, column, OrdSet.mem_ofList.mpr hbest.mem, ?_⟩)
      simp [Conventions.accepts, hpriority]
    · rw [he]
      refine iff_of_false (by simp [globalEntity]) ?_
      rintro (hyes | ⟨hchoice, column, hcolumn, haccepts⟩)
      · exact hunreached hyes
      · rw [hnone hchoice column (OrdSet.mem_ofList.mp hcolumn)] at haccepts
        cases haccepts

/-- An unlabelled entity that is no root is overlooked exactly when it is not reached, and marker
columns are chosen for leftovers but none is listed among its columns. -/
theorem overlooked_iff (h : plan s declarations = .ok p) (hl : l ∈ p.labelled)
    (hlabel : l.label = .unlabelled) (hroot : ¬ p.IsRoot l) :
    Overlooked s (ofPlan p) (entityOf p p.edges p.reached l) ↔
      s.unresolvedScope = .markerColumn ∧ l.name ∉ p.reached ∧
        ∀ column ∈ (entityOf p p.edges p.reached l).columns,
          p.conventions.accepts column = false := by
  have hreached := mem_reached_iff_exists h hl hlabel hroot
  have hname := name_entityOf p p.edges p.reached l
  rw [(settings_of_plan h).2] at hreached ⊢
  constructor
  · rintro ⟨hchoice, hunlisted, htargets⟩
    refine ⟨hchoice, ?_, hunlisted⟩
    rw [hreached]
    rintro ⟨r, hr, hfrom, hvia, target, htarget, hbears, hmarker⟩
    exact hmarker (htargets r hr (hfrom.trans hname.symm) hvia target htarget hbears)
  · rintro ⟨hchoice, hunreached, hunlisted⟩
    refine ⟨hchoice, hunlisted, ?_⟩
    intro r hr hfrom hvia target htarget hbears
    by_contra hmarker
    exact hunreached (hreached.mpr
      ⟨r, hr, hfrom.trans hname, hvia, target, htarget, hbears, hmarker⟩)

/-! ### Classified schemas -/

/-- A merged declaration about which nothing is said is an unlabelled entity of the plan. -/
theorem exists_unlabelled (h : plan s declarations = .ok p)
    (hmerge : Declaration.merge declarations = .ok merged) {d : Declaration} (hd : d ∈ merged)
    (hunlabelled : d.IsUnlabelled s) :
    ∃ l ∈ p.labelled, l.declaration = d ∧ l.label = .unlabelled := by
  obtain ⟨merged', hmerge', hlabelled, -⟩ := plan_eq_ok h
  cases hmerge.symm.trans hmerge'
  rw [← map_declaration_labelled hlabelled] at hd
  obtain ⟨l, hl, rfl⟩ := List.mem_map.mp hd
  have hdeclared := ofDeclaration_of_mem h hl
  rw [Label.ofDeclaration_of_isUnlabelled hunlabelled] at hdeclared
  exact ⟨l, hl, rfl, (Except.ok.inj hdeclared).symm⟩

/-- **The rule of propagation holds for every entity that is not overlooked.** Take an unlabelled
entity that is no root, with a relationship through a scoping column to an entity that is
tenant-scoped or a root. It is tenant-scoped, unless leftovers are classified by marker columns, it
lists none, and all of the entities that its scoping relationships lead to bear tenancy by a marker
column or not at all. -/
theorem scoped_iff_not_overlooked (h : classify s declarations = .ok schema)
    (hmerge : Declaration.merge declarations = .ok merged) {d : Declaration} (hd : d ∈ merged)
    (hunlabelled : d.IsUnlabelled s) {e : Entity} (he : schema.get? d.entity = some e)
    (hroot : e.tenantRoot = false) (hdue : IsDue s schema e) :
    e.scope = .tenantScoped ↔ ¬ Overlooked s schema e := by
  obtain ⟨p, hplan, rfl⟩ := classify_eq_ok h
  obtain ⟨l, hl, rfl, hlabel⟩ := exists_unlabelled hplan hmerge hd hunlabelled
  cases Option.some.inj ((get?_ofPlan hplan hl).symm.trans he)
  have hopen := not_isRoot_of_tenantRoot hplan hl hlabel hroot
  rw [scope_entityOf_open_iff hplan hl hlabel hopen, overlooked_iff hplan hl hlabel hopen]
  by_cases hreached : l.name ∈ p.reached
  · simp [hreached]
  · -- What makes the rule apply bears tenancy by a marker column, so that is what is chosen.
    have hchoice : s.unresolvedScope = .markerColumn := by
      obtain ⟨r, hr, hfrom, hvia, target, htarget, hbears⟩ := hdue
      rw [name_entityOf] at hfrom
      rw [← (settings_of_plan hplan).2] at hvia
      obtain ⟨l', hl', hname, rfl⟩ := exists_of_get?_ofPlan htarget
      rcases mem_reached_or_marker hplan hl' hbears with hreached' | ⟨hchoice, -⟩
      · exact absurd (mem_reached_of_edge hplan hl hlabel hopen (mem_edges_iff.mpr ⟨hr, hvia⟩)
          hfrom (hname ▸ hreached')) hreached
      · exact hchoice
    simp [hreached, hchoice]

/-- Tasks of projects. Projects have the column of a workspace, and of tasks some columns and the
foreign key to their project are known. -/
def projectTasks (columns : List String) : List Declaration := [
  (Declaration.named "Project" "projects").addColumns ["id", "workspace_id"],
  ((Declaration.named "Task" "tasks").addColumns columns).addForeignKey "project_id" "projects"]

/-- Rows belong to tenants by the column of a workspace or a project. No roots are inferred, and
marker columns count. -/
def markerSettings : SchemaSettings :=
  { SchemaSettings.default with
    scopingColumns := ["workspace_id", "project_id"]
    inferRoots := false
    unresolvedScope := .markerColumn }

/-- Projects are tenant-scoped by a marker column alone. Tasks list the column of their foreign key,
so they are tenant-scoped too. -/
theorem listed_task_not_overlooked :
    ∃ (schema : Schema) (merged : List Declaration) (d : Declaration) (e : Entity),
      classify markerSettings (projectTasks ["id", "project_id"]) = .ok schema ∧
      Declaration.merge (projectTasks ["id", "project_id"]) = .ok merged ∧ d ∈ merged ∧
      d.IsUnlabelled markerSettings ∧ schema.get? d.entity = some e ∧ e.tenantRoot = false ∧
      IsDue markerSettings schema e ∧ e.scope = .tenantScoped ∧
      ¬ Overlooked markerSettings schema e := by
  let schema := (classify markerSettings (projectTasks ["id", "project_id"])).toOption.getD default
  let merged := (Declaration.merge (projectTasks ["id", "project_id"])).toOption.getD []
  let d := (merged.find? fun d => d.entity = "Task").getD default
  let e := (schema.get? "Task").getD default
  have hclassify : classify markerSettings (projectTasks ["id", "project_id"]) = .ok schema := by
    decide +kernel
  have hmerge : Declaration.merge (projectTasks ["id", "project_id"]) = .ok merged := by
    decide +kernel
  have hd : d ∈ merged := by decide +kernel
  have hunlabelled : d.IsUnlabelled markerSettings := by decide +kernel
  have he : schema.get? d.entity = some e := by decide +kernel
  have hroot : e.tenantRoot = false := by decide +kernel
  have hdue : IsDue markerSettings schema e :=
    ⟨⟨"Task", "Project", "project_id"⟩, by decide +kernel, by decide +kernel, by decide +kernel,
      (schema.get? "Project").getD default, by decide +kernel, .inl (by decide +kernel)⟩
  have hscope : e.scope = .tenantScoped := by decide +kernel
  exact ⟨schema, merged, d, e, hclassify, hmerge, hd, hunlabelled, he, hroot, hdue, hscope,
    (scoped_iff_not_overlooked hclassify hmerge hd hunlabelled he hroot hdue).mp hscope⟩

/-- If no columns of tasks are known but that of the foreign key, the rule applies to them all the
same, and they are global. -/
theorem unlisted_task_overlooked :
    ∃ (schema : Schema) (merged : List Declaration) (d : Declaration) (e : Entity),
      classify markerSettings (projectTasks []) = .ok schema ∧
      Declaration.merge (projectTasks []) = .ok merged ∧ d ∈ merged ∧
      d.IsUnlabelled markerSettings ∧ schema.get? d.entity = some e ∧ e.tenantRoot = false ∧
      IsDue markerSettings schema e ∧ e.scope = .global := by
  let schema := (classify markerSettings (projectTasks [])).toOption.getD default
  let merged := (Declaration.merge (projectTasks [])).toOption.getD []
  refine ⟨schema, merged, (merged.find? fun d => d.entity = "Task").getD default,
    (schema.get? "Task").getD default, by decide +kernel, by decide +kernel, by decide +kernel,
    by decide +kernel, by decide +kernel, by decide +kernel, ?_, by decide +kernel⟩
  exact ⟨⟨"Task", "Project", "project_id"⟩, by decide +kernel, by decide +kernel,
    by decide +kernel, (schema.get? "Project").getD default, by decide +kernel,
    .inl (by decide +kernel)⟩

end Tenancy.Schema

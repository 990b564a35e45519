import Tenancy.Proofs.Access.Column
import Tenancy.Proofs.Schema.Conventions
import Tenancy.Proofs.Schema.Reachability
import Tenancy.Sample

/-!
# Filters by the scoping column

A tenant-scoped entity is kept apart by filters on its scoping column, so it should accept that
column. The column comes from one of several places. A mark that names it is checked against the
columns that are listed; a mark or a setting that does not name it, and a marker column, take one of
those. A foreign key that tenancy is carried along brings its own column, and nobody asks whether it
is listed too.

`scopingColumn_accepted_iff` says that this is the only way to a scoping column that is not accepted
(`CarriedUnlisted`), and what becomes of filters on it: they are resolved to the entity, unless the
column is not accepted. `unlisted_key_rejected` is an application where this happens.
-/

set_option autoImplicit false

namespace Tenancy

open Tenancy.Support

/-! ### Columns that are listed -/

/-- The scoping column of a label is listed, if any column is. -/
theorem Label.listed_of_scopingColumn {d : Declaration} {c : Conventions} {column : String}
    (h : scopingColumn d c = .ok column) : d.columns = [] ∨ column ∈ d.columns := by
  unfold scopingColumn at h
  split at h
  · cases h
  · split at h
    · rename_i hlisted
      cases h
      simpa using hlisted
    · cases h
  · split at h
    · rename_i best hbest
      cases h
      exact .inr (Conventions.isBest_of_best? hbest).mem
    · cases h

namespace Schema

open Propagation

variable {s : SchemaSettings} {declarations : List Declaration} {p : Plan} {l : Labelled}

/-- An entity accepts the columns that are listed, and every column if none is. -/
theorem acceptsColumn_scopedEntity_iff {d : Declaration} {own column : String} {origin : Origin} :
    (scopedEntity d own origin).acceptsColumn column = true ↔
      d.columns = [] ∨ column ∈ d.columns := by
  have hempty : (Ordered.ofList d.columns).isEmpty = true ↔ d.columns = [] := by
    rw [List.isEmpty_iff]
    simp only [List.eq_nil_iff_forall_not_mem, Ordered.mem_ofList]
  unfold Entity.acceptsColumn scopedEntity
  rw [Bool.or_eq_true, decide_eq_true_eq, OrdSet.mem_ofList]
  exact or_congr_left hempty

/-! ### Where scoping columns come from -/

/-- A labelled entity is put together from the pieces of its name. -/
theorem merged?_of_mem_labelled (h : plan s declarations = .ok p) (hl : l ∈ p.labelled) :
    Declaration.merged? declarations l.name = some l.declaration := by
  obtain ⟨merged, hmerge, hlabelled, -⟩ := plan_eq_ok h
  obtain ⟨d, hd, hlabel⟩ := exists_of_forall₂_right (mapM_eq_ok_iff.mp hlabelled) hl
  rw [Labelled.name, declaration_of_labelOne hlabel]
  exact Declaration.merged?_of_mem hmerge hd

/-- A scoping edge from an entity is a foreign key of it. -/
theorem exists_key_of_mem_edges (h : plan s declarations = .ok p) (hl : l ∈ p.labelled)
    {r : Relationship} (hr : r ∈ p.edges) (hfrom : r.fromEntity = l.name) :
    ∃ key ∈ l.declaration.foreignKeys, key.column = r.viaColumn := by
  obtain ⟨merged, hmerge, -, hp⟩ := plan_eq_ok h
  have hr := (List.mem_filter.mp hr).1
  rw [hp] at hr
  obtain ⟨d, hd, hr⟩ := List.mem_flatMap.mp hr
  obtain ⟨key, hkey, hr⟩ := List.mem_filterMap.mp hr
  obtain ⟨target, -, rfl⟩ := Option.map_eq_some_iff.mp hr
  -- The declaration that the edge was taken from is that of the entity: they have one name.
  have hsame : d = l.declaration := by
    have hmerged := Declaration.merged?_of_mem hmerge hd
    rw [show d.entity = l.name from hfrom, merged?_of_mem_labelled h hl] at hmerged
    exact (Option.some.inj hmerged).symm
  exact ⟨key, hsame ▸ hkey, rfl⟩

/-- Where the scoping column of an entity comes from: it is listed, unless nothing is, or it is the
column of a foreign key that tenancy was carried along. -/
theorem entityOf_tenantScoped (h : plan s declarations = .ok p) (hl : l ∈ p.labelled)
    (hscope : (entityOf p p.edges p.reached l).scope = .tenantScoped) :
    ∃ column origin, entityOf p p.edges p.reached l = scopedEntity l.declaration column origin ∧
      ((l.declaration.columns = [] ∨ column ∈ l.declaration.columns) ∨
        (∃ target, origin = .relationship column target) ∧
          ∃ key ∈ l.declaration.foreignKeys, key.column = column) := by
  cases hlabel : l.label with
  | tenant column origin =>
    have hdeclared := ofDeclaration_of_mem h hl
    rw [hlabel] at hdeclared
    obtain ⟨-, hcolumn⟩ := ofDeclaration_eq_tenant hdeclared
    refine ⟨column, origin, ?_, .inl (Label.listed_of_scopingColumn hcolumn)⟩
    simp [entityOf, hlabel]
  | global origin => simp [entityOf, hlabel, globalEntity] at hscope
  | root origin => simp [entityOf, hlabel, globalEntity] at hscope
  | unlabelled =>
    have hroot : ¬ p.IsRoot l := by
      intro hroot
      obtain ⟨origin, hsome⟩ := Option.isSome_iff_exists.mp (isSome_rootOrigin?_iff.mpr hroot)
      simp [entityOf, hlabel, hsome, globalEntity] at hscope
    rcases entityOf_open h hl hlabel hroot with ⟨-, choice, hchoice, he⟩ | ⟨-, he⟩
    · -- The edge that was chosen is a foreign key of the entity.
      obtain ⟨hedge, -, -⟩ := mem_choices_iff.mp (choose?_least hchoice).1
      obtain ⟨key, hkey, hcolumn⟩ := exists_key_of_mem_edges h hl hedge rfl
      exact ⟨choice.column, _, he, .inr ⟨⟨choice.target, rfl⟩, key, hkey, hcolumn⟩⟩
    · rw [he] at hscope ⊢
      unfold leftover at hscope ⊢
      split at hscope
      · cases hscope
      · split at hscope
        · rename_i column hbest
          exact ⟨column, .markerColumn, rfl, .inl (.inr (Conventions.isBest_of_best? hbest).mem)⟩
        · cases hscope

/-! ### Filters -/

/-- Tenancy was carried to an entity along a foreign key whose column is not listed, although other
columns of the entity are. -/
structure CarriedUnlisted (declarations : List Declaration) (e : Entity) (column : String) :
    Prop where
  carried : ∃ target, e.origin = .relationship column target
  key : ∃ d ∈ declarations, d.entity = e.name ∧ ∃ key ∈ d.foreignKeys, key.column = column
  unlisted : ∀ d ∈ declarations, d.entity = e.name → column ∉ d.columns
  others : ∃ d ∈ declarations, d.entity = e.name ∧ d.columns ≠ []

/-- The scoping column that an entity does not accept is that of a foreign key. -/
theorem acceptsColumn_entityOf_iff (h : plan s declarations = .ok p) (hl : l ∈ p.labelled)
    (hscope : (entityOf p p.edges p.reached l).scope = .tenantScoped) :
    ∃ column, (entityOf p p.edges p.reached l).scopingColumn = some column ∧
      ((entityOf p p.edges p.reached l).acceptsColumn column = true ↔
        ¬ CarriedUnlisted declarations (entityOf p p.edges p.reached l) column) := by
  have hmerged := merged?_of_mem_labelled h hl
  obtain ⟨column, origin, he, hsource⟩ := entityOf_tenantScoped h hl hscope
  rw [he]
  refine ⟨column, rfl, ?_⟩
  rw [acceptsColumn_scopedEntity_iff]
  constructor
  · rintro (hnone | hlisted) hunlisted
    · obtain ⟨d, hd, hname, hcolumns⟩ := hunlisted.others
      obtain ⟨other, hother⟩ := List.exists_mem_of_ne_nil _ hcolumns
      have hmem := (Declaration.mem_columns_of_merged? hmerged).mpr ⟨d, hd, hname, hother⟩
      rw [hnone] at hmem
      cases hmem
    · obtain ⟨d, hd, hname, hcolumn⟩ := (Declaration.mem_columns_of_merged? hmerged).mp hlisted
      exact hunlisted.unlisted d hd hname hcolumn
  · intro hnot
    by_contra hrejected
    rcases hsource with hlisted | ⟨horigin, key, hkey, hcolumn⟩
    · exact hrejected hlisted
    · obtain ⟨hsome, hunlisted⟩ := not_or.mp hrejected
      refine hnot ⟨horigin, ?_, ?_, ?_⟩
      · obtain ⟨d, hd, hname, hmem⟩ := (Declaration.mem_foreignKeys_of_merged? hmerged).mp hkey
        exact ⟨d, hd, hname, key, hmem, hcolumn⟩
      · intro d hd hname hmem
        exact hunlisted ((Declaration.mem_columns_of_merged? hmerged).mpr ⟨d, hd, hname, hmem⟩)
      · obtain ⟨other, hother⟩ := List.exists_mem_of_ne_nil _ hsome
        obtain ⟨d, hd, hname, hmem⟩ := (Declaration.mem_columns_of_merged? hmerged).mp hother
        exact ⟨d, hd, hname, List.ne_nil_of_mem hmem⟩

/-- **A tenant-scoped entity accepts its scoping column, unless tenancy was carried to it along a
foreign key whose column is not listed.** If it accepts the column, no filter of an operation on the
entity alone is refused because of it, and every filter that names the column is on the entity. If
it does not, every such filter is refused. -/
theorem scopingColumn_accepted_iff {schema : Schema} (h : classify s declarations = .ok schema)
    {e : Entity} (he : e ∈ schema.entities) (hscope : e.scope = .tenantScoped) :
    ∃ column, e.scopingColumn = some column ∧
      (e.acceptsColumn column = true ↔ ¬ CarriedUnlisted declarations e column) ∧
      (e.acceptsColumn column = true → ∀ text operation name place,
        ColumnRef.resolve [e] text operation ≠ .error (.unknownColumn name column place)) ∧
      ∀ text operation, ColumnRef.Names e text column →
        ColumnRef.resolve [e] text operation =
          if e.acceptsColumn column then .ok ⟨e.name, column⟩
          else .error (.unknownColumn e.name column operation) := by
  obtain ⟨p, hplan, rfl⟩ := classify_eq_ok h
  rw [entities_ofPlan] at he
  obtain ⟨l, hl, rfl⟩ := List.mem_map.mp he
  obtain ⟨column, hcolumn, haccepts⟩ := acceptsColumn_entityOf_iff hplan hl hscope
  refine ⟨column, hcolumn, haccepts, ?_, ?_⟩
  · intro haccepted text operation name place hunknown
    obtain ⟨e, he, hrejected⟩ := ColumnRef.exists_of_resolve_unknownColumn hunknown
    rw [List.mem_singleton.mp he, haccepted] at hrejected
    cases hrejected
  · intro text operation hnames
    exact ColumnRef.resolve_of_names hnames operation

/-- In the sample application users are tenant-scoped by a foreign key whose column is listed, and a
filter on it is one on users. -/
theorem scopingColumn_accepted_sample :
    ∃ (schema : Schema) (e : Entity), classify Sample.settings.schema Sample.schema = .ok schema ∧
      e ∈ schema.entities ∧ e.scope = .tenantScoped ∧
      e.origin = .relationship "workspace_id" "Workspace" ∧
      ColumnRef.resolve [e] "models.User.workspace_id" 0 = .ok ⟨"User", "workspace_id"⟩ := by
  let schema := (classify Sample.settings.schema Sample.schema).toOption.getD default
  have hclassify : classify Sample.settings.schema Sample.schema = .ok schema := by decide +kernel
  let e := (schema.get? "User").getD default
  have he : e ∈ schema.entities := by decide +kernel
  have hscope : e.scope = .tenantScoped := by decide +kernel
  obtain ⟨column, hcolumn, -, -, hresolve⟩ := scopingColumn_accepted_iff hclassify he hscope
  have hname : e.scopingColumn = some "workspace_id" := by decide +kernel
  cases hname.symm.trans hcolumn
  have hnames : ColumnRef.Names e "models.User.workspace_id" "workspace_id" :=
    .inr ⟨"User", ⟨.inr ⟨"models", by decide⟩, by decide, by decide, by decide⟩, by decide +kernel⟩
  refine ⟨schema, e, hclassify, he, hscope, by decide +kernel, ?_⟩
  rw [hresolve _ 0 hnames]
  decide +kernel

/-- Users whose foreign key to a workspace is known, but not that its column is one of theirs. -/
def unlistedKey : List Declaration := [
  (Declaration.named "Workspace" "workspaces").addColumns ["id"],
  (Declaration.named "User" "users")
    |>.addColumns ["id"]
    |>.addForeignKey "workspace_id" "workspaces"]

/-- Users are tenant-scoped by `workspace_id`, and do not accept that column: a handler that filters
users by the workspace of its caller cannot be analyzed. -/
theorem unlisted_key_rejected :
    ∃ (schema : Schema) (e : Entity),
      classify Sample.settings.schema unlistedKey = .ok schema ∧ e ∈ schema.entities ∧
      e.scope = .tenantScoped ∧ e.scopingColumn = some "workspace_id" ∧
      e.acceptsColumn "workspace_id" = false ∧
      (Extractor.ofSettings schema Sample.settings).extract Sample.handlers[1] =
        .error ⟨Sample.handlers[1].location, .unknownColumn "User" "workspace_id" 0⟩ := by
  let schema := (classify Sample.settings.schema unlistedKey).toOption.getD default
  exact ⟨schema, (schema.get? "User").getD default, by decide +kernel, by decide +kernel,
    by decide +kernel, by decide +kernel, by decide +kernel, by decide +kernel⟩

end Schema

end Tenancy

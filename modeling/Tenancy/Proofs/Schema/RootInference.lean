import Mathlib.Data.Set.Finite.List
import Mathlib.Logic.Relation
import Mathlib.Order.WellFoundedSet
import Tenancy.Proofs.Schema.Reachability

/-!
# Where inferred roots leave tenancy open

When roots are inferred, a scoping foreign key makes its target a tenant root, unless the target is
unlabelled and has a scoping foreign key of its own: tenancy then has to come from further on. So it
comes to an entity exactly when some chain of its scoping foreign keys ends somewhere, at an entity
that is labelled or has no scoping foreign key (`Plan.Ends`). An entity whose chains never end is
left over, as if it had no scoping foreign key at all. There is one way for them not to end: they
run in circles (`Plan.Circles`).

* `chain_iff_ends`: with inferred roots, a chain leads to an anchor exactly when one ends.
* `circles_of_not_ends`: chains that never end run in circles.
* `classify_scoped_of_ends`: what becomes of an unlabelled entity with a scoping foreign key.
* `unanchored_of_nested_workspaces`: workspaces that refer to a parent workspace are no roots, and
  nothing that belongs to them is tenant-scoped.
-/

set_option autoImplicit false

namespace Tenancy

/-- Nothing is said outright about an entity: it carries no mark, and no list of the settings names
it. -/
structure Declaration.IsUnlabelled (s : SchemaSettings) (d : Declaration) : Prop where
  marks : d.marks = []
  tenant : Label.isListed s.tenantTables d = false
  global : Label.isListed s.globalTables d = false
  root : Label.isListed s.tenantRoots d = false

instance (s : SchemaSettings) (d : Declaration) : Decidable (d.IsUnlabelled s) :=
  decidable_of_iff (d.marks = [] ∧ Label.isListed s.tenantTables d = false ∧
      Label.isListed s.globalTables d = false ∧ Label.isListed s.tenantRoots d = false)
    ⟨fun ⟨marks, tenant, global, root⟩ => ⟨marks, tenant, global, root⟩,
      fun h => ⟨h.marks, h.tenant, h.global, h.root⟩⟩

namespace Label

/-- A label comes from nowhere exactly when there is neither a mark nor an entry. -/
theorem origin?_eq_none_iff {marked listed : Bool} :
    origin? marked listed = none ↔ marked = false ∧ listed = false := by
  cases marked <;> cases listed <;> simp [origin?]

/-- An entity about which nothing is said is unlabelled. -/
theorem ofDeclaration_of_isUnlabelled {s : SchemaSettings} {c : Conventions} {d : Declaration}
    (h : d.IsUnlabelled s) : ofDeclaration s c d = .ok .unlabelled := by
  have htenant : tenantOrigin? d s = none :=
    origin?_eq_none_iff.mpr ⟨by simp [tenantColumns, h.marks], h.tenant⟩
  have hglobal : globalOrigin? d s = none :=
    origin?_eq_none_iff.mpr ⟨by simp [h.marks], h.global⟩
  have hroot : rootOrigin? d s = none :=
    origin?_eq_none_iff.mpr ⟨by simp [h.marks], h.root⟩
  simp [ofDeclaration, htenant, hglobal, hroot]

end Label

namespace Propagation

variable {edges : List Relationship} {passable passable' goal goal' : String → Prop}

/-- A chain stays one if goals stay goals, and what is passed and led on from stays passable. -/
theorem Leads.imp (hgoal : ∀ r ∈ edges, goal r.toEntity → goal' r.toEntity)
    (hpassable : ∀ r ∈ edges, passable r.toEntity →
      (∃ next ∈ edges, next.fromEntity = r.toEntity) → passable' r.toEntity)
    {name : String} (h : Leads edges passable goal name) : Leads edges passable' goal' name := by
  induction h with
  | arrive hr hto => exact .arrive hr (hgoal _ hr hto)
  | pass hr hto hrest ih =>
    obtain ⟨next, hnext, hfrom, -⟩ := hrest.exists_edge
    exact .pass hr (hpassable _ hr hto ⟨next, hnext, hfrom⟩) ih

/-- A foreign key leads to one of the declarations. -/
theorem exists_of_target? {all : List Declaration} {references target : String}
    (h : target? all references = some target) : ∃ d ∈ all, d.entity = target := by
  unfold target? at h
  split at h
  · rename_i d hd
    cases h
    exact ⟨d, List.mem_of_find?_eq_some hd, rfl⟩
  · obtain ⟨d, hd, rfl⟩ := Option.map_eq_some_iff.mp h
    exact ⟨d, List.mem_of_find?_eq_some hd, rfl⟩

end Propagation

namespace Schema

open Propagation

variable {s : SchemaSettings} {declarations : List Declaration} {p : Plan}

/-! ### Chains that end -/

/-- An entity has a scoping foreign key: one that leads to a known entity by a column named like a
scoping column. -/
def Plan.HasScopingKey (p : Plan) (name : String) : Prop := ∃ r ∈ p.edges, r.fromEntity = name

/-- A chain of scoping foreign keys goes on at a name: its entity is unlabelled and has one. -/
def Plan.IsLink (p : Plan) (name : String) : Prop :=
  ∃ l ∈ p.labelled, l.name = name ∧ l.label = .unlabelled ∧ p.HasScopingKey name

/-- A chain of scoping foreign keys ends at a name: its entity is labelled or has none. -/
def Plan.IsEnd (p : Plan) (name : String) : Prop :=
  ∃ l ∈ p.labelled, l.name = name ∧ (l.label ≠ .unlabelled ∨ ¬ p.HasScopingKey name)

instance (p : Plan) (name : String) : Decidable (p.HasScopingKey name) :=
  inferInstanceAs (Decidable (∃ r ∈ p.edges, r.fromEntity = name))

instance (p : Plan) (name : String) : Decidable (p.IsLink name) :=
  inferInstanceAs (Decidable (∃ l ∈ p.labelled,
    l.name = name ∧ l.label = .unlabelled ∧ p.HasScopingKey name))

instance (p : Plan) (name : String) : Decidable (p.IsEnd name) :=
  inferInstanceAs (Decidable (∃ l ∈ p.labelled,
    l.name = name ∧ (l.label ≠ .unlabelled ∨ ¬ p.HasScopingKey name)))

/-- A chain of one or more scoping foreign keys from a name ends. -/
def Plan.Ends (p : Plan) (name : String) : Prop := Leads p.edges p.IsLink p.IsEnd name

/-- An unlabelled entity with a scoping foreign key of its own is no root. -/
theorem not_isRoot_of_hasScopingKey {l : Labelled} (hlabel : l.label = .unlabelled)
    (hkey : p.HasScopingKey l.name) : ¬ p.IsRoot l := by
  obtain ⟨r, hr, hfrom⟩ := hkey
  rintro (⟨origin, hroot⟩ | ⟨-, -, ⟨origin, hglobal⟩ | ⟨-, hnone⟩⟩)
  · rw [hlabel] at hroot
    cases hroot
  · rw [hlabel] at hglobal
    cases hglobal
  · exact hnone r hr hfrom

/-- If roots are inferred, a scoping foreign key leads to an anchor exactly when the chain ends
there. -/
theorem isAnchor_iff_isEnd (hinfer : p.settings.inferRoots = true) {r : Relationship}
    (hr : r ∈ p.edges) : p.IsAnchor r.toEntity ↔ p.IsEnd r.toEntity := by
  constructor
  · rintro ⟨l, hl, hname, hstart⟩
    refine ⟨l, hl, hname, ?_⟩
    rw [← hname]
    -- What is unlabelled and still an anchor was inferred, so it has no key of its own.
    by_cases hlabel : l.label = .unlabelled
    · rcases hstart with ⟨column, origin, htenant⟩ | hroot
      · rw [hlabel] at htenant
        cases htenant
      · exact .inr fun hkey => not_isRoot_of_hasScopingKey hlabel hkey hroot
    · exact .inl hlabel
  · rintro ⟨l, hl, hname, hend⟩
    refine ⟨l, hl, hname, ?_⟩
    have htarget : ∃ r ∈ p.edges, r.toEntity = l.name := ⟨r, hr, hname.symm⟩
    cases hlabel : l.label with
    | tenant column origin => exact .inl ⟨column, origin, rfl⟩
    | root origin => exact .inr (.inl ⟨origin, hlabel⟩)
    | global origin => exact .inr (.inr ⟨hinfer, htarget, .inl ⟨origin, hlabel⟩⟩)
    | unlabelled =>
      refine .inr (.inr ⟨hinfer, htarget, .inr ⟨hlabel, ?_⟩⟩)
      intro next hnext hfrom
      rcases hend with hne | hnone
      · exact hne hlabel
      · exact hnone ⟨next, hnext, hfrom.trans hname⟩

/-- Tenancy can be carried to an entity with a scoping foreign key exactly when chains go on
there. -/
theorem isOpen_iff_isLink {name : String} (hkey : p.HasScopingKey name) :
    p.IsOpen name ↔ p.IsLink name := by
  constructor
  · rintro ⟨l, hl, hname, hlabel, -⟩
    exact ⟨l, hl, hname, hlabel, hkey⟩
  · rintro ⟨l, hl, rfl, hlabel, hkey⟩
    exact ⟨l, hl, rfl, hlabel, not_isRoot_of_hasScopingKey hlabel hkey⟩

/-- If roots are inferred, a chain leads to an anchor exactly when one ends. -/
theorem chain_iff_ends (hinfer : p.settings.inferRoots = true) {name : String} :
    p.Chain name ↔ p.Ends name := by
  constructor
  · refine Leads.imp (fun r hr => (isAnchor_iff_isEnd hinfer hr).mp) ?_
    intro r _ hopen hkey
    exact (isOpen_iff_isLink hkey).mp hopen
  · refine Leads.imp (fun r hr => (isAnchor_iff_isEnd hinfer hr).mpr) ?_
    intro r _ hlink hkey
    exact (isOpen_iff_isLink hkey).mpr hlink

/-! ### Chains that run in circles -/

/-- A scoping foreign key leads from a name to one where chains go on. -/
def Plan.Follows (p : Plan) (name next : String) : Prop :=
  (∃ r ∈ p.edges, r.fromEntity = name ∧ r.toEntity = next) ∧ p.IsLink next

/-- Scoping foreign keys lead from a name to one from which they lead back to itself. -/
def Plan.Circles (p : Plan) (name : String) : Prop :=
  ∃ turn, Relation.ReflTransGen p.Follows name turn ∧ Relation.TransGen p.Follows turn turn

/-- Relationships lead to entities of the plan. -/
theorem exists_labelled_of_mem_edges (h : plan s declarations = .ok p) {r : Relationship}
    (hr : r ∈ p.edges) : ∃ l ∈ p.labelled, l.name = r.toEntity := by
  obtain ⟨merged, -, hlabelled, hp⟩ := plan_eq_ok h
  have hr := (List.mem_filter.mp hr).1
  rw [hp] at hr
  obtain ⟨d, -, hr⟩ := List.mem_flatMap.mp hr
  obtain ⟨key, -, hr⟩ := List.mem_filterMap.mp hr
  obtain ⟨target, htarget, rfl⟩ := Option.map_eq_some_iff.mp hr
  obtain ⟨d, hd, hentity⟩ := exists_of_target? htarget
  have hmem : target ∈ p.labelled.map Labelled.name := by
    rw [map_name_labelled hlabelled, ← hentity]
    exact List.mem_map_of_mem hd
  exact List.mem_map.mp hmem

/-- A chain that never ends goes on without an end. -/
theorem exists_follows_of_not_ends (h : plan s declarations = .ok p) {name : String}
    (hkey : p.HasScopingKey name) (hends : ¬ p.Ends name) :
    ∃ next, p.Follows name next ∧ ¬ p.Ends next := by
  obtain ⟨r, hr, rfl⟩ := hkey
  obtain ⟨l, hl, hname⟩ := exists_labelled_of_mem_edges h hr
  have hnot : ¬ p.IsEnd r.toEntity := fun hend => hends (.arrive hr hend)
  have hlink : p.IsLink r.toEntity := by
    refine ⟨l, hl, hname, ?_, ?_⟩
    · by_contra hlabel
      exact hnot ⟨l, hl, hname, .inl hlabel⟩
    · by_contra hnone
      exact hnot ⟨l, hl, hname, .inr hnone⟩
  exact ⟨r.toEntity, ⟨⟨r, hr, rfl, rfl⟩, hlink⟩, fun hrest => hends (.pass hr hlink hrest)⟩

/-- Chains that never end run in circles, because there are finitely many entities to go on to. -/
theorem circles_of_not_ends (h : plan s declarations = .ok p) {name : String}
    (hlink : p.IsLink name) (hends : ¬ p.Ends name) : p.Circles name := by
  by_contra hcircles
  -- The names that can be come to without an end. Without circles, going on leads down.
  let Endless := { turn : String //
    Relation.ReflTransGen p.Follows name turn ∧ p.IsLink turn ∧ ¬ p.Ends turn }
  let Beyond := fun b a : Endless => Relation.TransGen p.Follows a.val b.val
  have : Finite Endless := by
    refine ((p.labelled.map Labelled.name).finite_toSet.subset ?_).to_subtype
    rintro turn ⟨-, ⟨l, hl, rfl, -⟩, -⟩
    exact List.mem_map_of_mem hl
  have : IsTrans Endless Beyond := ⟨fun _ _ _ hab hbc => hbc.trans hab⟩
  have : Std.Irrefl Beyond := ⟨fun turn hturn => hcircles ⟨turn.val, turn.property.1, hturn⟩⟩
  have hwf : WellFounded Beyond := Finite.wellFounded_of_trans_of_irrefl Beyond
  obtain ⟨last, -, hlast⟩ := hwf.has_min Set.univ ⟨⟨name, .refl, hlink, hends⟩, trivial⟩
  obtain ⟨hreach, ⟨-, -, -, -, hkey⟩, hopen⟩ := last.property
  obtain ⟨next, hfollows, hnext⟩ := exists_follows_of_not_ends h hkey hopen
  exact hlast ⟨next, hreach.tail hfollows, hfollows.2, hnext⟩ trivial (.single hfollows)

/-! ### Classified schemas -/

/-- **Inferred roots anchor every scoping foreign key whose chain ends.** Take an unlabelled entity
with a scoping foreign key. If some chain of scoping foreign keys from it ends, at an entity that is
labelled or has no scoping foreign key, it is tenant-scoped by a relationship. Otherwise its chains
run in circles, and it is left over. -/
theorem classify_scoped_of_ends {schema : Schema} (hinfer : s.inferRoots = true)
    (h : classify s declarations = .ok schema) :
    ∃ p, plan s declarations = .ok p ∧
      schema.entities.map Entity.name = p.labelled.map Labelled.name ∧
      ∀ l ∈ p.labelled, l.declaration.IsUnlabelled s → p.HasScopingKey l.name →
        ∃ e, schema.get? l.name = some e ∧ (p.Ends l.name → IsCarried e) ∧
          (¬ p.Ends l.name → p.Circles l.name ∧ e = leftover p l.declaration) := by
  obtain ⟨p, hplan, rfl⟩ := classify_eq_ok h
  refine ⟨p, hplan, map_name_entities p, ?_⟩
  intro l hl hunlabelled hkey
  have hlabel : l.label = .unlabelled := by
    have hdeclared := ofDeclaration_of_mem hplan hl
    rw [Label.ofDeclaration_of_isUnlabelled hunlabelled] at hdeclared
    exact (Except.ok.inj hdeclared).symm
  have hinfer : p.settings.inferRoots = true := by
    obtain ⟨merged, -, -, hp⟩ := plan_eq_ok hplan
    rw [hp]
    exact hinfer
  have hroot := not_isRoot_of_hasScopingKey hlabel hkey
  refine ⟨_, get?_ofPlan hplan hl, ?_, ?_⟩
  · intro hends
    exact (isCarried_entityOf_iff hplan hl hlabel hroot).mpr ((chain_iff_ends hinfer).mpr hends)
  · intro hends
    refine ⟨circles_of_not_ends hplan ⟨l, hl, rfl, hlabel, hkey⟩ hends, ?_⟩
    rcases entityOf_open hplan hl hlabel hroot with ⟨hchain, -⟩ | ⟨-, he⟩
    · exact absurd ((chain_iff_ends hinfer).mp hchain) hends
    · exact he

/-- Comments and tasks refer to each other, but a task also leads to a workspace, where the chain
ends: comments are tenant-scoped in spite of the circle. -/
theorem classify_scoped_of_ends_comments :
    ∃ (s : SchemaSettings) (declarations : List Declaration) (schema : Schema) (p : Plan)
      (e : Entity), s.inferRoots = true ∧ classify s declarations = .ok schema ∧
      plan s declarations = .ok p ∧ p.Ends "Comment" ∧ schema.get? "Comment" = some e ∧
      IsCarried e := by
  let s := { SchemaSettings.default with
    scopingColumns := ["comment_id", "workspace_id", "task_id"] }
  let declarations := [
    (Declaration.named "Comment" "comments").addForeignKey "task_id" "tasks",
    ((Declaration.named "Task" "tasks").addForeignKey "comment_id" "comments").addForeignKey
      "workspace_id" "workspaces",
    Declaration.named "Workspace" "workspaces"]
  let schema := (classify s declarations).toOption.getD default
  let first : Relationship := ⟨"Comment", "Task", "task_id"⟩
  let last : Relationship := ⟨"Task", "Workspace", "workspace_id"⟩
  have hclassify : classify s declarations = .ok schema := by decide +kernel
  have hchain : (plan s declarations).toOption.any (fun p =>
      first ∈ p.edges ∧ p.IsLink "Task" ∧ last ∈ p.edges ∧ p.IsEnd "Workspace" ∧
        ∃ l ∈ p.labelled, l.name = "Comment" ∧ l.declaration.IsUnlabelled s) = true := by
    decide +kernel
  obtain ⟨p, hplan, -, hscoped⟩ := classify_scoped_of_ends (s := s) rfl hclassify
  rw [hplan] at hchain
  obtain ⟨hfirst, hlink, hlast, hend, l, hl, hname, hunlabelled⟩ := of_decide_eq_true hchain
  have hends : p.Ends "Comment" := Leads.pass hfirst hlink (Leads.arrive hlast hend)
  obtain ⟨e, he, hcarried, -⟩ := hscoped l hl hunlabelled (hname ▸ ⟨first, hfirst, rfl⟩)
  rw [hname] at he hcarried
  exact ⟨s, declarations, schema, p, e, rfl, hclassify, hplan, hends, he, hcarried hends⟩

/-- Users of workspaces, where a workspace may have a parent workspace. -/
def nestedWorkspaces : List Declaration := [
  (Declaration.named "Workspace" "workspaces")
    |>.addColumns ["id", "parent_workspace_id"]
    |>.addForeignKey "parent_workspace_id" "workspaces",
  (Declaration.named "User" "users")
    |>.addColumns ["id", "workspace_id"]
    |>.addForeignKey "workspace_id" "workspaces"]

/-- Every column that ends in `workspace_id` is a scoping column. -/
def nestedSettings : SchemaSettings :=
  { SchemaSettings.default with scopingColumns := ["*workspace_id"] }

/-- A workspace refers to its parent, so it is no root, and the scoping foreign key of users leads
to nothing that is anchored: users are global, for want of anything else. -/
theorem unanchored_of_nested_workspaces :
    nestedSettings.inferRoots = true ∧ ∃ (schema : Schema) (p : Plan) (l : Labelled) (e : Entity),
      classify nestedSettings nestedWorkspaces = .ok schema ∧
      plan nestedSettings nestedWorkspaces = .ok p ∧ l ∈ p.labelled ∧
      l.declaration.IsUnlabelled nestedSettings ∧ p.HasScopingKey l.name ∧
      schema.get? l.name = some e ∧ e.scope = .global ∧ e.tenantRoot = false ∧
      e.origin = .default := by
  let schema := (classify nestedSettings nestedWorkspaces).toOption.getD default
  have hclassify : classify nestedSettings nestedWorkspaces = .ok schema := by decide +kernel
  have huser : (plan nestedSettings nestedWorkspaces).toOption.any (fun p =>
      ∃ l ∈ p.labelled, l.name = "User" ∧ l.declaration.IsUnlabelled nestedSettings ∧
        p.HasScopingKey l.name) = true := by decide +kernel
  have hglobal : (schema.get? "User").any (fun e =>
      e.scope = .global ∧ e.tenantRoot = false ∧ e.origin = .default) = true := by decide +kernel
  obtain ⟨p, hplan, -⟩ := classify_eq_ok hclassify
  rw [hplan] at huser
  obtain ⟨l, hl, hname, hunlabelled, hkey⟩ := of_decide_eq_true huser
  obtain ⟨e, he, hglobal⟩ := (Option.any_eq_true _ _).mp hglobal
  rw [← hname] at he
  exact ⟨rfl, schema, p, l, e, hclassify, hplan, hl, hunlabelled, hkey, he,
    of_decide_eq_true hglobal⟩

end Schema

end Tenancy

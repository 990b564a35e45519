import Mathlib.Data.List.Nodup
import Tenancy.Proofs.Schema.Merge
import Tenancy.Schema.Classify

/-!
# The entities of a classified schema

Classification merges declarations, labels what comes out and makes one entity of each. This module
opens the two steps (`classify_eq_ok`, `plan_eq_ok`) and says what they give for every schema that
comes out:

* `increasing_entities`: entities stand in strictly increasing order of their names, so a look-up by
  name finds the one entity that has it (`get?_eq_some_iff`); `nodup_storageKey_entities` says the
  same of storage keys.
* `mem_of_resolve?`: a look-up by name or storage key finds an entity of the schema.
* `exists_scopingColumn`: an entity whose rows belong to tenants has a scoping column, whichever way
  it was classified.
-/

set_option autoImplicit false

namespace Tenancy.Schema

open Tenancy.Support

/-! ### Plans -/

/-- Labels one declaration. -/
def labelOne (s : SchemaSettings) (d : Declaration) : Except SchemaError Labelled := do
  let label ← Label.ofDeclaration s ⟨s.scopingColumns⟩ d
  return Labelled.mk d label

/-- The plan of settings for merged declarations and their labels. -/
def planOf (s : SchemaSettings) (merged : List Declaration) (labelled : List Labelled) : Plan :=
  ⟨⟨s.scopingColumns⟩, s, labelled, Propagation.relationships merged⟩

/-- A plan after a successful merge: the labels and the relationships of what was merged. -/
theorem plan_of_merge {s : SchemaSettings} {declarations merged : List Declaration}
    (h : Declaration.merge declarations = .ok merged) :
    plan s declarations
      = merged.mapM (labelOne s) >>= fun labelled => pure (planOf s merged labelled) := by
  unfold plan
  rw [h]
  rfl

/-- What a successful plan has merged and labelled. -/
theorem plan_eq_ok {s : SchemaSettings} {declarations : List Declaration} {p : Plan}
    (h : plan s declarations = .ok p) :
    ∃ merged, Declaration.merge declarations = .ok merged ∧
      merged.mapM (labelOne s) = .ok p.labelled ∧ p = planOf s merged p.labelled := by
  cases hmerge : Declaration.merge declarations with
  | error e =>
    unfold plan at h
    rw [hmerge] at h
    cases h
  | ok merged =>
    rw [plan_of_merge hmerge] at h
    obtain ⟨labelled, hlabelled, h⟩ := bind_eq_ok_iff.mp h
    cases h
    exact ⟨merged, rfl, hlabelled, rfl⟩

/-- A successful classification is the schema of a plan. -/
theorem classify_eq_ok {s : SchemaSettings} {declarations : List Declaration} {schema : Schema}
    (h : classify s declarations = .ok schema) :
    ∃ p, plan s declarations = .ok p ∧ schema = ofPlan p := by
  unfold classify at h
  cases hplan : plan s declarations with
  | error e =>
    rw [hplan] at h
    cases h
  | ok p =>
    rw [hplan] at h
    cases h
    exact ⟨p, rfl, rfl⟩

/-- Labelling keeps the declaration. -/
theorem declaration_of_labelOne {s : SchemaSettings} {d : Declaration} {l : Labelled}
    (h : labelOne s d = .ok l) : l.declaration = d := by
  obtain ⟨label, -, h⟩ := bind_eq_ok_iff.mp h
  cases h
  rfl

/-- Labelling keeps the list of declarations. -/
theorem map_declaration_labelled {s : SchemaSettings} {merged : List Declaration}
    {labelled : List Labelled} (h : merged.mapM (labelOne s) = .ok labelled) :
    labelled.map Labelled.declaration = merged := by
  have hpairs := mapM_eq_ok_iff.mp h
  clear h
  induction hpairs with
  | nil => rfl
  | cons hd _ ih => rw [List.map_cons, ih, declaration_of_labelOne hd]

/-- Labelling keeps the list of entities. -/
theorem map_name_labelled {s : SchemaSettings} {merged : List Declaration}
    {labelled : List Labelled} (h : merged.mapM (labelOne s) = .ok labelled) :
    labelled.map Labelled.name = merged.map Declaration.entity := by
  rw [← map_declaration_labelled h, List.map_map]
  rfl

/-- The labelled entities of a plan stand in strictly increasing order of their names. -/
theorem increasing_labelled {s : SchemaSettings} {declarations : List Declaration} {p : Plan}
    (h : plan s declarations = .ok p) : Ordered.Increasing (p.labelled.map Labelled.name) := by
  obtain ⟨merged, hmerge, hlabelled, -⟩ := plan_eq_ok h
  rw [map_name_labelled hlabelled]
  exact Declaration.increasing_merge hmerge

/-- Only one labelled entity of a plan has a name. -/
theorem eq_of_name {s : SchemaSettings} {declarations : List Declaration} {p : Plan}
    (h : plan s declarations = .ok p) {l l' : Labelled} (hl : l ∈ p.labelled)
    (hl' : l' ∈ p.labelled) (hname : l'.name = l.name) : l' = l :=
  List.inj_on_of_nodup_map (increasing_labelled h).nodup hl' hl hname

/-- A labelled entity of a plan has the label that its declaration and the settings give it. -/
theorem ofDeclaration_of_mem {s : SchemaSettings} {declarations : List Declaration} {p : Plan}
    (h : plan s declarations = .ok p) {l : Labelled} (hl : l ∈ p.labelled) :
    Label.ofDeclaration s ⟨s.scopingColumns⟩ l.declaration = .ok l.label := by
  obtain ⟨merged, -, hlabelled, -⟩ := plan_eq_ok h
  obtain ⟨d, -, hd⟩ := exists_of_forall₂_right (mapM_eq_ok_iff.mp hlabelled) hl
  obtain ⟨label, hlabel, hd⟩ := bind_eq_ok_iff.mp hd
  cases hd
  exact hlabel

/-- An entity that is labelled tenant-scoped has a reason for it and a scoping column. -/
theorem ofDeclaration_eq_tenant {s : SchemaSettings} {c : Conventions} {d : Declaration}
    {column : String} {origin : Origin}
    (h : Label.ofDeclaration s c d = .ok (.tenant column origin)) :
    Label.tenantOrigin? d s = some origin ∧ Label.scopingColumn d c = .ok column := by
  unfold Label.ofDeclaration at h
  split at h
  · split at h <;> cases h
  · rename_i found hfound
    split at h
    · cases h
    · split at h
      · cases h
      · obtain ⟨column', hcolumn, h⟩ := bind_eq_ok_iff.mp h
        cases h
        exact ⟨hfound, hcolumn⟩

/-- What is said outright comes from a mark or from the settings. -/
theorem eq_of_origin? {marked listed : Bool} {origin : Origin}
    (h : Label.origin? marked listed = some origin) : origin = .mark ∨ origin = .configuration := by
  unfold Label.origin? at h
  split at h
  · exact .inl (Option.some.inj h).symm
  · split at h
    · exact .inr (Option.some.inj h).symm
    · cases h

/-- An entity is labelled tenant-scoped by a mark or by the settings. -/
theorem origin_of_tenant {s : SchemaSettings} {c : Conventions} {d : Declaration} {column : String}
    {origin : Origin} (h : Label.ofDeclaration s c d = .ok (.tenant column origin)) :
    origin = .mark ∨ origin = .configuration :=
  eq_of_origin? (ofDeclaration_eq_tenant h).1

/-- An entity is labelled global or a root by a mark or by the settings. -/
theorem origin_of_global_or_root {s : SchemaSettings} {c : Conventions} {d : Declaration}
    {label : Label} {origin : Origin} (h : Label.ofDeclaration s c d = .ok label)
    (hlabel : label = .global origin ∨ label = .root origin) :
    origin = .mark ∨ origin = .configuration := by
  unfold Label.ofDeclaration at h
  split at h
  · split at h
    · rename_i hroot
      cases h
      rcases hlabel with hlabel | hlabel <;> cases hlabel
      exact eq_of_origin? hroot
    · rename_i hglobal
      cases h
      rcases hlabel with hlabel | hlabel <;> cases hlabel
      exact eq_of_origin? hglobal
    · cases h
      rcases hlabel with hlabel | hlabel <;> cases hlabel
  · -- Whoever is labelled tenant-scoped has no other label.
    split at h
    · cases h
    · split at h
      · cases h
      · obtain ⟨column, -, h⟩ := bind_eq_ok_iff.mp h
        cases h
        rcases hlabel with hlabel | hlabel <;> cases hlabel

/-! ### Entities -/

/-- An entity is made from its declaration in one of two ways. -/
theorem entityOf_cases (p : Plan) (edges : List Relationship) (reached : List String)
    (l : Labelled) :
    (∃ column origin, entityOf p edges reached l = scopedEntity l.declaration column origin) ∨
      ∃ isRoot origin, entityOf p edges reached l = globalEntity l.declaration isRoot origin := by
  have hleftover : ∀ d, (∃ column origin, leftover p d = scopedEntity d column origin) ∨
      ∃ isRoot origin, leftover p d = globalEntity d isRoot origin := by
    intro d
    unfold leftover
    split
    · exact .inr ⟨_, _, rfl⟩
    · split
      · exact .inl ⟨_, _, rfl⟩
      · exact .inr ⟨_, _, rfl⟩
  unfold entityOf
  simp only
  -- One case for each label; what is unlabelled may be a root, be reached or be left over.
  split
  · exact .inl ⟨_, _, rfl⟩
  · exact .inr ⟨_, _, rfl⟩
  · exact .inr ⟨_, _, rfl⟩
  · split
    · exact .inr ⟨_, _, rfl⟩
    · split
      · split
        · exact .inl ⟨_, _, rfl⟩
        · exact hleftover _
      · exact hleftover _

/-- An entity has the name of its declaration. -/
@[simp] theorem name_entityOf (p : Plan) (edges : List Relationship) (reached : List String)
    (l : Labelled) : (entityOf p edges reached l).name = l.name := by
  rcases entityOf_cases p edges reached l with ⟨column, origin, h⟩ | ⟨isRoot, origin, h⟩ <;> rw [h]
  · rfl
  · rfl

/-- An entity has the storage key of its declaration. -/
@[simp] theorem storageKey_entityOf (p : Plan) (edges : List Relationship) (reached : List String)
    (l : Labelled) : (entityOf p edges reached l).storageKey = l.declaration.storageKey := by
  rcases entityOf_cases p edges reached l with ⟨column, origin, h⟩ | ⟨isRoot, origin, h⟩ <;> rw [h]
  · rfl
  · rfl

/-- The names that tenancy starts from or is carried to in a plan. -/
def Plan.reached (p : Plan) : List String :=
  Propagation.anchored p.settings.inferRoots p.edges p.labelled

/-- The entities of a plan are made one by one. -/
theorem entities_ofPlan (p : Plan) :
    (ofPlan p).entities = p.labelled.map (entityOf p p.edges p.reached) := rfl

/-- The entities have the names of the declarations. -/
theorem map_name_entities (p : Plan) :
    (ofPlan p).entities.map Entity.name = p.labelled.map Labelled.name := by
  rw [entities_ofPlan, List.map_map]
  exact List.map_congr_left fun l _ => name_entityOf p p.edges p.reached l

/-- The entities of a classified schema stand in strictly increasing order of their names. -/
theorem increasing_entities {s : SchemaSettings} {declarations : List Declaration}
    {schema : Schema} (h : classify s declarations = .ok schema) :
    Ordered.Increasing (schema.entities.map Entity.name) := by
  obtain ⟨p, hplan, rfl⟩ := classify_eq_ok h
  rw [map_name_entities]
  exact increasing_labelled hplan

/-- The entities of a classified schema have different storage keys. -/
theorem nodup_storageKey_entities {s : SchemaSettings} {declarations : List Declaration}
    {schema : Schema} (h : classify s declarations = .ok schema) :
    (schema.entities.map Entity.storageKey).Nodup := by
  obtain ⟨p, hplan, rfl⟩ := classify_eq_ok h
  obtain ⟨merged, hmerge, hlabelled, -⟩ := plan_eq_ok hplan
  have hkeys : (ofPlan p).entities.map Entity.storageKey =
      merged.map Declaration.storageKey := by
    rw [entities_ofPlan, ← map_declaration_labelled hlabelled, List.map_map, List.map_map]
    exact List.map_congr_left fun l _ => storageKey_entityOf p p.edges p.reached l
  rw [hkeys]
  exact Declaration.nodup_storageKey_merge hmerge

/-- An entity whose rows belong to tenants has a scoping column. -/
theorem exists_scopingColumn {s : SchemaSettings} {declarations : List Declaration}
    {schema : Schema} (h : classify s declarations = .ok schema) {e : Entity}
    (he : e ∈ schema.entities) (hscope : e.scope = .tenantScoped) :
    ∃ column, e.scopingColumn = some column := by
  obtain ⟨p, -, rfl⟩ := classify_eq_ok h
  rw [entities_ofPlan] at he
  obtain ⟨l, -, rfl⟩ := List.mem_map.mp he
  rcases entityOf_cases p p.edges p.reached l with ⟨column, origin, h⟩ | ⟨isRoot, origin, h⟩ <;>
    rw [h] at hscope ⊢
  · exact ⟨column, rfl⟩
  · cases hscope

/-! ### Looking entities up -/

/-- A look-up by name finds the one entity that has the name. -/
theorem get?_eq_some_iff {schema : Schema}
    (h : Ordered.Increasing (schema.entities.map Entity.name)) {name : String} {e : Entity} :
    schema.get? name = some e ↔ e ∈ schema.entities ∧ e.name = name := by
  unfold get?
  constructor
  · intro hfind
    exact ⟨List.mem_of_find?_eq_some hfind, by simpa using List.find?_some hfind⟩
  · rintro ⟨he, rfl⟩
    refine find?_of_unique he (decide_eq_true rfl) ?_
    intro other hother hname
    exact List.inj_on_of_nodup_map h.nodup hother he (of_decide_eq_true hname)

/-- A look-up by name or storage key finds an entity of the schema. -/
theorem mem_of_resolve? {schema : Schema} {text : String} {e : Entity}
    (h : schema.resolve? text = some e) : e ∈ schema.entities := by
  unfold resolve? at h
  split at h
  · rename_i found hfound
    cases h
    exact List.mem_of_find?_eq_some hfound
  · exact List.mem_of_find?_eq_some h

/-- A look-up by name or storage key finds an entity of that name or storage key. -/
theorem isNamed_of_resolve? {schema : Schema} {text : String} {e : Entity}
    (h : schema.resolve? text = some e) : e.isNamed text = true := by
  unfold resolve? at h
  unfold Entity.isNamed
  split at h
  · rename_i found hfound
    cases h
    have hname : e.name = text := by simpa using List.find?_some hfound
    simp [hname]
  · have hkey : e.storageKey = text := by simpa using List.find?_some h
    simp [hkey]

/-- A look-up by the name of a labelled entity finds what was made of it. -/
theorem get?_ofPlan {s : SchemaSettings} {declarations : List Declaration} {p : Plan}
    (h : plan s declarations = .ok p) {l : Labelled} (hl : l ∈ p.labelled) :
    (ofPlan p).get? l.name = some (entityOf p p.edges p.reached l) := by
  have hclassify : classify s declarations = .ok (ofPlan p) := by
    unfold classify
    rw [h]
    rfl
  rw [get?_eq_some_iff (increasing_entities hclassify)]
  refine ⟨?_, name_entityOf p p.edges p.reached l⟩
  rw [entities_ofPlan]
  exact List.mem_map_of_mem hl

/-- What a look-up by name finds was made of the labelled entity of that name. -/
theorem exists_of_get?_ofPlan {p : Plan} {name : String} {e : Entity}
    (he : (ofPlan p).get? name = some e) :
    ∃ l ∈ p.labelled, l.name = name ∧ e = entityOf p p.edges p.reached l := by
  have hname : e.name = name := by simpa using List.find?_some he
  have hmem := List.mem_of_find?_eq_some he
  rw [entities_ofPlan] at hmem
  obtain ⟨l, hl, rfl⟩ := List.mem_map.mp hmem
  exact ⟨l, hl, (name_entityOf p p.edges p.reached l).symm.trans hname, rfl⟩

end Tenancy.Schema

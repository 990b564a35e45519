import Tenancy.Facts.Build
import Tenancy.Proofs.Schema.Plan

/-!
# Classified schemas are well formed

An entity can be classified in many ways, and names and storage keys are looked up twice: among the
merged declarations, when foreign keys are followed, and among the entities, once there is a schema.
This module says what holds of every schema that comes out.

* `IsWellFormed`: what holds of the schema by itself. Its entities can be found by name and, unless
  another one is named so, by storage key; the tenant-scoped ones are those with a scoping column,
  and none of them is a root.
* `map_name_resolve?`: the two look-ups agree, also where an entity is named like the storage key of
  another.
* `classify_wellFormed`: a classified schema is well formed, and its relationships are the foreign
  keys whose reference it can resolve.
-/

set_option autoImplicit false

namespace Tenancy

open Tenancy.Support

/-- Relationships that compare as equal are equal. -/
instance : Std.LawfulEqOrd Relationship where
  compare_self {a} := Std.ReflOrd.compare_self
  eq_of_compare {a b} h := by
    obtain ⟨hfrom, hrest⟩ := compareLex_eq_eq.mp h
    obtain ⟨hto, hvia⟩ := compareLex_eq_eq.mp hrest
    have hfrom : a.fromEntity = b.fromEntity := Std.LawfulEqOrd.eq_of_compare hfrom
    have hto : a.toEntity = b.toEntity := Std.LawfulEqOrd.eq_of_compare hto
    have hvia : a.viaColumn = b.viaColumn := Std.LawfulEqOrd.eq_of_compare hvia
    cases a
    cases b
    simp_all

namespace Schema

/-- What holds of a classified schema by itself. -/
structure IsWellFormed (schema : Schema) : Prop where
  /-- Entities stand in the order of their names, each name once. -/
  names : Ordered.Increasing (schema.entities.map Entity.name)
  /-- Entities are stored under their own names. -/
  stored : ∀ e ∈ schema.entities, schema.get? e.name = some e
  /-- The tenant-scoped entities are those with a scoping column. -/
  columns : ∀ e ∈ schema.entities,
    e.scope = .tenantScoped ↔ ∃ column, e.scopingColumn = some column
  /-- No tenant-scoped entity is a tenant root. -/
  apart : ∀ e ∈ schema.entities, ¬ (e.scope = .tenantScoped ∧ e.tenantRoot = true)
  /-- No two entities have the same storage key. -/
  keys : (schema.entities.map Entity.storageKey).Nodup
  /-- A name leads to its entity. -/
  byName : ∀ e ∈ schema.entities, schema.resolve? e.name = some e
  /-- A storage key leads to its entity, unless another entity is named so. -/
  byKey : ∀ e ∈ schema.entities, schema.resolve? e.storageKey = some e ↔
    ∀ other ∈ schema.entities, other.name = e.storageKey → other = e
  /-- Relationships are sorted, and each is listed once. -/
  relationships : Ordered.Increasing schema.relationships

variable {s : SchemaSettings} {declarations merged : List Declaration} {schema : Schema}
  {p : Plan} {e : Entity}

/-! ### Single entities -/

/-- The tenant-scoped entities are those with a scoping column. -/
theorem scope_entityOf_iff (p : Plan) (edges : List Relationship) (reached : List String)
    (l : Labelled) : (entityOf p edges reached l).scope = .tenantScoped ↔
      ∃ column, (entityOf p edges reached l).scopingColumn = some column := by
  rcases entityOf_cases p edges reached l with ⟨column, origin, h⟩ | ⟨isRoot, origin, h⟩
  · rw [h]
    exact iff_of_true rfl ⟨column, rfl⟩
  · rw [h]
    simp [globalEntity]

/-- No tenant-scoped entity is a tenant root. -/
theorem tenantRoot_entityOf (p : Plan) (edges : List Relationship) (reached : List String)
    (l : Labelled) (hscope : (entityOf p edges reached l).scope = .tenantScoped) :
    (entityOf p edges reached l).tenantRoot = false := by
  rcases entityOf_cases p edges reached l with ⟨column, origin, h⟩ | ⟨isRoot, origin, h⟩
  · rw [h]
    rfl
  · rw [h] at hscope
    cases hscope

/-! ### Looking entities up -/

/-- A name leads to its entity. -/
theorem resolve?_name (hnames : Ordered.Increasing (schema.entities.map Entity.name))
    (he : e ∈ schema.entities) : schema.resolve? e.name = some e := by
  unfold resolve?
  rw [(get?_eq_some_iff hnames).mpr ⟨he, rfl⟩]

/-- A storage key leads to its entity, unless another entity is named so. -/
theorem resolve?_storageKey_iff (hnames : Ordered.Increasing (schema.entities.map Entity.name))
    (hkeys : (schema.entities.map Entity.storageKey).Nodup) (he : e ∈ schema.entities) :
    schema.resolve? e.storageKey = some e ↔
      ∀ other ∈ schema.entities, other.name = e.storageKey → other = e := by
  constructor
  · intro h other hother hname
    rw [← hname, resolve?_name hnames hother] at h
    exact Option.some.inj h
  · intro halone
    unfold resolve?
    cases hget : schema.get? e.storageKey with
    | some other =>
      obtain ⟨hother, hname⟩ := (get?_eq_some_iff hnames).mp hget
      rw [halone other hother hname]
    | none =>
      refine find?_of_unique he (decide_eq_true rfl) ?_
      intro other hother hkey
      exact List.inj_on_of_nodup_map hkeys hother he (of_decide_eq_true hkey)

/-- The two look-ups agree: a reference leads to an entity of the schema exactly when it leads to
one of the declarations that the schema was made from, and the names are the same. -/
theorem map_name_resolve? (hmerged : p.labelled.map Labelled.declaration = merged)
    (references : String) :
    ((ofPlan p).resolve? references).map Entity.name
      = Propagation.target? merged references := by
  have hname : (ofPlan p).entities.find? (fun e => e.name = references)
      = (p.labelled.find? fun l => l.declaration.entity = references).map
          (entityOf p p.edges p.reached) := by
    rw [entities_ofPlan, List.find?_map]
    simp only [Function.comp_def, name_entityOf]
    rfl
  have hkey : (ofPlan p).entities.find? (fun e => e.storageKey = references)
      = (p.labelled.find? fun l => l.declaration.storageKey = references).map
          (entityOf p p.edges p.reached) := by
    rw [entities_ofPlan, List.find?_map]
    simp only [Function.comp_def, storageKey_entityOf]
  unfold resolve? get? Propagation.target?
  rw [hname, hkey, ← hmerged, List.find?_map, List.find?_map]
  -- Both sides search the labelled entities, by name first.
  simp only [Function.comp_def]
  cases p.labelled.find? fun l => decide (l.declaration.entity = references) with
  | some l => exact congrArg some (name_entityOf p p.edges p.reached l)
  | none =>
    cases p.labelled.find? fun l => decide (l.declaration.storageKey = references) with
    | some l => exact congrArg some (name_entityOf p p.edges p.reached l)
    | none => rfl

/-- The relationships of a schema are the foreign keys whose reference it can resolve. -/
theorem mem_relationships_iff (hplan : plan s declarations = .ok p)
    (hmerge : Declaration.merge declarations = .ok merged) {r : Relationship} :
    r ∈ (ofPlan p).relationships ↔ ∃ d ∈ merged, ∃ key ∈ d.foreignKeys, ∃ target,
      (ofPlan p).resolve? key.references = some target ∧
        r = ⟨d.entity, target.name, key.column⟩ := by
  obtain ⟨merged', hmerge', hlabelled, hp⟩ := plan_eq_ok hplan
  cases hmerge.symm.trans hmerge'
  have hresolve := map_name_resolve? (map_declaration_labelled hlabelled)
  have hfollowed : p.relationships = Propagation.relationships merged := by
    rw [hp]
    rfl
  show r ∈ Ordered.ofList p.relationships ↔ _
  rw [Ordered.mem_ofList, hfollowed, Propagation.relationships, List.mem_flatMap]
  simp only [List.mem_filterMap, ← hresolve, Option.map_map, Option.map_eq_some_iff]
  constructor
  · rintro ⟨d, hd, key, hkey, target, htarget, rfl⟩
    exact ⟨d, hd, key, hkey, target, htarget, rfl⟩
  · rintro ⟨d, hd, key, hkey, target, htarget, rfl⟩
    exact ⟨d, hd, key, hkey, target, htarget, rfl⟩

/-! ### Schemas -/

/-- A classified schema is well formed by itself. -/
theorem isWellFormed_of_classify (h : classify s declarations = .ok schema) :
    schema.IsWellFormed := by
  have hnames := increasing_entities h
  have hkeys := nodup_storageKey_entities h
  obtain ⟨p, -, rfl⟩ := classify_eq_ok h
  -- Every entity was made of a labelled one.
  have hmade : ∀ e ∈ (ofPlan p).entities, ∃ l, e = entityOf p p.edges p.reached l := by
    intro e he
    obtain ⟨l, -, rfl⟩ := List.mem_map.mp he
    exact ⟨l, rfl⟩
  refine ⟨hnames, ?_, ?_, ?_, hkeys, ?_, ?_, Ordered.increasing_ofList _⟩
  · exact fun e he => (get?_eq_some_iff hnames).mpr ⟨he, rfl⟩
  · intro e he
    obtain ⟨l, rfl⟩ := hmade e he
    exact scope_entityOf_iff p p.edges p.reached l
  · rintro e he ⟨hscope, hroot⟩
    obtain ⟨l, rfl⟩ := hmade e he
    rw [tenantRoot_entityOf p p.edges p.reached l hscope] at hroot
    cases hroot
  · exact fun e he => resolve?_name hnames he
  · exact fun e he => resolve?_storageKey_iff hnames hkeys he

/-- **A classified schema is well formed, and foreign keys were followed as it resolves
references.** It is well formed by itself, it has one entity for each merged declaration, and its
relationships are exactly the foreign keys of these whose reference it can resolve, with the name of
what the reference leads to. -/
theorem classify_wellFormed (h : classify s declarations = .ok schema) :
    schema.IsWellFormed ∧ ∃ merged, Declaration.merge declarations = .ok merged ∧
      schema.entities.map Entity.name = merged.map Declaration.entity ∧
      ∀ r, r ∈ schema.relationships ↔ ∃ d ∈ merged, ∃ key ∈ d.foreignKeys, ∃ target,
        schema.resolve? key.references = some target ∧
          r = ⟨d.entity, target.name, key.column⟩ := by
  refine ⟨isWellFormed_of_classify h, ?_⟩
  obtain ⟨p, hplan, rfl⟩ := classify_eq_ok h
  obtain ⟨merged, hmerge, hlabelled, -⟩ := plan_eq_ok hplan
  refine ⟨merged, hmerge, ?_, fun r => mem_relationships_iff hplan hmerge⟩
  rw [map_name_entities, map_name_labelled hlabelled]

/-- Teams are stored under `Group`, which is also the name of another entity. A foreign key to
`Group` leads to that one, and so does the schema. -/
theorem classify_wellFormed_of_clash :
    ∃ (declarations : List Declaration) (schema : Schema) (group team : Entity),
      classify .default declarations = .ok schema ∧ schema.IsWellFormed ∧
      group ∈ schema.entities ∧ team ∈ schema.entities ∧
      team.storageKey = group.name ∧ schema.resolve? team.storageKey = some group ∧
      (⟨"Member", "Group", "group_id"⟩ : Relationship) ∈ schema.relationships := by
  let declarations := [
    Declaration.named "Team" "Group",
    Declaration.named "Group" "groups",
    (Declaration.named "Member" "members").addForeignKey "group_id" "Group"]
  let schema := (classify .default declarations).toOption.getD default
  have hclassify : classify .default declarations = .ok schema := by decide +kernel
  let group := (schema.get? "Group").getD default
  let team := (schema.get? "Team").getD default
  exact ⟨declarations, schema, group, team, hclassify, (classify_wellFormed hclassify).1,
    by decide +kernel, by decide +kernel, by decide +kernel, by decide +kernel, by decide +kernel⟩

end Schema

end Tenancy

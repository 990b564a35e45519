import Tenancy.Proofs.Access.Column
import Tenancy.Proofs.Access.Extraction
import Tenancy.Sample

/-!
# Two ways to look a name up

The schema looks a text up among the names of entities first and among storage keys only if no
entity has that name. The qualifier of a column is looked up among the targets of its operation, and
there the first target counts that has it as name or storage key. Names are unique and storage keys
are unique, but an entity may be named like the storage key of another.

`lookup_agrees_iff` says that this is the only way for the two to come apart: unless one target is
named like the storage key of another (`Clash`), a column belongs to the entity that the schema
finds by its qualifier, and it does not matter in which order the targets are listed. If there is a
clash both fail for some order. `clashing_key_hides_name` shows two such targets.
-/

set_option autoImplicit false

namespace Tenancy

open Tenancy.Support

/-- One of two entities has a text as name and the other one as storage key. -/
def Entity.Clash (entities : List Entity) (text : String) : Prop :=
  ∃ e ∈ entities, ∃ other ∈ entities, e.name = text ∧ other.storageKey = text ∧ e ≠ other

instance (entities : List Entity) (text : String) : Decidable (Entity.Clash entities text) :=
  inferInstanceAs (Decidable (∃ e ∈ entities, ∃ other ∈ entities,
    e.name = text ∧ other.storageKey = text ∧ e ≠ other))

/-- Of entities with unique names and unique storage keys, a text without a clash is the name or
storage key of one at most. -/
theorem Entity.eq_of_isNamed {entities targets : List Entity}
    (hnames : (entities.map Entity.name).Nodup) (hkeys : (entities.map Entity.storageKey).Nodup)
    (htargets : ∀ e ∈ targets, e ∈ entities) {text : String} (hclash : ¬ Clash targets text)
    {e other : Entity} (he : e ∈ targets) (hother : other ∈ targets)
    (hnamed : e.isNamed text = true) (hnamed' : other.isNamed text = true) : e = other := by
  simp only [isNamed, Bool.or_eq_true, decide_eq_true_eq] at hnamed hnamed'
  rcases hnamed with hname | hkey <;> rcases hnamed' with hname' | hkey'
  · exact List.inj_on_of_nodup_map hnames (htargets e he) (htargets other hother)
      (hname.trans hname'.symm)
  · -- The name of one and the storage key of the other: no clash, so they are the same.
    by_contra hne
    exact hclash ⟨e, he, other, hother, hname, hkey', hne⟩
  · by_contra hne
    exact hclash ⟨other, hother, e, he, hname', hkey, Ne.symm hne⟩
  · exact List.inj_on_of_nodup_map hkeys (htargets e he) (htargets other hother)
      (hkey.trans hkey'.symm)

namespace ColumnRef

variable {targets : List Entity} {e other : Entity} {text qualifier column : String}

/-- Columns of entities with different names are told apart, also if they are unknown. -/
theorem ofEntity_ne (hne : e.name ≠ other.name) (column : String) (operation : Nat) :
    ofEntity e column operation ≠ ofEntity other column operation := by
  unfold ofEntity
  split <;> split <;> simp [hne]

/-- A qualified column belongs to the target that is found by the qualifier. -/
theorem resolve_of_find? (htext : IsQualified text qualifier column) (operation : Nat)
    (hfind : targets.find? (fun e => e.isNamed qualifier) = some e) :
    resolve targets text operation = ofEntity e column operation := by
  rw [resolve_of_isQualified htext]
  unfold ofQualified
  simp only [hfind, if_neg htext.nonempty]

/-- A qualified column belongs to the first target if the qualifier is its name or storage key. -/
theorem exists_perm_resolve (htext : IsQualified text qualifier column) (operation : Nat)
    (he : e ∈ targets) (hnamed : e.isNamed qualifier = true) :
    ∃ listed, listed.Perm targets ∧
      resolve listed text operation = ofEntity e column operation := by
  refine ⟨e :: targets.erase e, (List.perm_cons_erase he).symm, ?_⟩
  exact resolve_of_find? htext operation (List.find?_cons_of_pos hnamed)

end ColumnRef

namespace Extractor

open ColumnRef Entity

variable {x : Extractor} {settings : SchemaSettings} {declarations : List Declaration}
  {operation : Nat} {names : List String} {targets : List Entity}

/-- Targets are entities of the schema. -/
theorem mem_entities_of_mem_targets
    (hschema : Schema.classify settings declarations = .ok x.schema)
    (htargets : x.targets operation [] names = .ok targets) {e : Entity} (he : e ∈ targets) :
    e ∈ x.schema.entities := by
  rw [mem_targets_iff (Schema.increasing_entities hschema) (by simp) htargets] at he
  obtain hnone | ⟨name, -, hresolve⟩ := he
  · cases hnone
  · exact Schema.mem_of_resolve? hresolve

/-- Without a clash a text is the name or storage key of one target at most. -/
theorem eq_of_isNamed (hschema : Schema.classify settings declarations = .ok x.schema)
    (htargets : x.targets operation [] names = .ok targets) {text : String}
    (hclash : ¬ Clash targets text) {e other : Entity} (he : e ∈ targets)
    (hother : other ∈ targets) (hnamed : e.isNamed text = true)
    (hnamed' : other.isNamed text = true) : e = other :=
  Entity.eq_of_isNamed (Schema.increasing_entities hschema).nodup
    (Schema.nodup_storageKey_entities hschema)
    (fun _ => mem_entities_of_mem_targets hschema htargets) hclash he hother hnamed hnamed'

/-- Without a clash the order of the targets does not matter. -/
theorem find?_isNamed_perm (hschema : Schema.classify settings declarations = .ok x.schema)
    (htargets : x.targets operation [] names = .ok targets) {text : String}
    (hclash : ¬ Clash targets text) {listed : List Entity} (hperm : listed.Perm targets) :
    listed.find? (fun e => e.isNamed text) = targets.find? (fun e => e.isNamed text) := by
  cases hfind : targets.find? fun e => e.isNamed text with
  | none =>
    rw [List.find?_eq_none] at hfind ⊢
    intro e he
    exact hfind e (hperm.mem_iff.mp he)
  | some e =>
    have he := List.mem_of_find?_eq_some hfind
    have hnamed : e.isNamed text = true := by simpa using List.find?_some hfind
    refine find?_of_unique (hperm.mem_iff.mpr he) hnamed ?_
    intro other hother hnamed'
    exact eq_of_isNamed hschema htargets hclash (hperm.mem_iff.mp hother) he hnamed' hnamed

/-- With a clash there is an entity that the schema finds among the targets, and another target to
which a column with that qualifier belongs in some order. -/
theorem exists_hidden_of_clash (hschema : Schema.classify settings declarations = .ok x.schema)
    (htargets : x.targets operation [] names = .ok targets) {qualifier : String}
    (hclash : Clash targets qualifier) (column : String) :
    ∃ e ∈ targets, ∃ other ∈ targets, x.schema.resolve? qualifier = some e ∧
      e.isNamed qualifier = true ∧ other.isNamed qualifier = true ∧
      ofEntity other column operation ≠ ofEntity e column operation := by
  obtain ⟨e, he, other, hother, hname, hkey, hne⟩ := hclash
  have hmem := mem_entities_of_mem_targets hschema htargets he
  have hmem' := mem_entities_of_mem_targets hschema htargets hother
  have hnames := Schema.increasing_entities hschema
  refine ⟨e, he, other, hother, ?_, by simp [isNamed, hname], by simp [isNamed, hkey], ?_⟩
  · -- The schema looks at names first.
    unfold Schema.resolve?
    rw [(Schema.get?_eq_some_iff hnames).mpr ⟨hmem, hname⟩]
  · apply ofEntity_ne
    intro hsame
    exact hne (List.inj_on_of_nodup_map hnames.nodup hmem hmem' hsame.symm)

/-- **A qualified column belongs to the entity that the schema finds by its qualifier, in whichever
order the targets are listed, exactly if no target is named like the storage key of another.** If
the entity does not accept the column, it is unknown for that entity. The order has no influence on
the outcome under the same condition. -/
theorem lookup_agrees_iff (hschema : Schema.classify settings declarations = .ok x.schema)
    (htargets : x.targets operation [] names = .ok targets) {text qualifier column : String}
    (htext : IsQualified text qualifier column) :
    ((∀ listed, listed.Perm targets → ∀ e ∈ targets, x.schema.resolve? qualifier = some e →
        resolve listed text operation = ofEntity e column operation) ↔
      ¬ Clash targets qualifier) ∧
    ((∀ listed, listed.Perm targets →
        resolve listed text operation = resolve targets text operation) ↔
      ¬ Clash targets qualifier) := by
  refine ⟨⟨?_, ?_⟩, ⟨?_, ?_⟩⟩
  · intro hagrees hclash
    obtain ⟨e, he, other, hother, hfound, -, hnamed, hne⟩ :=
      exists_hidden_of_clash hschema htargets hclash column
    obtain ⟨listed, hperm, hresolve⟩ := exists_perm_resolve htext operation hother hnamed
    exact hne (hresolve.symm.trans (hagrees listed hperm e he hfound))
  · intro hclash listed hperm e he hfound
    have hnamed := Schema.isNamed_of_resolve? hfound
    refine resolve_of_find? htext operation (find?_of_unique (hperm.mem_iff.mpr he) hnamed ?_)
    intro other hother hnamed'
    exact eq_of_isNamed hschema htargets hclash (hperm.mem_iff.mp hother) he hnamed' hnamed
  · intro hsame hclash
    obtain ⟨e, he, other, hother, -, hnamed, hnamed', hne⟩ :=
      exists_hidden_of_clash hschema htargets hclash column
    obtain ⟨listed, hperm, hresolve⟩ := exists_perm_resolve htext operation he hnamed
    obtain ⟨listed', hperm', hresolve'⟩ := exists_perm_resolve htext operation hother hnamed'
    apply hne
    rw [← hresolve', ← hresolve, hsame listed hperm, hsame listed' hperm']
  · intro hclash listed hperm
    rw [resolve_of_isQualified htext, resolve_of_isQualified htext]
    unfold ofQualified
    rw [find?_isNamed_perm hschema htargets hclash hperm]

/-- In the sample application users and projects are listed in either order, and a column of the
table `users` is one of users. -/
theorem lookup_agrees_sample :
    ∃ (x : Extractor) (targets : List Entity),
      Schema.classify Sample.settings.schema Sample.schema = .ok x.schema ∧
      x.targets 0 [] ["Project", "User"] = .ok targets ∧ ¬ Clash targets "users" ∧
      resolve targets.reverse "users.workspace_id" 0 = .ok ⟨"User", "workspace_id"⟩ := by
  let schema := (Schema.classify Sample.settings.schema Sample.schema).toOption.getD default
  let x := Extractor.ofSettings schema Sample.settings
  let targets := (x.targets 0 [] ["Project", "User"]).toOption.getD []
  have hschema : Schema.classify Sample.settings.schema Sample.schema = .ok x.schema := by
    decide +kernel
  have htargets : x.targets 0 [] ["Project", "User"] = .ok targets := by decide +kernel
  have hclash : ¬ Clash targets "users" := by decide +kernel
  have htext : IsQualified "users.workspace_id" "users" "workspace_id" :=
    ⟨.inl (by decide), by decide, by decide, by decide⟩
  let e := (schema.get? "User").getD default
  have he : e ∈ targets := by decide +kernel
  have hfound : x.schema.resolve? "users" = some e := by decide +kernel
  refine ⟨x, targets, hschema, htargets, hclash, ?_⟩
  rw [(lookup_agrees_iff hschema htargets htext).1.mpr hclash _ targets.reverse_perm e he hfound]
  decide +kernel

/-- Users in the table `users`, and an entity of that name whose table is called otherwise. -/
def clashingTables : List Declaration := [
  (Declaration.named "Workspace" "workspaces").addColumns ["id"],
  (Declaration.named "User" "users")
    |>.addColumns ["id", "workspace_id"]
    |>.addForeignKey "workspace_id" "workspaces",
  (Declaration.named "users" "people")
    |>.addColumns ["id", "workspace_id"]
    |>.addForeignKey "workspace_id" "workspaces"]

/-- The schema finds the entity `users` by its name, but a column of it belongs to `User` if that
target is listed first. -/
theorem clashing_key_hides_name :
    ∃ (x : Extractor) (e : Entity) (targets targets' : List Entity),
      Schema.classify Sample.settings.schema clashingTables = .ok x.schema ∧
      x.targets 0 [] ["User", "users"] = .ok targets ∧
      x.targets 0 [] ["users", "User"] = .ok targets' ∧ e ∈ targets ∧ e.name = "users" ∧
      x.schema.resolve? "users" = some e ∧
      resolve targets "users.workspace_id" 0 = .ok ⟨"User", "workspace_id"⟩ ∧
      resolve targets' "users.workspace_id" 0 = .ok ⟨"users", "workspace_id"⟩ := by
  let schema := (Schema.classify Sample.settings.schema clashingTables).toOption.getD default
  let x := Extractor.ofSettings schema Sample.settings
  exact ⟨x, (schema.get? "users").getD default,
    (x.targets 0 [] ["User", "users"]).toOption.getD [],
    (x.targets 0 [] ["users", "User"]).toOption.getD [], by decide +kernel, by decide +kernel,
    by decide +kernel, by decide +kernel, by decide +kernel, by decide +kernel,
    by decide +kernel, by decide +kernel⟩

end Extractor

end Tenancy

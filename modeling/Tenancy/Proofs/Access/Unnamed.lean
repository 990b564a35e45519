import Tenancy.Proofs.Access.Extraction
import Tenancy.Sample

/-!
# Expressions without a name

An expression is traced by the name at its front. A text in quotes, a negative number or an
expression in brackets has no name there, and its leading name is the empty text
(`rootName_eq_empty_iff`). The empty text is looked up like any other name, and nothing keeps a
handler from calling a dependency or a local name so. `unnamed_source_iff` says what that comes to:
an expression without a name is a value of the tenant exactly if such a value goes by the empty name
(`Extractor.HasNamelessTenant`), and otherwise nothing is known about it.

* `rootName_eq_empty_iff`: which expressions have no name at their front.
* `NameScope.sourceOf_reference_iff`: what one step of tracing looks at.
* `negative_number_is_tenant`: a negative number that passes for the caller's tenant.
-/

set_option autoImplicit false

namespace Tenancy

/-- No name stands at the front of an expression: it is blank, or starts with a character that does
not belong to a name. -/
def IsUnnamed (expr : String) : Prop :=
  Text.trim expr = "" ∨
    ∃ c rest, (Text.trim expr).toList = c :: rest ∧ Text.isWord c = false

/-- The leading name is empty exactly if none stands at the front. -/
theorem rootName_eq_empty_iff {expr : String} : rootName expr = "" ↔ IsUnnamed expr := by
  unfold rootName IsUnnamed
  rw [← String.toList_inj, String.toList_ofList, ← String.toList_inj]
  cases (Text.trim expr).toList with
  | nil => simp
  | cons c rest =>
    cases hc : Text.isWord c with
    | true => simp [hc]
    | false => simp [hc]

namespace NameScope

variable {s : NameScope}

/-- A name leads to a tenant context exactly if it is one, or the next name leads to one. -/
theorem exists_after_iff {name : String} :
    (∃ k, ∃ last ∈ s.tenantValues, s.after k name = some last) ↔
      name ∈ s.tenantValues ∨ ∃ next, s.next? name = some next ∧
        ∃ k, ∃ last ∈ s.tenantValues, s.after k next = some last := by
  constructor
  · rintro ⟨k, last, hlast, hafter⟩
    cases k with
    | zero =>
      cases hafter
      exact .inl hlast
    | succ k =>
      obtain ⟨next, hnext, hafter⟩ := Option.bind_eq_some_iff.mp hafter
      exact .inr ⟨next, hnext, k, last, hlast, hafter⟩
  · rintro (hlast | ⟨next, hnext, k, last, hlast, hafter⟩)
    · exact ⟨0, name, hlast, rfl⟩
    · refine ⟨k + 1, last, hlast, ?_⟩
      rw [after, hnext]
      exact hafter

/-- An expression is a value of the tenant exactly if its leading name is a tenant context or stands
for an expression that is such a value. -/
theorem sourceOf_reference_iff {expr : String} :
    s.sourceOf (.reference expr) = .tenantContext ↔
      rootName expr ∈ s.tenantValues ∨
        ∃ bound, s.bound? (rootName expr) = some bound ∧
          s.sourceOf (.reference bound) = .tenantContext := by
  simp only [sourceOf_eq_tenantContext_iff, Operand.reference.injEq, exists_eq_left']
  rw [exists_after_iff]
  simp only [next?, Option.map_eq_some_iff, exists_exists_and_eq_and]

end NameScope

namespace Extractor

variable {x : Extractor} {h : Handler}

/-- A value of the tenant goes by the empty name in a handler: a dependency of that name gives the
tenant context, or the last binding of that name is to an expression that is such a value. -/
def HasNamelessTenant (x : Extractor) (h : Handler) : Prop :=
  (∃ d ∈ h.dependencies, d.name = "" ∧ x.kindOf d = .tenantContext) ∨
    ∃ before expr after, h.bindings = before ++ ⟨"", expr⟩ :: after ∧
      (∀ b ∈ after, b.name ≠ "") ∧ (x.namesOf h).sourceOf (.reference expr) = .tenantContext

/-- Where nothing goes by the empty name, no value of the tenant does. -/
theorem not_hasNamelessTenant (hdependencies : ∀ d ∈ h.dependencies, d.name ≠ "")
    (hbindings : ∀ b ∈ h.bindings, b.name ≠ "") : ¬ x.HasNamelessTenant h := by
  rintro (⟨d, hd, hname, -⟩ | ⟨before, expr, after, hsplit, -⟩)
  · exact hdependencies d hd hname
  · refine hbindings ⟨"", expr⟩ ?_ rfl
    rw [hsplit]
    simp

/-- An expression without a name is a value of the tenant exactly if the empty name is one. -/
theorem sourceOf_unnamed_iff {expr : String} (hexpr : IsUnnamed expr) :
    (x.namesOf h).sourceOf (.reference expr) = .tenantContext ↔ x.HasNamelessTenant h := by
  rw [NameScope.sourceOf_reference_iff, rootName_eq_empty_iff.mpr hexpr, mem_tenantValues_iff]
  refine or_congr ?_ ?_
  · refine exists_congr fun d => and_congr_right fun _ => ?_
    exact and_comm
  · simp only [NameScope.bound?_eq_some_iff]
    constructor
    · rintro ⟨expr, ⟨before, after, hsplit, hafter⟩, hsource⟩
      exact ⟨before, expr, after, hsplit, hafter, hsource⟩
    · rintro ⟨before, expr, after, hsplit, hafter, hsource⟩
      exact ⟨expr, ⟨before, after, hsplit, hafter⟩, hsource⟩

/-- **A filter by an expression without a name has an unknown source, unless a value of the tenant
goes by the empty name.** In that case every such filter passes for one by the caller's tenant. It
is not the case if no dependency and no binding has an empty name. -/
theorem unnamed_source_iff {targets : List Entity} {operation : Nat} {c : Condition} {f : Filter}
    {expr : String} (hoperand : c.operand = .reference expr) (hexpr : IsUnnamed expr)
    (hf : Filter.ofCondition (x.namesOf h) targets operation c = .ok f) :
    (f.source = .unknown ↔ ¬ x.HasNamelessTenant h) ∧
    (f.source = .tenantContext ↔ x.HasNamelessTenant h) ∧
    ((∀ d ∈ h.dependencies, d.name ≠ "") → (∀ b ∈ h.bindings, b.name ≠ "") →
      f.source = .unknown) := by
  obtain ⟨ref, -, rfl⟩ := Filter.ofCondition_eq_ok hf
  have htenant := sourceOf_unnamed_iff (x := x) (h := h) hexpr
  have hunknown : (x.namesOf h).sourceOf (.reference expr) = .unknown ↔
      ¬ x.HasNamelessTenant h := by
    rw [← htenant]
    simp [NameScope.sourceOf]
  rw [hoperand]
  exact ⟨hunknown, htenant, fun hd hb => hunknown.mpr (not_hasNamelessTenant hd hb)⟩

/-- In the sample application nothing is known about the tenant context in brackets. -/
theorem unnamed_source_in_brackets :
    ∃ (x : Extractor) (h : Handler) (targets : List Entity) (f : Filter),
      .tenantContext ∈ x.kinds h ∧ IsUnnamed " (workspace.id)" ∧
      Filter.ofCondition (x.namesOf h) targets 0
        ⟨"User.workspace_id", "==", .reference " (workspace.id)", .and, none⟩ = .ok f ∧
      f.source = .unknown := by
  let schema := (Schema.classify Sample.settings.schema Sample.schema).toOption.getD default
  let x := Extractor.ofSettings schema Sample.settings
  let h := Sample.scopedHandler 1 "list_users" "/users"
  let targets := (x.targets 0 [] ["User"]).toOption.getD []
  let c : Condition := ⟨"User.workspace_id", "==", .reference " (workspace.id)", .and, none⟩
  let f := (Filter.ofCondition (x.namesOf h) targets 0 c).toOption.getD default
  have hexpr : IsUnnamed " (workspace.id)" :=
    .inr ⟨'(', "workspace.id)".toList, by decide, by decide⟩
  have hf : Filter.ofCondition (x.namesOf h) targets 0 c = .ok f := by decide +kernel
  refine ⟨x, h, targets, f, by decide +kernel, hexpr, hf, ?_⟩
  exact (unnamed_source_iff rfl hexpr hf).2.2 (by decide) (by decide)

/-- In the sample application, where the dependency that gives the tenant context has no name, a
negative number passes for the caller's tenant, and the access is found to be safe. -/
theorem negative_number_is_tenant :
    ∃ (schema : Schema) (h : Handler) (o : Operation) (p : AccessPoint) (v : Verdict),
      Schema.classify Sample.settings.schema Sample.schema = .ok schema ∧
      h.operations = [o] ∧
      o.conditions = [⟨"User.workspace_id", "==", .reference "-1", .and, none⟩] ∧
      IsUnnamed "-1" ∧
      (Extractor.ofSettings schema Sample.settings).extract h = .ok [p] ∧
      p.filters.map Filter.source = [.tenantContext] ∧
      p.evaluate schema = .ok (some v) ∧ v.classification = .safe := by
  let schema := (Schema.classify Sample.settings.schema Sample.schema).toOption.getD default
  let x := Extractor.ofSettings schema Sample.settings
  let o := (Sample.operation .read "User" 39).filter "User.workspace_id" "-1"
  let h := ((Sample.handler 34 "list_users" "/users").addDependency
    "" "get_current_workspace").addOperation o
  let p := ((x.extract h).toOption.getD [])[0]?.getD default
  let v := ((p.evaluate schema).toOption.getD none).getD default
  exact ⟨schema, h, o, p, v, by decide +kernel, rfl, rfl,
    .inr ⟨'-', ['1'], by decide, by decide⟩, by decide +kernel, by decide +kernel,
    by decide +kernel, by decide +kernel⟩

end Extractor

end Tenancy

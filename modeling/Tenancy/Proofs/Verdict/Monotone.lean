import Tenancy.Proofs.Verdict.DecisionTable
import Tenancy.Proofs.Verdict.Dependencies

/-!
# What one more filter or path does

Two accesses that differ in their filters and paths alone (`SameTargets`) are judged by the same
targets, so the verdicts differ only as far as different targets are covered. `verdict_monotone`
follows four changes of this kind:

* a filter that is joined by `and` takes nothing away: what was safe stays safe;
* one more path is one more to cover: a violation stays a violation;
* a filter that is joined by `or` and applies on some path uncovers every target
  (`not_covered_addFilter`), so if one needs a filter there is a violation;
* an operand that turns out to be a value of the tenant takes nothing away.

Each change moves the covered targets in one direction, and `IsIsolated.mono` turns that into what
it means for the verdict.
-/

set_option autoImplicit false

namespace Tenancy

open Tenancy.Support

namespace AccessPoint

variable {p p' : AccessPoint} {s : Schema} {e : Entity} {f : Filter} {v : Verdict}

/-! ### Changes of filters and paths -/

/-- An access with one more filter behind the others. -/
def addFilter (p : AccessPoint) (f : Filter) : AccessPoint := { p with filters := p.filters ++ [f] }

/-- An access with one more path behind the others. -/
def addPath (p : AccessPoint) (path : Option String) : AccessPoint :=
  { p with paths := p.paths ++ [path] }

/-- An access of which the filter at one place compares with a value of the tenant. -/
def trustOperand (p : AccessPoint) (place : Nat) : AccessPoint :=
  { p with filters := p.filters.modify place fun f => { f with source := .tenantContext } }

/-- A filter that is joined by `and` uncovers nothing: where it applies, the other filters are
joined by `and` as they were. -/
theorem Covered.addFilter (h : p.Covered e) (hand : f.conjunction = .and) :
    (p.addFilter f).Covered e := by
  intro path hpath
  obtain ⟨hall, g, hg, hscopes⟩ := h path hpath
  refine ⟨?_, g, List.mem_append_left _ hg, hscopes⟩
  intro other hother happlies
  rcases List.mem_append.mp hother with hother | hother
  · exact hall other hother happlies
  · rw [List.mem_singleton.mp hother]
    exact hand

/-- A filter that is joined by `or` uncovers everything, if there is a path on which it applies. -/
theorem not_covered_addFilter (hor : f.conjunction = .or)
    (hactive : ∃ path ∈ p.paths, f.branch = none ∨ f.branch = path) :
    ¬ (p.addFilter f).Covered e := by
  intro h
  obtain ⟨path, hpath, happlies⟩ := hactive
  have hand := (h path hpath).1 f (List.mem_append_right _ (List.mem_singleton_self f)) happlies
  rw [hor] at hand
  cases hand

/-- What is covered on one more path was covered without it. -/
theorem Covered.of_addPath {path : Option String} (h : (p.addPath path).Covered e) :
    p.Covered e :=
  fun other hother => h other (List.mem_append_left _ hother)

/-- A filter whose operand turns out to be a value of the tenant is the same otherwise. -/
theorem forall₂_grows_modify (filters : List Filter) (place : Nat) :
    List.Forall₂ Filter.Grows filters
      (filters.modify place fun f => { f with source := .tenantContext }) := by
  have hsame : ∀ f : Filter, f.Grows f := fun f => ⟨rfl, rfl, rfl, rfl, rfl, fun h => h⟩
  induction filters generalizing place with
  | nil =>
    rw [List.modify_nil]
    exact .nil
  | cons f rest ih =>
    cases place with
    | zero =>
      rw [List.modify_zero_cons]
      exact .cons ⟨rfl, rfl, rfl, rfl, rfl, fun _ => rfl⟩ (List.forall₂_same.mpr fun g _ => hsame g)
    | succ place =>
      rw [List.modify_succ_cons]
      exact .cons (hsame f) (ih place)

/-- Such a filter uncovers nothing. -/
theorem Covered.trustOperand (hpaths : p.paths ≠ []) (h : p.Covered e) (place : Nat) :
    (p.trustOperand place).Covered e := by
  have hcovers : (p.trustOperand place).covers e = true :=
    coversEveryPath_mono (forall₂_grows_modify p.filters place) ((covers_iff hpaths).mpr h)
  exact (covers_iff (p := p.trustOperand place) hpaths).mp hcovers

/-! ### Isolation -/

/-- No target needs a filter, or the tenant context is there and every target that needs a filter
is covered. -/
def IsIsolated (p : AccessPoint) (s : Schema) : Prop :=
  (∀ e, ¬ p.Requires s e) ∨
    .tenantContext ∈ p.dependencies ∧ ∀ e, p.Requires s e → p.Covered e

/-- An access that has a verdict and is not exempt is executed on some path and was judged by the
targets that need a filter. -/
theorem exists_required_of_evaluate (hv : p.evaluate s = .ok (some v))
    (hexempt : p.exemptions = []) :
    p.reachesExecution = true ∧ p.paths ≠ [] ∧
      ∃ required, p.required s = .ok required ∧ v = p.judge required := by
  have hreaches : p.reachesExecution = true := by
    by_contra hreaches
    rw [evaluate_of_not_reached (by simpa using hreaches)] at hv
    cases hv
  have hpaths : p.paths ≠ [] := by
    intro hpaths
    rw [evaluate_of_no_paths hreaches hpaths] at hv
    cases hv
  refine ⟨hreaches, hpaths, ?_⟩
  rw [evaluate_of_executed hreaches hpaths hexempt] at hv
  cases hrequired : p.required s with
  | error error => simp [hrequired, Except.map] at hv
  | ok required =>
    simp only [hrequired, Except.map, Except.ok.injEq, Option.some.injEq] at hv
    exact ⟨required, rfl, hv.symm⟩

/-- Such an access is safe exactly if it is isolated, and otherwise a violation. -/
theorem classification_iff_isIsolated (hv : p.evaluate s = .ok (some v))
    (hexempt : p.exemptions = []) :
    (v.classification = .safe ↔ p.IsIsolated s) ∧
      (v.classification = .violation ↔ ¬ p.IsIsolated s) := by
  obtain ⟨-, hpaths, required, hrequired, rfl⟩ := exists_required_of_evaluate hv hexempt
  have hsafe : (p.judge required).classification = .safe ↔ p.IsIsolated s := by
    rw [judge_safe_iff, List.eq_nil_iff_forall_not_mem]
    simp only [mem_required_iff hrequired, covers_iff hpaths]
    rfl
  refine ⟨hsafe, ?_⟩
  rw [← hsafe]
  rcases judge_cases (p := p) required with ⟨text, hjudge⟩ | ⟨kind, text, fix, hjudge⟩
  · simp [hjudge, safe]
  · simp [hjudge, violation]

/-- Accesses with the same targets have the same targets that need a filter. -/
theorem requires_congr (htargets : p'.targets = p.targets) :
    p'.Requires s e ↔ p.Requires s e := by
  unfold Requires
  rw [htargets]

/-- If what is covered stays covered, what is isolated stays isolated. -/
theorem IsIsolated.mono (htargets : p'.targets = p.targets)
    (hdependencies : p'.dependencies = p.dependencies) (hcovered : ∀ e, p.Covered e → p'.Covered e)
    (h : p.IsIsolated s) : p'.IsIsolated s := by
  rcases h with hnone | ⟨hcontext, hall⟩
  · exact .inl fun e he => hnone e ((requires_congr htargets).mp he)
  · refine .inr ⟨hdependencies ▸ hcontext, fun e he => ?_⟩
    exact hcovered e (hall e ((requires_congr htargets).mp he))

/-! ### Verdicts -/

/-- Two accesses differ in their filters and paths alone, and the second has a path if the first
does. -/
structure SameTargets (p p' : AccessPoint) : Prop where
  id : p'.id = p.id
  targets : p'.targets = p.targets
  dependencies : p'.dependencies = p.dependencies
  exemptions : p'.exemptions = p.exemptions
  reachesExecution : p'.reachesExecution = p.reachesExecution
  paths : p.paths ≠ [] → p'.paths ≠ []

theorem sameTargets_addFilter (p : AccessPoint) (f : Filter) : p.SameTargets (p.addFilter f) :=
  ⟨rfl, rfl, rfl, rfl, rfl, fun h => h⟩

theorem sameTargets_addPath (p : AccessPoint) (path : Option String) :
    p.SameTargets (p.addPath path) := ⟨rfl, rfl, rfl, rfl, rfl, fun _ => by simp [addPath]⟩

theorem sameTargets_trustOperand (p : AccessPoint) (place : Nat) :
    p.SameTargets (p.trustOperand place) := ⟨rfl, rfl, rfl, rfl, rfl, fun h => h⟩

namespace SameTargets

/-- Where one has a verdict and is not exempt, the other has a verdict and is not exempt. -/
theorem exists_evaluate (h : p.SameTargets p') (hv : p.evaluate s = .ok (some v))
    (hexempt : p.exemptions = []) :
    p'.exemptions = [] ∧ ∃ v', p'.evaluate s = .ok (some v') := by
  obtain ⟨hreaches, hpaths, required, hrequired, -⟩ := exists_required_of_evaluate hv hexempt
  have hexempt' := h.exemptions.trans hexempt
  refine ⟨hexempt', p'.judge required, ?_⟩
  rw [evaluate_of_executed (h.reachesExecution.trans hreaches) (h.paths hpaths) hexempt',
    required_congr h.id h.targets, hrequired]
  rfl

/-- If what is covered stays covered, what is safe stays safe. -/
theorem safe (h : p.SameTargets p') (hv : p.evaluate s = .ok (some v))
    (hexempt : p.exemptions = []) (hcovered : ∀ e, p.Covered e → p'.Covered e)
    (hsafe : v.classification = .safe) :
    ∃ v', p'.evaluate s = .ok (some v') ∧ v'.classification = .safe := by
  obtain ⟨hexempt', v', hv'⟩ := h.exists_evaluate hv hexempt
  refine ⟨v', hv', (classification_iff_isIsolated hv' hexempt').1.mpr ?_⟩
  have hisolated := (classification_iff_isIsolated hv hexempt).1.mp hsafe
  exact hisolated.mono h.targets h.dependencies hcovered

/-- If nothing becomes covered, what is a violation stays one. -/
theorem violation (h : p.SameTargets p') (hv : p.evaluate s = .ok (some v))
    (hexempt : p.exemptions = []) (hcovered : ∀ e, p'.Covered e → p.Covered e)
    (hviolation : v.classification = .violation) :
    ∃ v', p'.evaluate s = .ok (some v') ∧ v'.classification = .violation := by
  obtain ⟨hexempt', v', hv'⟩ := h.exists_evaluate hv hexempt
  refine ⟨v', hv', (classification_iff_isIsolated hv' hexempt').2.mpr fun hisolated => ?_⟩
  refine (classification_iff_isIsolated hv hexempt).2.mp hviolation ?_
  exact hisolated.mono h.targets.symm h.dependencies.symm hcovered

end SameTargets

/-- **Verdicts react to filters and paths in one direction.** Let an access that is not exempt have
a verdict. With one more filter joined by `and` it stays safe if it was, on whatever branch the
filter applies. With one more path it stays a violation if it was. With one more filter joined by
`or` that applies on some path no target is covered any more, and the access is a violation if a
target needs a filter. With the operand of any filter replaced by a value of the tenant it stays
safe if it was. -/
theorem verdict_monotone (hv : p.evaluate s = .ok (some v)) (hexempt : p.exemptions = []) :
    (∀ f, f.conjunction = .and → v.classification = .safe →
      ∃ v', (p.addFilter f).evaluate s = .ok (some v') ∧ v'.classification = .safe) ∧
    (∀ path, v.classification = .violation →
      ∃ v', (p.addPath path).evaluate s = .ok (some v') ∧ v'.classification = .violation) ∧
    (∀ f, f.conjunction = .or → (∃ path ∈ p.paths, f.branch = none ∨ f.branch = path) →
      (∀ e, ¬ (p.addFilter f).Covered e) ∧
      ∃ v', (p.addFilter f).evaluate s = .ok (some v') ∧
        ((∃ e, p.Requires s e) → v'.classification = .violation)) ∧
    (∀ place, v.classification = .safe →
      ∃ v', (p.trustOperand place).evaluate s = .ok (some v') ∧ v'.classification = .safe) := by
  refine ⟨?_, ?_, ?_, ?_⟩
  · intro f hand hsafe
    exact (sameTargets_addFilter p f).safe hv hexempt (fun e h => h.addFilter hand) hsafe
  · intro path hviolation
    exact (sameTargets_addPath p path).violation hv hexempt (fun e h => h.of_addPath) hviolation
  · intro f hor hactive
    have hsame := sameTargets_addFilter p f
    obtain ⟨hexempt', v', hv'⟩ := hsame.exists_evaluate hv hexempt
    refine ⟨fun e => not_covered_addFilter hor hactive, v', hv', ?_⟩
    rintro ⟨e, he⟩
    rw [(classification_iff_isIsolated hv' hexempt').2]
    have he' := (requires_congr hsame.targets).mpr he
    rintro (hnone | ⟨-, hall⟩)
    · exact hnone e he'
    · exact not_covered_addFilter hor hactive (hall e he')
  · intro place hsafe
    obtain ⟨-, hpaths, -⟩ := exists_required_of_evaluate hv hexempt
    exact (sameTargets_trustOperand p place).safe hv hexempt
      (fun e h => h.trustOperand hpaths place) hsafe

/-- In the sample application, a query for users and projects on two branches is safe. It stays safe
with a comparison on one branch that restricts nothing, and is a violation with an alternative on
the other branch, although it would restrict users if it stood alone. -/
theorem verdict_monotone_sample :
    ∃ (s : Schema) (p : AccessPoint) (v : Verdict) (f g : Filter),
      Schema.classify Sample.settings.schema Sample.schema = .ok s ∧
      p.evaluate s = .ok (some v) ∧ v.classification = .safe ∧ p.exemptions = [] ∧
      f.conjunction = .and ∧ f.branch = some "own" ∧
      (∃ v', (p.addFilter f).evaluate s = .ok (some v') ∧ v'.classification = .safe) ∧
      g.conjunction = .or ∧ g.branch = some "all" ∧ g.source = .tenantContext ∧
      ∃ v', (p.addFilter g).evaluate s = .ok (some v') ∧ v'.classification = .violation := by
  let s := (Schema.classify Sample.settings.schema Sample.schema).toOption.getD default
  let o := Operation.on .read ["Project", "User"]
    |>.withBranches ["own", "all"]
    |>.filter "User.workspace_id" "workspace.id"
    |>.filterOnBranch "Project.workspace_id" "workspace.id" "own"
    |>.filterOnBranch "Project.workspace_id" "workspace" "all"
  let h := (Sample.scopedHandler 1 "overview" "/overview").addOperation o
  let p := (((Extractor.ofSettings s Sample.settings).extract h).toOption.getD [])[0]?.getD default
  let v := ((p.evaluate s).toOption.getD none).getD default
  let e := (s.get? "User").getD default
  let f : Filter := ⟨"User", "email", .other, .unknown, .and, some "own"⟩
  let g : Filter := ⟨"User", "workspace_id", .equals, .tenantContext, .or, some "all"⟩
  obtain ⟨hschema, hv, hsafe, hexempt, hpath, hname, he, hscope⟩ :
      Schema.classify Sample.settings.schema Sample.schema = .ok s ∧
      p.evaluate s = .ok (some v) ∧ v.classification = .safe ∧ p.exemptions = [] ∧
      some "all" ∈ p.paths ∧ "User" ∈ p.targets ∧ s.get? "User" = some e ∧
      e.scope = .tenantScoped := by decide +kernel
  obtain ⟨hand, -, hor, -⟩ := verdict_monotone hv hexempt
  obtain ⟨-, v', hv', hviolation⟩ := hor g rfl ⟨some "all", hpath, .inr rfl⟩
  exact ⟨s, p, v, f, g, hschema, hv, hsafe, hexempt, rfl, rfl, hand f rfl hsafe, rfl, rfl, rfl,
    v', hv', hviolation ⟨e, ⟨"User", hname, he⟩, hscope⟩⟩

end AccessPoint

end Tenancy

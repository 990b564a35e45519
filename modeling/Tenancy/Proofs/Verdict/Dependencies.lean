import Tenancy.Proofs.Support.Outcomes
import Tenancy.Proofs.Verdict.Exemption

/-!
# What one more dependency does

A handler that is given one more dependency is extracted like before: dependencies decide neither
whether the operations make sense nor what they are about. `insertDependency_keeps` says this and
follows the verdicts: an access that was safe or exempt stays so, and if the new dependency is for
administrators every access that is judged is exempt.

The reason is that a dependency can only add. It may add a name of the tenant context, by which an
operand turns out to be a value of the tenant and never ceases to be one
(`sourceOf_eq_tenantContext_mono`); `Filter.Grows` and `AccessPoint.Grows` say what that means for a
filter and for an access point.
-/

set_option autoImplicit false

namespace Tenancy

open Tenancy.Support

/-! ### Names -/

namespace NameScope

variable {s s' : NameScope}

/-- The names that come up depend on the bindings alone. -/
theorem after_congr (h : s'.bindings = s.bindings) (k : Nat) (name : String) :
    s'.after k name = s.after k name := by
  have hnext : s'.next? = s.next? := by
    funext name
    unfold next? bound?
    rw [h]
  induction k generalizing name with
  | zero => rfl
  | succ k ih =>
    rw [after, after, hnext]
    exact congrArg _ (funext ih)

/-- More names of the tenant context can only make more operands values of the tenant. -/
theorem sourceOf_eq_tenantContext_mono (hbindings : s'.bindings = s.bindings)
    (hvalues : s.tenantValues ⊆ s'.tenantValues) {operand : Operand}
    (h : s.sourceOf operand = .tenantContext) : s'.sourceOf operand = .tenantContext := by
  rw [sourceOf_eq_tenantContext_iff] at h ⊢
  obtain ⟨expr, rfl, k, last, hlast, hafter⟩ := h
  refine ⟨expr, rfl, k, last, hvalues hlast, ?_⟩
  rw [after_congr hbindings]
  exact hafter

end NameScope

/-! ### Filters -/

/-- A filter is the same but for its operand, which may have become a value of the tenant. -/
structure Filter.Grows (f f' : Filter) : Prop where
  entity : f'.entity = f.entity
  column : f'.column = f.column
  comparison : f'.comparison = f.comparison
  conjunction : f'.conjunction = f.conjunction
  branch : f'.branch = f.branch
  source : f.source = .tenantContext → f'.source = .tenantContext

namespace Filter.Grows

variable {f f' : Filter}

/-- It applies on the same paths. -/
theorem activeOn (h : f.Grows f') (path : Option String) : f'.activeOn path = f.activeOn path := by
  unfold Filter.activeOn
  rw [h.branch]

/-- It restricts what it restricted before. -/
theorem scopes (h : f.Grows f') {e : Entity} (hscopes : f.scopes e = true) :
    f'.scopes e = true := by
  rw [Filter.scopes_iff] at hscopes ⊢
  obtain ⟨hentity, hcolumn, hcomparison, hsource⟩ := hscopes
  refine ⟨?_, ?_, ?_, h.source hsource⟩
  · rw [h.entity, hentity]
  · rw [h.column, hcolumn]
  · rw [h.comparison, hcomparison]

end Filter.Grows

/-- If more names are known to be of the tenant context, conditions are read alike. -/
theorem Filter.ofCondition_endsAlike {names names' : NameScope}
    (hbindings : names'.bindings = names.bindings)
    (hvalues : names.tenantValues ⊆ names'.tenantValues) (targets : List Entity) (operation : Nat)
    (c : Condition) :
    EndsAlike Filter.Grows (Filter.ofCondition names targets operation c)
      (Filter.ofCondition names' targets operation c) := by
  unfold Filter.ofCondition
  refine (EndsAlike.refl (fun _ => rfl) (ColumnRef.resolve targets c.column operation)).bind ?_
  rintro ref _ rfl
  exact .ok ⟨rfl, rfl, rfl, rfl, rfl,
    NameScope.sourceOf_eq_tenantContext_mono hbindings hvalues⟩

/-- If filters grow, what they cover stays covered. -/
theorem coversEveryPath_mono {paths : List (Option String)} {filters filters' : List Filter}
    (hfilters : List.Forall₂ Filter.Grows filters filters') {e : Entity}
    (h : coversEveryPath paths filters (·.scopes e) = true) :
    coversEveryPath paths filters' (·.scopes e) = true := by
  rw [coversEveryPath_iff] at h ⊢
  refine ⟨h.1, fun path hpath => ?_⟩
  obtain ⟨hand, f, hf, hactive, hscopes⟩ := h.2 path hpath
  constructor
  · intro f' hf' hactive'
    obtain ⟨f, hf, hgrows⟩ := exists_of_forall₂_right hfilters hf'
    rw [hgrows.activeOn] at hactive'
    rw [hgrows.conjunction]
    exact hand f hf hactive'
  · obtain ⟨f', hf', hgrows⟩ := exists_of_forall₂_left hfilters hf
    refine ⟨f', hf', ?_, hgrows.scopes hscopes⟩
    rw [hgrows.activeOn]
    exact hactive

/-! ### Access points -/

/-- An access point is the same but for what its handler is given. -/
structure AccessPoint.Grows (p p' : AccessPoint) : Prop where
  id : p'.id = p.id
  targets : p'.targets = p.targets
  paths : p'.paths = p.paths
  reachesExecution : p'.reachesExecution = p.reachesExecution
  dependencies : p.dependencies ⊆ p'.dependencies
  exemptions : p.exemptions ≠ [] → p'.exemptions ≠ []
  filters : List.Forall₂ Filter.Grows p.filters p'.filters

namespace AccessPoint.Grows

variable {p p' : AccessPoint} {schema : Schema}

/-- What was safe stays safe. -/
theorem judge_safe (h : p.Grows p') {required : List Entity}
    (hsafe : (p.judge required).classification = .safe) :
    (p'.judge required).classification = .safe := by
  rw [judge_safe_iff] at hsafe ⊢
  rcases hsafe with hnone | ⟨hcontext, hcovers⟩
  · exact .inl hnone
  · refine .inr ⟨h.dependencies hcontext, fun e he => ?_⟩
    have hcovered := coversEveryPath_mono h.filters (hcovers e he)
    rw [← h.paths] at hcovered
    exact hcovered

/-- Where there was a verdict there is one again, and an access that was safe or exempt is so
again. -/
theorem evaluate (h : p.Grows p') {v : Verdict} (hv : p.evaluate schema = .ok (some v)) :
    ∃ v', p'.evaluate schema = .ok (some v') ∧
      (v.classification = .safe ∨ v.classification = .exempt →
        v'.classification = .safe ∨ v'.classification = .exempt) ∧
      (p'.exemptions ≠ [] → v'.classification = .exempt) := by
  unfold AccessPoint.evaluate at hv ⊢
  rw [h.reachesExecution, h.paths, required_congr h.id h.targets]
  split at hv
  · cases hv
  rename_i hreaches
  split at hv
  · cases hv
  rename_i hpaths
  rw [if_neg hreaches, if_neg hpaths]
  by_cases hexempt' : p'.exemptions = []
  · -- Nothing exempts the new access, so nothing exempted the old one, and both are judged.
    have hexempt : p.exemptions = [] := by_contra fun hsome => h.exemptions hsome hexempt'
    rw [if_neg (by simp [hexempt])] at hv
    rw [if_neg (by simp [hexempt'])]
    obtain ⟨required, hrequired, hjudge⟩ := bind_eq_ok_iff.mp hv
    cases hjudge
    refine ⟨p'.judge required, by rw [hrequired]; rfl, ?_, fun hsome => absurd hexempt' hsome⟩
    rintro (hsafe | hexempted)
    · exact .inl (h.judge_safe hsafe)
    · rcases judge_cases (p := p) required with ⟨text, hcase⟩ | ⟨kind, text, fix, hcase⟩
      · rw [hcase] at hexempted
        cases hexempted
      · rw [hcase] at hexempted
        cases hexempted
  · rw [if_pos (by simpa using hexempt')]
    exact ⟨p'.exempt, rfl, fun _ => .inr rfl, fun _ => rfl⟩

end AccessPoint.Grows

/-! ### Handlers -/

/-- A handler with one more dependency at a place of its list. -/
def Handler.insertDependency (h : Handler) (place : Nat) (d : Dependency) : Handler :=
  { h with dependencies := h.dependencies.take place ++ d :: h.dependencies.drop place }

/-- The dependencies are those from before and the new one. -/
theorem Handler.mem_insertDependency_iff {h : Handler} {place : Nat} {d other : Dependency} :
    other ∈ (h.insertDependency place d).dependencies ↔ other = d ∨ other ∈ h.dependencies := by
  conv_rhs => rw [← List.take_append_drop place h.dependencies]
  simp only [insertDependency, List.mem_append, List.mem_cons]
  exact or_left_comm

namespace Extractor

variable {x : Extractor} {h : Handler} {place : Nat} {d : Dependency}

/-- Kinds are only added. -/
theorem kinds_subset_insertDependency : x.kinds h ⊆ x.kinds (h.insertDependency place d) := by
  intro kind hkind
  obtain ⟨other, hother, hof⟩ := mem_kinds_iff.mp hkind
  exact mem_kinds_iff.mpr ⟨other, Handler.mem_insertDependency_iff.mpr (.inr hother), hof⟩

/-- Names of the tenant context are only added. -/
theorem tenantValues_subset_insertDependency :
    (x.namesOf h).tenantValues ⊆ (x.namesOf (h.insertDependency place d)).tenantValues := by
  intro name hname
  obtain ⟨other, hother, hof⟩ := mem_tenantValues_iff.mp hname
  exact mem_tenantValues_iff.mpr ⟨other, Handler.mem_insertDependency_iff.mpr (.inr hother), hof⟩

/-- A handler that is exempt stays exempt, and one that is given an administrator's dependency
becomes so. -/
theorem exemptions_insertDependency (hsome : x.exemptions h ≠ [] ∨ x.kindOf d = .admin) :
    x.exemptions (h.insertDependency place d) ≠ [] := by
  rw [exemptions_ne_nil_iff] at hsome ⊢
  rcases hsome with (⟨other, hother, hadmin⟩ | hroute) | hadmin
  · exact .inl ⟨other, Handler.mem_insertDependency_iff.mpr (.inr hother), hadmin⟩
  · exact .inr hroute
  · exact .inl ⟨d, Handler.mem_insertDependency_iff.mpr (.inl rfl), hadmin⟩

/-- An access point is the same but for one dependency more; if that is for administrators the
access is exempt. -/
structure Gains (x : Extractor) (d : Dependency) (p p' : AccessPoint) : Prop
    extends p.Grows p' where
  exempts : x.kindOf d = .admin → p'.exemptions ≠ []

/-- The point of an operation is made alike. -/
theorem point_endsAlike (index : Nat) (o : Operation) :
    EndsAlike (x.Gains d) (x.point h index o) (x.point (h.insertDependency place d) index o) := by
  unfold point
  split
  · exact .error _
  split
  · exact .error _
  refine (EndsAlike.refl (fun _ => rfl) (x.targets index [] o.targets)).bind ?_
  rintro targets _ rfl
  have hbindings : (x.namesOf (h.insertDependency place d)).bindings = (x.namesOf h).bindings := rfl
  have hconditions := EndsAlike.mapM o.conditions fun c _ =>
    Filter.ofCondition_endsAlike hbindings tenantValues_subset_insertDependency targets index c
  refine hconditions.bind fun filters filters' hfilters => .ok ?_
  exact {
    id := rfl
    targets := rfl
    paths := rfl
    reachesExecution := rfl
    dependencies := kinds_subset_insertDependency
    exemptions := fun hsome => exemptions_insertDependency (.inl hsome)
    filters := hfilters
    exempts := fun hadmin => exemptions_insertDependency (.inr hadmin) }

/-- The points of operations are made alike. -/
theorem pointsFrom_endsAlike (index : Nat) (operations : List Operation) :
    EndsAlike (List.Forall₂ (x.Gains d)) (x.pointsFrom h index operations)
      (x.pointsFrom (h.insertDependency place d) index operations) := by
  induction operations generalizing index with
  | nil => exact .ok .nil
  | cons o rest ih =>
    unfold pointsFrom
    refine (point_endsAlike index o).bind fun p p' hp => ?_
    exact (ih (index + 1)).bind fun others others' hothers => .ok (.cons hp hothers)

/-- A handler is extracted alike. -/
theorem extract_endsAlike :
    EndsAlike (List.Forall₂ (x.Gains d)) (x.extract h)
      (x.extract (h.insertDependency place d)) := by
  have hpoints : EndsAlike (List.Forall₂ (x.Gains d)) (x.points h)
      (x.points (h.insertDependency place d)) := by
    by_cases hmost : x.limits.maxOperationsPerHandler.toNat < h.operations.length
    · rw [points_of_lt hmost, points_of_lt (h := h.insertDependency place d) hmost]
      exact .error _
    · rw [points_of_not_lt hmost, points_of_not_lt (h := h.insertDependency place d) hmost]
      exact pointsFrom_endsAlike 0 h.operations
  unfold extract
  revert hpoints
  generalize x.points h = before, x.points (h.insertDependency place d) = after
  rintro (e | hrelated)
  · exact .error _
  · exact .ok hrelated

/-- **One more dependency never hurts.** A handler that is given one more dependency, wherever it is
listed, cannot be analyzed exactly when it could not be before, and for the same reason. Otherwise
its accesses are the same one by one: an access that was safe or exempt is so again, and if the
dependency is for administrators every access that had a verdict is exempt. -/
theorem insertDependency_keeps (x : Extractor) (h : Handler) (place : Nat) (d : Dependency) :
    (∀ e, x.extract (h.insertDependency place d) = .error e ↔ x.extract h = .error e) ∧
      ∀ found found', x.extract h = .ok found →
        x.extract (h.insertDependency place d) = .ok found' →
        List.Forall₂ (fun p p' =>
          p'.id = p.id ∧ p'.targets = p.targets ∧ p'.paths = p.paths ∧
          ∀ v, p.evaluate x.schema = .ok (some v) →
            ∃ v', p'.evaluate x.schema = .ok (some v') ∧
              (v.classification = .safe ∨ v.classification = .exempt →
                v'.classification = .safe ∨ v'.classification = .exempt) ∧
              (x.kindOf d = .admin → v'.classification = .exempt)) found found' := by
  refine ⟨extract_endsAlike.eq_error_iff, fun found found' hfound hfound' => ?_⟩
  refine (extract_endsAlike.of_eq_ok hfound hfound').imp fun p p' hp => ?_
  refine ⟨hp.id, hp.targets, hp.paths, fun v hv => ?_⟩
  obtain ⟨v', hv', haccepted, hexempt⟩ := hp.evaluate hv
  exact ⟨v', hv', haccepted, fun hadmin => hexempt (hp.exempts hadmin)⟩

/-- In the sample application, a query for users that is restricted by a local name of the workspace
is safe, whatever else the handler is given; given an administrator in front it is exempt. -/
theorem insertDependency_keeps_sample :
    ∃ (x : Extractor) (h : Handler) (d : Dependency) (found found' : List AccessPoint)
        (p p' : AccessPoint) (v v' : Verdict),
      x.extract h = .ok found ∧ x.extract (h.insertDependency 0 d) = .ok found' ∧
      found = [p] ∧ found' = [p'] ∧ p.evaluate x.schema = .ok (some v) ∧
      v.classification = .safe ∧ x.kindOf d = .admin ∧
      p'.evaluate x.schema = .ok (some v') ∧ v'.classification = .exempt := by
  let schema := (Schema.classify Sample.settings.schema Sample.schema).toOption.getD default
  let x := Extractor.ofSettings schema Sample.settings
  let h := Sample.scopedHandler 1 "overview" "/overview"
    |>.addBinding "own" "workspace.id"
    |>.addOperation ((Sample.operation .read "User" 2).filter "User.workspace_id" "own")
  let d : Dependency := ⟨"_admin", "require_admin", none⟩
  let found := (x.extract h).toOption.getD []
  let found' := (x.extract (h.insertDependency 0 d)).toOption.getD []
  let p := found[0]?.getD default
  let p' := found'[0]?.getD default
  let v := ((p.evaluate schema).toOption.getD none).getD default
  have hfound : x.extract h = .ok found := by decide +kernel
  have hfound' : x.extract (h.insertDependency 0 d) = .ok found' := by decide +kernel
  have hp : found = [p] := by decide +kernel
  have hp' : found' = [p'] := by decide +kernel
  have hv : p.evaluate x.schema = .ok (some v) := by decide +kernel
  have hadmin : x.kindOf d = .admin := by decide +kernel
  have hkeeps := (insertDependency_keeps x h 0 d).2 found found' hfound hfound'
  rw [hp, hp', List.forall₂_cons] at hkeeps
  obtain ⟨v', hv', -, hexempt⟩ := hkeeps.1.2.2.2 v hv
  exact ⟨x, h, d, found, found', p, p', v, v', hfound, hfound', hp, hp', hv, by decide +kernel,
    hadmin, hv', hexempt hadmin⟩

end Extractor

end Tenancy

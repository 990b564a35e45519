import Tenancy.Proofs.Verdict.Exemption

/-!
# What a safe access lets through

The rules look at how filters are written: on every path all that apply are joined by `and`, and one
of them restricts the target. This module says what filters mean and that the rules are right about
it. On a path, the filters that apply are true or false of a row, and each is joined to what stands
before it by its own conjunction (`AccessPoint.passes`). `safe_lets_own_rows_through` says that if
the verdict on an access is that it is safe, nothing passes on any path unless a filter holds that
compares the scoping column with a value of the tenant; so no row of another tenant passes.

Filters are told apart by their places, because two that are written alike may compare with
different values.
-/

set_option autoImplicit false

namespace Tenancy

open Tenancy.Support

/-! ### Combined filters -/

namespace Conjunction

/-- Joins a truth value to what stands before it. -/
def join : Conjunction → Bool → Bool → Bool
  | .and, before, value => before && value
  | .or, before, value => before || value

/-- Truth values from left to right, each joined to what stands before it. The first has nothing to
be joined to, and without any value nothing is ruled out. -/
def combine : List (Conjunction × Bool) → Bool
  | [] => true
  | (_, first) :: rest => rest.foldl (fun before term => term.1.join before term.2) first

/-- Where everything is joined by `and`, what has been combined is true only if all of it is. -/
theorem foldl_join_of_and {terms : List (Conjunction × Bool)} (hand : ∀ t ∈ terms, t.1 = .and)
    {first : Bool} (h : terms.foldl (fun before term => term.1.join before term.2) first = true) :
    first = true ∧ ∀ t ∈ terms, t.2 = true := by
  induction terms generalizing first with
  | nil => exact ⟨h, by simp⟩
  | cons term rest ih =>
    rw [List.forall_mem_cons] at hand ⊢
    rw [List.foldl_cons, hand.1] at h
    obtain ⟨hjoined, hrest⟩ := ih hand.2 h
    obtain ⟨hfirst, hterm⟩ := Bool.and_eq_true_iff.mp hjoined
    exact ⟨hfirst, hterm, hrest⟩

/-- Where everything is joined by `and`, the combination is true only if all of it is. -/
theorem combine_of_and {terms : List (Conjunction × Bool)} (hand : ∀ t ∈ terms, t.1 = .and)
    (h : combine terms = true) : ∀ t ∈ terms, t.2 = true := by
  cases terms with
  | nil => simp
  | cons term rest =>
    rw [List.forall_mem_cons] at hand ⊢
    exact foldl_join_of_and hand.2 h

end Conjunction

namespace AccessPoint

variable {p : AccessPoint} {schema : Schema}

/-- The filters that apply on a path, with their places. -/
def activeFilters (p : AccessPoint) (path : Option String) : List (Filter × Nat) :=
  p.filters.zipIdx.filter fun entry => entry.1.activeOn path

/-- Whether a row passes on a path, if `truth` says of each place whether the filter there holds of
the row. -/
def passes (p : AccessPoint) (truth : Nat → Bool) (path : Option String) : Bool :=
  Conjunction.combine ((p.activeFilters path).map fun entry =>
    (entry.1.conjunction, truth entry.2))

/-- The filters that apply are those of the access point that are active on the path. -/
theorem mem_activeFilters_iff {path : Option String} {f : Filter} {place : Nat} :
    (f, place) ∈ p.activeFilters path ↔
      p.filters[place]? = some f ∧ f.activeOn path = true := by
  unfold activeFilters
  rw [List.mem_filter, List.mk_mem_zipIdx_iff_getElem?]

/-- On a path that is covered, a filter as required holds of everything that passes. -/
theorem exists_of_passes {required : Filter → Bool} {path : Option String}
    (hcovers : coversPath p.filters required path = true) {truth : Nat → Bool}
    (hpasses : p.passes truth path = true) :
    ∃ place f, p.filters[place]? = some f ∧ f.activeOn path = true ∧ required f = true ∧
      truth place = true := by
  obtain ⟨hand, f, hf, hactive, hrequired⟩ := coversPath_iff.mp hcovers
  obtain ⟨place, hplace⟩ := List.mem_iff_getElem?.mp hf
  refine ⟨place, f, hplace, hactive, hrequired, ?_⟩
  have hall := Conjunction.combine_of_and (by
    intro term hterm
    obtain ⟨⟨g, i⟩, hg, rfl⟩ := List.mem_map.mp hterm
    obtain ⟨hget, hon⟩ := mem_activeFilters_iff.mp hg
    exact hand g (List.mem_of_getElem? hget) hon) hpasses
  exact hall (f.conjunction, truth place)
    (List.mem_map.mpr ⟨(f, place), mem_activeFilters_iff.mpr ⟨hplace, hactive⟩, rfl⟩)

/-! ### Safe accesses -/

/-- An access that is safe was judged by the targets that need a filter. -/
theorem exists_required_of_safe {v : Verdict} (hv : p.evaluate schema = .ok (some v))
    (hsafe : v.classification = .safe) :
    ∃ required, p.required schema = .ok required ∧ v = p.judge required := by
  have hexempt : p.exemptions = [] := by
    by_contra hsome
    rw [(classification_eq_exempt_iff hv).mpr hsome] at hsafe
    cases hsafe
  unfold evaluate at hv
  split at hv
  · cases hv
  split at hv
  · cases hv
  rw [if_neg (by simp [hexempt])] at hv
  obtain ⟨required, hrequired, hjudge⟩ := bind_eq_ok_iff.mp hv
  cases hjudge
  exact ⟨required, hrequired, rfl⟩

/-- A tenant-scoped target is among those that need a filter. -/
theorem mem_required {required : List Entity} (hrequired : p.required schema = .ok required)
    {name : String} (hname : name ∈ p.targets) {e : Entity} (he : schema.get? name = some e)
    (hscope : e.scope = .tenantScoped) : e ∈ required := by
  unfold AccessPoint.required at hrequired
  obtain ⟨targets, htargets, hok⟩ := bind_eq_ok_iff.mp hrequired
  cases hok
  obtain ⟨found, hfound, htarget⟩ := exists_of_forall₂_left (mapM_eq_ok_iff.mp htargets) hname
  unfold target at htarget
  rw [he] at htarget
  simp only at htarget
  split at htarget
  · cases htarget
  · cases htarget
    exact List.mem_filter.mpr ⟨hfound, decide_eq_true hscope⟩

/-- If an access is safe, every tenant-scoped target is covered on every path. -/
theorem coversPath_of_safe {v : Verdict} (hv : p.evaluate schema = .ok (some v))
    (hsafe : v.classification = .safe) {name : String} (hname : name ∈ p.targets) {e : Entity}
    (he : schema.get? name = some e) (hscope : e.scope = .tenantScoped) {path : Option String}
    (hpath : path ∈ p.paths) : coversPath p.filters (·.scopes e) path = true := by
  obtain ⟨required, hrequired, rfl⟩ := exists_required_of_safe hv hsafe
  have hmem := mem_required hrequired hname he hscope
  rcases judge_safe_iff.mp hsafe with hnone | ⟨-, hcovers⟩
  · rw [hnone] at hmem
    cases hmem
  · exact coversPath_iff.mpr ((coversEveryPath_iff.mp (hcovers e hmem)).2 path hpath)

/-- **A safe access lets only rows of the caller's tenant through.** Let the verdict on an access be
that it is safe, and let an entity among its targets be tenant-scoped. On every path on which the
access is executed, whatever passes the filters that apply satisfies one of them that says that the
scoping column of the entity equals a value of the tenant context. So if such a filter holds only of
the caller's rows, only the caller's rows pass. -/
theorem safe_lets_own_rows_through {v : Verdict} (hv : p.evaluate schema = .ok (some v))
    (hsafe : v.classification = .safe) {name : String} (hname : name ∈ p.targets) {e : Entity}
    (he : schema.get? name = some e) (hscope : e.scope = .tenantScoped) {path : Option String}
    (hpath : path ∈ p.paths) :
    (∀ truth : Nat → Bool, p.passes truth path = true →
      ∃ place f, p.filters[place]? = some f ∧ f.activeOn path = true ∧ f.entity = e.name ∧
        e.scopingColumn = some f.column ∧ f.comparison = .equals ∧ f.source = .tenantContext ∧
        truth place = true) ∧
    ∀ (Row : Type) (truth : Row → Nat → Bool) (isOwn : Row → Prop),
      (∀ row place f, p.filters[place]? = some f → f.activeOn path = true → f.entity = e.name →
        e.scopingColumn = some f.column → f.comparison = .equals → f.source = .tenantContext →
        truth row place = true → isOwn row) →
      ∀ row, p.passes (truth row) path = true → isOwn row := by
  have hholds : ∀ truth : Nat → Bool, p.passes truth path = true →
      ∃ place f, p.filters[place]? = some f ∧ f.activeOn path = true ∧ f.entity = e.name ∧
        e.scopingColumn = some f.column ∧ f.comparison = .equals ∧ f.source = .tenantContext ∧
        truth place = true := by
    intro truth hpasses
    obtain ⟨place, f, hf, hactive, hscopes, htrue⟩ :=
      exists_of_passes (coversPath_of_safe hv hsafe hname he hscope hpath) hpasses
    unfold Filter.scopes at hscopes
    simp only [Bool.and_eq_true, decide_eq_true_eq] at hscopes
    obtain ⟨⟨⟨hentity, hcolumn⟩, hcomparison⟩, hsource⟩ := hscopes
    exact ⟨place, f, hf, hactive, hentity, hcolumn, hcomparison, hsource, htrue⟩
  refine ⟨hholds, fun Row truth isOwn hown row hpasses => ?_⟩
  obtain ⟨place, f, hf, hactive, hentity, hcolumn, hcomparison, hsource, htrue⟩ :=
    hholds (truth row) hpasses
  exact hown row place f hf hactive hentity hcolumn hcomparison hsource htrue

/-- In the sample application, users and projects are queried together, and projects are restricted
on each branch by a filter of its own. On one branch everything holds of a row but the filter of the
other branch: the row passes, and a filter that compares with the tenant holds of it. -/
theorem safe_lets_own_rows_through_sample :
    ∃ (schema : Schema) (p : AccessPoint) (v : Verdict) (e : Entity) (truth : Nat → Bool),
      p.evaluate schema = .ok (some v) ∧ v.classification = .safe ∧
      "Project" ∈ p.targets ∧ schema.get? "Project" = some e ∧ e.scope = .tenantScoped ∧
      p.paths = [some "own", some "all"] ∧ p.filters.length = 3 ∧ truth 1 = false ∧
      p.passes truth (some "all") = true ∧
      ∃ place f, p.filters[place]? = some f ∧ f.activeOn (some "all") = true ∧
        f.entity = e.name ∧ e.scopingColumn = some f.column ∧ f.comparison = .equals ∧
        f.source = .tenantContext ∧ truth place = true := by
  let schema := (Schema.classify Sample.settings.schema Sample.schema).toOption.getD default
  let x := Extractor.ofSettings schema Sample.settings
  let o := Operation.on .read ["Project", "User"]
    |>.withBranches ["own", "all"]
    |>.filter "User.workspace_id" "workspace.id"
    |>.filterOnBranch "Project.workspace_id" "workspace.id" "own"
    |>.filterOnBranch "Project.workspace_id" "workspace" "all"
  let h := (Sample.scopedHandler 1 "overview" "/overview").addOperation o
  let p := ((x.extract h).toOption.getD [])[0]?.getD default
  let v := ((p.evaluate schema).toOption.getD none).getD default
  let e := (schema.get? "Project").getD default
  let truth := fun place : Nat => place != 1
  have hv : p.evaluate schema = .ok (some v) := by decide +kernel
  have hsafe : v.classification = .safe := by decide +kernel
  have hname : "Project" ∈ p.targets := by decide +kernel
  have he : schema.get? "Project" = some e := by decide +kernel
  have hscope : e.scope = .tenantScoped := by decide +kernel
  have hpaths : p.paths = [some "own", some "all"] := by decide +kernel
  have hpasses : p.passes truth (some "all") = true := by decide +kernel
  have hpath : some "all" ∈ p.paths := by simp [hpaths]
  exact ⟨schema, p, v, e, truth, hv, hsafe, hname, he, hscope, hpaths, by decide +kernel, rfl,
    hpasses, (safe_lets_own_rows_through hv hsafe hname he hscope hpath).1 truth hpasses⟩

end AccessPoint

end Tenancy

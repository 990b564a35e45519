import Mathlib.Data.List.Pairwise
import Tenancy.Proofs.Access.Identity
import Tenancy.Proofs.Analysis.Completeness
import Tenancy.Proofs.Report.Arrival
import Tenancy.Proofs.Schema.DeclarationOrder
import Tenancy.Sample

/-!
# How facts are laid out over documents

Under settings that are not strict, a report is assembled from `arrivals`: the findings on documents
that could not be loaded and then those of the handlers. Two runs are compared by their arrivals
(`run_eq_ok_iff_of_arrivals`), in two ways:

* `run_of_relaid`: facts may be spread over documents in any way, as long as no two handlers have
  the same address. Then no two findings have the same access point (`nodup_arrivals`).
* `run_of_reordered`: documents may be given in any order, as long as no two have the same path.
  Then handlers are judged in the order of the paths (`handlers_eq_of_perm`), so even of handlers
  with the same address the same finding is kept.
-/

set_option autoImplicit false

namespace Tenancy.Analysis

open Tenancy.Support

variable {s : Settings} {x : Extractor} {schema : Schema} {units units' : List SourceUnit}
  {failures failures' : List LoadFailure}

/-! ### Arrivals -/

/-- The findings of a handler under settings that are not strict. -/
def findingsOf (x : Extractor) (h : Handler) : List Finding :=
  (judgeHandler false x h).toOption.getD []

/-- The findings that a report is assembled from, in the order in which they arrive. -/
def arrivals (x : Extractor) (units : List SourceUnit) (failures : List LoadFailure) :
    List Finding :=
  failures.map Finding.ofLoadFailure ++ (handlers x units).flatMap (findingsOf x)

/-- Judging a handler gives its findings. -/
theorem judgeHandler_eq_ok {settings : SchemaSettings} {declarations : List Declaration}
    (hschema : Schema.classify settings declarations = .ok x.schema) (h : Handler) :
    judgeHandler false x h = .ok (findingsOf x h) := by
  obtain ⟨fs, hfs⟩ := exists_judgeHandler_eq_ok hschema h
  unfold findingsOf
  rw [hfs]
  rfl

/-- The findings of all units are those of their handlers, one handler after another. -/
theorem findings_eq_ok (hstrict : s.analysis.strict = false)
    (hclassify : classify s units = .ok schema) :
    findings s schema units =
      .ok ((handlers (.ofSettings schema s) units).flatMap
        (findingsOf (.ofSettings schema s))) := by
  unfold findings
  rw [hstrict]
  refine bind_eq_ok_iff.mpr ⟨_, mapM_eq_ok_iff.mpr (List.forall₂_map_right_iff.mpr ?_), rfl⟩
  rw [List.forall₂_same]
  intro h _
  exact judgeHandler_eq_ok (x := .ofSettings schema s) hclassify h

/-- A report is assembled from what arrives. -/
theorem run_eq_ok_iff_assemble (hstrict : s.analysis.strict = false) {report : Report} :
    run s units failures = .ok report ↔
      ∃ schema, classify s units = .ok schema ∧
        report = .assemble s.analysis.includeSafe s.suppressions
          (arrivals (.ofSettings schema s) units failures) := by
  rw [run_eq_ok_iff hstrict]
  constructor
  · rintro ⟨schema, fs, hclassify, hfs, rfl⟩
    rw [findings_eq_ok hstrict hclassify] at hfs
    cases hfs
    exact ⟨schema, hclassify, rfl⟩
  · rintro ⟨schema, hclassify, rfl⟩
    exact ⟨schema, _, hclassify, findings_eq_ok hstrict hclassify, rfl⟩

/-- Documents that could not be loaded have no access points. -/
theorem accessPoint_of_mem_failures {f : Finding} (hf : f ∈ failures.map Finding.ofLoadFailure) :
    f.accessPoint = none := by
  obtain ⟨failure, -, rfl⟩ := List.mem_map.mp hf
  rfl

/-- The findings of a handler are what there is to say about it. -/
theorem findingOf_of_mem {h : Handler} {f : Finding} (hf : f ∈ findingsOf x h) :
    FindingOf x h f := by
  unfold findingsOf at hf
  cases hjudge : judgeHandler false x h with
  | error e =>
    rw [hjudge] at hf
    cases hf
  | ok fs =>
    rw [hjudge] at hf
    exact (mem_judgeHandler_iff hjudge f).mp hf

/-- Whatever arrives without an access point could not be analyzed. -/
theorem isUnread_of_mem_arrivals {f : Finding} (hf : f ∈ arrivals x units failures)
    (hnone : f.accessPoint = none) : f.IsUnread := by
  rcases List.mem_append.mp hf with hf | hf
  · obtain ⟨failure, -, rfl⟩ := List.mem_map.mp hf
    exact .document failure
  · obtain ⟨h, -, hf⟩ := List.mem_flatMap.mp hf
    cases findingOf_of_mem hf with
    | unreadable => exact .handler _
    | verdict => cases hnone

/-- Of the findings that arrive without an access point, no two tie in the order of a report. -/
theorem hasNoTies_arrivals (x : Extractor) (units : List SourceUnit)
    (failures : List LoadFailure) : Finding.HasNoTies (arrivals x units failures) := by
  intro f hf g hg hfnone hgnone
  exact (isUnread_of_mem_arrivals hf hfnone).eq_of_order (isUnread_of_mem_arrivals hg hgnone)

/-- Runs that classify the schema alike give the same report, if the same findings arrive and those
that are kept for access points are the same. -/
theorem run_eq_ok_iff_of_arrivals (hstrict : s.analysis.strict = false)
    (hschema : ∀ schema, classify s units = .ok schema ↔ classify s units' = .ok schema)
    (hperm : ∀ x, (arrivals x units failures).Perm (arrivals x units' failures'))
    (hkept : ∀ x id, Finding.mostSevere? (arrivals x units failures) id =
      Finding.mostSevere? (arrivals x units' failures') id) (report : Report) :
    run s units failures = .ok report ↔ run s units' failures' = .ok report := by
  have hreport : ∀ x, Report.assemble s.analysis.includeSafe s.suppressions
      (arrivals x units failures) = .assemble s.analysis.includeSafe s.suppressions
        (arrivals x units' failures') := by
    intro x
    exact Report.assemble_eq_of_perm _ _ (hperm x) (hkept x) (hasNoTies_arrivals x units failures)
  simp only [run_eq_ok_iff_assemble hstrict, hschema, hreport]

/-! ### Facts in other documents -/

/-- The findings of access points have the names of points, in their order. -/
theorem ids_judgePoints {points : List AccessPoint} {fs : List Finding}
    (hok : judgePoints schema points = .ok fs) :
    (fs.filterMap Finding.accessPoint).Sublist (points.map AccessPoint.id) := by
  induction points generalizing fs with
  | nil =>
    cases hok
    exact .slnil
  | cons p points ih =>
    unfold judgePoints at hok
    obtain ⟨verdict, hverdict, hok⟩ := bind_eq_ok_iff.mp hok
    obtain ⟨others, hothers, hok⟩ := bind_eq_ok_iff.mp hok
    cases hok
    cases verdict with
    | none => exact (ih hothers).cons _
    | some v =>
      have hid := AccessPoint.accessPoint_of_evaluate hverdict
      show (v.accessPoint :: others.filterMap Finding.accessPoint).Sublist _
      rw [hid]
      exact (ih hothers).cons_cons _

/-- The findings of a handler have names with its address and places of operations. -/
theorem ids_findingsOf (x : Extractor) (h : Handler) :
    ((findingsOf x h).filterMap Finding.accessPoint).Sublist
      ((List.range h.operations.length).map (AccessPoint.idOf h.location)) := by
  unfold findingsOf judgeHandler
  cases hextract : x.extract h with
  | error e => exact List.nil_sublist _
  | ok points =>
    rw [← Extractor.map_id_of_extract hextract]
    cases hjudge : judgePoints x.schema points with
    | error e =>
      simp only [hjudge]
      exact List.nil_sublist _
    | ok fs =>
      simp only [hjudge]
      exact ids_judgePoints hjudge

/-- The handlers that are judged are those of the units, in another order. -/
theorem handlers_perm (x : Extractor) (units : List SourceUnit) :
    (handlers x units).Perm
      ((units.flatMap fun u => u.facts.handlers).filter fun h => !x.isIgnored h.location) :=
  ((List.mergeSort_perm units _).flatMap_right _).filter _

/-- No two findings have the same access point, if no two handlers have the same address. -/
theorem nodup_arrivals
    (haddresses : ((units.flatMap fun u => u.facts.handlers).map fun h => h.location.address).Nodup)
    (x : Extractor) (failures : List LoadFailure) :
    ((arrivals x units failures).filterMap Finding.accessPoint).Nodup := by
  have hfailures : (failures.map Finding.ofLoadFailure).filterMap Finding.accessPoint = [] :=
    List.filterMap_eq_nil_iff.mpr fun _ => accessPoint_of_mem_failures
  have hjudged : ((handlers x units).map fun h => h.location.address).Nodup :=
    (((handlers_perm x units).map _).nodup_iff).mpr
      (haddresses.sublist ((List.filter_sublist).map _))
  unfold arrivals
  rw [List.filterMap_append, hfailures, List.nil_append, List.filterMap_flatMap, List.nodup_flatMap]
  -- The points of one handler differ in their places, those of two handlers in their addresses.
  constructor
  · intro h _
    exact (AccessPoint.nodup_idOf h.location h.operations.length).sublist (ids_findingsOf x h)
  · refine (List.pairwise_map.mp hjudged).imp ?_
    intro h h' hne id hid hid'
    obtain ⟨index, -, rfl⟩ := List.mem_map.mp ((ids_findingsOf x h).subset hid)
    obtain ⟨index', -, hsame⟩ := List.mem_map.mp ((ids_findingsOf x h').subset hid')
    exact hne (AccessPoint.idOf_eq_iff.mp hsame).1.symm

/-- **Facts may be laid out over documents in any way.** The same declarations, handlers and
failures, in other documents and in another order, give the same report, or none in both cases, as
long as no two handlers have the same address. -/
theorem run_of_relaid (hstrict : s.analysis.strict = false)
    (hdeclarations : (units.flatMap fun u => u.facts.declarations).Perm
      (units'.flatMap fun u => u.facts.declarations))
    (hhandlers : (units.flatMap fun u => u.facts.handlers).Perm
      (units'.flatMap fun u => u.facts.handlers))
    (haddresses : ((units.flatMap fun u => u.facts.handlers).map fun h => h.location.address).Nodup)
    (hfailures : failures.Perm failures') (report : Report) :
    run s units failures = .ok report ↔ run s units' failures' = .ok report := by
  have hperm : ∀ x, (arrivals x units failures).Perm (arrivals x units' failures') := by
    intro x
    have hjudged : (handlers x units).Perm (handlers x units') :=
      (handlers_perm x units).trans ((hhandlers.filter _).trans (handlers_perm x units').symm)
    exact (hfailures.map _).append (hjudged.flatMap_right _)
  exact run_eq_ok_iff_of_arrivals hstrict
    (Schema.classify_eq_ok_iff_of_perm s.schema hdeclarations) hperm
    (fun x => Finding.mostSevere?_eq_of_perm (hperm x) (nodup_arrivals haddresses x failures))
    report

/-- The sample application in one document, with everything in the opposite order, and two documents
that could not be loaded. -/
theorem run_of_relaid_sample :
    ∃ (units units' : List SourceUnit) (failures failures' : List LoadFailure) (report : Report),
      units.length ≠ units'.length ∧ failures ≠ failures' ∧
      ((units.flatMap fun u => u.facts.handlers).map fun h => h.location.address).Nodup ∧
      run Sample.settings units failures = .ok report ∧
      run Sample.settings units' failures' = .ok report := by
  let units' : List SourceUnit :=
    [⟨"facts.json", ⟨none, Sample.schema.reverse, Sample.handlers.reverse⟩⟩]
  let failures : List LoadFailure :=
    [⟨"facts/broken.json", .fileParse, "unexpected end"⟩, ⟨"facts", .directoryAccess, "denied"⟩]
  have hclassify : classify Sample.settings Sample.units =
      .ok ((classify Sample.settings Sample.units).toOption.getD default) := by
    decide +kernel
  have hdeclarations : (Sample.units.flatMap fun u => u.facts.declarations).Perm
      (units'.flatMap fun u => u.facts.declarations) := by
    simp [Sample.units, units']
  have hhandlers : (Sample.units.flatMap fun u => u.facts.handlers).Perm
      (units'.flatMap fun u => u.facts.handlers) := by
    simp [Sample.units, units']
  have haddresses : ((Sample.units.flatMap fun u => u.facts.handlers).map
      fun h => h.location.address).Nodup := by
    decide +kernel
  obtain ⟨report, hrun⟩ := exists_run_eq_ok (s := Sample.settings) rfl hclassify failures
  refine ⟨Sample.units, units', failures, failures.reverse, report, by decide, by decide,
    haddresses, hrun, ?_⟩
  exact (run_of_relaid rfl hdeclarations hhandlers haddresses (List.reverse_perm failures).symm
    report).mp hrun

/-! ### Documents in another order -/

/-- The order of paths is one. -/
instance : Std.TransCmp Path.order :=
  inferInstanceAs (Std.TransCmp (compareOn Path.parts))

/-- The order of units by their paths is one. -/
instance : Std.TransCmp fun a b : SourceUnit => Path.order a.origin b.origin where
  eq_swap := Std.OrientedCmp.eq_swap
  isLE_trans := Std.TransCmp.isLE_trans

/-- The handlers that are judged do not depend on the order of units with different paths. -/
theorem handlers_eq_of_perm (hunits : units.Perm units')
    (horigins : units.Pairwise fun a b => Path.order a.origin b.origin ≠ .eq) (x : Extractor) :
    handlers x units = handlers x units' := by
  have hsymm : Std.Symm fun a b : SourceUnit => Path.order a.origin b.origin ≠ .eq :=
    ⟨fun a b hne heq => hne (Std.OrientedCmp.eq_symm heq)⟩
  have hties : ∀ a ∈ units, ∀ b ∈ units, Path.order a.origin b.origin = .eq → a = b := by
    intro a ha b hb heq
    by_contra hne
    exact horigins.forall ha hb hne heq
  have hsorted := mergeSort_eq_of_perm (fun a b : SourceUnit => Path.order a.origin b.origin)
    hunits hties
  unfold handlers Path.atMost
  rw [hsorted]

/-- **Documents may be given in any order.** The same documents and failures in another order give
the same report, or none in both cases, as long as no two documents have the same path. Handlers may
repeat. -/
theorem run_of_reordered (hstrict : s.analysis.strict = false) (hunits : units.Perm units')
    (horigins : units.Pairwise fun a b => Path.order a.origin b.origin ≠ .eq)
    (hfailures : failures.Perm failures') (report : Report) :
    run s units failures = .ok report ↔ run s units' failures' = .ok report := by
  refine run_eq_ok_iff_of_arrivals hstrict
    (Schema.classify_eq_ok_iff_of_perm s.schema (hunits.flatMap_right _)) ?_ ?_ report
  · intro x
    unfold arrivals
    rw [handlers_eq_of_perm hunits horigins]
    exact (hfailures.map _).append_right _
  · intro x id
    -- Failures arrive before the handlers, whose findings arrive in the same order as before.
    unfold arrivals
    rw [Finding.mostSevere?_append fun _ => accessPoint_of_mem_failures,
      Finding.mostSevere?_append fun _ => accessPoint_of_mem_failures,
      handlers_eq_of_perm hunits horigins]

/-- The sample application with a document that gives a handler another time, and there with another
access of the same name and severity. -/
theorem run_of_reordered_repeated :
    ∃ (units : List SourceUnit) (failures : List LoadFailure) (report : Report),
      ¬ ((units.flatMap fun u => u.facts.handlers).map fun h => h.location.address).Nodup ∧
      (units.Pairwise fun a b => Path.order a.origin b.origin ≠ .eq) ∧
      run Sample.settings units failures = .ok report ∧
      run Sample.settings units.reverse failures.reverse = .ok report := by
  let again := (Sample.handler 26 "list_users_bad" "/users").addOperation
    (Sample.operation .read "Project" 28)
  let units : List SourceUnit := Sample.units ++ [⟨"facts/more.json", ⟨none, [], [again]⟩⟩]
  let failures : List LoadFailure :=
    [⟨"facts/broken.json", .fileParse, "unexpected end"⟩, ⟨"facts", .directoryAccess, "denied"⟩]
  have hclassify : classify Sample.settings units =
      .ok ((classify Sample.settings units).toOption.getD default) := by
    decide +kernel
  have horigins : units.Pairwise fun a b => Path.order a.origin b.origin ≠ .eq := by
    decide +kernel
  obtain ⟨report, hrun⟩ := exists_run_eq_ok (s := Sample.settings) rfl hclassify failures
  refine ⟨units, failures, report, by decide +kernel, horigins, hrun, ?_⟩
  exact (run_of_reordered rfl (List.reverse_perm units).symm horigins
    (List.reverse_perm failures).symm report).mp hrun

end Tenancy.Analysis

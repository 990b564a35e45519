import Tenancy.Proofs.Report.Arrival
import Tenancy.Proofs.Report.Counts

/-!
# What suppressions change in a report

Findings are marked after they were reduced to one per access point and before they are counted and
sorted. `findings_assemble_eq_map` moves the marks to the end: a report lists what a report without
suppressions lists, and each finding is marked on its own. So it is enough to know what marks do to
one finding (`Finding.IsMarkedBy`), and two lists of entries are compared finding by finding.

* `suppressed_suppressBy`: a finding is suppressed if an entry covers it, wherever the entry stands.
* `blocking_assemble`: what no entry covers is blocking, and it is listed as it came in.
* `suppressesAlike_of_perm`: the order of entries shows in the reasons only.
* `suppressesLess_of_subset`: with more entries more is suppressed, and nothing but violations.

`marks_assemble` puts these together.
-/

set_option autoImplicit false

namespace Tenancy

open Tenancy.Support

namespace Finding

variable {entries more : List SuppressionEntry} {f g : Finding}

/-! ### One finding -/

/-- An entry is the first that covers a finding. -/
def IsFirstFor (entries : List SuppressionEntry) (f : Finding) (e : SuppressionEntry) : Prop :=
  e.appliesTo f = true ∧ ∃ before after, entries = before ++ e :: after ∧
    ∀ earlier ∈ before, earlier.appliesTo f = false

/-- A finding carries the marks that entries leave on another, and is the same otherwise. -/
structure IsMarkedBy (entries : List SuppressionEntry) (f g : Finding) : Prop where
  unmarked : g.unmarked = f.unmarked
  suppressed : g.suppressed = true ↔ f.isViolation = true ∧ ∃ e ∈ entries, e.appliesTo f = true
  reason : ∀ e, IsFirstFor entries f e → g.suppressionReason = e.reason
  kept : g.suppressed = false → g = f

/-- A finding is marked by the first entry that covers it, or nothing happens to it. -/
theorem suppressBy_cases (entries : List SuppressionEntry) (f : Finding) :
    (∃ e, IsFirstFor entries f e ∧
      f.suppressBy entries = { f with suppressed := true, suppressionReason := e.reason }) ∨
    (∀ e ∈ entries, e.appliesTo f = false) ∧ f.suppressBy entries = f := by
  unfold suppressBy
  cases hfind : entries.find? fun e => e.appliesTo f with
  | none => exact .inr ⟨by simpa using hfind, rfl⟩
  | some e =>
    obtain ⟨happlies, before, after, hsplit, hbefore⟩ := List.find?_eq_some_iff_append.mp hfind
    exact .inl ⟨e, ⟨happlies, before, after, hsplit, by simpa using hbefore⟩, rfl⟩

/-- There is one first entry that covers a finding. -/
theorem IsFirstFor.unique {e e' : SuppressionEntry} (h : IsFirstFor entries f e)
    (h' : IsFirstFor entries f e') : e = e' := by
  have hfind : ∀ d, IsFirstFor entries f d → entries.find? (fun e => e.appliesTo f) = some d := by
    rintro d ⟨happlies, before, after, hsplit, hbefore⟩
    exact List.find?_eq_some_iff_append.mpr
      ⟨happlies, before, after, hsplit, by simpa using hbefore⟩
  exact Option.some.inj ((hfind e h).symm.trans (hfind e' h'))

/-- A finding is suppressed if it was before or if an entry covers it. -/
theorem suppressed_suppressBy (entries : List SuppressionEntry) (f : Finding) :
    (f.suppressBy entries).suppressed = (f.suppressed || entries.any fun e => e.appliesTo f) := by
  rcases suppressBy_cases entries f with ⟨e, ⟨happlies, before, after, rfl, -⟩, heq⟩ | ⟨hnone, heq⟩
  · simp [heq, happlies]
  · have hany : (entries.any fun e => e.appliesTo f) = false := by simpa using hnone
    rw [heq, hany, Bool.or_false]

/-- Marking a finding that is not marked yet. -/
theorem isMarkedBy_suppressBy (entries : List SuppressionEntry) (hfresh : f.suppressed = false) :
    IsMarkedBy entries f (f.suppressBy entries) where
  unmarked := unmarked_suppressBy entries f
  suppressed := by
    rw [suppressed_suppressBy, hfresh, Bool.false_or, List.any_eq_true]
    constructor
    · rintro ⟨e, he, happlies⟩
      exact ⟨isViolation_of_appliesTo happlies, e, he, happlies⟩
    · exact And.right
  reason := by
    intro e he
    rcases suppressBy_cases entries f with ⟨e', he', heq⟩ | ⟨hnone, -⟩
    · rw [heq, he.unique he']
    · obtain ⟨happlies, before, after, rfl, -⟩ := he
      cases happlies.symm.trans (hnone e (by simp))
  kept := by
    intro hkept
    rcases suppressBy_cases entries f with ⟨e, -, heq⟩ | ⟨-, heq⟩
    · rw [heq] at hkept
      cases hkept
    · exact heq

/-- A finding stays blocking if no entry covers it. -/
theorem isBlocking_suppressBy (entries : List SuppressionEntry) (f : Finding) :
    (f.suppressBy entries).isBlocking =
      (f.isBlocking && !entries.any fun e => e.appliesTo f) := by
  simp only [isBlocking, isViolation, classification_suppressBy, suppressed_suppressBy,
    Bool.not_or, Bool.and_assoc]

/-- What is blocking with its marks has got none. -/
theorem suppressBy_of_isBlocking (h : (f.suppressBy entries).isBlocking = true) :
    f.suppressBy entries = f := by
  rcases suppressBy_cases entries f with ⟨e, -, heq⟩ | ⟨-, heq⟩
  · rw [heq] at h
    simp [isBlocking] at h
  · exact heq

/-- More entries cover more. -/
theorem any_appliesTo_of_subset (h : entries ⊆ more)
    (hany : (entries.any fun e => e.appliesTo f) = true) :
    (more.any fun e => e.appliesTo f) = true := by
  obtain ⟨e, he, happlies⟩ := List.any_eq_true.mp hany
  exact List.any_eq_true.mpr ⟨e, h he, happlies⟩

end Finding

/-- Of the marks only the number of suppressed findings is counted. -/
theorem Summary.ofFindings_eq_unmarked (fs : List Finding) :
    Summary.ofFindings fs = { Summary.ofFindings (fs.map Finding.unmarked) with
      suppressed := (fs.map Finding.suppressed).count true } := by
  simp only [ofFindings, tally, List.countP_map, List.count, Function.comp_def, Finding.unmarked,
    beq_true]
  rfl

namespace Report

variable {entries entries' more : List SuppressionEntry} {fs : List Finding} {includeSafe : Bool}

/-! ### The whole list -/

/-- A report lists what a report without suppressions lists, with marks. -/
theorem findings_assemble_eq_map (includeSafe : Bool) (entries : List SuppressionEntry)
    (fs : List Finding) :
    (assemble includeSafe entries fs).findings =
      (assemble includeSafe [] fs).findings.map (Finding.suppressBy entries) := by
  have hall : (assemble true entries fs).findings =
      (assemble true [] fs).findings.map (Finding.suppressBy entries) := by
    show ((Finding.dedup fs).map (Finding.suppressBy entries)).mergeSort _ =
      (((Finding.dedup fs).map (Finding.suppressBy [])).mergeSort _).map _
    rw [Finding.map_suppressBy_nil]
    -- Marks have nothing to do with the order, so it does not matter whether they come first.
    refine (List.map_mergeSort fun f _ g _ => ?_).symm
    rw [Finding.order_suppressBy]
  cases includeSafe with
  | true => exact hall
  | false =>
    rw [findings_assemble_false, findings_assemble_false, hall, List.filter_map]
    simp only [Function.comp_def, Finding.classification_suppressBy]

/-- Without suppressions a report lists what was kept. -/
theorem findings_assemble_nil_perm (includeSafe : Bool) (fs : List Finding) :
    (assemble includeSafe [] fs).findings.Perm
      ((Finding.dedup fs).filter fun f => includeSafe || f.classification ≠ .safe) := by
  have hlisted := findings_perm_counted includeSafe [] fs
  unfold counted at hlisted
  rwa [Finding.map_suppressBy_nil] at hlisted

/-- Without suppressions nothing is listed that did not come in. -/
theorem mem_of_mem_findings_nil {f : Finding} (hf : f ∈ (assemble includeSafe [] fs).findings) :
    f ∈ fs :=
  Finding.mem_of_mem_dedup
    (List.mem_of_mem_filter ((findings_assemble_nil_perm includeSafe fs).mem_iff.mp hf))

/-- Without their marks the same findings are listed. -/
theorem map_unmarked_assemble (includeSafe : Bool) (entries : List SuppressionEntry)
    (fs : List Finding) :
    (assemble includeSafe entries fs).findings.map Finding.unmarked =
      (assemble includeSafe [] fs).findings.map Finding.unmarked := by
  rw [findings_assemble_eq_map, List.map_map]
  exact List.map_congr_left fun f _ => Finding.unmarked_suppressBy entries f

/-- What was blocking is still so if no entry covers it, and then it is listed as it was. -/
theorem blocking_assemble (includeSafe : Bool) (entries : List SuppressionEntry)
    (fs : List Finding) :
    (assemble includeSafe entries fs).blocking =
      (assemble includeSafe [] fs).findings.filter fun f =>
        f.isBlocking && !entries.any fun e => e.appliesTo f := by
  unfold blocking
  rw [findings_assemble_eq_map, List.filter_map]
  have hblocking : Finding.isBlocking ∘ Finding.suppressBy entries =
      fun f => f.isBlocking && !entries.any fun e => e.appliesTo f :=
    funext fun f => Finding.isBlocking_suppressBy entries f
  rw [hblocking]
  refine (List.map_congr_left fun f hf => ?_).trans (List.map_id _)
  have hkept := (List.mem_filter.mp hf).2
  rw [← Finding.isBlocking_suppressBy] at hkept
  exact Finding.suppressBy_of_isBlocking hkept

/-- Only violations are suppressed, if nothing was suppressed before. -/
theorem classification_of_suppressed (hfresh : ∀ f ∈ fs, f.suppressed = false) {g : Finding}
    (hg : g ∈ counted entries fs) (hsuppressed : g.suppressed = true) :
    g.classification = .violation := by
  obtain ⟨f, hf, rfl⟩ := List.mem_map.mp hg
  have hmarked := Finding.isMarkedBy_suppressBy entries (hfresh f (Finding.mem_of_mem_dedup hf))
  have hviolation := (hmarked.suppressed.mp hsuppressed).1
  rw [Finding.classification_suppressBy]
  exact of_decide_eq_true hviolation

/-! ### Two lists of entries -/

/-- Two reports suppress the same findings, if maybe for other reasons. -/
structure SuppressesAlike (r r' : Report) : Prop where
  listed : r.findings.map Finding.unmarked = r'.findings.map Finding.unmarked
  suppressed : r.findings.map Finding.suppressed = r'.findings.map Finding.suppressed
  blocking : r.blocking = r'.blocking
  summary : r.summary = r'.summary
  exitStatus : r.exitStatus = r'.exitStatus

/-- A report suppresses what another does and maybe more of the same list. -/
structure SuppressesLess (r r' : Report) : Prop where
  listed : r.findings.map Finding.unmarked = r'.findings.map Finding.unmarked
  suppressed : List.Forall₂ (fun f f' => f.suppressed = true → f'.suppressed = true)
    r.findings r'.findings
  /-- Nothing becomes blocking. -/
  blocking : r'.blocking.Sublist r.blocking
  /-- What is not a violation is not suppressed, whether it is listed or counted only. -/
  violations : ∀ f ∈ r'.findings, f.classification ≠ .violation → f.suppressed = false
  counted : r'.summary.suppressed = r'.findings.countP Finding.suppressed

/-- The order of entries shows in the reasons only. -/
theorem suppressesAlike_of_perm (includeSafe : Bool) (fs : List Finding)
    (hperm : entries.Perm entries') :
    (assemble includeSafe entries fs).SuppressesAlike (assemble includeSafe entries' fs) := by
  have hany : ∀ f : Finding, (entries.any fun e => e.appliesTo f) =
      entries'.any fun e => e.appliesTo f := fun f => hperm.any_eq
  have hmarked : ∀ l : List Finding,
      (l.map (Finding.suppressBy entries)).map Finding.suppressed =
        (l.map (Finding.suppressBy entries')).map Finding.suppressed := by
    intro l
    simp only [List.map_map, Function.comp_def, Finding.suppressed_suppressBy, hany]
  have hblocking : (assemble includeSafe entries fs).blocking =
      (assemble includeSafe entries' fs).blocking := by
    simp only [blocking_assemble, hany]
  have hsummary : (assemble includeSafe entries fs).summary =
      (assemble includeSafe entries' fs).summary := by
    rw [summary_assemble, summary_assemble, Summary.ofFindings_eq_unmarked,
      Summary.ofFindings_eq_unmarked (counted entries' fs)]
    unfold counted
    simp only [hmarked, List.map_map, Function.comp_def, Finding.unmarked_suppressBy]
  exact {
    listed := by rw [map_unmarked_assemble, map_unmarked_assemble includeSafe entries']
    suppressed := by
      rw [findings_assemble_eq_map, findings_assemble_eq_map includeSafe entries', hmarked]
    blocking := hblocking
    summary := hsummary
    exitStatus := by rw [exitStatus_eq, exitStatus_eq, hblocking, hsummary] }

/-- With more entries more is suppressed, and nothing but violations. -/
theorem suppressesLess_of_subset (includeSafe : Bool) (hfresh : ∀ f ∈ fs, f.suppressed = false)
    (hsubset : entries ⊆ more) :
    (assemble includeSafe entries fs).SuppressesLess (assemble includeSafe more fs) where
  listed := by rw [map_unmarked_assemble, map_unmarked_assemble includeSafe more]
  suppressed := by
    rw [findings_assemble_eq_map, findings_assemble_eq_map includeSafe more,
      List.forall₂_map_left_iff, List.forall₂_map_right_iff, List.forall₂_same]
    intro f _ hsuppressed
    rw [Finding.suppressed_suppressBy, Bool.or_eq_true] at hsuppressed ⊢
    exact hsuppressed.imp_right (Finding.any_appliesTo_of_subset hsubset)
  blocking := by
    rw [blocking_assemble, blocking_assemble]
    refine List.monotone_filter_right _ fun f hf => ?_
    simp only [Bool.and_eq_true, Bool.not_eq_true'] at hf ⊢
    refine ⟨hf.1, Bool.eq_false_iff.mpr fun hany => ?_⟩
    rw [Finding.any_appliesTo_of_subset hsubset hany] at hf
    exact absurd hf.2 (by decide)
  violations := by
    intro f hf hother
    have hcounted := List.mem_of_mem_filter ((findings_perm_counted includeSafe _ _).mem_iff.mp hf)
    rw [Bool.eq_false_iff]
    exact fun hsuppressed => hother (classification_of_suppressed hfresh hcounted hsuppressed)
  counted := by
    rw [(findings_perm_counted includeSafe more fs).countP_eq, List.countP_filter]
    refine List.countP_congr fun f hf => ?_
    rw [Bool.and_eq_true]
    refine ⟨fun hsuppressed => ⟨hsuppressed, ?_⟩, And.left⟩
    simp [classification_of_suppressed hfresh hf hsuppressed]

/-! ### The laws of suppression -/

/-- **Suppressions mark the violations that they cover, and nothing else.** A report lists what was
kept of what came in, each finding with the marks of the first entry that covers it. The order of
entries shows in the reasons only, and entries that are added anywhere make nothing blocking, change
marks only, and mark only violations. -/
theorem marks_assemble (includeSafe : Bool) (entries : List SuppressionEntry)
    (hfresh : ∀ f ∈ fs, f.suppressed = false) :
    (∀ f ∈ (assemble includeSafe [] fs).findings, f ∈ fs) ∧
    (assemble includeSafe [] fs).findings.Perm
      ((Finding.dedup fs).filter fun f => includeSafe || f.classification ≠ .safe) ∧
    List.Forall₂ (Finding.IsMarkedBy entries) (assemble includeSafe [] fs).findings
      (assemble includeSafe entries fs).findings ∧
    (∀ entries', entries.Perm entries' →
      (assemble includeSafe entries fs).SuppressesAlike (assemble includeSafe entries' fs)) ∧
    (∀ more, entries.Sublist more →
      (assemble includeSafe entries fs).SuppressesLess (assemble includeSafe more fs)) := by
  refine ⟨fun f => mem_of_mem_findings_nil, findings_assemble_nil_perm includeSafe fs, ?_, ?_, ?_⟩
  · rw [findings_assemble_eq_map includeSafe entries, List.forall₂_map_right_iff,
      List.forall₂_same]
    intro f hf
    exact Finding.isMarkedBy_suppressBy entries (hfresh f (mem_of_mem_findings_nil hf))
  · exact fun entries' => suppressesAlike_of_perm includeSafe fs
  · exact fun more hmore => suppressesLess_of_subset includeSafe hfresh hmore.subset

/-- Two reads break a rule in different handlers, and a third handler could not be analyzed. An
entry marks the first read with its own reason and leaves the second alone. A pattern of files marks
the second as well, wherever it stands in the list. -/
theorem marks_assemble_sample :
    ∃ (users projects unread : Finding) (handler pattern : SuppressionEntry),
      let report := fun entries => assemble false entries [users, projects, unread]
      (∀ f ∈ [users, projects, unread], f.suppressed = false) ∧
      (∃ f ∈ (report [handler]).findings,
        f.unmarked = users ∧ f.suppressed = true ∧ f.suppressionReason = some "public list") ∧
      projects ∈ (report [handler]).findings ∧ projects.isBlocking = true ∧
      (report [handler]).SuppressesLess (report [pattern, handler]) ∧
      (report [pattern, handler]).SuppressesAlike (report [handler, pattern]) := by
  let read (id name : String) : Finding :=
    { accessPoint := some id
      location := ⟨"app/routes.py", some 28, name, none⟩
      classification := .violation
      kind := some .missingDependency
      ruleId := some ViolationKind.missingDependency.ruleId
      severity := some .high
      entities := []
      operation := some .read
      rationale := "read without a tenant-context dependency"
      suggestedFix := none
      errorCode := none
      suppressed := false
      suppressionReason := none }
  let users := read "app/routes.py:26:list_users#0" "list_users"
  let projects := read "app/routes.py:40:list_projects#0" "list_projects"
  let unread := Finding.unknown ⟨"app/routes.py", some 60, "list_all", none⟩ "not analyzed" "E020"
  let handler : SuppressionEntry := ⟨"routes.py::list_users", "*", some "public list"⟩
  let pattern : SuppressionEntry := ⟨"app/*.py", "*", none⟩
  have hfresh : ∀ f ∈ [users, projects, unread], f.suppressed = false := by decide
  obtain ⟨-, hperm, hmarked, -, hmore⟩ := marks_assemble false [handler] hfresh
  obtain ⟨-, -, -, halike, -⟩ := marks_assemble false [pattern, handler] hfresh
  have hlisted : ∀ f ∈ [users, projects, unread],
      f ∈ (assemble false [] [users, projects, unread]).findings := by
    intro f hf
    refine hperm.mem_iff.mpr ?_
    revert f
    decide +kernel
  obtain ⟨g, hg, hmarks⟩ := exists_of_forall₂_left hmarked (hlisted users (by simp))
  obtain ⟨g', hg', hmarks'⟩ := exists_of_forall₂_left hmarked (hlisted projects (by simp))
  have hfirst : Finding.IsFirstFor [handler] users handler :=
    ⟨by decide +kernel, [], [], rfl, by simp⟩
  obtain rfl : g' = projects := by
    refine hmarks'.kept (Bool.eq_false_iff.mpr fun hsuppressed => ?_)
    obtain ⟨-, e, he, happlies⟩ := hmarks'.suppressed.mp hsuppressed
    rw [List.mem_singleton.mp he] at happlies
    exact absurd happlies (by decide +kernel)
  refine ⟨users, projects, unread, handler, pattern, hfresh, ⟨g, hg, hmarks.unmarked, ?_,
    hmarks.reason handler hfirst⟩, hg', rfl, hmore [pattern, handler] (by simp),
    halike [handler, pattern] (List.Perm.swap _ _ _)⟩
  exact hmarks.suppressed.mpr ⟨rfl, handler, by simp, hfirst.1⟩

end Report

end Tenancy

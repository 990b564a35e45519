import Mathlib.Data.List.Nodup
import Tenancy.Proofs.Report.Ties
import Tenancy.Proofs.Support.FirstMet

/-!
# Assembling a report again

The findings of a report that lists all can be assembled again, with the same entries. They come in
marked and sorted, and the same report comes out: `assemble_idempotent`.

Each step of the assembly leaves them alone.

* `isReduced_dedup`: each access point has one finding and no other finding is repeated
  (`Finding.IsReduced`). `IsReduced.map_suppressBy`: marks do not make different findings equal, if
  none was marked before.
* `filter_dedup_of_isReduced`: findings that are reduced are only put in another order, and those
  without an access point not even that. So sorting them again brings back the order that they had:
  `mergeSort_dedup_of_isReduced`.
* `suppressBy_suppressBy`: a second mark is the same as the first.
* `unusedWarnings_map_suppressBy`: which entries are used does not depend on marks.
-/

set_option autoImplicit false

namespace Tenancy

open Tenancy.Support

namespace SuppressionEntry

/-- What an entry applies to is a matter of the outcome, the rule and the location. -/
theorem appliesTo_eq_of_fields (e : SuppressionEntry) {f g : Finding}
    (hclassification : f.classification = g.classification) (hrule : f.ruleId = g.ruleId)
    (hlocation : f.location = g.location) : e.appliesTo f = e.appliesTo g := by
  unfold appliesTo coversRule SuppressionTarget.covers Finding.isViolation
  rw [hclassification, hrule, hlocation]

/-- Marks have nothing to do with what an entry applies to. -/
@[simp] theorem appliesTo_suppressBy (e : SuppressionEntry) (entries : List SuppressionEntry)
    (f : Finding) : e.appliesTo (f.suppressBy entries) = e.appliesTo f := by
  unfold Finding.suppressBy
  split
  · exact e.appliesTo_eq_of_fields rfl rfl rfl
  · rfl

end SuppressionEntry

namespace Finding

variable {fs fs' : List Finding} {entries : List SuppressionEntry}

/-! ### Marks -/

/-- A second mark is the same as the first. -/
theorem suppressBy_suppressBy (entries : List SuppressionEntry) (f : Finding) :
    (f.suppressBy entries).suppressBy entries = f.suppressBy entries := by
  cases hfind : entries.find? fun e => e.appliesTo f with
  | none =>
    have hsame : f.suppressBy entries = f := by
      unfold suppressBy
      rw [hfind]
    rw [hsame, hsame]
  | some e =>
    have hmark : ∀ g : Finding, entries.find? (fun e => e.appliesTo g) = some e →
        g.suppressBy entries = { g with suppressed := true, suppressionReason := e.reason } := by
      intro g hg
      unfold suppressBy
      rw [hg]
    rw [hmark (f.suppressBy entries) (by simpa using hfind), hmark f hfind]

/-- Marks do not make different findings equal, if none was marked before. -/
theorem eq_of_suppressBy_eq {f g : Finding} (hf : f.unmarked = f) (hg : g.unmarked = g)
    (h : f.suppressBy entries = g.suppressBy entries) : f = g := by
  rw [← hf, ← hg, ← unmarked_suppressBy entries f, h, unmarked_suppressBy]

/-! ### Findings that are reduced -/

/-- Findings are reduced: each access point has one, and no other finding is repeated. -/
structure IsReduced (fs : List Finding) : Prop where
  points : (fs.filterMap accessPoint).Nodup
  others : (fs.filter fun f => f.accessPoint = none).Nodup

theorem IsReduced.perm (h : IsReduced fs) (hperm : fs.Perm fs') : IsReduced fs' where
  points := (hperm.filterMap accessPoint).nodup_iff.mp h.points
  others := (hperm.filter _).nodup_iff.mp h.others

/-- Findings that are marked stay reduced. -/
theorem IsReduced.map_suppressBy (h : IsReduced fs) (hfresh : ∀ f ∈ fs, f.unmarked = f) :
    IsReduced (fs.map (suppressBy entries)) where
  points := by
    simp only [List.filterMap_map, Function.comp_def, accessPoint_suppressBy]
    exact h.points
  others := by
    simp only [List.filter_map, Function.comp_def, accessPoint_suppressBy]
    refine List.Nodup.map_on (fun f hf g hg => ?_) h.others
    exact eq_of_suppressBy_eq (hfresh f (List.mem_of_mem_filter hf))
      (hfresh g (List.mem_of_mem_filter hg))

/-- What is kept of findings without an access point. -/
theorem filter_dedup_none (fs : List Finding) :
    (dedup fs).filter (fun f => f.accessPoint = none) =
      (fs.filter fun f => f.accessPoint = none).eraseDups := by
  have hpoints : ((Ordered.ofList (fs.filterMap accessPoint)).filterMap
      (mostSevere? fs)).filter (fun f => f.accessPoint = none) = [] := by
    refine List.filter_eq_nil_iff.mpr fun f hf => ?_
    obtain ⟨id, -, hpicked⟩ := List.mem_filterMap.mp hf
    simp [(mostSevere?_eq_some hpicked).2.1]
  have hnone : ∀ f : Finding, f.accessPoint.isNone = decide (f.accessPoint = none) := by
    intro f
    cases f.accessPoint <;> rfl
  unfold dedup
  simp only [List.filter_append, hpoints, List.nil_append, hnone, filter_eraseDups,
    List.filter_filter, Bool.and_self]

/-- What is kept of an access point without findings. -/
theorem filter_dedup_eq_nil {id : String} (h : (fs.filter fun f => f.accessPoint = some id) = []) :
    ((dedup fs).filter fun f => f.accessPoint = some id) = [] := by
  rw [List.filter_eq_nil_iff] at h ⊢
  intro f hf
  exact h f (mem_of_mem_dedup hf)

/-- What is kept is reduced. -/
theorem isReduced_dedup (fs : List Finding) : IsReduced (dedup fs) where
  points := by
    rw [nodup_accessPoints_iff]
    intro id
    cases hid : fs.filter fun f => f.accessPoint = some id with
    | nil =>
      rw [filter_dedup_eq_nil hid]
      exact Nat.zero_le 1
    | cons f rest =>
      obtain ⟨hf, hfid⟩ := List.mem_filter.mp (hid ▸ List.mem_cons_self)
      obtain ⟨kept, hkept⟩ := exists_mostSevere? hf (of_decide_eq_true hfid)
      rw [filter_dedup hkept]
      exact Nat.le_refl 1
  others := by
    rw [filter_dedup_none]
    exact nodup_eraseDups _

/-- Of findings that are reduced, those of each access point are kept as they are, and so are those
without one, in their order. -/
theorem filter_dedup_of_isReduced (h : IsReduced fs) (point : Option String) :
    (dedup fs).filter (fun f => f.accessPoint = point) =
      fs.filter fun f => f.accessPoint = point := by
  cases point with
  | none => rw [filter_dedup_none, eraseDups_of_nodup h.others]
  | some id =>
    have hone := nodup_accessPoints_iff.mp h.points id
    cases hid : fs.filter fun f => f.accessPoint = some id with
    | nil => exact filter_dedup_eq_nil hid
    | cons f rest =>
      rw [hid] at hone
      obtain rfl : rest = [] := by
        rw [List.length_cons] at hone
        exact List.length_eq_zero_iff.mp (by omega)
      refine filter_dedup ?_
      unfold mostSevere?
      rw [hid]
      rfl

/-- Findings that are reduced are sorted into the same list, whether they are reduced again or
not. -/
theorem mergeSort_dedup_of_isReduced (h : IsReduced fs) :
    ((dedup fs).mergeSort fun f g => (f.order g).isLE) =
      fs.mergeSort fun f g => (f.order g).isLE := by
  -- Findings that tie have one access point or none, so the order of no others has to be the same.
  refine mergeSort_eq_of_filter_eq order (fun f g htie => ?_) (filter_dedup_of_isReduced h)
  exact (eq_of_order htie).2.1

theorem dedup_perm_of_isReduced (h : IsReduced fs) : (dedup fs).Perm fs := by
  have hsorted := List.mergeSort_perm (dedup fs) fun f g => (f.order g).isLE
  rw [mergeSort_dedup_of_isReduced h] at hsorted
  exact hsorted.symm.trans (List.mergeSort_perm fs _)

end Finding

namespace Report

variable {fs : List Finding}

/-- Which entries are used does not depend on marks. -/
theorem unusedWarnings_map_suppressBy (entries : List SuppressionEntry) (fs : List Finding) :
    unusedWarnings entries (fs.map (Finding.suppressBy entries)) = unusedWarnings entries fs := by
  simp only [unusedWarnings, usedEntries, List.filterMap_map, Function.comp_def,
    SuppressionEntry.appliesTo_suppressBy]

/-- The findings of a report are sorted. -/
theorem mergeSort_findings (entries : List SuppressionEntry) (fs : List Finding) :
    ((assemble true entries fs).findings.mergeSort fun f g => (f.order g).isLE) =
      (assemble true entries fs).findings :=
  List.mergeSort_of_pairwise
    (List.pairwise_mergeSort (fun _ _ _ => Std.TransCmp.isLE_trans) (isLE_or_isLE _) _)

/-- **Assembling a report again changes nothing.** If no finding is marked yet, the findings of a
report that lists all of them are assembled into the same report by the same entries. -/
theorem assemble_idempotent (entries : List SuppressionEntry)
    (hfresh : ∀ f ∈ fs, f.suppressed = false ∧ f.suppressionReason = none) :
    assemble true entries (assemble true entries fs).findings = assemble true entries fs := by
  have hperm := findings_assemble_perm entries fs
  have hunmarked : ∀ f ∈ Finding.dedup fs, f.unmarked = f := by
    intro f hf
    obtain ⟨hsuppressed, hreason⟩ := hfresh f (Finding.mem_of_mem_dedup hf)
    unfold Finding.unmarked
    rw [← hsuppressed, ← hreason]
  have hreduced : Finding.IsReduced (assemble true entries fs).findings :=
    ((Finding.isReduced_dedup fs).map_suppressBy hunmarked).perm hperm.symm
  -- All findings of the report were marked before, so they are not changed by marking them again.
  have hmarked : (Finding.dedup (assemble true entries fs).findings).map
      (Finding.suppressBy entries) = Finding.dedup (assemble true entries fs).findings := by
    refine (List.map_congr_left fun f hf => ?_).trans (List.map_id _)
    obtain ⟨g, -, rfl⟩ := List.mem_map.mp (hperm.mem_iff.mp (Finding.mem_of_mem_dedup hf))
    exact Finding.suppressBy_suppressBy entries g
  have hkept := (Finding.dedup_perm_of_isReduced hreduced).trans hperm
  refine assemble_eq_of_parts ?_ ?_ ?_
  · show ((Finding.dedup (assemble true entries fs).findings).map
      (Finding.suppressBy entries)).mergeSort _ = _
    rw [hmarked, Finding.mergeSort_dedup_of_isReduced hreduced, mergeSort_findings]
  · show Summary.ofFindings ((Finding.dedup (assemble true entries fs).findings).map
      (Finding.suppressBy entries)) = _
    rw [hmarked]
    exact Summary.ofFindings_perm hkept
  · show unusedWarnings entries (Finding.dedup (assemble true entries fs).findings) = _
    rw [unusedWarnings_perm entries hkept, unusedWarnings_map_suppressBy]
    rfl

/-- A read that is suppressed and comes in twice, and a handler that could not be analyzed for two
reasons that tie. The report marks the one, keeps the order of the others, and warns of an entry
that matched nothing; assembled again, it is the same. -/
theorem assemble_idempotent_sample :
    let read := unscopedRead "User"
    let fs := [unreadHandler "E021", read, unreadHandler "E020", read]
    let entries : List SuppressionEntry :=
      [⟨"routes.py:28", "*", some "reviewed"⟩, ⟨"jobs.py", "*", none⟩]
    let report := assemble true entries fs
    (∀ f ∈ fs, f.suppressed = false ∧ f.suppressionReason = none) ∧
      report.findings = [{ read with suppressed := true, suppressionReason := some "reviewed" },
        unreadHandler "E021", unreadHandler "E020"] ∧
      report.warnings = ["suppression `jobs.py` for rule `*` matched no finding"] ∧
      assemble true entries report.findings = report := by
  intro read fs entries report
  have hfresh : ∀ f ∈ fs, f.suppressed = false ∧ f.suppressionReason = none := by decide
  refine ⟨hfresh, ?_, by decide +kernel, assemble_idempotent entries hfresh⟩
  -- What is kept is in order already, so that sorting leaves it alone.
  have hkept : (Finding.dedup fs).map (Finding.suppressBy entries) =
      [{ read with suppressed := true, suppressionReason := some "reviewed" },
        unreadHandler "E021", unreadHandler "E020"] := by decide +kernel
  show ((Finding.dedup fs).map (Finding.suppressBy entries)).mergeSort _ = _
  rw [hkept]
  exact List.mergeSort_of_pairwise (by decide +kernel)

end Report

end Tenancy

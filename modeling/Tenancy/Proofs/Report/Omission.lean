import Tenancy.Proofs.Report.Assemble

/-!
# Findings that are left out

A report can be cut down to some of its findings in two ways: the others are left out when it is
assembled, or they are struck from the report that was assembled from all.
`filter_findings_assemble` says that both give the same list, with the same marks in the same order,
if the findings of an access point are kept or left out together (`Finding.IsAlike`).

Each step of the assembly is compared on its own: `mostSevere?_filter` for the finding that an
access point keeps, `dedup_filter` for what is reduced, and the stable sort last.
-/

set_option autoImplicit false

namespace Tenancy

open Tenancy.Support

namespace Finding

/-- A test says the same of all findings that an access point has among some. -/
def IsAlike (keep : Finding → Bool) (fs : List Finding) : Prop :=
  ∀ f ∈ fs, ∀ g ∈ fs, ∀ id, f.accessPoint = some id → g.accessPoint = some id → keep f = keep g

variable {keep : Finding → Bool} {fs : List Finding}

/-- An access point keeps the finding that it kept before, or none if its findings are left out. -/
theorem mostSevere?_filter (halike : IsAlike keep fs) (id : String) :
    mostSevere? (fs.filter keep) id = (mostSevere? fs id).filter keep := by
  have hcomm : (fs.filter keep).filter (fun f => f.accessPoint = some id) =
      (fs.filter fun f => f.accessPoint = some id).filter keep := List.filter_comm _ _ _
  cases hkept : mostSevere? fs id with
  | none =>
    have hnone : (fs.filter fun f => f.accessPoint = some id) = [] := by
      by_contra hne
      obtain ⟨g, hg⟩ := List.exists_mem_of_ne_nil _ hne
      obtain ⟨hmem, hid⟩ := List.mem_filter.mp hg
      obtain ⟨f, hf⟩ := exists_mostSevere? hmem (of_decide_eq_true hid)
      rw [hkept] at hf
      cases hf
    unfold mostSevere?
    rw [hcomm, hnone]
    rfl
  | some f =>
    obtain ⟨hmem, hid, -⟩ := mostSevere?_eq_some hkept
    have hsame : ∀ g ∈ fs.filter (fun f => f.accessPoint = some id), keep g = keep f := by
      intro g hg
      obtain ⟨hg, hgid⟩ := List.mem_filter.mp hg
      exact halike g hg f hmem id (of_decide_eq_true hgid) hid
    rw [Option.filter_some]
    by_cases hkeep : keep f = true
    · -- All findings of the access point are kept, so the same one is picked.
      have hall : (fs.filter fun f => f.accessPoint = some id).filter keep =
          fs.filter fun f => f.accessPoint = some id := by
        refine List.filter_eq_self.mpr fun g hg => ?_
        rw [hsame g hg, hkeep]
      rw [if_pos hkeep, ← hkept]
      unfold mostSevere?
      rw [hcomm, hall]
    · have hnone : (fs.filter fun f => f.accessPoint = some id).filter keep = [] := by
        refine List.filter_eq_nil_iff.mpr fun g hg => ?_
        rw [hsame g hg]
        exact hkeep
      rw [if_neg hkeep]
      unfold mostSevere?
      rw [hcomm, hnone]

/-- Findings may be left out before or after they are reduced to one per access point. -/
theorem dedup_filter (halike : IsAlike keep fs) :
    (dedup fs).filter keep = dedup (fs.filter keep) := by
  have hpicked : ∀ id, (mostSevere? fs id).filter keep = mostSevere? (fs.filter keep) id := by
    intro id
    exact (mostSevere?_filter halike id).symm
  -- An access point whose findings are left out picks none, so it does no harm to look it up.
  have hids : (Ordered.ofList (fs.filterMap accessPoint)).filter
      (fun id => (mostSevere? (fs.filter keep) id).isSome) =
        Ordered.ofList ((fs.filter keep).filterMap accessPoint) := by
    refine Ordered.Increasing.eq_of_mem_iff ?_ (Ordered.increasing_ofList _) ?_
    · exact List.Pairwise.filter _ (Ordered.increasing_ofList _)
    · intro id
      rw [List.mem_filter, Ordered.mem_ofList, Ordered.mem_ofList, List.mem_filterMap,
        List.mem_filterMap]
      constructor
      · rintro ⟨-, hsome⟩
        obtain ⟨f, hf⟩ := Option.isSome_iff_exists.mp hsome
        obtain ⟨hmem, hid, -⟩ := mostSevere?_eq_some hf
        exact ⟨f, hmem, hid⟩
      · rintro ⟨f, hf, hid⟩
        obtain ⟨g, hg⟩ := exists_mostSevere? hf hid
        exact ⟨⟨f, List.mem_of_mem_filter hf, hid⟩, by rw [hg]; rfl⟩
  have hothers : ((fs.filter fun f => f.accessPoint.isNone).eraseDups).filter keep =
      ((fs.filter keep).filter fun f => f.accessPoint.isNone).eraseDups := by
    rw [filter_eraseDups, List.filter_comm]
  have hpoints :
      ((Ordered.ofList (fs.filterMap accessPoint)).filterMap (mostSevere? fs)).filter keep =
        (Ordered.ofList ((fs.filter keep).filterMap accessPoint)).filterMap
          (mostSevere? (fs.filter keep)) := by
    rw [List.filter_filterMap, funext hpicked, ← hids, List.filterMap_filter]
    congr 1
    funext id
    cases mostSevere? (fs.filter keep) id with
    | none => rfl
    | some f => rfl
  unfold dedup
  rw [List.filter_append, hpoints, hothers]

end Finding

namespace Report

variable {keep : Finding → Bool} {fs : List Finding} {entries : List SuppressionEntry}

/-- **Findings may be left out before or after a report is assembled.** What is left is listed in
the same order and with the same marks. -/
theorem filter_findings_assemble (includeSafe : Bool) (halike : Finding.IsAlike keep fs)
    (hmarks : ∀ f, keep (f.suppressBy entries) = keep f) :
    (assemble includeSafe entries fs).findings.filter keep =
      (assemble includeSafe entries (fs.filter keep)).findings := by
  have hmarked : ((Finding.dedup fs).map (Finding.suppressBy entries)).filter keep =
      (Finding.dedup (fs.filter keep)).map (Finding.suppressBy entries) := by
    have hkeep : keep ∘ Finding.suppressBy entries = keep := funext hmarks
    rw [List.filter_map, hkeep, Finding.dedup_filter halike]
  have hall : (assemble true entries fs).findings.filter keep =
      (assemble true entries (fs.filter keep)).findings := by
    show (((Finding.dedup fs).map (Finding.suppressBy entries)).mergeSort _).filter keep = _
    rw [filter_mergeSort (fun a b c => Std.TransCmp.isLE_trans) (isLE_or_isLE Finding.order),
      hmarked]
    rfl
  cases includeSafe with
  | true => exact hall
  | false => rw [findings_assemble_false, findings_assemble_false, List.filter_comm, hall]

end Report

end Tenancy

import Tenancy.Proofs.Support.Lists
import Tenancy.Proofs.Support.Ordered
import Tenancy.Report.Assemble

/-!
# What assembling a report keeps

Findings are reduced to one per access point, marked and sorted. Nothing is lost on the way:

* `filter_dedup`: an access point keeps one finding, and `mostSevere?_eq_some` says that it is one
  of those that came in and at least as severe as each (`Finding.IsAsSevereAs`).
* `mem_dedup_of_isNone`: findings without an access point are all kept.
* `mem_of_mem_dedup`: nothing is added.
* `unmarked_suppressBy`: marking a finding changes its marks only.
* `findings_assemble_perm` and `findings_assemble_false`: sorting neither adds nor drops findings,
  and a report without safe findings is the whole report with these left out.
-/

set_option autoImplicit false

namespace Tenancy

open Tenancy.Support

namespace Finding

/-! ### Severity -/

/-- A finding is at least as severe as another: it comes before it by its outcome, or has the same
outcome and at least the same severity. -/
def IsAsSevereAs (a b : Finding) : Prop :=
  a.classification.rank < b.classification.rank ∨
    a.classification.rank = b.classification.rank ∧ b.severityRank ≤ a.severityRank

theorem IsAsSevereAs.trans {a b c : Finding} (hab : a.IsAsSevereAs b) (hbc : b.IsAsSevereAs c) :
    a.IsAsSevereAs c := by
  unfold IsAsSevereAs at *
  omega

/-- A finding is replaced only by one that it is not as severe as. -/
theorem isMoreSevere_eq_false_iff {a b : Finding} :
    b.isMoreSevere a = false ↔ a.IsAsSevereAs b := by
  unfold isMoreSevere IsAsSevereAs
  simp only [Bool.or_eq_false_iff, Bool.and_eq_false_iff, decide_eq_false_iff_not]
  omega

/-- Of two findings the one that is kept is at least as severe as the other. -/
theorem keep_cases (a b : Finding) :
    keep a b = a ∧ a.IsAsSevereAs b ∨ keep a b = b ∧ b.IsAsSevereAs a := by
  unfold keep
  cases h : b.isMoreSevere a with
  | true =>
    refine .inr ⟨rfl, ?_⟩
    unfold isMoreSevere at h
    simp only [Bool.or_eq_true, Bool.and_eq_true, decide_eq_true_eq] at h
    unfold IsAsSevereAs
    omega
  | false => exact .inl ⟨rfl, isMoreSevere_eq_false_iff.mp h⟩

/-- The finding that is kept for an access point is one of those that it has, and at least as severe
as each of them. -/
theorem mostSevere?_eq_some {fs : List Finding} {id : String} {f : Finding}
    (h : mostSevere? fs id = some f) :
    f ∈ fs ∧ f.accessPoint = some id ∧
      ∀ g ∈ fs, g.accessPoint = some id → f.IsAsSevereAs g := by
  unfold mostSevere? at h
  split at h
  · cases h
  · rename_i first rest hfilter
    cases h
    have hmem : ∀ g, g ∈ first :: rest ↔ g ∈ fs ∧ g.accessPoint = some id := by
      intro g
      rw [← hfilter, List.mem_filter, decide_eq_true_eq]
    obtain ⟨hin, hall⟩ := foldl_least IsAsSevereAs (fun a => .inr ⟨rfl, Nat.le_refl _⟩)
      (fun a b c => IsAsSevereAs.trans) keep_cases rest first
    obtain ⟨hfs, hid⟩ := (hmem _).mp hin
    exact ⟨hfs, hid, fun g hg hid => hall g ((hmem g).mpr ⟨hg, hid⟩)⟩

/-- An access point that has a finding keeps one. -/
theorem exists_mostSevere? {fs : List Finding} {id : String} {g : Finding} (hg : g ∈ fs)
    (hid : g.accessPoint = some id) : ∃ f, mostSevere? fs id = some f := by
  unfold mostSevere?
  split
  · rename_i hfilter
    have := List.filter_eq_nil_iff.mp hfilter g hg
    simp [hid] at this
  · exact ⟨_, rfl⟩

/-! ### One finding per access point -/

/-- The findings that are kept for an access point are the one that was picked. -/
theorem filter_dedup {fs : List Finding} {id : String} {f : Finding}
    (h : mostSevere? fs id = some f) :
    (dedup fs).filter (fun g => g.accessPoint = some id) = [f] := by
  obtain ⟨hf, hid, -⟩ := mostSevere?_eq_some h
  -- Among the access points only `id` gives a finding that is looked for, and it is listed once.
  have hpicked : ∀ other, (mostSevere? fs other).filter (fun g => g.accessPoint = some id) =
      if decide (other = id) then some f else none := by
    intro other
    by_cases hother : other = id
    · subst hother
      rw [h, Option.filter_some, if_pos (decide_eq_true hid), if_pos (decide_eq_true rfl)]
    · rw [if_neg (by simpa using hother), Option.filter_eq_none_iff]
      intro g hg
      obtain ⟨-, hkey, -⟩ := mostSevere?_eq_some hg
      simp [hkey, hother]
  have hothers : ((fs.filter fun f => f.accessPoint.isNone).eraseDups).filter
      (fun g => g.accessPoint = some id) = [] := by
    refine List.filter_eq_nil_iff.mpr fun g hg => ?_
    have hnone := (List.mem_filter.mp (List.mem_eraseDups.mp hg)).2
    simp [Option.isNone_iff_eq_none.mp hnone]
  have honce : (Ordered.ofList (fs.filterMap accessPoint)).count id = 1 := by
    rw [(Ordered.increasing_ofList _).nodup.count, if_pos]
    exact Ordered.mem_ofList.mpr (List.mem_filterMap.mpr ⟨f, hf, hid⟩)
  unfold dedup
  rw [List.filter_append, hothers, List.append_nil, List.filter_filterMap, funext hpicked,
    ← List.filterMap_filter, List.filter_eq, honce]
  rfl

/-- No access point is named twice exactly if each has at most one finding. -/
theorem nodup_accessPoints_iff {fs : List Finding} :
    (fs.filterMap accessPoint).Nodup ↔
      ∀ id, (fs.filter fun f => f.accessPoint = some id).length ≤ 1 := by
  simp only [List.nodup_iff_count, List.count_filterMap, List.countP_eq_length_filter,
    beq_eq_decide]

/-- Findings without an access point are all kept. -/
theorem mem_dedup_of_isNone {fs : List Finding} {f : Finding} (hf : f ∈ fs)
    (hnone : f.accessPoint = none) : f ∈ dedup fs := by
  refine List.mem_append_right _ (List.mem_eraseDups.mpr (List.mem_filter.mpr ⟨hf, ?_⟩))
  rw [hnone]
  rfl

/-- Nothing is kept that did not come in. -/
theorem mem_of_mem_dedup {fs : List Finding} {f : Finding} (hf : f ∈ dedup fs) : f ∈ fs := by
  rcases List.mem_append.mp hf with hf | hf
  · obtain ⟨id, -, hpicked⟩ := List.mem_filterMap.mp hf
    exact (mostSevere?_eq_some hpicked).1
  · exact List.mem_of_mem_filter (List.mem_eraseDups.mp hf)

/-! ### Marks -/

/-- A finding without the marks of a suppression. -/
def unmarked (f : Finding) : Finding := { f with suppressed := false, suppressionReason := none }

/-- Only violations are covered by an entry. -/
theorem isViolation_of_appliesTo {e : SuppressionEntry} {f : Finding}
    (h : e.appliesTo f = true) : f.isViolation = true := by
  unfold SuppressionEntry.appliesTo at h
  simp only [Bool.and_eq_true] at h
  exact h.1.1

section

variable (entries : List SuppressionEntry) (f : Finding)

/-- Without entries nothing is marked. -/
theorem map_suppressBy_nil (fs : List Finding) : fs.map (suppressBy []) = fs := List.map_id fs

/-- Marking a finding changes its marks only. -/
@[simp] theorem unmarked_suppressBy : (suppressBy entries f).unmarked = f.unmarked := by
  unfold suppressBy
  split <;> rfl

@[simp] theorem accessPoint_suppressBy : (suppressBy entries f).accessPoint = f.accessPoint := by
  unfold suppressBy
  split <;> rfl

/-- Marks have nothing to do with severity. -/
theorem isAsSevereAs_suppressBy_iff {g : Finding} :
    (suppressBy entries f).IsAsSevereAs g ↔ f.IsAsSevereAs g := by
  unfold suppressBy
  split <;> rfl

end

end Finding

namespace Report

variable {entries : List SuppressionEntry} {fs : List Finding}

/-! ### Sorting -/

/-- The order of a report is one. -/
instance : Std.TransCmp Finding.order :=
  inferInstanceAs (Std.TransCmp (compareLex (compareOn Finding.location)
    (compareLex (compareOn fun f : Finding => f.classification.rank)
      (compareLex (compareOn Finding.accessPoint) (compareOn Finding.rationale)))))

/-- Reports that were assembled are the same if they list, count and warn of the same. -/
theorem assemble_eq_of_parts {includeSafe includeSafe' : Bool} {entries' : List SuppressionEntry}
    {fs' : List Finding}
    (hfindings : (assemble includeSafe entries fs).findings =
      (assemble includeSafe' entries' fs').findings)
    (hsummary : (assemble includeSafe entries fs).summary =
      (assemble includeSafe' entries' fs').summary)
    (hwarnings : (assemble includeSafe entries fs).warnings =
      (assemble includeSafe' entries' fs').warnings) :
    assemble includeSafe entries fs = assemble includeSafe' entries' fs' := by
  show Report.mk toolName toolVersion (assemble includeSafe entries fs).findings
    (assemble includeSafe entries fs).summary (assemble includeSafe entries fs).warnings = _
  rw [hfindings, hsummary, hwarnings]
  rfl

/-- The findings of a report are those that were kept, marked and in another order. -/
theorem findings_assemble_perm (entries : List SuppressionEntry) (fs : List Finding) :
    (assemble true entries fs).findings.Perm
      ((Finding.dedup fs).map (Finding.suppressBy entries)) :=
  List.mergeSort_perm _ _

/-- A finding without an access point is listed, marked or not. -/
theorem exists_mem_assemble (entries : List SuppressionEntry) {f : Finding} (hf : f ∈ fs)
    (hnone : f.accessPoint = none) :
    ∃ g ∈ (assemble true entries fs).findings, g.unmarked = f.unmarked := by
  refine ⟨f.suppressBy entries, ?_, Finding.unmarked_suppressBy entries f⟩
  rw [(findings_assemble_perm entries fs).mem_iff]
  exact List.mem_map_of_mem (Finding.mem_dedup_of_isNone hf hnone)

/-- Every finding that is listed came in, marked or not. -/
theorem exists_of_mem_assemble {g : Finding} (hg : g ∈ (assemble true entries fs).findings) :
    ∃ f ∈ fs, g.unmarked = f.unmarked := by
  rw [(findings_assemble_perm entries fs).mem_iff] at hg
  obtain ⟨f, hf, rfl⟩ := List.mem_map.mp hg
  exact ⟨f, Finding.mem_of_mem_dedup hf, Finding.unmarked_suppressBy entries f⟩

/-- A report has one finding for each access point. -/
theorem filter_assemble {id : String} {f : Finding} (h : Finding.mostSevere? fs id = some f) :
    (assemble true entries fs).findings.filter (fun g => g.accessPoint = some id) =
      [Finding.suppressBy entries f] := by
  have hperm := (findings_assemble_perm entries fs).filter fun g => g.accessPoint = some id
  have hmarked : ((Finding.dedup fs).map (Finding.suppressBy entries)).filter
      (fun g => g.accessPoint = some id) = [Finding.suppressBy entries f] := by
    rw [List.filter_map]
    -- Marks do not touch the access point, so it does not matter when they are set.
    have hkey : (fun g : Finding => decide (g.accessPoint = some id)) ∘ Finding.suppressBy entries =
        fun g => decide (g.accessPoint = some id) := by
      funext g
      simp
    rw [hkey, Finding.filter_dedup h]
    rfl
  rw [hmarked] at hperm
  exact List.perm_singleton.mp hperm

/-- A report without safe findings is the whole report with these left out. -/
theorem findings_assemble_false :
    (assemble false entries fs).findings =
      (assemble true entries fs).findings.filter fun f => f.classification ≠ .safe := by
  -- Sorting is stable, so safe findings may be left out before it or after it.
  refine (filter_mergeSort ?_ ?_ _ _).symm
  · intro a b c hab hbc
    exact Std.TransCmp.isLE_trans hab hbc
  · exact isLE_or_isLE Finding.order

end Report

end Tenancy

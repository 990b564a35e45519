import Mathlib.Data.List.MinMax
import Mathlib.Data.Prod.Lex
import Mathlib.Order.WithBot
import Tenancy.Proofs.Report.Ties
import Tenancy.Proofs.Support.FirstMet

/-!
# What findings are reduced to

Findings are reduced to one per access point: each that arrives takes the place of the one that is
kept, if it is more severe. So the one that is kept in the end is the first of the most severe ones
(`Finding.IsChosen`), however the findings of other access points come in between.

* `severityRank_le_iff`: findings are numbered in the order of their severities, and one without a
  severity comes before all others.
* `isMoreSevere_iff`: findings are compared by one key, the outcome first and the severity reversed.
* `some_foldl_keep`: one more finding at a time, the first with the least key is kept.
* `mostSevere?_eq_some_iff`: what an access point keeps.
* `dedup_eq_iff`: all that is kept, in its order.
-/

set_option autoImplicit false

namespace Tenancy

open Tenancy.Support

namespace Severity

theorem ctorIdx_injective : Function.Injective Severity.ctorIdx := by
  intro a b h
  cases a <;> cases b <;> first | rfl | cases h

/-- Severities are in the order in which they are declared, the least first. -/
instance : LinearOrder Severity := LinearOrder.lift' Severity.ctorIdx ctorIdx_injective

/-- Severities are numbered in their order. -/
theorem rank_le_rank_iff {a b : Severity} : a.rank ≤ b.rank ↔ a ≤ b := by
  cases a <;> cases b <;> decide

end Severity

namespace Finding

variable {fs : List Finding} {id : String} {f g : Finding}

/-! ### What findings are compared by -/

/-- The severity of a finding. One without a severity is below all others. -/
def severityOrBot (f : Finding) : WithBot Severity := f.severity.elim ⊥ WithBot.some

/-- What findings of an access point are compared by: their outcomes and, reversed, their
severities. The least counts. -/
def severityKey (f : Finding) : ℕ ×ₗ (WithBot Severity)ᵒᵈ :=
  toLex (f.classification.rank, OrderDual.toDual f.severityOrBot)

/-- Findings are numbered in the order of their severities. -/
theorem severityRank_le_iff :
    f.severityRank ≤ g.severityRank ↔ f.severityOrBot ≤ g.severityOrBot := by
  unfold severityRank severityOrBot
  cases f.severity with
  | none => exact iff_of_true (Nat.zero_le _) bot_le
  | some a =>
    cases g.severity with
    | none => exact iff_of_false (Nat.not_succ_le_zero _) (WithBot.not_coe_le_bot a)
    | some b =>
      show a.rank + 1 ≤ b.rank + 1 ↔ (a : WithBot Severity) ≤ b
      rw [Nat.add_le_add_iff_right, Severity.rank_le_rank_iff, WithBot.coe_le_coe]

/-- A finding is at least as severe as another exactly if its key is at most the other's. -/
theorem isAsSevereAs_iff : f.IsAsSevereAs g ↔ f.severityKey ≤ g.severityKey := by
  unfold IsAsSevereAs severityKey
  rw [Prod.Lex.toLex_le_toLex, OrderDual.toDual_le_toDual, severityRank_le_iff]

/-- A finding takes the place of another exactly if its key is less. -/
theorem isMoreSevere_iff : f.isMoreSevere g = true ↔ f.severityKey < g.severityKey := by
  rw [← not_le, ← isAsSevereAs_iff, ← isMoreSevere_eq_false_iff, Bool.not_eq_false]

/-- A finding is the earliest of those of an access point that have the least key. -/
structure IsChosen (fs : List Finding) (id : String) (f : Finding) : Prop where
  mem : f ∈ fs
  accessPoint : f.accessPoint = some id
  least : ∀ g ∈ fs, g.accessPoint = some id → f.severityKey ≤ g.severityKey
  earliest : ∀ g ∈ fs, g.accessPoint = some id → g.severityKey = f.severityKey →
    fs.idxOf f ≤ fs.idxOf g

/-! ### One finding after the other -/

/-- Of findings that arrive one after the other, the first with the least key is kept. -/
theorem some_foldl_keep (first : Finding) (rest : List Finding) :
    some (rest.foldl keep first) = (first :: rest).argmin severityKey := by
  -- The induction follows the arrivals, so the last finding meets the one that is kept before it.
  induction rest using List.reverseRecOn with
  | nil => rfl
  | append_singleton rest f ih =>
    rw [← List.cons_append, List.argmin_concat, ← ih, List.foldl_append]
    show some (keep (rest.foldl keep first) f) =
      if f.severityKey < (rest.foldl keep first).severityKey then some f
      else some (rest.foldl keep first)
    unfold keep
    simp only [isMoreSevere_iff]
    split
    · rfl
    · rfl

/-- An access point keeps the first of its findings that has the least key. -/
theorem mostSevere?_eq_argmin (fs : List Finding) (id : String) :
    mostSevere? fs id = (fs.filter fun f => f.accessPoint = some id).argmin severityKey := by
  unfold mostSevere?
  split
  · rename_i hnone
    rw [hnone, List.argmin_nil]
  · rename_i first rest hfilter
    rw [hfilter, some_foldl_keep]

/-- An access point keeps the finding that is chosen, and no other. -/
theorem mostSevere?_eq_some_iff : mostSevere? fs id = some f ↔ IsChosen fs id f := by
  rw [mostSevere?_eq_argmin, List.argmin_eq_some_iff]
  simp only [List.mem_filter, decide_eq_true_eq]
  constructor
  · rintro ⟨⟨hmem, hid⟩, hleast, hearliest⟩
    refine ⟨hmem, hid, fun g hg hgid => hleast g ⟨hg, hgid⟩, fun g hg hgid hkey => ?_⟩
    have hle := hearliest g ⟨hg, hgid⟩ (le_of_eq hkey)
    -- Both findings are of the access point, so leaving out all others does not change their order.
    rw [← not_lt, idxOf_filter_lt_iff (by simpa using hgid) (by simpa using hid), not_lt] at hle
    exact hle
  · rintro ⟨hmem, hid, hleast, hearliest⟩
    refine ⟨⟨hmem, hid⟩, fun g hg => hleast g hg.1 hg.2, fun g hg hkey => ?_⟩
    rw [← not_lt, idxOf_filter_lt_iff (by simpa using hg.2) (by simpa using hid), not_lt]
    exact hearliest g hg.1 hg.2 (le_antisymm hkey (hleast g hg.1 hg.2))

/-! ### All that is kept -/

/-- The names of the access points that findings have. -/
theorem mem_ids_iff : id ∈ Ordered.ofList (fs.filterMap accessPoint) ↔
    ∃ f ∈ fs, f.accessPoint = some id := by
  rw [Ordered.mem_ofList, List.mem_filterMap]

/-- Findings without an access point, each once. -/
theorem mem_others_iff : f ∈ (fs.filter fun f => f.accessPoint.isNone).eraseDups ↔
    f ∈ fs ∧ f.accessPoint = none := by
  rw [List.mem_eraseDups, List.mem_filter, Option.isNone_iff_eq_none]

/-- Findings without an access point stand in the order in which they are first met. -/
theorem pairwise_others (fs : List Finding) :
    (fs.filter fun f => f.accessPoint.isNone).eraseDups.Pairwise
      fun f g => fs.idxOf f < fs.idxOf g := by
  refine (pairwise_idxOf_eraseDups _).imp_of_mem ?_
  intro f g hf hg hlt
  obtain ⟨-, hfnone⟩ := mem_others_iff.mp hf
  obtain ⟨-, hgnone⟩ := mem_others_iff.mp hg
  rwa [idxOf_filter_lt_iff (by simp [hfnone]) (by simp [hgnone])] at hlt

/-- **What findings are reduced to.** First come the access points that have a finding, in the order
of their names, each with the earliest of its findings that have the least key. Then come the
findings without an access point, each once and in the order in which they are first met. Nothing
else is kept, and in no other order. -/
theorem dedup_eq_iff (fs kept : List Finding) :
    dedup fs = kept ↔ ∃ ids points others, kept = points ++ others ∧
      Ordered.Increasing ids ∧ (∀ id, id ∈ ids ↔ ∃ f ∈ fs, f.accessPoint = some id) ∧
      List.Forall₂ (IsChosen fs) ids points ∧
      (∀ f, f ∈ others ↔ f ∈ fs ∧ f.accessPoint = none) ∧
      others.Pairwise fun f g => fs.idxOf f < fs.idxOf g := by
  have hchosen : IsChosen fs = fun id f => mostSevere? fs id = some f := by
    funext id f
    exact propext mostSevere?_eq_some_iff.symm
  rw [hchosen]
  constructor
  · rintro rfl
    refine ⟨_, _, _, rfl, Ordered.increasing_ofList _, fun id => mem_ids_iff, ?_,
      fun f => mem_others_iff, pairwise_others fs⟩
    refine forall₂_eq_some_iff.mpr ⟨fun id hid => ?_, rfl⟩
    obtain ⟨f, hf, hfid⟩ := mem_ids_iff.mp hid
    exact exists_mostSevere? hf hfid
  · -- Names and findings without a name are determined by their members, because their order is.
    rintro ⟨ids, points, others, rfl, hincreasing, hids, hpoints, hothers, horder⟩
    have hsameIds : Ordered.ofList (fs.filterMap accessPoint) = ids := by
      refine (Ordered.increasing_ofList _).eq_of_mem_iff hincreasing fun id => ?_
      rw [mem_ids_iff, hids]
    have hsameOthers : (fs.filter fun f => f.accessPoint.isNone).eraseDups = others := by
      refine eq_of_pairwise_of_mem_iff (fun f g => Nat.lt_asymm) (pairwise_others fs) horder ?_
      intro f
      rw [mem_others_iff, hothers]
    unfold dedup
    simp only [hsameIds, hsameOthers, (forall₂_eq_some_iff.mp hpoints).2]

/-- Violations of one access point that differ in their severities, with a finding of another access
point and findings without one in between. The first of the critical ones is kept, after others
that have no severity or a lesser one. -/
theorem dedup_eq_iff_sample :
    let violation (severity : Option Severity) := { Report.unscopedRead "User" with severity }
    let purge := { Report.unscopedRead "User" with accessPoint := some "jobs.py:3:purge#0" }
    let critical := violation (some .critical)
    let later := { critical with entities := ["Project"] }
    let unread := Report.unreadHandler
    let fs := [violation none, unread "E021", violation (some .low), purge, critical,
      violation (some .high), unread "E020", later, unread "E021"]
    dedup fs = [purge, critical, unread "E021", unread "E020"] := by
  intro violation purge critical later unread fs
  have hpurge : IsChosen fs "jobs.py:3:purge#0" purge := ⟨by decide, rfl, by decide, by decide⟩
  have hcritical : IsChosen fs "routes.py:26:list_all#0" critical :=
    ⟨by decide, rfl, by decide, by decide⟩
  refine (dedup_eq_iff fs _).mpr ⟨["jobs.py:3:purge#0", "routes.py:26:list_all#0"],
    [purge, critical], [unread "E021", unread "E020"], rfl, by decide, fun id => ?_,
    .cons hpurge (.cons hcritical .nil), fun f => ?_, by decide⟩
  · rw [← mem_ids_iff]
    exact iff_of_eq (congrArg (id ∈ ·) (by decide +kernel))
  · rw [← mem_others_iff]
    exact iff_of_eq (congrArg (f ∈ ·) (by decide +kernel))

end Finding

end Tenancy

import Tenancy.Proofs.Support.Lists

/-!
# Elements in the order in which they are first met

`List.eraseDups` keeps the first of equal elements, so what is left of lists that follow each other
depends on which of them comes first. It does not matter whether repetitions were dropped from the
front before (`eraseDups_eraseDups_append`). What a list shows behind another is followed one
element at a time by `cons_removeAll_of_mem` and `eraseDups_cons_removeAll_of_not_mem`.

What is left stands in the order in which it is first met (`pairwise_idxOf_eraseDups`), and leaving
out other elements does not change this order (`idxOf_filter_lt_iff`).

Lists agree on an order (`Comparable`) if what one shows first the other shows first too, as far as
both go. If all lists agree pairwise, what they show together is the longest of them, in whatever
order they come (`eraseDups_flatten_of_comparable`, `eraseDups_flatten_perm`).
-/

set_option autoImplicit false

namespace Tenancy.Support

variable {α : Type} [BEq α] [LawfulBEq α]

/-- There is nothing to drop from a list without repetitions. -/
theorem eraseDups_of_nodup {l : List α} (h : l.Nodup) : l.eraseDups = l := by
  induction l with
  | nil => rfl
  | cons a l ih =>
    obtain ⟨ha, hl⟩ := List.nodup_cons.mp h
    have hfilter : l.filter (fun b => !b == a) = l := by
      refine List.filter_eq_self.mpr fun b hb => ?_
      rw [Bool.not_eq_true', beq_eq_false_iff_ne]
      rintro rfl
      exact ha hb
    rw [List.eraseDups_cons, hfilter, ih hl]

/-- Of two elements that are not left out, the one that is met first still is. -/
theorem idxOf_filter_lt_iff {keep : α → Bool} {a b : α} (ha : keep a = true) (hb : keep b = true)
    (l : List α) : (l.filter keep).idxOf a < (l.filter keep).idxOf b ↔ l.idxOf a < l.idxOf b := by
  induction l with
  | nil => rfl
  | cons c l ih =>
    by_cases hc : keep c = true
    · rw [List.filter_cons_of_pos hc, List.idxOf_cons, List.idxOf_cons, List.idxOf_cons,
        List.idxOf_cons]
      cases hca : c == a with
      | true => cases hcb : c == b <;> simp
      | false => cases hcb : c == b <;> simp [ih]
    · have hca : c ≠ a := by
        rintro rfl
        exact hc ha
      have hcb : c ≠ b := by
        rintro rfl
        exact hc hb
      rw [List.filter_cons_of_neg hc, List.idxOf_cons_ne l hca, List.idxOf_cons_ne l hcb,
        Nat.succ_lt_succ_iff, ih]

/-- Dropping repetitions leaves the elements in the order in which they are first met. -/
theorem pairwise_idxOf_eraseDups (l : List α) :
    l.eraseDups.Pairwise fun a b => l.idxOf a < l.idxOf b := by
  cases l with
  | nil => exact .nil
  | cons a l =>
    let isOther : α → Bool := fun b => !b == a
    have hother : ∀ b ∈ (l.filter isOther).eraseDups, isOther b = true := by
      intro b hb
      exact (List.mem_filter.mp (List.mem_eraseDups.mp hb)).2
    have hskip : ∀ b, isOther b = true → (a :: l).idxOf b = l.idxOf b + 1 := by
      intro b hb
      refine List.idxOf_cons_ne l ?_
      rintro rfl
      simp [isOther] at hb
    rw [List.eraseDups_cons, List.pairwise_cons]
    constructor
    · intro b hb
      rw [List.idxOf_cons_self, hskip b (hother b hb)]
      exact Nat.succ_pos _
    · refine (pairwise_idxOf_eraseDups (l.filter isOther)).imp_of_mem ?_
      intro b c hb hc hlt
      rw [hskip b (hother b hb), hskip c (hother c hc), Nat.add_lt_add_iff_right,
        ← idxOf_filter_lt_iff (hother b hb) (hother c hc)]
      exact hlt
termination_by l.length
decreasing_by exact Nat.lt_succ_of_le (List.length_filter_le _ _)

/-- What is removed depends on the members of a list alone. -/
theorem removeAll_eraseDups (a b : List α) : b.removeAll a.eraseDups = b.removeAll a := by
  unfold List.removeAll
  refine List.filter_congr fun x _ => ?_
  have hmem : List.elem x a.eraseDups = List.elem x a := by
    rw [Bool.eq_iff_iff, List.elem_iff, List.elem_iff, List.mem_eraseDups]
  rw [hmem]

/-- Repetitions in front may be dropped before. -/
theorem eraseDups_eraseDups_append (a b : List α) :
    (a.eraseDups ++ b).eraseDups = (a ++ b).eraseDups := by
  rw [List.eraseDups_append, List.eraseDups_append, removeAll_eraseDups,
    eraseDups_of_nodup (nodup_eraseDups a)]

/-- An element that was met before shows nothing new. -/
theorem cons_removeAll_of_mem {l : List α} {a : α} (ha : a ∈ l) (rest : List α) :
    (a :: rest).removeAll l = rest.removeAll l := by
  rw [List.cons_removeAll, if_neg (by simpa using ha)]

/-- An element that was not met before is shown, and then it was met. -/
theorem eraseDups_cons_removeAll_of_not_mem {l : List α} {a : α} (ha : a ∉ l) (rest : List α) :
    ((a :: rest).removeAll l).eraseDups = a :: (rest.removeAll (l ++ [a])).eraseDups := by
  have hrest : (rest.removeAll l).filter (fun b => !b == a) = rest.removeAll (l ++ [a]) := by
    unfold List.removeAll
    rw [List.filter_filter]
    refine List.filter_congr fun b _ => ?_
    rw [List.elem_eq_contains, List.elem_eq_contains, List.contains_append]
    simp [Bool.and_comm]
  rw [List.cons_removeAll, if_pos (by simpa using ha), List.eraseDups_cons, hrest]

/-- What comes first is shown first. -/
theorem eraseDups_isPrefix_append (a b : List α) : a.eraseDups <+: (a ++ b).eraseDups := by
  rw [List.eraseDups_append]
  exact List.prefix_append _ _

/-- A list that shows nothing new changes nothing behind another. -/
theorem eraseDups_append_of_subset {a b : List α} (h : ∀ x ∈ b, x ∈ a) :
    (a ++ b).eraseDups = a.eraseDups := by
  have hnone : b.removeAll a = [] := by
    unfold List.removeAll
    refine List.filter_eq_nil_iff.mpr fun x hx => ?_
    simpa using h x hx
  rw [List.eraseDups_append, hnone, List.eraseDups_nil, List.append_nil]

/-- A list that shows the beginning of another changes nothing in front of it. -/
theorem eraseDups_append_of_isPrefix {a b : List α} (h : a.eraseDups <+: b.eraseDups) :
    (a ++ b).eraseDups = b.eraseDups := by
  obtain ⟨rest, hrest⟩ := h
  have hnodup := nodup_eraseDups b
  rw [← hrest, List.nodup_append] at hnodup
  -- Of what the second list shows, the rest is what the first does not.
  have hfirst : a.eraseDups.filter (fun x => !List.elem x a) = [] := by
    refine List.filter_eq_nil_iff.mpr fun x hx => ?_
    simpa using List.mem_eraseDups.mp hx
  have hlast : rest.filter (fun x => !List.elem x a) = rest := by
    refine List.filter_eq_self.mpr fun x hx => ?_
    have hnot : x ∉ a := fun ha => hnodup.2.2 x (List.mem_eraseDups.mpr ha) x hx rfl
    simpa using hnot
  calc (a ++ b).eraseDups = a.eraseDups ++ (b.removeAll a).eraseDups := List.eraseDups_append
    _ = a.eraseDups ++ b.eraseDups.filter (fun x => !List.elem x a) := by
      rw [filter_eraseDups]
      rfl
    _ = a.eraseDups ++ rest := by rw [← hrest, List.filter_append, hfirst, hlast, List.nil_append]
    _ = b.eraseDups := hrest

/-- Two lists agree on the order in which elements are first met: what one of them shows is the
beginning of what the other shows. -/
def Comparable (a b : List α) : Prop :=
  a.eraseDups <+: b.eraseDups ∨ b.eraseDups <+: a.eraseDups

instance (a b : List α) : Decidable (Comparable a b) :=
  decidable_of_iff (a.eraseDups.isPrefixOf b.eraseDups ∨ b.eraseDups.isPrefixOf a.eraseDups)
    (by rw [List.isPrefixOf_iff_prefix, List.isPrefixOf_iff_prefix, Comparable])

/-- Lists that agree pairwise show together what one of them shows, and each shows a beginning of
it. -/
theorem eraseDups_flatten_of_comparable {ls : List (List α)}
    (h : ∀ a ∈ ls, ∀ b ∈ ls, Comparable a b) :
    (ls.flatten = [] ∨ ∃ b ∈ ls, ls.flatten.eraseDups = b.eraseDups) ∧
      ∀ a ∈ ls, a.eraseDups <+: ls.flatten.eraseDups := by
  induction ls with
  | nil => simp
  | cons c ls ih =>
    obtain ⟨hlongest, hstart⟩ :=
      ih fun a ha b hb => h a (List.mem_cons_of_mem c ha) b (List.mem_cons_of_mem c hb)
    rw [List.flatten_cons]
    -- The new list is compared with the one that the others show together.
    rcases hlongest with hnil | ⟨b, hb, hlongest⟩
    · rw [hnil, List.append_nil]
      rw [hnil] at hstart
      refine ⟨.inr ⟨c, List.mem_cons_self, rfl⟩, List.forall_mem_cons.mpr ⟨List.prefix_refl _, ?_⟩⟩
      intro a ha
      exact (hstart a ha).trans List.nil_prefix
    · rcases h c List.mem_cons_self b (List.mem_cons_of_mem c hb) with hcb | hbc
      · rw [← hlongest] at hcb
        rw [eraseDups_append_of_isPrefix hcb]
        exact ⟨.inr ⟨b, List.mem_cons_of_mem c hb, hlongest⟩,
          List.forall_mem_cons.mpr ⟨hcb, hstart⟩⟩
      · rw [← hlongest] at hbc
        have hsubset : ∀ x ∈ ls.flatten, x ∈ c := by
          intro x hx
          exact List.mem_eraseDups.mp (hbc.subset (List.mem_eraseDups.mpr hx))
        rw [eraseDups_append_of_subset hsubset]
        refine ⟨.inr ⟨c, List.mem_cons_self, rfl⟩,
          List.forall_mem_cons.mpr ⟨List.prefix_refl _, ?_⟩⟩
        intro a ha
        exact (hstart a ha).trans hbc

/-- Lists that agree pairwise show the same in every order. -/
theorem eraseDups_flatten_perm {ls ls' : List (List α)} (hperm : ls.Perm ls')
    (h : ∀ a ∈ ls, ∀ b ∈ ls, Comparable a b) : ls.flatten.eraseDups = ls'.flatten.eraseDups := by
  have hstart : ∀ {ls ls' : List (List α)}, ls.Perm ls' →
      (∀ a ∈ ls, ∀ b ∈ ls, Comparable a b) → ls.flatten.eraseDups <+: ls'.flatten.eraseDups := by
    intro ls ls' hperm h
    rcases (eraseDups_flatten_of_comparable h).1 with hnil | ⟨b, hb, hlongest⟩
    · rw [hnil, List.eraseDups_nil]
      exact List.nil_prefix
    · rw [hlongest]
      refine (eraseDups_flatten_of_comparable ?_).2 b (hperm.mem_iff.mp hb)
      intro a ha c hc
      exact h a (hperm.mem_iff.mpr ha) c (hperm.mem_iff.mpr hc)
  have hleft := hstart hperm h
  have hright := hstart hperm.symm fun a ha b hb =>
    h a (hperm.mem_iff.mpr ha) b (hperm.mem_iff.mpr hb)
  exact hleft.eq_of_length (Nat.le_antisymm hleft.length_le hright.length_le)

end Tenancy.Support

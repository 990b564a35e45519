import Tenancy.Proofs.Support.Lists
import Tenancy.Schema.Convention

/-!
# The best scoping column

Conventions rank columns by the first entry they match (`priority?_eq_some_iff`). The best of some
columns is found by going through them once; `IsBest` says what it is without going through them:
one of the columns, with a priority, and no other column with a priority comes before it, by
priority and then by name.

`best?_eq_some_iff` says that this is what is found, and `best?_eq_none_iff` when nothing is.
-/

set_option autoImplicit false

namespace Tenancy.Conventions

open Tenancy.Support

variable {c : Conventions} {columns : List String} {column : String}

/-- The priority of a column is the place of an entry that it matches, and it matches none of those
before. -/
theorem priority?_eq_some_iff {priority : Nat} :
    c.priority? column = some priority ↔
      (∃ text, c.texts[priority]? = some text ∧ (Convention.ofText text).accepts column = true) ∧
        ∀ earlier < priority, ∀ text, c.texts[earlier]? = some text →
          (Convention.ofText text).accepts column = false := by
  unfold priority? entries
  rw [List.findIdx?_map, List.findIdx?_eq_some_iff_getElem]
  constructor
  · rintro ⟨hlt, haccepts, hbefore⟩
    refine ⟨⟨_, List.getElem?_eq_getElem hlt, haccepts⟩, ?_⟩
    intro earlier hearlier text htext
    obtain ⟨-, rfl⟩ := List.getElem?_eq_some_iff.mp htext
    exact Bool.eq_false_iff.mpr (hbefore earlier hearlier)
  · rintro ⟨⟨text, htext, haccepts⟩, hbefore⟩
    obtain ⟨hlt, rfl⟩ := List.getElem?_eq_some_iff.mp htext
    refine ⟨hlt, haccepts, fun earlier hearlier => ?_⟩
    exact Bool.eq_false_iff.mp (hbefore earlier hearlier _ (List.getElem?_eq_getElem _))

/-- A column with its priority comes before another one, or is the same. -/
def Precedes (a b : Nat × String) : Prop := a.1 < b.1 ∨ a.1 = b.1 ∧ a.2 ≤ b.2

/-- The least of some columns that match a convention, by priority and then by name. -/
structure IsBest (c : Conventions) (columns : List String) (column : String) : Prop where
  mem : column ∈ columns
  least : ∃ priority, c.priority? column = some priority ∧ ∀ other ∈ columns, ∀ priority',
    c.priority? other = some priority' → Precedes (priority, column) (priority', other)

theorem Precedes.refl (a : Nat × String) : Precedes a a := .inr ⟨rfl, String.le_refl a.2⟩

theorem Precedes.trans {a b d : Nat × String} (hab : Precedes a b) (hbd : Precedes b d) :
    Precedes a d := by
  rcases hab with hab | ⟨hab, hle⟩ <;> rcases hbd with hbd | ⟨hbd, hle'⟩
  · exact .inl (Nat.lt_trans hab hbd)
  · exact .inl (hbd ▸ hab)
  · exact .inl (hab ▸ hbd)
  · exact .inr ⟨hab.trans hbd, String.le_trans hle hle'⟩

/-- The better of two columns is the one that comes before the other. -/
theorem better_cases (a b : Nat × String) :
    better a b = a ∧ Precedes a b ∨ better a b = b ∧ Precedes b a := by
  unfold better
  split
  · rename_i h
    exact .inl ⟨rfl, h⟩
  · rename_i h
    refine .inr ⟨rfl, ?_⟩
    obtain ⟨hlt, hle⟩ := not_or.mp h
    rcases Nat.lt_or_eq_of_le (Nat.not_lt.mp hlt) with hba | hba
    · exact .inl hba
    · exact .inr ⟨hba, Std.le_of_not_ge fun hab => hle ⟨hba.symm, hab⟩⟩

/-- The ranked columns are those that match a convention, with their priorities. -/
theorem mem_ranked_iff {entry : Nat × String} :
    entry ∈ c.ranked columns ↔ entry.2 ∈ columns ∧ c.priority? entry.2 = some entry.1 := by
  unfold ranked
  rw [List.mem_filterMap]
  constructor
  · rintro ⟨other, hother, h⟩
    obtain ⟨priority, hpriority, rfl⟩ := Option.map_eq_some_iff.mp h
    exact ⟨hother, hpriority⟩
  · rintro ⟨hmem, hpriority⟩
    exact ⟨entry.2, hmem, by rw [hpriority]; rfl⟩

/-- A column that is found is the least of those that match a convention. -/
theorem isBest_of_best? (h : c.best? columns = some column) : c.IsBest columns column := by
  unfold best? at h
  split at h
  · cases h
  · rename_i first rest hranked
    obtain ⟨hmem, hleast⟩ := foldl_least Precedes Precedes.refl
      (fun _ _ _ => Precedes.trans) better_cases rest first
    rw [← hranked] at hmem hleast
    cases h
    obtain ⟨hcolumn, hpriority⟩ := mem_ranked_iff.mp hmem
    refine ⟨hcolumn, _, hpriority, ?_⟩
    intro other hother priority' hpriority'
    exact hleast (priority', other) (mem_ranked_iff.mpr ⟨hother, hpriority'⟩)

/-- At most one column is the least. -/
theorem IsBest.unique {column' : String} (h : c.IsBest columns column)
    (h' : c.IsBest columns column') : column = column' := by
  obtain ⟨priority, hpriority, hleast⟩ := h.least
  obtain ⟨priority', hpriority', hleast'⟩ := h'.least
  have hle := hleast column' h'.mem priority' hpriority'
  have hle' := hleast' column h.mem priority hpriority
  rcases hle with hlt | ⟨heq, hle⟩ <;> rcases hle' with hlt' | ⟨heq', hle'⟩
  · exact absurd hlt' (Nat.lt_asymm hlt)
  · exact absurd heq' (Nat.ne_of_gt hlt)
  · exact absurd heq (Nat.ne_of_gt hlt')
  · exact String.le_antisymm hle hle'

/-- Nothing is found exactly when no column matches a convention. -/
theorem best?_eq_none_iff :
    c.best? columns = none ↔ ∀ column ∈ columns, c.accepts column = false := by
  have hnil : c.best? columns = none ↔ c.ranked columns = [] := by
    unfold best?
    cases c.ranked columns <;> simp
  rw [hnil, List.eq_nil_iff_forall_not_mem]
  constructor
  · intro h column hcolumn
    cases hpriority : c.priority? column with
    | none => simp [accepts, hpriority]
    | some priority => exact absurd (mem_ranked_iff.mpr ⟨hcolumn, hpriority⟩) (h (priority, column))
  · intro h entry hentry
    obtain ⟨hcolumn, hpriority⟩ := mem_ranked_iff.mp hentry
    have hnone := h entry.2 hcolumn
    simp [accepts, hpriority] at hnone

/-- The column that is found is the least of those that match a convention. -/
theorem best?_eq_some_iff : c.best? columns = some column ↔ c.IsBest columns column := by
  constructor
  · exact isBest_of_best?
  · intro h
    cases hfound : c.best? columns with
    | none =>
      obtain ⟨priority, hpriority, -⟩ := h.least
      have hnone := best?_eq_none_iff.mp hfound column h.mem
      simp [accepts, hpriority] at hnone
    | some found => rw [h.unique (isBest_of_best? hfound)]

end Tenancy.Conventions

import Tenancy.Facts.Declaration
import Tenancy.Facts.Location
import Tenancy.Ordered
import Tenancy.Proofs.Support.Lists

/-!
# Increasing lists are determined by their members

`Ordered.ofList` sorts a list and drops repetitions. Two increasing lists with the same members are
equal, so what comes out depends on the members of the list alone: neither on their order nor on how
often each occurs. `ofList_perm` is the form in which the order of declarations drops out of the
merged columns, foreign keys and names.

What comes first in such a list is least, so of several elements that fail the least one is found
(`Increasing.mapM_eq_error_iff`).
-/

set_option autoImplicit false

namespace Tenancy

namespace Ordered

variable {α : Type} [Ord α]

/-- No element of an increasing list occurs twice. -/
theorem Increasing.nodup [Std.ReflOrd α] {l : List α} (h : Increasing l) : l.Nodup := by
  refine List.Pairwise.imp ?_ h
  rintro a b hab rfl
  rw [Std.ReflOrd.compare_self] at hab
  exact absurd hab (by decide)

/-- Increasing lists with the same members are the same list. -/
theorem Increasing.eq_of_mem_iff [Std.TransOrd α] {l l' : List α} (h : Increasing l)
    (h' : Increasing l') (hmem : ∀ x, x ∈ l ↔ x ∈ l') : l = l' := by
  refine Support.eq_of_pairwise_of_mem_iff ?_ h h' hmem
  intro a b hab
  exact Std.OrientedCmp.not_lt_of_lt hab

/-- What a list is sorted into depends on its members alone. -/
theorem ofList_eq_of_mem_iff [Std.TransOrd α] [Std.LawfulEqOrd α] {l l' : List α}
    (hmem : ∀ x, x ∈ l ↔ x ∈ l') : ofList l = ofList l' := by
  refine (increasing_ofList l).eq_of_mem_iff (increasing_ofList l') ?_
  intro x
  rw [mem_ofList, mem_ofList]
  exact hmem x

/-- What a list is sorted into does not depend on its order. -/
theorem ofList_perm [Std.TransOrd α] [Std.LawfulEqOrd α] {l l' : List α} (h : l.Perm l') :
    ofList l = ofList l' := ofList_eq_of_mem_iff fun _ => h.mem_iff

/-- Mapping a list whose keys increase fails with the error of the element that has the least key of
all that fail. -/
theorem Increasing.mapM_eq_error_iff {ε α β : Type} {f : α → Except ε β} {key : α → String}
    {l : List α} (hsorted : Increasing (l.map key)) {e : ε} :
    l.mapM f = .error e ↔ ∃ a ∈ l, f a = .error e ∧
      ∀ b ∈ l, ∀ e', f b = .error e' → key a ≤ key b := by
  rw [Support.mapM_eq_error_iff]
  constructor
  · rintro ⟨before, a, after, rfl, hbefore, ha⟩
    refine ⟨a, by simp, ha, ?_⟩
    intro b hb e' hfails
    rcases List.mem_append.mp hb with hb | hb
    · obtain ⟨r, hr⟩ := hbefore b hb
      rw [hfails] at hr
      cases hr
    · rcases List.mem_cons.mp hb with rfl | hb
      · exact String.le_refl _
      · rw [List.map_append, List.map_cons] at hsorted
        have hlt := (List.pairwise_cons.mp (List.pairwise_append.mp hsorted).2.1).1 (key b)
          (List.mem_map_of_mem hb)
        exact Std.le_of_lt (compareOfLessAndEq_eq_lt.mp hlt)
  · rintro ⟨a, ha, hfails, hleast⟩
    obtain ⟨before, after, rfl⟩ := List.append_of_mem ha
    refine ⟨before, a, after, rfl, ?_, hfails⟩
    intro b hb
    cases hfb : f b with
    | ok r => exact ⟨r, rfl⟩
    | error e' =>
      -- An element before it that fails would have a lesser key.
      rw [List.map_append, List.map_cons] at hsorted
      have hlt := (List.pairwise_append.mp hsorted).2.2 (key b) (List.mem_map_of_mem hb) (key a)
        List.mem_cons_self
      exact absurd (hleast b (List.mem_append_left _ hb) e' hfb)
        (String.not_le.mpr (compareOfLessAndEq_eq_lt.mp hlt))

end Ordered

/-- Foreign keys that compare as equal are equal, so sorting them loses none. -/
instance : Std.LawfulEqOrd ForeignKey where
  compare_self {a} := Std.ReflOrd.compare_self
  eq_of_compare {a b} h := by
    obtain ⟨hcolumn, hrest⟩ := compareLex_eq_eq.mp h
    obtain ⟨hreferences, hreferenced⟩ := compareLex_eq_eq.mp hrest
    have hcolumn : a.column = b.column := Std.LawfulEqOrd.eq_of_compare hcolumn
    have hreferences : a.references = b.references := Std.LawfulEqOrd.eq_of_compare hreferences
    have hreferenced : a.referencedColumn = b.referencedColumn :=
      Std.LawfulEqOrd.eq_of_compare hreferenced
    cases a
    cases b
    simp_all

/-- Locations that compare as equal are equal. -/
instance : Std.LawfulEqOrd Location where
  compare_self {a} := Std.ReflOrd.compare_self
  eq_of_compare {a b} h := by
    obtain ⟨hfile, hrest⟩ := compareLex_eq_eq.mp h
    obtain ⟨hline, hrest⟩ := compareLex_eq_eq.mp hrest
    obtain ⟨hhandler, hroute⟩ := compareLex_eq_eq.mp hrest
    have hfile : a.file = b.file := Std.LawfulEqOrd.eq_of_compare hfile
    have hline : a.line = b.line := Std.LawfulEqOrd.eq_of_compare hline
    have hhandler : a.handler = b.handler := Std.LawfulEqOrd.eq_of_compare hhandler
    have hroute : a.route = b.route := Std.LawfulEqOrd.eq_of_compare hroute
    cases a
    cases b
    simp_all

end Tenancy

import Tenancy.Access.Filter
import Tenancy.Proofs.Support.Texts

/-!
# How columns are written

The text of a column is a bare name (`IsBare`), or has an entity in front of it and perhaps more
before that (`IsQualified`): `workspace_id`, `User.workspace_id` and `models.User.workspace_id` are
three ways to write one column. This module says what each way of writing is resolved to, so that no
later proof has to take texts apart:

* `written_cases`: a text is blank, or written in one of these ways; behind a dot the column may be
  missing (`IsDotted`).
* `resolve_of_isBare`, `resolve_of_isDotted` and `resolve_of_isQualified`: the look-up that a text
  leads to.
* `resolve_of_names`: what a column of the only target is resolved to, in whichever way it is
  written (`Names`).
* `exists_of_resolve_unknownColumn`: a column is unknown only if a target does not accept it.
-/

set_option autoImplicit false

namespace Tenancy.ColumnRef

open Tenancy.Support

/-- A text is the name of a column with nothing in front. -/
structure IsBare (text column : String) : Prop where
  text : Text.trim text = column
  nonempty : column ≠ ""
  plain : '.' ∉ column.toList

/-- A text is the name of a column with a qualifier in front; what stands before the qualifier does
not matter. -/
structure IsQualified (text qualifier column : String) : Prop where
  text : Text.trim text = s!"{qualifier}.{column}" ∨
    ∃ path : String, Text.trim text = s!"{path}.{qualifier}.{column}"
  nonempty : column ≠ ""
  plain : '.' ∉ column.toList
  qualifier_plain : '.' ∉ qualifier.toList

/-- A text has a qualifier in front of its last dot; behind the dot there may be nothing. -/
structure IsDotted (text qualifier column : String) : Prop where
  text : Text.trim text = s!"{qualifier}.{column}" ∨
    ∃ path : String, Text.trim text = s!"{path}.{qualifier}.{column}"
  plain : '.' ∉ column.toList
  qualifier_plain : '.' ∉ qualifier.toList

/-- A text is a column of an entity, with or without the entity in front. -/
def Names (e : Entity) (text column : String) : Prop :=
  IsBare text column ∨ ∃ qualifier, IsQualified text qualifier column ∧ e.isNamed qualifier = true

variable {targets : List Entity} {e : Entity} {text qualifier column : String}

/-- The characters of a column with a qualifier. -/
theorem toList_dotted (qualifier column : String) :
    s!"{qualifier}.{column}".toList = qualifier.toList ++ '.' :: column.toList :=
  toList_divided rfl qualifier column

/-- A bare column is looked for among the targets. -/
theorem resolve_of_isBare (h : IsBare text column) (operation : Nat) :
    resolve targets text operation = ofBare targets column operation := by
  unfold resolve
  simp only [h.text, if_neg h.nonempty, splitLast?_of_not_mem h.plain]

/-- What stands behind the last dot is looked for in the target of the name before it. -/
theorem resolve_of_isDotted (h : IsDotted text qualifier column) (operation : Nat) :
    resolve targets text operation = ofQualified targets qualifier column operation := by
  -- Whatever the text is split into, the last part of what stands before the column is the same.
  obtain ⟨before, hlist, hlast⟩ : ∃ before : String,
      (Text.trim text).toList = before.toList ++ '.' :: column.toList ∧
        lastPart before = qualifier := by
    rcases h.text with htext | ⟨path, htext⟩
    · refine ⟨qualifier, by rw [htext, toList_dotted], ?_⟩
      unfold lastPart
      rw [splitLast?_of_not_mem h.qualifier_plain]
    · refine ⟨s!"{path}.{qualifier}", ?_, ?_⟩
      · rw [htext]
        exact toList_dotted s!"{path}.{qualifier}" column
      · unfold lastPart
        rw [splitLast?_of_toList (toList_dotted path qualifier) h.qualifier_plain]
  have hne : Text.trim text ≠ "" := by
    intro hempty
    rw [hempty] at hlist
    simp at hlist
  unfold resolve
  simp only [if_neg hne, splitLast?_of_toList hlist h.plain, hlast]

theorem IsQualified.isDotted (h : IsQualified text qualifier column) :
    IsDotted text qualifier column := ⟨h.text, h.plain, h.qualifier_plain⟩

theorem IsDotted.isQualified (h : IsDotted text qualifier column) (hcolumn : column ≠ "") :
    IsQualified text qualifier column := ⟨h.text, hcolumn, h.plain, h.qualifier_plain⟩

/-- A qualified column is looked for in the target of that name. -/
theorem resolve_of_isQualified (h : IsQualified text qualifier column) (operation : Nat) :
    resolve targets text operation = ofQualified targets qualifier column operation :=
  resolve_of_isDotted h.isDotted operation

/-- A text is blank, a bare column, or has a dot with a qualifier in front. -/
theorem written_cases (text : String) :
    Text.trim text = "" ∨ (∃ column, IsBare text column) ∨
      ∃ qualifier column, IsDotted text qualifier column := by
  by_cases hempty : Text.trim text = ""
  · exact .inl hempty
  by_cases hdot : '.' ∈ (Text.trim text).toList
  · obtain ⟨before, column, htext, hplain⟩ := exists_last_divider hdot
    refine .inr (.inr ?_)
    by_cases hpath : '.' ∈ before.toList
    · obtain ⟨path, qualifier, hbefore, hqualifier⟩ := exists_last_divider hpath
      refine ⟨qualifier, column, .inr ⟨path, ?_⟩, hplain, hqualifier⟩
      rw [← String.toList_inj, htext, hbefore, ← toList_dotted path qualifier]
      exact (toList_dotted s!"{path}.{qualifier}" column).symm
    · refine ⟨before, column, .inl ?_, hplain, hpath⟩
      rw [← String.toList_inj, htext, toList_dotted]
  · exact .inr (.inl ⟨_, rfl, hempty, hdot⟩)

/-- A column of the only target is resolved to it if it accepts the column, and is unknown
otherwise. -/
theorem resolve_of_names (h : Names e text column) (operation : Nat) :
    resolve [e] text operation = ofEntity e column operation := by
  rcases h with hbare | ⟨qualifier, hqualified, hnamed⟩
  · rw [resolve_of_isBare hbare]
    rfl
  · rw [resolve_of_isQualified hqualified]
    unfold ofQualified
    simp only [List.find?_cons, hnamed, if_neg hqualified.nonempty]

/-- An entity rejects only columns that it does not accept. -/
theorem of_ofEntity_unknownColumn {name unknown : String} {operation place : Nat}
    (h : ofEntity e column operation = .error (.unknownColumn name unknown place)) :
    e.acceptsColumn unknown = false := by
  unfold ofEntity at h
  split at h
  · cases h
  · rename_i hrejected
    cases h
    exact Bool.not_eq_true _ ▸ hrejected

/-- A column is unknown only if one of the targets does not accept it. -/
theorem exists_of_resolve_unknownColumn {name unknown : String} {operation place : Nat}
    (h : resolve targets text operation = .error (.unknownColumn name unknown place)) :
    ∃ e ∈ targets, e.acceptsColumn unknown = false := by
  unfold resolve at h
  simp only at h
  split at h
  · cases h
  · split at h
    · -- The column is qualified: it is the target of that name that does not accept it.
      unfold ofQualified at h
      split at h
      · cases h
      · rename_i e hfind
        split at h
        · cases h
        · exact ⟨e, List.mem_of_find?_eq_some hfind, of_ofEntity_unknownColumn h⟩
    · -- A bare column can be unknown to a single target only; otherwise it is ambiguous.
      unfold ofBare at h
      split at h
      · rename_i only
        exact ⟨only, List.mem_singleton_self only, of_ofEntity_unknownColumn h⟩
      · split at h
        · cases h
        · cases h

end Tenancy.ColumnRef

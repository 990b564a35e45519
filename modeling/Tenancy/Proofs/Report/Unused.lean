import Tenancy.Proofs.Report.Ties

/-!
# Warnings of entries that matched nothing

A report warns of each entry that is not used, in words that say that it matched no finding. Used is
the first entry that applies to a finding, so the warning is also given for an entry that applies to
findings, if earlier entries apply to each of them (`SuppressionEntry.IsHidden`). An entry that
applies to nothing (`SuppressionEntry.IsIdle`) is always warned of.

* `mem_unusedWarnings_iff`: a warning is given for an entry exactly if it is hidden by those before
  it.
* `eq_of_unusedWarning`: a warning shows the entry that it is about, if there is no backtick in its
  location.
* `warnings_accurate_iff`: the warnings are accurate exactly if what is hidden is idle.
* `hidden_entry_warned`: an entry for a line, behind one for the file.
-/

set_option autoImplicit false

namespace Tenancy

open Tenancy.Support

namespace SuppressionEntry

/-- An entry applies to none of some findings. -/
def IsIdle (fs : List Finding) (e : SuppressionEntry) : Prop := ∀ f ∈ fs, e.appliesTo f = false

/-- To each finding that an entry applies to, an earlier entry applies as well. -/
def IsHidden (before : List SuppressionEntry) (fs : List Finding) (e : SuppressionEntry) : Prop :=
  ∀ f ∈ fs, e.appliesTo f = true → ∃ earlier ∈ before, earlier.appliesTo f = true

variable {before : List SuppressionEntry} {fs : List Finding} {e e' : SuppressionEntry}

/-- An entry that applies to nothing needs nobody to hide it. -/
theorem IsIdle.isHidden (h : e.IsIdle fs) (before : List SuppressionEntry) :
    e.IsHidden before fs := by
  intro f hf happlies
  rw [h f hf] at happlies
  cases happlies

/-- An entry is not hidden exactly if it is the first that applies to some finding. -/
theorem not_isHidden_iff :
    ¬ e.IsHidden before fs ↔
      ∃ f ∈ fs, e.appliesTo f = true ∧ ∀ earlier ∈ before, earlier.appliesTo f = false := by
  unfold IsHidden
  push Not
  simp only [Bool.not_eq_true]

/-- What an entry applies to is determined by its location and its rule. -/
theorem appliesTo_congr (hlocation : e.location = e'.location) (hrule : e.rule = e'.rule)
    (f : Finding) : e.appliesTo f = e'.appliesTo f := by
  unfold appliesTo coversRule rule? target
  rw [hlocation, hrule]

/-- The characters of a warning. -/
theorem toList_unusedWarning (e : SuppressionEntry) :
    e.unusedWarning.toList = "suppression `".toList ++ (e.location.toList ++
      '\x60' :: (" for rule `".toList ++ (e.rule.toList ++ "` matched no finding".toList))) := by
  have hrule : e.rule?.getD "*" = e.rule := by
    unfold rule?
    split
    · rename_i hall
      exact hall.symm
    · rfl
  show ("suppression `" ++ e.location ++ "` for rule `" ++ e.rule?.getD "*" ++
    "` matched no finding").toList = _
  rw [hrule]
  simp only [String.toList_append, List.append_assoc]
  rfl

/-- A warning shows the entry that it is about, if there is no backtick in its location. -/
theorem eq_of_unusedWarning (hlocation : '\x60' ∉ e.location.toList)
    (hlocation' : '\x60' ∉ e'.location.toList) (h : e.unusedWarning = e'.unusedWarning) :
    e.location = e'.location ∧ e.rule = e'.rule := by
  have htext := congrArg String.toList h
  rw [toList_unusedWarning, toList_unusedWarning] at htext
  obtain ⟨hfirst, hrest⟩ :=
    eq_of_append_divider hlocation hlocation' (List.append_cancel_left htext)
  exact ⟨String.toList_injective hfirst,
    String.toList_injective (List.append_cancel_right (List.append_cancel_left hrest))⟩

/-- Entries whose warnings read alike are idle together. -/
theorem isIdle_of_unusedWarning (hlocation : '\x60' ∉ e.location.toList)
    (hlocation' : '\x60' ∉ e'.location.toList) (h : e.unusedWarning = e'.unusedWarning)
    (hidle : e.IsIdle fs) : e'.IsIdle fs := by
  obtain ⟨hplace, hrule⟩ := eq_of_unusedWarning hlocation hlocation' h
  intro f hf
  rw [← appliesTo_congr hplace hrule]
  exact hidle f hf

end SuppressionEntry

namespace Report

variable {entries before after : List SuppressionEntry} {fs : List Finding} {e : SuppressionEntry}

/-- The place of an entry is used exactly if the entries before it do not hide it. -/
theorem length_mem_usedEntries_iff :
    before.length ∈ usedEntries (before ++ e :: after) fs ↔ ¬ e.IsHidden before fs := by
  unfold usedEntries
  simp only [List.mem_filterMap, findIdx?_eq_length_iff, SuppressionEntry.not_isHidden_iff]

/-- A warning is given exactly for the entries that those before them hide. -/
theorem mem_unusedWarnings_iff {text : String} :
    text ∈ unusedWarnings entries fs ↔ ∃ before e after, entries = before ++ e :: after ∧
      e.IsHidden before fs ∧ e.unusedWarning = text := by
  unfold unusedWarnings
  simp only [Ordered.mem_ofList, List.mem_map, List.mem_filter, Prod.exists,
    List.mk_mem_zipIdx_iff_getElem?, Bool.not_eq_true', List.contains_eq_mem,
    decide_eq_false_iff_not]
  constructor
  · rintro ⟨e, index, ⟨hindex, hunused⟩, htext⟩
    obtain ⟨before, after, rfl, rfl⟩ := exists_append_of_getElem? hindex
    rw [length_mem_usedEntries_iff, not_not] at hunused
    exact ⟨before, e, after, rfl, hunused, htext⟩
  · rintro ⟨before, e, after, rfl, hhidden, htext⟩
    refine ⟨e, before.length, ⟨by simp, ?_⟩, htext⟩
    rw [length_mem_usedEntries_iff, not_not]
    exact hhidden

/-- Warnings are accurate: they name the entries that apply to nothing, and no other. -/
def AreAccurate (warnings : List String) (entries : List SuppressionEntry)
    (fs : List Finding) : Prop :=
  ∀ e ∈ entries, e.unusedWarning ∈ warnings ↔ e.IsIdle fs

/-- An entry that applies to nothing is warned of. -/
theorem unusedWarning_mem_of_isIdle (he : e ∈ entries) (hidle : e.IsIdle fs) :
    e.unusedWarning ∈ unusedWarnings entries fs := by
  obtain ⟨before, after, hsplit⟩ := List.append_of_mem he
  exact mem_unusedWarnings_iff.mpr ⟨before, e, after, hsplit, hidle.isHidden before, rfl⟩

/-- The warnings are accurate exactly if neither an entry that is hidden, nor one whose warning
reads the same, applies to a finding. -/
theorem areAccurate_unusedWarnings_iff :
    AreAccurate (unusedWarnings entries fs) entries fs ↔
      ∀ before e after, entries = before ++ e :: after → e.IsHidden before fs →
        ∀ twin ∈ entries, twin.unusedWarning = e.unusedWarning → twin.IsIdle fs := by
  constructor
  · intro haccurate before e after hsplit hhidden twin htwin halike
    refine (haccurate twin htwin).mp ?_
    exact mem_unusedWarnings_iff.mpr ⟨before, e, after, hsplit, hhidden, halike.symm⟩
  · intro hhidden e he
    refine ⟨fun hwarned => ?_, unusedWarning_mem_of_isIdle he⟩
    obtain ⟨before, first, after, hsplit, hfirst, halike⟩ := mem_unusedWarnings_iff.mp hwarned
    exact hhidden before first after hsplit hfirst e he halike.symm

/-- Without a backtick in a location, no other warning reads the same. -/
theorem areAccurate_unusedWarnings_iff_of_legible
    (hlocations : ∀ e ∈ entries, '\x60' ∉ e.location.toList) :
    AreAccurate (unusedWarnings entries fs) entries fs ↔
      ∀ before e after, entries = before ++ e :: after → e.IsHidden before fs → e.IsIdle fs := by
  rw [areAccurate_unusedWarnings_iff]
  have hmem : ∀ before e after, entries = before ++ e :: after → e ∈ entries := by
    rintro before e after rfl
    simp
  constructor
  · intro h before e after hsplit hhidden
    exact h before e after hsplit hhidden e (hmem before e after hsplit) rfl
  · intro h before e after hsplit hhidden twin htwin halike
    have he := hmem before e after hsplit
    exact SuppressionEntry.isIdle_of_unusedWarning (hlocations e he) (hlocations twin htwin)
      halike.symm (h before e after hsplit hhidden)

/-- **What the warnings of a report are about.** A warning is given exactly for the entries that are
hidden by those before them, and so for all that matched no finding. The warnings are accurate
exactly if neither an entry that is hidden, nor one whose warning reads the same, applies to a
finding that was kept. Only a backtick in a location makes warnings of different places or rules
read the same. -/
theorem warnings_accurate_iff (includeSafe : Bool) (entries : List SuppressionEntry)
    (fs : List Finding) :
    let kept := Finding.dedup fs
    let warnings := (assemble includeSafe entries fs).warnings
    (∀ text, text ∈ warnings ↔ ∃ before e after, entries = before ++ e :: after ∧
      e.IsHidden before kept ∧ e.unusedWarning = text) ∧
    (∀ e ∈ entries, e.IsIdle kept → e.unusedWarning ∈ warnings) ∧
    (AreAccurate warnings entries kept ↔ ∀ before e after, entries = before ++ e :: after →
      e.IsHidden before kept →
        ∀ twin ∈ entries, twin.unusedWarning = e.unusedWarning → twin.IsIdle kept) ∧
    ((∀ e ∈ entries, '\x60' ∉ e.location.toList) →
      (AreAccurate warnings entries kept ↔ ∀ before e after, entries = before ++ e :: after →
        e.IsHidden before kept → e.IsIdle kept)) :=
  ⟨fun _ => mem_unusedWarnings_iff, fun _ => unusedWarning_mem_of_isIdle,
    areAccurate_unusedWarnings_iff, areAccurate_unusedWarnings_iff_of_legible⟩

/-- An entry for a line, behind one for its file: it applies to the finding, and the report says
that it matched none. -/
theorem hidden_entry_warned :
    let file : SuppressionEntry := ⟨"routes.py", "*", some "reviewed"⟩
    let line : SuppressionEntry := ⟨"routes.py:28", "*", none⟩
    let read := unscopedRead "User"
    read ∈ Finding.dedup [read] ∧ line.appliesTo read = true ∧
      line.unusedWarning ∈ (assemble true [file, line] [read]).warnings ∧
      ¬ AreAccurate (assemble true [file, line] [read]).warnings [file, line]
        (Finding.dedup [read]) := by
  intro file line read
  have hkept : read ∈ Finding.dedup [read] := by decide +kernel
  have happlies : line.appliesTo read = true := by decide +kernel
  have hwarned : line.unusedWarning ∈ (assemble true [file, line] [read]).warnings := by
    decide +kernel
  refine ⟨hkept, happlies, hwarned, fun haccurate => ?_⟩
  have hidle := (haccurate line (by simp)).mp hwarned read hkept
  rw [happlies] at hidle
  cases hidle

end Report

end Tenancy

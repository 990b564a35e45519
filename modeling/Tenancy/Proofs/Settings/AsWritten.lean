import Mathlib.Data.List.Forall2
import Tenancy.Access.Point
import Tenancy.Command.Check
import Tenancy.Proofs.Report.Place
import Tenancy.Proofs.Support.Patterns
import Tenancy.Schema.Convention
import Tenancy.Settings.Check

/-!
# Settings without faults are used as written

Whoever uses a setting has a way out if it makes no sense: a pattern to ignore is dropped, a
convention is taken as a plain name, a suppression as the name of a handler, a format as the one for
terminals. `isUsedAsWritten_of_faults` says that none of these ways is taken if the settings have no
faults.

The check and the use do not look at the same text. The check reads the location of a suppression as
it is written, and its use reads it without the blanks around it. That the pattern survives is
`Glob.exists_compile_trim`, and that it is still recognised as a pattern is `mem_trim_of_mem`.
-/

set_option autoImplicit false

namespace Tenancy

open Tenancy.Support

/-! ### What the check of settings rules out -/

namespace Settings

variable {s : Settings}

/-- Settings have no faults exactly if no part has one. -/
theorem faults_eq_nil_iff : s.faults = [] ↔
    s.columnFaults = [] ∧ s.patternFaults = [] ∧ s.providerFaults = [] ∧ s.limitFaults = [] ∧
      s.suppressionFaults = [] ∧ s.outputFaults = [] := by
  simp only [faults, List.append_eq_nil_iff, and_assoc]

/-- All texts that have to be patterns are. -/
theorem exists_compile_of_mem_patterns (h : s.faults = []) {text : String}
    (hmem : text ∈ s.patterns) : ∃ g, Glob.compile text = .ok g := by
  have hnone := List.filterMap_eq_nil_iff.mp (faults_eq_nil_iff.mp h).2.1 text hmem
  split at hnone
  · rename_i g hg
    exact ⟨g, hg⟩
  · cases hnone

/-- Every suppression is about a rule that exists. -/
theorem isKnownRule_of_mem (h : s.faults = []) {entry : SuppressionEntry}
    (hmem : entry ∈ s.suppressions) : isKnownRule entry.rule := by
  obtain ⟨index, hindex⟩ := List.mem_iff_getElem?.mp hmem
  have hnone := List.flatMap_eq_nil_iff.mp (faults_eq_nil_iff.mp h).2.2.2.2.1 (entry, index)
    (List.mem_zipIdx_iff_getElem?.mpr hindex)
  have hrule := (List.append_eq_nil_iff.mp hnone).2
  by_contra hunknown
  rw [if_neg hunknown] at hrule
  cases hrule

/-- A preferred format exists. -/
theorem exists_ofText?_of_defaultFormat (h : s.faults = []) {text : String}
    (hformat : s.output.defaultFormat = some text) :
    ∃ format, OutputFormat.ofText? text = some format := by
  have hnone := (faults_eq_nil_iff.mp h).2.2.2.2.2
  unfold outputFaults at hnone
  rw [hformat] at hnone
  rw [← Option.isSome_iff_exists]
  by_contra hunknown
  simp only [if_neg hunknown] at hnone
  cases hnone

end Settings

/-! ### What is used -/

/-- An entry of the scoping conventions is what its text says: a pattern if there is a star in it,
and a name otherwise. -/
structure Convention.IsAsWritten (text : String) (entry : Convention) : Prop where
  pattern : '*' ∈ text.toList → ∃ glob, Glob.compile text = .ok glob ∧ entry = .pattern glob
  exact : '*' ∉ text.toList → entry = .exact text

/-- The words that name a format. -/
def OutputFormat.words : OutputFormat → List String
  | terminal => ["terminal"]
  | json => ["json"]
  | markdown => ["markdown", "md"]

/-- A format is found by one of its words, in either case. -/
theorem OutputFormat.exists_word_of_ofText? {text : String} {format : OutputFormat}
    (h : ofText? text = some format) : ∃ word ∈ format.words, Text.isKeyword word text := by
  unfold ofText? at h
  split at h
  · rename_i hword
    cases h
    exact ⟨"terminal", List.mem_cons_self, hword⟩
  · split at h
    · rename_i hword
      cases h
      exact ⟨"json", List.mem_cons_self, hword⟩
    · split at h
      · rename_i hword
        cases h
        rcases Bool.or_eq_true_iff.mp hword with hlong | hshort
        · exact ⟨"markdown", List.mem_cons_self, hlong⟩
        · exact ⟨"md", List.mem_cons_of_mem _ List.mem_cons_self, hshort⟩
      · cases h

namespace Settings

/-- Every setting is used as it is written: there is a pattern for each text to ignore, each scoping
convention is read as its text says, a location that is written as a pattern stands for files,
suppressions are about all rules or about one that exists, and reports have the format that is
named. -/
structure IsUsedAsWritten (s : Settings) : Prop where
  ignore : ∀ schema, List.Forall₂ (fun text pattern => Glob.compile text = .ok pattern)
    s.analysis.ignore (Extractor.ofSettings schema s).ignore
  conventions : List.Forall₂ Convention.IsAsWritten s.schema.scopingColumns
    (Conventions.mk s.schema.scopingColumns).entries
  locations : ∀ entry ∈ s.suppressions,
    ('*' ∈ entry.location.toList ∨ '?' ∈ entry.location.toList ∨ '[' ∈ entry.location.toList) →
    ¬ SuppressionTarget.NamesHandler (Text.trim entry.location) →
    ¬ SuppressionTarget.NamesLine (Text.trim entry.location) →
    ∃ pattern, Glob.compile (Text.trim entry.location) = .ok pattern ∧
      entry.target = .files pattern (Text.trim entry.location)
  rules : ∀ entry ∈ s.suppressions, entry.rule = "*" ∨ ∃ kind : ViolationKind,
    entry.rule = kind.ruleId
  format : ∀ text, s.output.defaultFormat = some text →
    ∃ word ∈ (Command.Check.resolveFormat none s).words, Text.isKeyword word text

variable {s : Settings}

/-- No pattern to ignore is dropped. -/
theorem forall₂_ignore (h : s.faults = []) (schema : Schema) :
    List.Forall₂ (fun text pattern => Glob.compile text = .ok pattern) s.analysis.ignore
      (Extractor.ofSettings schema s).ignore := by
  have hcompile : ∀ text ∈ s.analysis.ignore, ∃ g, Glob.compile text = .ok g := by
    intro text htext
    refine exists_compile_of_mem_patterns h ?_
    simp [patterns, htext]
  show List.Forall₂ _ s.analysis.ignore (s.analysis.ignore.filterMap Glob.compile?)
  revert hcompile
  generalize s.analysis.ignore = texts
  intro hcompile
  induction texts with
  | nil => exact .nil
  | cons text texts ih =>
    obtain ⟨g, hg⟩ := hcompile text List.mem_cons_self
    rw [List.filterMap_cons_some (Glob.compile?_eq_some_iff.mpr hg)]
    exact .cons hg (ih fun other hother => hcompile other (List.mem_cons_of_mem text hother))

/-- No scoping convention with a star is taken as a name. -/
theorem isAsWritten_of_mem_scopingColumns (h : s.faults = []) {text : String}
    (hmem : text ∈ s.schema.scopingColumns) : Convention.IsAsWritten text (.ofText text) where
  pattern hstar := by
    have hpattern : text ∈ s.patterns := by simp [patterns, hmem, hstar]
    obtain ⟨g, hg⟩ := exists_compile_of_mem_patterns h hpattern
    refine ⟨g, hg, ?_⟩
    unfold Convention.ofText
    rw [if_pos (by simpa using hstar), Glob.compile?_eq_some_iff.mpr hg]
  exact hstar := by
    unfold Convention.ofText
    rw [if_neg (by simpa using hstar)]

/-- A location with a wildcard is a pattern, also without the blanks around it. -/
theorem exists_files_of_mem_suppressions (h : s.faults = []) {entry : SuppressionEntry}
    (hmem : entry ∈ s.suppressions) {c : Char} (hc : c ∈ entry.location.toList)
    (hwild : Glob.isPatternChar c) (hblank : Text.isBlank c = false)
    (hhandler : ¬ SuppressionTarget.NamesHandler (Text.trim entry.location))
    (hline : ¬ SuppressionTarget.NamesLine (Text.trim entry.location)) :
    ∃ pattern, Glob.compile (Text.trim entry.location) = .ok pattern ∧
      entry.target = .files pattern (Text.trim entry.location) := by
  have hpattern : entry.location ∈ s.patterns := by
    have hwildcard : hasWildcard entry.location = true := List.any_eq_true.mpr ⟨c, hc, hwild⟩
    simp only [patterns, List.mem_append, List.mem_filter, List.mem_map]
    exact .inr ⟨⟨entry, hmem, rfl⟩, hwildcard⟩
  obtain ⟨pattern, htrimmed⟩ := Glob.exists_compile_trim (exists_compile_of_mem_patterns h hpattern)
  refine ⟨pattern, htrimmed, SuppressionTarget.ofText_eq_files ?_ htrimmed hhandler hline⟩
  exact List.any_eq_true.mpr ⟨c, mem_trim_of_mem hblank hc, by simp [hwild]⟩

/-- The format that is preferred is used unless another is asked for. -/
theorem resolveFormat_of_ofText? {text : String} {format : OutputFormat}
    (hdefault : s.output.defaultFormat = some text)
    (hformat : OutputFormat.ofText? text = some format) :
    Command.Check.resolveFormat none s = format := by
  unfold Command.Check.resolveFormat
  rw [hdefault, Option.bind_some, hformat]
  rfl

/-- **Settings without faults are used as written.** Nothing that makes no sense is left to be
dropped or taken for something else. -/
theorem isUsedAsWritten_of_faults (h : s.faults = []) : s.IsUsedAsWritten where
  ignore := forall₂_ignore h
  conventions := by
    show List.Forall₂ _ s.schema.scopingColumns (s.schema.scopingColumns.map Convention.ofText)
    rw [List.forall₂_map_right_iff, List.forall₂_same]
    exact fun text => isAsWritten_of_mem_scopingColumns h
  locations := by
    rintro entry hentry (hstar | hany | hset) hhandler hline
    · exact exists_files_of_mem_suppressions h hentry hstar rfl (by decide) hhandler hline
    · exact exists_files_of_mem_suppressions h hentry hany rfl (by decide) hhandler hline
    · exact exists_files_of_mem_suppressions h hentry hset rfl (by decide) hhandler hline
  rules := by
    intro entry hentry
    rcases Bool.or_eq_true_iff.mp (isKnownRule_of_mem h hentry) with hall | hone
    · exact .inl (of_decide_eq_true hall)
    · obtain ⟨kind, -, hkind⟩ := List.any_eq_true.mp hone
      exact .inr ⟨kind, (of_decide_eq_true hkind).symm⟩
  format := by
    intro text hdefault
    obtain ⟨format, hformat⟩ := exists_ofText?_of_defaultFormat h hdefault
    rw [resolveFormat_of_ofText? hdefault hformat]
    exact OutputFormat.exists_word_of_ofText? hformat

/-- A suppression for the modules of an application, written between blanks. -/
def spacedSuppression : SuppressionEntry :=
  ⟨" app/**/[!_]*.py\t", ViolationKind.missingDependency.ruleId, none⟩

/-- Settings with patterns in all places. -/
def patterned : Settings :=
  { Settings.default with
    schema := { SchemaSettings.default with scopingColumns := ["workspace_id", "*_tenant_id"] }
    analysis := { AnalysisSettings.default with ignore := ["tests/**", "*.bak"] }
    suppressions := [spacedSuppression, ⟨"routes.py::list_*", "*", none⟩]
    output := ⟨some "MD"⟩ }

/-- The location between blanks stands for files, and both patterns to ignore are kept. -/
theorem isUsedAsWritten_of_faults_patterned :
    patterned.faults = [] ∧
      (∃ pattern, spacedSuppression.target = .files pattern "app/**/[!_]*.py") ∧
      ∀ schema, (Extractor.ofSettings schema patterned).ignore.length = 2 := by
  have h : patterned.faults = [] := by decide +kernel
  have hused := isUsedAsWritten_of_faults h
  have htrim : Text.trim spacedSuppression.location = "app/**/[!_]*.py" := by decide +kernel
  -- Without a colon the location has neither of the two other forms.
  have hcolon : ':' ∉ (Text.trim spacedSuppression.location).toList := by decide +kernel
  refine ⟨h, ?_, fun schema => (hused.ignore schema).length_eq.symm⟩
  obtain ⟨pattern, -, htarget⟩ := hused.locations spacedSuppression List.mem_cons_self
    (by decide +kernel)
    (by
      rintro ⟨file, handler, heq⟩
      rw [heq] at hcolon
      simp at hcolon)
    (by
      rintro ⟨file, line, heq, -⟩
      rw [heq] at hcolon
      simp at hcolon)
  exact ⟨pattern, htrim ▸ htarget⟩

end Settings

end Tenancy

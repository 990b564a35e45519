import Tenancy.Proofs.Support.Texts
import Tenancy.Proofs.Wire.Scalar
import Tenancy.Report.Suppression

/-!
# How a place is read

A location is a text, and the places that it can name are told apart by the characters in it. The
forms are tried one after the other: `file::handler`, then `file:line`, then a pattern of files if
there is a divider, a dot or a wildcard, and what is left is the name of a handler. There is one
lemma for each form, with everything that keeps the forms before it away.

* `ofText_eq_fileHandler`: the first `::` counts.
* `ofText_eq_fileLine`: a line is read as the number that it was written for
  (`lineNumber?_toString`).
* `ofText_eq_files_of_not_mem` and `ofText_eq_anyFile`: a text without a colon is a pattern or a
  name, and `looksLikePath_iff` says which.

Whatever the form, a file is named by its last parts (`isSameFile_iff`), and the lemmas about
`covers` say so for each of them.
-/

set_option autoImplicit false

namespace Tenancy

open Tenancy.Support

/-- Two texts name the same file exactly if the parts of the one stand at the end of the other. -/
theorem isSameFile_iff {wanted path : String} :
    isSameFile wanted path = true ↔ Path.parts wanted <:+ Path.parts path := by
  unfold isSameFile Path.endsWith
  rw [Bool.or_eq_true, List.isSuffixOf_iff_suffix, decide_eq_true_eq]
  constructor
  · rintro (rfl | h)
    · exact List.suffix_rfl
    · exact h
  · exact .inr

/-- The number of a line is read as it is written. -/
theorem lineNumber?_toString (n : UInt32) : lineNumber? (toString n.toNat) = some n := by
  have hdigits : (toString n.toNat).toList = Nat.toDigits 10 n.toNat := by
    rw [Nat.toString_eq_repr, Nat.toList_repr]
  have hplus : '+' ∉ Nat.toDigits 10 n.toNat := hdigits ▸ not_mem_toString (by decide) n.toNat
  -- The digits do not start with a sign, so none is taken off.
  have hsign (rest : List Char) : Nat.toDigits 10 n.toNat ≠ '+' :: rest :=
    fun h => hplus (h ▸ List.mem_cons_self)
  have hread := Wire.Json.digits?_toDigits n.toNat
  have hlt := n.toNat_lt
  unfold lineNumber?
  grind [UInt32.ofNat_toNat]

namespace SuppressionTarget

/-- A text of the form `file::handler`. -/
def NamesHandler (text : String) : Prop := ∃ file handler : String, text = file ++ "::" ++ handler

/-- A text of the form `file:line`. -/
def NamesLine (text : String) : Prop :=
  ∃ file line : String, text = file ++ ":" ++ line ∧ (lineNumber? line).isSome

/-- A text that is not of the form `file::handler` is not split. -/
theorem splitPair?_of_not_namesHandler {text : String} (h : ¬ NamesHandler text) :
    Text.splitPair? ':' ':' text.toList = none := by
  by_contra hne
  obtain ⟨⟨file, handler⟩, hfound⟩ := Option.ne_none_iff_exists'.mp hne
  refine h ⟨String.ofList file, String.ofList handler, ?_⟩
  apply String.toList_injective
  rw [splitPair?_eq_some hfound]
  simp

/-- Only a text of the form `file::handler` is split. -/
theorem isSome_splitPair?_iff {text : String} :
    (Text.splitPair? ':' ':' text.toList).isSome = true ↔ NamesHandler text := by
  constructor
  · intro hsome
    by_contra h
    rw [splitPair?_of_not_namesHandler h] at hsome
    cases hsome
  · rintro ⟨file, handler, rfl⟩
    rw [String.toList_append, String.toList_append, List.append_assoc]
    exact isSome_splitPair?_append _ _

instance : DecidablePred NamesHandler := fun _ => decidable_of_iff _ isSome_splitPair?_iff

/-- A text that is not of the form `file:line` names no line. -/
theorem ofFileLine?_of_not_namesLine {text : String} (h : ¬ NamesLine text) :
    ofFileLine? text = none := by
  unfold ofFileLine?
  cases hsplit : Text.splitLast? ':' text with
  | none => rfl
  | some parts =>
    obtain ⟨file, line⟩ := parts
    have hnumber : lineNumber? line = none := by
      rw [← Option.not_isSome_iff_eq_none]
      intro hsome
      refine h ⟨file, line, ?_, hsome⟩
      apply String.toList_injective
      rw [Text.splitLast?_eq_some hsplit]
      simp
    show (lineNumber? line >>= _) = none
    rw [hnumber]
    rfl

/-- The characters by which a path or a pattern is told. -/
theorem looksLikePath_iff {text : String} :
    looksLikePath text = true ↔ ∃ c ∈ ['/', '.', '*', '?', '['], c ∈ text.toList := by
  unfold looksLikePath Glob.isPatternChar
  rw [List.any_eq_true]
  constructor
  · rintro ⟨c, hc, hpath⟩
    exact ⟨c, by simpa [or_assoc] using hpath, hc⟩
  · rintro ⟨c, hpath, hc⟩
    exact ⟨c, hc, by simpa [or_assoc] using hpath⟩

/-- A location without one of these forms is a pattern of files if it looks like one. -/
theorem ofText_eq_files {text : String} {pattern : Glob} (hpath : looksLikePath (Text.trim text))
    (hpattern : Glob.compile (Text.trim text) = .ok pattern)
    (hhandler : ¬ NamesHandler (Text.trim text)) (hline : ¬ NamesLine (Text.trim text)) :
    ofText text = .files pattern (Text.trim text) := by
  have hfiles : ofPath? (Text.trim text) = some (.files pattern (Text.trim text)) := by
    unfold ofPath?
    rw [if_pos hpath, Glob.compile?_eq_some_iff.mpr hpattern]
    rfl
  unfold ofText
  simp only [splitPair?_of_not_namesHandler hhandler, ofFileLine?_of_not_namesLine hline, hfiles]

/-- A location of the form `file::handler` is split at the first `::`. -/
theorem ofText_eq_fileHandler {text file handler : String}
    (htext : Text.trim text = file ++ "::" ++ handler) (hfile : ¬ NamesHandler file)
    (hcolon : file.toList.getLast? ≠ some ':') : ofText text = .fileHandler file handler := by
  have hsplit : Text.splitPair? ':' ':' (Text.trim text).toList =
      some (file.toList, handler.toList) := by
    rw [htext, String.toList_append, String.toList_append, List.append_assoc]
    exact splitPair?_append _ (splitPair?_of_not_namesHandler hfile) hcolon
  unfold ofText
  simp only [hsplit, String.ofList_toList]

/-- A location of the form `file:line` names the line if there is no `::` in it. -/
theorem ofText_eq_fileLine {text file : String} {n : UInt32}
    (htext : Text.trim text = file ++ ":" ++ toString n.toNat)
    (hhandler : ¬ NamesHandler (Text.trim text)) : ofText text = .fileLine file n := by
  have hsplit : Text.splitLast? ':' (Text.trim text) = some (file, toString n.toNat) :=
    splitLast?_of_toList (htext ▸ toList_divided rfl file _) (not_mem_toString (by decide) n.toNat)
  have hline : ofFileLine? (Text.trim text) = some (.fileLine file n) := by
    unfold ofFileLine?
    rw [hsplit]
    show (lineNumber? (toString n.toNat) >>= _) = _
    rw [lineNumber?_toString]
    rfl
  unfold ofText
  simp only [splitPair?_of_not_namesHandler hhandler, hline]

/-- A text without a colon has neither of the two forms with one. -/
theorem not_names_of_not_mem {text : String} (h : ':' ∉ text.toList) :
    ¬ NamesHandler text ∧ ¬ NamesLine text := by
  constructor
  · rintro ⟨file, handler, rfl⟩
    simp at h
  · rintro ⟨file, line, rfl, -⟩
    simp at h

/-- A location without a colon that looks like a path is a pattern of files. -/
theorem ofText_eq_files_of_not_mem {text : String} {pattern : Glob}
    (htrim : Text.trim text = text) (hcolon : ':' ∉ text.toList) (hpath : looksLikePath text)
    (hpattern : Glob.compile text = .ok pattern) : ofText text = .files pattern text := by
  obtain ⟨hhandler, hline⟩ := not_names_of_not_mem hcolon
  rw [← htrim] at hpath hpattern hhandler hline
  rw [ofText_eq_files hpath hpattern hhandler hline, htrim]

/-- A location without a colon that does not look like a path is the name of a handler. -/
theorem ofText_eq_anyFile {text : String} (htrim : Text.trim text = text)
    (hcolon : ':' ∉ text.toList) (hpath : looksLikePath text = false) :
    ofText text = .anyFile text := by
  obtain ⟨hhandler, hline⟩ := not_names_of_not_mem hcolon
  have hfiles : ofPath? text = none := by
    unfold ofPath?
    rw [hpath]
    rfl
  unfold ofText
  simp only [htrim, splitPair?_of_not_namesHandler hhandler, ofFileLine?_of_not_namesLine hline,
    hfiles]

section

variable {f : Finding} {pattern : Glob} {file handler text : String} {line : UInt32}

/-- A line of a file covers what stands on it in all files that the path names. -/
theorem covers_fileLine_iff : (fileLine file line).covers f = true ↔
    f.location.line = some line ∧ Path.parts file <:+ Path.parts f.location.file := by
  unfold covers
  rw [Bool.and_eq_true, decide_eq_true_eq, isSameFile_iff, and_comm]

/-- A handler in a file covers what is found in it, in all files that the path names. -/
theorem covers_fileHandler_iff : (fileHandler file handler).covers f = true ↔
    f.location.handler = handler ∧ Path.parts file <:+ Path.parts f.location.file := by
  unfold covers
  rw [Bool.and_eq_true, decide_eq_true_eq, isSameFile_iff, and_comm, eq_comm]

/-- A handler in any file covers what is found in it. -/
theorem covers_anyFile_iff : (anyFile handler).covers f = true ↔ handler = f.location.handler :=
  decide_eq_true_iff

/-- A pattern covers the files that it matches and those that its text names as a path. -/
theorem covers_files_iff : (files pattern text).covers f = true ↔
    pattern.accepts f.location.file = true ∨ Path.parts text <:+ Path.parts f.location.file := by
  unfold covers
  rw [Bool.or_eq_true, isSameFile_iff]

end

end SuppressionTarget

namespace SuppressionEntry

/-- The entry for a place, whatever the rule. -/
def wildcard (location : String) (reason : Option String) : SuppressionEntry :=
  ⟨location, "*", reason⟩

/-- An entry for all rules suppresses the violations at its place. -/
theorem appliesTo_wildcard_iff {location : String} {reason : Option String} {f : Finding} :
    (wildcard location reason).appliesTo f = true ↔
      f.isViolation = true ∧ (SuppressionTarget.ofText location).covers f = true := by
  unfold appliesTo
  rw [Bool.and_eq_true, Bool.and_eq_true, and_assoc]
  exact and_congr_right fun _ => ⟨And.right, fun h => ⟨rfl, h⟩⟩

end SuppressionEntry

end Tenancy

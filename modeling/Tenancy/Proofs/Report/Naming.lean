import Tenancy.Proofs.Report.Place
import Tenancy.Proofs.Report.Ties
import Tenancy.Proofs.Support.Patterns

/-!
# Naming a finding in an entry

Whoever wants to suppress a finding copies its place from the report: the file and the line, the
file and the handler, the file alone or the handler alone. Each of these texts has to be read as the
place that it was copied from, and that depends on its characters.

* `copied_location_applies`: the file with the line and the file with the handler pin the finding
  down (`SuppressionEntry.Pins`), and the file alone suppresses it.
* `bareHandler_applies_iff`: the name of a handler suppresses the finding unless there is a dot in
  it. A name with a dot is read as a file, and `dotted_handler_stands` is a method that cannot be
  named in this way.
-/

set_option autoImplicit false

namespace Tenancy

open Tenancy.Support
open SuppressionTarget (NamesHandler)

namespace SuppressionEntry

/-- An entry pins a finding down: it suppresses the finding, and of the others only violations that
are like it, in files whose paths end in the parts of its file. -/
structure Pins (e : SuppressionEntry) (f : Finding) (alike : Finding → Prop) : Prop where
  itself : e.appliesTo f = true
  others : ∀ g, e.appliesTo g = true ↔
    g.isViolation = true ∧ alike g ∧ Path.parts f.location.file <:+ Path.parts g.location.file

variable {f : Finding} {reason : Option String}

/-- An entry pins a finding down if its place covers what is like the finding in the same file. -/
theorem pins_wildcard {place : String} {alike : Finding → Prop} (hviolation : f.isViolation = true)
    (hlike : alike f)
    (hcovers : ∀ g, (SuppressionTarget.ofText place).covers g = true ↔
      alike g ∧ Path.parts f.location.file <:+ Path.parts g.location.file) :
    (wildcard place reason).Pins f alike := by
  have hothers : ∀ g, (wildcard place reason).appliesTo g = true ↔
      g.isViolation = true ∧ alike g ∧
        Path.parts f.location.file <:+ Path.parts g.location.file := by
    intro g
    rw [appliesTo_wildcard_iff, hcovers]
  exact ⟨(hothers f).mpr ⟨hviolation, hlike, List.suffix_rfl⟩, hothers⟩

/-- The file and the line pin a finding down. -/
theorem pins_position {n : UInt32} (hviolation : f.isViolation = true)
    (hstart : startsBlank f.location.file = false) (hline : f.location.line = some n)
    (hhandler : ¬ NamesHandler f.location.position) :
    (wildcard f.location.position reason).Pins f fun g => g.location.line = some n := by
  have hposition : f.location.position = f.location.file ++ ":" ++ toString n.toNat := by
    unfold Location.position
    rw [hline]
    rfl
  have htrim : Text.trim f.location.position = f.location.position := by
    rw [hposition]
    exact trim_divided (by decide) rfl rfl hstart (endsBlank_toString n.toNat)
  refine pins_wildcard hviolation hline fun g => ?_
  rw [SuppressionTarget.ofText_eq_fileLine (htrim.trans hposition) (htrim.symm ▸ hhandler)]
  exact SuppressionTarget.covers_fileLine_iff

/-- The file and the handler pin a finding down. -/
theorem pins_fileHandler (hviolation : f.isViolation = true)
    (hstart : startsBlank f.location.file = false) (hfile : ¬ NamesHandler f.location.file)
    (hcolon : f.location.file.toList.getLast? ≠ some ':')
    (hend : endsBlank f.location.handler = false) :
    (wildcard (f.location.file ++ "::" ++ f.location.handler) reason).Pins f
      fun g => g.location.handler = f.location.handler := by
  have htrim : Text.trim (f.location.file ++ "::" ++ f.location.handler) =
      f.location.file ++ "::" ++ f.location.handler :=
    trim_divided (by decide) rfl rfl hstart hend
  refine pins_wildcard hviolation rfl fun g => ?_
  rw [SuppressionTarget.ofText_eq_fileHandler htrim hfile hcolon]
  exact SuppressionTarget.covers_fileHandler_iff

/-- The file suppresses a finding if it is read as a pattern. The pattern need not match the file,
since a file is also named by its path. -/
theorem appliesTo_file {pattern : Glob} (hviolation : f.isViolation = true)
    (htrim : Text.trim f.location.file = f.location.file) (hcolon : ':' ∉ f.location.file.toList)
    (hpath : SuppressionTarget.looksLikePath f.location.file)
    (hpattern : Glob.compile f.location.file = .ok pattern) :
    (wildcard f.location.file reason).appliesTo f = true := by
  rw [appliesTo_wildcard_iff,
    SuppressionTarget.ofText_eq_files_of_not_mem htrim hcolon hpath hpattern,
    SuppressionTarget.covers_files_iff]
  exact ⟨hviolation, .inr List.suffix_rfl⟩

/-- **A place that is copied from a report suppresses the finding.** The file and the line do so, if
there is no `::` in the text, and so do the file and the handler, if the first `::` is the one
between them; both suppress nothing else than violations on that line, or of that handler, in files
whose paths end in the parts of this file. The file alone suppresses the finding as well, if it is
read as a pattern. -/
theorem copied_location_applies {f : Finding} (hviolation : f.isViolation = true)
    (hstart : startsBlank f.location.file = false) (reason : Option String) :
    (∀ n, f.location.line = some n → ¬ NamesHandler f.location.position →
      (wildcard f.location.position reason).Pins f fun g => g.location.line = some n) ∧
    (¬ NamesHandler f.location.file → f.location.file.toList.getLast? ≠ some ':' →
      endsBlank f.location.handler = false →
      (wildcard (f.location.file ++ "::" ++ f.location.handler) reason).Pins f
        fun g => g.location.handler = f.location.handler) ∧
    (endsBlank f.location.file = false →
      '/' ∈ f.location.file.toList ∨ '.' ∈ f.location.file.toList →
      ':' ∉ f.location.file.toList → (∃ pattern, Glob.compile f.location.file = .ok pattern) →
      (wildcard f.location.file reason).appliesTo f = true) := by
  refine ⟨fun n => pins_position hviolation hstart, pins_fileHandler hviolation hstart, ?_⟩
  rintro hend hpath hcolon ⟨pattern, hpattern⟩
  refine appliesTo_file hviolation (trim_eq_self hstart hend) hcolon ?_ hpattern
  rw [SuppressionTarget.looksLikePath_iff]
  rcases hpath with hslash | hdot
  · exact ⟨'/', by simp, hslash⟩
  · exact ⟨'.', by simp, hdot⟩

/-- A finding in `routes.py`, suppressed by its line, by its handler and by its file. -/
theorem copied_location_applies_sample :
    let f := Report.unscopedRead "User"
    (wildcard "routes.py:28" none).Pins f (fun g => g.location.line = some 28) ∧
      (wildcard "routes.py::list_all" none).Pins f (fun g => g.location.handler = "list_all") ∧
      (wildcard "routes.py" none).appliesTo f = true := by
  intro f
  obtain ⟨hline, hhandler, hfile⟩ := copied_location_applies (f := f) rfl (by decide) none
  obtain ⟨pattern, hpattern, -⟩ : ∃ pattern, Glob.compile "routes.py" = .ok pattern ∧ _ :=
    Glob.exists_compile_literal fun c hc =>
      Bool.eq_false_iff.mpr (List.any_eq_false.mp (by decide) c hc)
  exact ⟨hline 28 rfl (by decide), hhandler (by decide) (by decide) (by decide),
    hfile (by decide) (by decide) (by decide) ⟨pattern, hpattern⟩⟩

/-- **The name of a handler as a place.** Without a dot in it the name suppresses the findings of
the handler. With a dot the name is read as a file, and suppresses a finding exactly if the path of
its file ends in the parts of the name. -/
theorem bareHandler_applies_iff {f : Finding} (hviolation : f.isViolation = true)
    (hstart : startsBlank f.location.handler = false)
    (hend : endsBlank f.location.handler = false)
    (hplain : ∀ c ∈ [':', '/', '*', '?', '['], c ∉ f.location.handler.toList)
    (reason : Option String) :
    (wildcard f.location.handler reason).appliesTo f = true ↔
      ('.' ∈ f.location.handler.toList →
        Path.parts f.location.handler <:+ Path.parts f.location.file) := by
  obtain ⟨hcolon, hslash, hstar, hquestion, hbracket⟩ :
      ':' ∉ f.location.handler.toList ∧ '/' ∉ f.location.handler.toList ∧
        '*' ∉ f.location.handler.toList ∧ '?' ∉ f.location.handler.toList ∧
        '[' ∉ f.location.handler.toList := by
    simpa using hplain
  have htrim := trim_eq_self hstart hend
  -- Of the characters that make a path only the dot is left.
  have hpath : SuppressionTarget.looksLikePath f.location.handler = true ↔
      '.' ∈ f.location.handler.toList := by
    rw [SuppressionTarget.looksLikePath_iff]
    simp [hslash, hstar, hquestion, hbracket]
  rw [appliesTo_wildcard_iff, and_iff_right hviolation]
  by_cases hdot : '.' ∈ f.location.handler.toList
  · have hliteral : ∀ c ∈ f.location.handler.toList, Glob.isPatternChar c = false := by
      intro c hc
      rw [Bool.eq_false_iff]
      intro hpattern
      simp only [Glob.isPatternChar, Bool.or_eq_true, beq_iff_eq] at hpattern
      rcases hpattern with (rfl | rfl) | rfl
      · exact hstar hc
      · exact hquestion hc
      · exact hbracket hc
    obtain ⟨pattern, hpattern, haccepts⟩ := Glob.exists_compile_literal hliteral
    rw [SuppressionTarget.ofText_eq_files_of_not_mem htrim hcolon (hpath.mpr hdot) hpattern,
      SuppressionTarget.covers_files_iff, haccepts, imp_iff_right hdot]
    refine ⟨?_, .inr⟩
    rintro (hsame | hends)
    · exact hsame ▸ List.suffix_rfl
    · exact hends
  · rw [SuppressionTarget.ofText_eq_anyFile htrim hcolon (by simpa [hdot] using hpath),
      SuppressionTarget.covers_anyFile_iff]
    exact iff_of_true rfl fun h => absurd h hdot

/-- The name `list_all` suppresses the finding in that handler. -/
theorem bareHandler_applies_sample :
    (wildcard "list_all" none).appliesTo (Report.unscopedRead "User") = true :=
  (bareHandler_applies_iff rfl (by decide) (by decide) (by simp [Report.unscopedRead]) none).mpr
    fun hdot => absurd hdot (by decide)

/-- A finding in the method `UserViews.list`: the name is read as a file, and the finding stands. -/
theorem dotted_handler_stands :
    let f : Finding := { Report.unscopedRead "User" with
      location := ⟨"routes.py", some 28, "UserViews.list", none⟩ }
    f.isViolation = true ∧ f.location.handler ≠ "" ∧
      startsBlank f.location.handler = false ∧ endsBlank f.location.handler = false ∧
      (∀ c ∈ [':', '/', '*', '?', '['], c ∉ f.location.handler.toList) ∧
      (wildcard f.location.handler none).appliesTo f = false := by
  intro f
  exact ⟨rfl, by decide, by decide, by decide, by simp [f], by decide +kernel⟩

end SuppressionEntry

end Tenancy

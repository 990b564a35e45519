import Tenancy.Proofs.Report.Assemble
import Tenancy.Proofs.Support.Texts

/-!
# The order in which findings arrive

Findings arrive in the order in which documents are read and handlers are judged. A report forgets
this order, except that of equally severe findings of one access point the first is kept:
`assemble_eq_of_perm`.

Findings with an access point are told apart by its name. Those without one (`Finding.IsUnread`) are
sorted by location and text alone, and an error code is the one other thing in which two of them
could differ. No text says the code, but every text shows it: `ExtractionError.code_of_message` for
handlers, and `IsUnread.errorCode_of_rationale` for all. So two of these findings that tie are the
same (`IsUnread.eq_of_order`), and sorting findings that do not tie (`Finding.HasNoTies`) leaves no
trace of the order before it.
-/

set_option autoImplicit false

namespace Tenancy

open Tenancy.Support

/-! ### What a text shows -/

namespace ExtractionError

/-- The code of an error in an operation, by the letter that starts the word after the operation:
`targets`, `filters` or `has`. -/
def codeOfInitial (initial : Char) : String :=
  if initial = 't' then "E020" else if initial = 'f' then "E021" else "E022"

/-- A message is about a limit, or it names an operation and goes on with a word that belongs to the
code. -/
theorem message_cases (e : ExtractionError) :
    (e.code = "E023" ∧ ['s'] <+: e.message.toList) ∨
      ∃ (operation : Nat) (initial : Char), e.code = codeOfInitial initial ∧
        "operation #".toList ++ ((toString operation).toList ++ [' ', initial]) <+:
          e.message.toList := by
  have hnames : ∀ (operation : Nat) (initial : Char) (words : List Char),
      [' ', initial] <+: words →
        "operation #".toList ++ ((toString operation).toList ++ [' ', initial]) <+:
          "operation #".toList ++ ((toString operation).toList ++ words) := by
    intro operation initial words hwords
    rw [List.prefix_append_right_inj, List.prefix_append_right_inj]
    exact hwords
  cases e <;> unfold message <;> simp only [String.toList_append, List.append_assoc]
  case unknownEntity entity operation =>
    exact .inr ⟨operation, 't', rfl, hnames _ _ _ (List.prefix_append_of_prefix (by decide))⟩
  case noTargets operation =>
    exact .inr ⟨operation, 'h', rfl, hnames _ _ _ (by decide)⟩
  case unknownColumn entity column operation =>
    exact .inr ⟨operation, 'f', rfl, hnames _ _ _ (List.prefix_append_of_prefix (by decide))⟩
  case ambiguousColumn column candidates operation =>
    exact .inr ⟨operation, 'f', rfl, hnames _ _ _ (List.prefix_append_of_prefix (by decide))⟩
  case foreignQualifier qualifier column operation =>
    exact .inr ⟨operation, 'f', rfl, hnames _ _ _ (List.prefix_append_of_prefix (by decide))⟩
  case emptyColumn operation =>
    exact .inr ⟨operation, 'h', rfl, hnames _ _ _ (by decide)⟩
  case scanCapExceeded limit value most =>
    exact .inl ⟨rfl, List.prefix_append_of_prefix (by decide)⟩

/-- The message of an error shows its code. -/
theorem code_of_message {e e' : ExtractionError} (h : e.message = e'.message) :
    e.code = e'.code := by
  have hcases := message_cases e
  rw [h] at hcases
  rcases hcases with ⟨hc, rest, hm⟩ | ⟨operation, initial, hc, rest, hm⟩
  · rcases message_cases e' with ⟨hc', -⟩ | ⟨operation', initial', -, rest', hm'⟩
    · rw [hc, hc']
    · exact absurd (List.cons.inj (hm.trans hm'.symm)).1 (by decide)
  · rcases message_cases e' with ⟨-, rest', hm'⟩ | ⟨operation', initial', hc', rest', hm'⟩
    · exact absurd (List.cons.inj (hm.trans hm'.symm)).1 (by decide)
    · have htext := hm.trans hm'.symm
      simp only [List.append_assoc, List.cons_append] at htext
      -- A number has no blank in it, so both texts go on with the same word behind it.
      obtain ⟨-, hwords⟩ := eq_of_append_divider (not_mem_toString (by decide) operation)
        (not_mem_toString (by decide) operation') (List.append_cancel_left htext)
      rw [hc, hc', (List.cons.inj hwords).1]

end ExtractionError

namespace LoadStep

/-- The sixth letter of the words for a step: the first in which they all differ. -/
def sixth : LoadStep → Char
  | fileRead => 'r'
  | fileParse => 'p'
  | directoryAccess => 't'

theorem label_sixth (step : LoadStep) : step.label.toList[5]? = some step.sixth := by
  cases step <;> decide

theorem sixth_ne_blank (step : LoadStep) : step.sixth ≠ ' ' := by
  cases step <;> decide

theorem sixth_injective : Function.Injective sixth := by
  intro step step' h
  cases step <;> cases step' <;> first | rfl | exact absurd h (by decide)

end LoadStep

namespace Finding

/-- A finding of a handler or a document that could not be analyzed. -/
inductive IsUnread : Finding → Prop
  | handler (e : HandlerError) : IsUnread (ofHandlerError e)
  | document (failure : LoadFailure) : IsUnread (ofLoadFailure failure)

/-- The text for a handler starts with the same words for each. -/
theorem toList_rationale_ofHandlerError (e : HandlerError) :
    (ofHandlerError e).rationale.toList =
      "could not analyze handler: ".toList ++ e.error.message.toList := by
  show ("could not analyze handler: " ++ e.error.message).toList = _
  exact String.toList_append

/-- The text for a document starts with the step that failed. -/
theorem toList_rationale_ofLoadFailure (failure : LoadFailure) :
    (ofLoadFailure failure).rationale.toList =
      failure.step.label.toList ++ (" failed: ".toList ++ failure.error.toList) := by
  show (failure.step.label ++ " failed: " ++ failure.error).toList = _
  rw [String.toList_append, String.toList_append, List.append_assoc]

theorem sixth_rationale_ofLoadFailure (failure : LoadFailure) :
    (ofLoadFailure failure).rationale.toList[5]? = some failure.step.sixth := by
  obtain ⟨hlt, -⟩ := List.getElem?_eq_some_iff.mp failure.step.label_sixth
  rw [toList_rationale_ofLoadFailure, List.getElem?_append_left hlt, LoadStep.label_sixth]

/-- The text for a document shows which step failed. -/
theorem step_of_rationale {failure failure' : LoadFailure}
    (h : (ofLoadFailure failure).rationale = (ofLoadFailure failure').rationale) :
    failure.step = failure'.step := by
  have hsixth := sixth_rationale_ofLoadFailure failure
  rw [h, sixth_rationale_ofLoadFailure, Option.some_inj] at hsixth
  exact LoadStep.sixth_injective hsixth.symm

/-- The texts for documents and for handlers differ. -/
theorem rationale_ofLoadFailure_ne (failure : LoadFailure) (e : HandlerError) :
    (ofLoadFailure failure).rationale ≠ (ofHandlerError e).rationale := by
  intro h
  have hsixth : (ofHandlerError e).rationale.toList[5]? = some ' ' := by
    rw [toList_rationale_ofHandlerError, List.getElem?_append_left (by decide)]
    decide
  rw [← h, sixth_rationale_ofLoadFailure, Option.some_inj] at hsixth
  exact failure.step.sixth_ne_blank hsixth

/-- Findings that tie agree in what a report is sorted by. -/
theorem eq_of_order {f g : Finding} (h : f.order g = .eq) :
    f.location = g.location ∧ f.accessPoint = g.accessPoint ∧ f.rationale = g.rationale := by
  obtain ⟨hlocation, hrest⟩ := compareLex_eq_eq.mp h
  obtain ⟨-, hrest⟩ := compareLex_eq_eq.mp hrest
  obtain ⟨hid, hrationale⟩ := compareLex_eq_eq.mp hrest
  exact ⟨Std.LawfulEqOrd.eq_of_compare hlocation, Std.LawfulEqOrd.eq_of_compare hid,
    Std.LawfulEqOrd.eq_of_compare hrationale⟩

namespace IsUnread

variable {f g : Finding}

/-- The text of a finding shows its error code. -/
theorem errorCode_of_rationale (hf : f.IsUnread) (hg : g.IsUnread)
    (h : f.rationale = g.rationale) : f.errorCode = g.errorCode := by
  cases hf with
  | handler e =>
    cases hg with
    | handler e' =>
      have htext := congrArg String.toList h
      rw [toList_rationale_ofHandlerError, toList_rationale_ofHandlerError] at htext
      have hmessage := String.toList_injective (List.append_cancel_left htext)
      exact congrArg some (ExtractionError.code_of_message hmessage)
    | document failure => exact absurd h.symm (rationale_ofLoadFailure_ne failure e)
  | document failure =>
    cases hg with
    | handler e => exact absurd h (rationale_ofLoadFailure_ne failure e)
    | document failure' =>
      exact congrArg (fun step : LoadStep => some step.code) (step_of_rationale h)

/-- A finding consists of its location, its text and its error code. -/
theorem exists_eq_unknown (hf : f.IsUnread) :
    ∃ code, f.errorCode = some code ∧ f = unknown f.location f.rationale code := by
  cases hf <;> exact ⟨_, rfl, rfl⟩

/-- Findings that tie are the same. -/
theorem eq_of_order (hf : f.IsUnread) (hg : g.IsUnread) (h : f.order g = .eq) : f = g := by
  obtain ⟨hlocation, -, hrationale⟩ := Finding.eq_of_order h
  have hcode := hf.errorCode_of_rationale hg hrationale
  obtain ⟨code, hsome, heq⟩ := hf.exists_eq_unknown
  obtain ⟨code', hsome', heq'⟩ := hg.exists_eq_unknown
  rw [hsome, hsome', Option.some_inj] at hcode
  rw [heq, heq', hlocation, hrationale, hcode]

end IsUnread

/-! ### One finding per access point -/

variable {fs fs' : List Finding}

/-- Which finding is kept for an access point does not depend on the order, if each has one. -/
theorem mostSevere?_eq_of_perm (hperm : fs.Perm fs') (hids : (fs.filterMap accessPoint).Nodup)
    (id : String) : mostSevere? fs id = mostSevere? fs' id := by
  have hone := nodup_accessPoints_iff.mp hids id
  unfold mostSevere?
  rw [eq_of_perm_of_length_le_one (hperm.filter _) hone]

/-- Findings without an access point are nothing to an access point. -/
theorem mostSevere?_append {others : List Finding} (h : ∀ f ∈ others, f.accessPoint = none)
    (fs : List Finding) (id : String) : mostSevere? (others ++ fs) id = mostSevere? fs id := by
  have hothers : others.filter (fun f => f.accessPoint = some id) = [] := by
    refine List.filter_eq_nil_iff.mpr fun f hf => ?_
    simp [h f hf]
  unfold mostSevere?
  rw [List.filter_append, hothers, List.nil_append]

/-- Findings in another order leave the same findings, if the same are kept for access points. -/
theorem dedup_perm (hperm : fs.Perm fs')
    (hkept : ∀ id, mostSevere? fs id = mostSevere? fs' id) : (dedup fs).Perm (dedup fs') := by
  unfold dedup
  rw [Ordered.ofList_perm (hperm.filterMap accessPoint), funext hkept]
  exact (eraseDups_perm (hperm.filter _)).append_left _

/-- Findings without an access point are told apart by the order of the report. -/
def HasNoTies (fs : List Finding) : Prop :=
  ∀ f ∈ fs, ∀ g ∈ fs, f.accessPoint = none → g.accessPoint = none → f.order g = .eq → f = g

/-- Of the findings that are left, no two tie. -/
theorem eq_of_mem_dedup (hties : HasNoTies fs) {f g : Finding} (hf : f ∈ dedup fs)
    (hg : g ∈ dedup fs) (h : f.order g = .eq) : f = g := by
  obtain ⟨-, hsame, -⟩ := eq_of_order h
  cases hid : f.accessPoint with
  | none => exact hties f (mem_of_mem_dedup hf) g (mem_of_mem_dedup hg) hid (hsame ▸ hid) h
  | some id =>
    obtain ⟨kept, hkept⟩ := exists_mostSevere? (mem_of_mem_dedup hf) hid
    have honly : ∀ x ∈ dedup fs, x.accessPoint = some id → x = kept := by
      intro x hx hxid
      have hmem : x ∈ (dedup fs).filter fun x => x.accessPoint = some id :=
        List.mem_filter.mpr ⟨hx, decide_eq_true hxid⟩
      rw [filter_dedup hkept] at hmem
      exact List.mem_singleton.mp hmem
    rw [honly f hf hid, honly g hg (hsame ▸ hid)]

/-- Marks have nothing to do with the order. -/
theorem order_suppressBy (entries : List SuppressionEntry) (f g : Finding) :
    (suppressBy entries f).order (suppressBy entries g) = f.order g := by
  unfold suppressBy
  split <;> split <;> rfl

end Finding

/-! ### The report -/

/-- Counting forgets the order. -/
theorem Summary.ofFindings_perm {fs fs' : List Finding} (h : fs.Perm fs') :
    Summary.ofFindings fs = Summary.ofFindings fs' := by
  simp only [Summary.ofFindings, Summary.tally, h.countP_eq]

namespace Report

variable {fs fs' : List Finding}

/-- Which entries were of use does not depend on the order of the findings. -/
theorem unusedWarnings_perm (entries : List SuppressionEntry) (h : fs.Perm fs') :
    unusedWarnings entries fs = unusedWarnings entries fs' := by
  have hused : ∀ index, (usedEntries entries fs).contains index =
      (usedEntries entries fs').contains index := by
    intro index
    exact (h.filterMap _).contains_eq
  simp only [unusedWarnings, hused]

/-- A report does not depend on the order in which findings arrive, if the same finding is kept for
each access point. -/
theorem assemble_eq_of_perm (includeSafe : Bool) (entries : List SuppressionEntry)
    (hperm : fs.Perm fs') (hkept : ∀ id, Finding.mostSevere? fs id = Finding.mostSevere? fs' id)
    (hnoTies : Finding.HasNoTies fs) :
    assemble includeSafe entries fs = assemble includeSafe entries fs' := by
  have hdedup := Finding.dedup_perm hperm hkept
  have hmarked := hdedup.map (Finding.suppressBy entries)
  have hties : ∀ f ∈ (Finding.dedup fs).map (Finding.suppressBy entries),
      ∀ g ∈ (Finding.dedup fs).map (Finding.suppressBy entries), f.order g = .eq → f = g := by
    intro f hf g hg h
    obtain ⟨a, ha, rfl⟩ := List.mem_map.mp hf
    obtain ⟨b, hb, rfl⟩ := List.mem_map.mp hg
    rw [Finding.order_suppressBy] at h
    rw [Finding.eq_of_mem_dedup hnoTies ha hb h]
  have hall : (assemble true entries fs).findings = (assemble true entries fs').findings :=
    mergeSort_eq_of_perm Finding.order hmarked hties
  have hfindings : (assemble includeSafe entries fs).findings =
      (assemble includeSafe entries fs').findings := by
    cases includeSafe with
    | true => exact hall
    | false => rw [findings_assemble_false, findings_assemble_false, hall]
  have hsummary : (assemble includeSafe entries fs).summary =
      (assemble includeSafe entries fs').summary := Summary.ofFindings_perm hmarked
  have hwarnings : (assemble includeSafe entries fs).warnings =
      (assemble includeSafe entries fs').warnings := unusedWarnings_perm entries hdedup
  exact assemble_eq_of_parts hfindings hsummary hwarnings

end Report

end Tenancy

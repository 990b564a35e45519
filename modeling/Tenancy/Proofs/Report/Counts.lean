import Mathlib.Algebra.BigOperators.Group.List.Basic
import Mathlib.Algebra.GroupWithZero.Nat
import Tenancy.Proofs.Report.Assemble

/-!
# The numbers of a report

The summary of a report counts the findings that were kept, also safe ones that are not listed, and
the exit status is read off the list. `balanced_assemble` says how the two fit together
(`Report.Balanced`), if what came in is consistent: a rule and a severity stand with violations and
with nothing else (`Finding.IsConsistent`).

* `Summary.sumOf_tally`: the numbers of a table add up to the number of findings that have a place
  in it.
* `IsConsistent.suppressBy`: marking keeps findings consistent, because only violations are marked.
* `countP_isBlocking_add`: a violation is either blocking or suppressed, and nothing else is.
* `analyzerErrors_assemble_eq_zero_iff`: no error is counted exactly when none came in.
-/

set_option autoImplicit false

namespace Tenancy

namespace Finding

/-! ### Consistent findings -/

/-- A finding is consistent: it names a rule and a severity exactly if it is a violation, and only
then it may be suppressed. -/
structure IsConsistent (f : Finding) : Prop where
  kind : f.kind.isSome = f.isViolation
  severity : f.severity.isSome = f.isViolation
  suppressed : f.suppressed = true → f.isViolation = true

/-- Marks have nothing to do with the outcome. -/
@[simp] theorem classification_suppressBy (entries : List SuppressionEntry) (f : Finding) :
    (f.suppressBy entries).classification = f.classification := by
  unfold suppressBy
  split <;> rfl

/-- Only violations are marked. -/
theorem IsConsistent.suppressBy {f : Finding} (h : f.IsConsistent)
    (entries : List SuppressionEntry) : (f.suppressBy entries).IsConsistent := by
  unfold Finding.suppressBy
  split
  · rename_i e hfind
    have happlies := List.find?_some hfind
    have hviolation : f.isViolation = true := isViolation_of_appliesTo happlies
    exact ⟨h.kind, h.severity, fun _ => hviolation⟩
  · exact h

/-- A violation is either blocking or suppressed, and nothing else is. -/
theorem countP_isBlocking_add {fs : List Finding} (h : ∀ f ∈ fs, f.IsConsistent) :
    fs.countP isBlocking + fs.countP Finding.suppressed = fs.countP isViolation := by
  rw [List.countP_eq_countP_filter_add fs isViolation Finding.suppressed, Nat.add_comm]
  congr 1
  · rw [List.countP_filter]
    refine List.countP_congr fun f hf => ?_
    rw [Bool.and_eq_true]
    exact ⟨fun hs => ⟨(h f hf).suppressed hs, hs⟩, fun hboth => hboth.2⟩
  · rw [List.countP_filter]
    refine List.countP_congr fun f _ => ?_
    simp [isBlocking]

end Finding

namespace Summary

/-! ### Tables -/

@[simp] theorem getD_tally {α : Type} (l : List α) (test : α → Bool) :
    (tally l test).getD 0 = l.countP test := by
  unfold tally
  split
  · rename_i hnone
    simp [hnone]
  · rfl

/-- The sum of the numbers of a table; what does not occur counts 0. -/
def sumOf {α : Type} (keys : List α) (table : α → Option Nat) : Nat :=
  (keys.map fun key => (table key).getD 0).sum

/-- Numbers that are counted by a key add up to the number of elements that have one, if every key
is listed once. -/
theorem sumOf_tally {α β : Type} [DecidableEq β] {keys : List β} (honce : ∀ b, keys.count b = 1)
    (key : α → Option β) (l : List α) :
    sumOf keys (fun b => tally l fun a => key a = some b) = l.countP fun a => (key a).isSome := by
  unfold sumOf
  simp only [getD_tally]
  induction l with
  | nil => simp
  | cons a l ih =>
    -- One more element adds 1 to the number of its own key.
    have hown : (keys.map fun b => if decide (key a = some b) = true then 1 else 0).sum =
        if (key a).isSome = true then 1 else 0 := by
      cases key a with
      | none => simp
      | some b => simp [List.sum_map_ite, eq_comm (a := b), List.filter_eq, honce b]
    simp only [List.countP_cons, List.sum_map_add, ih, hown]

section

variable {fs : List Finding}

@[simp] theorem count_ofFindings (c : Classification) :
    (ofFindings fs).count c = fs.countP fun f => f.classification = c := getD_tally _ _

/-- Every finding is counted under its outcome. -/
theorem sumOf_byClassification :
    sumOf Classification.all (ofFindings fs).byClassification = fs.length := by
  have honce : ∀ c, Classification.all.count c = 1 := by
    intro c
    cases c <;> rfl
  have htally := sumOf_tally honce (fun f : Finding => some f.classification) fs
  simp only [Option.some.injEq, Option.isSome_some, List.countP_true] at htally
  exact htally

/-- Every finding is counted as a verdict or as an error. -/
theorem total_add_analyzerErrors :
    (ofFindings fs).total + (ofFindings fs).analyzerErrors = fs.length := by
  rw [List.length_eq_countP_add_countP fun f : Finding => f.classification = .unknown, Nat.add_comm]
  simp [ofFindings]

/-- Every violation is counted under its rule. -/
theorem sumOf_byViolationKind (h : ∀ f ∈ fs, f.IsConsistent) :
    sumOf ViolationKind.all (ofFindings fs).byViolationKind = fs.countP Finding.isViolation := by
  refine (sumOf_tally (fun k => by cases k <;> rfl) Finding.kind fs).trans ?_
  exact List.countP_congr fun f hf => by rw [(h f hf).kind]

/-- Every violation is counted under its severity. -/
theorem sumOf_bySeverity (h : ∀ f ∈ fs, f.IsConsistent) :
    sumOf Severity.all (ofFindings fs).bySeverity = fs.countP Finding.isViolation := by
  refine (sumOf_tally (fun s => by cases s <;> rfl) Finding.severity fs).trans ?_
  exact List.countP_congr fun f hf => by rw [(h f hf).severity]

end

end Summary

namespace Report

variable {fs : List Finding}

/-! ### Listed and counted -/

/-- The findings that were kept, marked. These are counted. -/
def counted (entries : List SuppressionEntry) (fs : List Finding) : List Finding :=
  (Finding.dedup fs).map (Finding.suppressBy entries)

theorem summary_assemble (includeSafe : Bool) (entries : List SuppressionEntry)
    (fs : List Finding) :
    (assemble includeSafe entries fs).summary = .ofFindings (counted entries fs) := rfl

/-- What is counted and not listed is safe. -/
theorem findings_perm_counted (includeSafe : Bool) (entries : List SuppressionEntry)
    (fs : List Finding) :
    (assemble includeSafe entries fs).findings.Perm
      ((counted entries fs).filter fun f => includeSafe || f.classification ≠ .safe) := by
  cases includeSafe with
  | true => simpa [counted] using findings_assemble_perm entries fs
  | false =>
    rw [findings_assemble_false]
    exact (findings_assemble_perm entries fs).filter _

/-- Safe findings make up the difference between what is counted and what is listed. -/
theorem length_findings_assemble (includeSafe : Bool) (entries : List SuppressionEntry)
    (fs : List Finding) :
    (assemble includeSafe entries fs).findings.length +
        (if includeSafe then 0 else (assemble includeSafe entries fs).summary.count .safe) =
      (counted entries fs).length := by
  rw [(findings_perm_counted includeSafe entries fs).length_eq, summary_assemble,
    Summary.count_ofFindings]
  cases includeSafe with
  | true => simp
  | false =>
    rw [List.length_eq_countP_add_countP (l := counted entries fs)
      fun f : Finding => f.classification = .safe, Nat.add_comm, ← List.countP_eq_length_filter]
    simp

/-- Blocking findings are all listed. -/
theorem length_blocking_assemble (includeSafe : Bool) (entries : List SuppressionEntry)
    (fs : List Finding) :
    (assemble includeSafe entries fs).blocking.length =
      (counted entries fs).countP Finding.isBlocking := by
  unfold blocking
  rw [← List.countP_eq_length_filter, (findings_perm_counted includeSafe entries fs).countP_eq,
    List.countP_filter]
  refine List.countP_congr fun f _ => ?_
  -- A safe finding is no violation, so leaving it out makes no difference.
  cases hc : f.classification <;> simp [Finding.isBlocking, Finding.isViolation, hc]

/-- The exit status by the number of blocking findings. -/
theorem exitStatus_eq (r : Report) :
    r.exitStatus = if 0 < r.blocking.length then .violations
      else if 0 < r.summary.analyzerErrors then .incomplete else .clean := by
  unfold exitStatus blocking
  rw [← List.countP_eq_length_filter]
  simp only [List.countP_pos_iff, List.any_eq_true]

/-- Errors are counted exactly if some came in, as long as an error is on no access point. -/
theorem analyzerErrors_assemble_eq_zero_iff (includeSafe : Bool) (entries : List SuppressionEntry)
    (h : ∀ f ∈ fs, f.classification = .unknown → f.accessPoint = none) :
    (assemble includeSafe entries fs).summary.analyzerErrors = 0 ↔
      ∀ f ∈ fs, f.classification ≠ .unknown := by
  show (counted entries fs).countP _ = 0 ↔ _
  simp only [List.countP_eq_zero, counted, List.forall_mem_map, decide_eq_true_eq,
    Finding.classification_suppressBy]
  constructor
  · intro hnone f hf hunknown
    exact hnone f (Finding.mem_dedup_of_isNone hf (h f hf hunknown)) hunknown
  · intro hnone f hf
    exact hnone f (Finding.mem_of_mem_dedup hf)

/-! ### Balance -/

/-- The numbers of a report fit together, and they fit the list of findings and the exit status.
Safe findings that are not listed are counted. -/
structure Balanced (includeSafe : Bool) (r : Report) : Prop where
  total : r.summary.total + r.summary.analyzerErrors =
    Summary.sumOf Classification.all r.summary.byClassification
  listed : Summary.sumOf Classification.all r.summary.byClassification =
    r.findings.length + if includeSafe then 0 else r.summary.count .safe
  errors : r.summary.analyzerErrors = r.summary.count .unknown
  kinds : Summary.sumOf ViolationKind.all r.summary.byViolationKind = r.summary.violations
  severities : Summary.sumOf Severity.all r.summary.bySeverity = r.summary.violations
  suppressed : r.summary.suppressed ≤ r.summary.violations
  blocking : r.blocking.length = r.summary.violations - r.summary.suppressed
  exit : r.exitStatus =
    if r.summary.suppressed < r.summary.violations then .violations
    else if 0 < r.summary.analyzerErrors then .incomplete
    else .clean

/-- A report of consistent findings is balanced. -/
theorem balanced_assemble (includeSafe : Bool) (entries : List SuppressionEntry)
    (h : ∀ f ∈ fs, f.IsConsistent) : (assemble includeSafe entries fs).Balanced includeSafe := by
  have hcounted : ∀ f ∈ counted entries fs, f.IsConsistent := by
    intro f hf
    obtain ⟨g, hg, rfl⟩ := List.mem_map.mp hf
    exact (h g (Finding.mem_of_mem_dedup hg)).suppressBy entries
  have hviolations : (assemble includeSafe entries fs).summary.violations =
      (counted entries fs).countP Finding.isViolation := Summary.count_ofFindings .violation
  have hadd : (assemble includeSafe entries fs).blocking.length +
      (assemble includeSafe entries fs).summary.suppressed =
        (assemble includeSafe entries fs).summary.violations := by
    rw [hviolations, length_blocking_assemble]
    exact Finding.countP_isBlocking_add hcounted
  exact {
    total := Summary.total_add_analyzerErrors.trans Summary.sumOf_byClassification.symm
    listed := Summary.sumOf_byClassification.trans
      (length_findings_assemble includeSafe entries fs).symm
    errors := (Summary.count_ofFindings .unknown).symm
    kinds := (Summary.sumOf_byViolationKind hcounted).trans hviolations.symm
    severities := (Summary.sumOf_bySeverity hcounted).trans hviolations.symm
    suppressed := by omega
    blocking := by omega
    exit := by
      rw [exitStatus_eq]
      congr 1
      simp only [eq_iff_iff]
      omega }

end Report

end Tenancy

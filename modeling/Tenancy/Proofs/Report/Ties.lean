import Tenancy.Proofs.Report.Arrival

/-!
# Where the order of arrival shows

Two places of a report remember which finding came first. Of the most severe findings of one access
point the first is kept, and findings without an access point that tie in the order of the report
stay in the order in which they came. `assemble_perm_iff` says that these are the only ones: a
report is independent of the order of arrival exactly if the findings are unambiguous
(`Finding.IsUnambiguous`).

* `assemble_ne_of_isWorst`: of the most severe findings of an access point the first is kept.
* `assemble_ne_of_tie`: of two findings that tie the first comes first in the report.
* `arrival_order_shows`: findings of both sorts.
-/

set_option autoImplicit false

namespace Tenancy

open Tenancy.Support

namespace Finding

variable {fs fs' : List Finding} {id : String} {f g : Finding}

/-- A finding is one of the most severe of an access point. -/
structure IsWorst (fs : List Finding) (id : String) (f : Finding) : Prop where
  mem : f ∈ fs
  accessPoint : f.accessPoint = some id
  asSevere : ∀ g ∈ fs, g.accessPoint = some id → f.IsAsSevereAs g

/-- Findings are unambiguous: each access point has one most severe finding, and findings without an
access point do not tie. The same finding may come in several times. -/
structure IsUnambiguous (fs : List Finding) : Prop where
  worst : ∀ id f g, IsWorst fs id f → IsWorst fs id g → f = g
  others : HasNoTies fs

/-! ### Findings of one access point -/

theorem isWorst_of_mostSevere? (h : mostSevere? fs id = some f) : IsWorst fs id f := by
  obtain ⟨hmem, hid, hsevere⟩ := mostSevere?_eq_some h
  exact ⟨hmem, hid, hsevere⟩

/-- Which findings are the most severe does not depend on the order. -/
theorem IsWorst.perm (h : IsWorst fs id f) (hperm : fs.Perm fs') : IsWorst fs' id f where
  mem := hperm.mem_iff.mp h.mem
  accessPoint := h.accessPoint
  asSevere g hg := h.asSevere g (hperm.mem_iff.mpr hg)

/-- A finding is kept if nothing that comes later is more severe. -/
theorem foldl_keep_of_isAsSevereAs {rest : List Finding} (h : ∀ g ∈ rest, f.IsAsSevereAs g) :
    rest.foldl keep f = f := by
  induction rest with
  | nil => rfl
  | cons g rest ih =>
    have hkeep : keep f g = f := by
      unfold keep
      rw [isMoreSevere_eq_false_iff.mpr (h g List.mem_cons_self)]
      rfl
    rw [List.foldl_cons, hkeep]
    exact ih fun g' hg' => h g' (List.mem_cons_of_mem g hg')

/-- A most severe finding that comes first is kept. -/
theorem mostSevere?_of_isWorst {rest : List Finding} (h : IsWorst (f :: rest) id f) :
    mostSevere? (f :: rest) id = some f := by
  unfold mostSevere?
  simp only [List.filter_cons, h.accessPoint, decide_true, if_true, Option.some.injEq]
  refine foldl_keep_of_isAsSevereAs fun g hg => ?_
  obtain ⟨hmem, hid⟩ := List.mem_filter.mp hg
  exact h.asSevere g (List.mem_cons_of_mem f hmem) (of_decide_eq_true hid)

/-- If each access point has one most severe finding, that one is kept in any order. -/
theorem mostSevere?_eq_of_worst (hperm : fs.Perm fs')
    (hworst : ∀ id f g, IsWorst fs id f → IsWorst fs id g → f = g) (id : String) :
    mostSevere? fs id = mostSevere? fs' id := by
  cases hleft : mostSevere? fs id with
  | some f =>
    have hf := isWorst_of_mostSevere? hleft
    obtain ⟨g, hright⟩ := exists_mostSevere? (hf.perm hperm).mem hf.accessPoint
    have hg := (isWorst_of_mostSevere? hright).perm hperm.symm
    rw [hright, hworst id f g hf hg]
  | none =>
    cases hright : mostSevere? fs' id with
    | none => rfl
    | some g =>
      have hg := (isWorst_of_mostSevere? hright).perm hperm.symm
      obtain ⟨f, hf⟩ := exists_mostSevere? hg.mem hg.accessPoint
      rw [hleft] at hf
      cases hf

/-! ### Findings without an access point -/

/-- Two findings without an access point that come first are kept in their order. -/
theorem filter_dedup_of_none (hne : f ≠ g) (hf : f.accessPoint = none) (hg : g.accessPoint = none)
    (rest : List Finding) :
    (dedup (f :: g :: rest)).filter (fun x => x = f ∨ x = g) = [f, g] := by
  have hpoints : ((Ordered.ofList ((f :: g :: rest).filterMap accessPoint)).filterMap
      (mostSevere? (f :: g :: rest))).filter (fun x => x = f ∨ x = g) = [] := by
    refine List.filter_eq_nil_iff.mpr fun x hx => ?_
    obtain ⟨id, -, hpicked⟩ := List.mem_filterMap.mp hx
    have hid := (isWorst_of_mostSevere? hpicked).accessPoint
    simp only [decide_eq_true_eq, not_or]
    constructor
    · rintro rfl
      cases hf.symm.trans hid
    · rintro rfl
      cases hg.symm.trans hid
  have hothers : ((f :: g :: rest).filter fun x => x.accessPoint.isNone) =
      f :: g :: rest.filter fun x => x.accessPoint.isNone := by
    simp [hf, hg]
  have hdups : ∀ others : List Finding, (f :: g :: others).eraseDups =
      f :: g :: ((others.filter (!· == f)).filter (!· == g)).eraseDups := by
    intro others
    rw [List.eraseDups_cons, List.filter_cons_of_pos (by simpa using hne.symm),
      List.eraseDups_cons]
  unfold dedup
  rw [List.filter_append, hpoints, hothers, hdups, List.nil_append,
    List.filter_cons_of_pos (by simp), List.filter_cons_of_pos (by simp)]
  -- What is left of the others is neither of the two.
  congr 2
  refine List.filter_eq_nil_iff.mpr fun x hx => ?_
  obtain ⟨hx, hxg⟩ := List.mem_filter.mp (List.mem_eraseDups.mp hx)
  obtain ⟨-, hxf⟩ := List.mem_filter.mp hx
  simpa using And.intro (by simpa using hxf) (by simpa using hxg)

end Finding

namespace Report

variable {fs rest : List Finding} {id : String} {f g : Finding}

/-- The report keeps the first of the most severe findings of an access point. -/
theorem assemble_ne_of_isWorst (hne : f ≠ g) (hf : Finding.IsWorst (f :: g :: rest) id f)
    (hg : Finding.IsWorst (f :: g :: rest) id g) :
    assemble true [] (f :: g :: rest) ≠ assemble true [] (g :: f :: rest) := by
  intro h
  have hfirst : (assemble true [] (f :: g :: rest)).findings.filter
      (fun x => x.accessPoint = some id) = [f] :=
    filter_assemble (Finding.mostSevere?_of_isWorst hf)
  have hsecond : (assemble true [] (g :: f :: rest)).findings.filter
      (fun x => x.accessPoint = some id) = [g] :=
    filter_assemble (Finding.mostSevere?_of_isWorst (hg.perm (List.Perm.swap g f rest)))
  rw [h, hsecond] at hfirst
  exact hne (List.cons.inj hfirst).1.symm

/-- Of two findings that tie the first comes first in the report. -/
theorem filter_findings_of_tie (hne : f ≠ g) (hf : f.accessPoint = none)
    (hg : g.accessPoint = none) (htie : f.order g = .eq) (rest : List Finding) :
    (assemble true [] (f :: g :: rest)).findings.filter (fun x => x = f ∨ x = g) = [f, g] := by
  show (((Finding.dedup (f :: g :: rest)).map (Finding.suppressBy [])).mergeSort
    fun a b => (a.order b).isLE).filter _ = [f, g]
  rw [filter_mergeSort (fun a b c => Std.TransCmp.isLE_trans) (isLE_or_isLE Finding.order),
    Finding.map_suppressBy_nil, Finding.filter_dedup_of_none hne hf hg]
  refine List.mergeSort_of_pairwise ?_
  simp [htie]

/-- The report leaves findings that tie in the order in which they came. -/
theorem assemble_ne_of_tie (hne : f ≠ g) (hf : f.accessPoint = none) (hg : g.accessPoint = none)
    (htie : f.order g = .eq) :
    assemble true [] (f :: g :: rest) ≠ assemble true [] (g :: f :: rest) := by
  intro h
  have hfirst := filter_findings_of_tie hne hf hg htie rest
  have hsecond := filter_findings_of_tie hne.symm hg hf (Std.OrientedCmp.eq_symm htie) rest
  simp only [or_comm (a := _ = g)] at hsecond
  rw [h, hsecond] at hfirst
  exact hne (List.cons.inj hfirst).1.symm

/-- Findings that can be told apart can be made to come first, in either order. -/
theorem exists_perm_cons_cons (hf : f ∈ fs) (hg : g ∈ fs) (hne : f ≠ g) :
    ∃ rest, fs.Perm (f :: g :: rest) ∧ fs.Perm (g :: f :: rest) := by
  have hg' : g ∈ fs.erase f := (List.mem_erase_of_ne hne.symm).mpr hg
  have hperm : fs.Perm (f :: g :: (fs.erase f).erase g) :=
    (List.perm_cons_erase hf).trans ((List.perm_cons_erase hg').cons f)
  exact ⟨_, hperm, hperm.trans (List.Perm.swap g f _)⟩

/-- **When the order of arrival does not matter.** A report is the same for every order in which
findings arrive, whatever is suppressed or listed, exactly if they are unambiguous. -/
theorem assemble_perm_iff (fs : List Finding) :
    (∀ (includeSafe : Bool) (entries : List SuppressionEntry) (fs' : List Finding), fs.Perm fs' →
      assemble includeSafe entries fs = assemble includeSafe entries fs') ↔
        Finding.IsUnambiguous fs := by
  constructor
  · intro hsame
    have hswap : ∀ fs₁ fs₂, fs.Perm fs₁ → fs.Perm fs₂ →
        assemble true [] fs₁ = assemble true [] fs₂ := by
      intro fs₁ fs₂ h₁ h₂
      rw [← hsame true [] fs₁ h₁, ← hsame true [] fs₂ h₂]
    refine ⟨?_, ?_⟩
    · intro id f g hf hg
      by_contra hne
      obtain ⟨rest, h₁, h₂⟩ := exists_perm_cons_cons hf.mem hg.mem hne
      exact assemble_ne_of_isWorst hne (hf.perm h₁) (hg.perm h₁) (hswap _ _ h₁ h₂)
    · intro f hf g hg hfnone hgnone htie
      by_contra hne
      obtain ⟨rest, h₁, h₂⟩ := exists_perm_cons_cons hf hg hne
      exact assemble_ne_of_tie hne hfnone hgnone htie (hswap _ _ h₁ h₂)
  · intro hunambiguous includeSafe entries fs' hperm
    exact assemble_eq_of_perm includeSafe entries hperm
      (Finding.mostSevere?_eq_of_worst hperm hunambiguous.worst) hunambiguous.others

/-- A read without the tenant context, in a place that is the same for every entity. -/
def unscopedRead (entity : String) : Finding where
  accessPoint := some "routes.py:26:list_all#0"
  location := ⟨"routes.py", some 28, "list_all", none⟩
  classification := .violation
  kind := some .missingDependency
  ruleId := some ViolationKind.missingDependency.ruleId
  severity := some .high
  entities := [entity]
  operation := some .read
  rationale := s!"read on tenant-scoped {entity} without a tenant-context dependency"
  suggestedFix := some
    s!"inject the tenant context into the handler and filter by {entity}.workspace_id"
  errorCode := none
  suppressed := false
  suppressionReason := none

/-- A handler that could not be analyzed, with a text that does not show the code. -/
def unreadHandler (code : String) : Finding :=
  .unknown ⟨"routes.py", some 28, "list_all", none⟩ "could not analyze handler" code

/-- The order of arrival shows in either place: for two reads that go by one name, and for one
handler that could not be analyzed for two reasons. -/
theorem arrival_order_shows :
    assemble true [] [unscopedRead "User", unscopedRead "Project"] ≠
        assemble true [] [unscopedRead "Project", unscopedRead "User"] ∧
      assemble true [] [unreadHandler "E020", unreadHandler "E021"] ≠
        assemble true [] [unreadHandler "E021", unreadHandler "E020"] := by
  have hworst : ∀ f ∈ [unscopedRead "User", unscopedRead "Project"],
      Finding.IsWorst [unscopedRead "User", unscopedRead "Project"]
        "routes.py:26:list_all#0" f := by
    intro f hf
    refine ⟨hf, ?_, fun g hg _ => .inr ?_⟩
    · revert f
      decide
    · revert f g
      decide
  constructor
  · exact assemble_ne_of_isWorst (by decide) (hworst _ (by simp)) (hworst _ (by simp))
  · exact assemble_ne_of_tie (by decide) rfl rfl (by decide +kernel)

end Report

end Tenancy

import Tenancy.Proofs.Analysis.Layout
import Tenancy.Proofs.Report.Omission
import Tenancy.Sample

/-!
# One handler more

A unit is given one handler more, well-formed or not (`Inserted`). `run_of_inserted` compares the
two runs: there is still a report, and without the findings of the new handler (`IsFrom`) it lists
what it listed before, in the same order and with the same marks. So no handler has an influence on
what is said about another.

The findings of the new handler arrive together, between those that arrived before
(`arrivals_of_inserted`). Only two things could mix them with the others: a finding that is said of
two handlers, and an access point that two handlers share. Both give the handlers one address
(`address_eq_of_findingOf`, `address_eq_of_accessPoint`), which the new handler has for itself.
-/

set_option autoImplicit false

namespace Tenancy.Analysis

open Tenancy.Support

variable {s : Settings} {x : Extractor} {h h' : Handler} {units units' : List SourceUnit}
  {failures : List LoadFailure}

/-- A unit with other handlers. -/
def withHandlers (u : SourceUnit) (handlers : List Handler) : SourceUnit :=
  { u with facts := { u.facts with handlers } }

@[simp] theorem handlers_withHandlers (u : SourceUnit) (handlers : List Handler) :
    (withHandlers u handlers).facts.handlers = handlers := rfl

@[simp] theorem declarations_withHandlers (u : SourceUnit) (handlers : List Handler) :
    (withHandlers u handlers).facts.declarations = u.facts.declarations := rfl

/-- One of the units is given one handler more, at any place. -/
inductive Inserted (h : Handler) : List SourceUnit → List SourceUnit → Prop where
  | intro (before after : List SourceUnit) (u : SourceUnit) {earlier later : List Handler}
      (hu : u.facts.handlers = earlier ++ later) :
      Inserted h (before ++ u :: after)
        (before ++ withHandlers u (earlier ++ h :: later) :: after)

/-- Whether a finding of a report, marked or not, is one of a handler. -/
def IsFrom (x : Extractor) (h : Handler) (f : Finding) : Prop := f.unmarked ∈ findingsOf x h

instance (x : Extractor) (h : Handler) : DecidablePred (IsFrom x h) := fun f =>
  inferInstanceAs (Decidable (f.unmarked ∈ findingsOf x h))

/-- The findings from a handler are what there is to say about it. -/
theorem isFrom_iff {settings : SchemaSettings} {declarations : List Declaration}
    (hschema : Schema.classify settings declarations = .ok x.schema) (f : Finding) :
    IsFrom x h f ↔ FindingOf x h f.unmarked :=
  mem_judgeHandler_iff (judgeHandler_eq_ok hschema h) f.unmarked

/-! ### Where the findings arrive -/

/-- The new handler adds no declarations. -/
theorem classify_of_inserted (hinserted : Inserted h units units') :
    classify s units' = classify s units := by
  cases hinserted with
  | intro before after u hu =>
    unfold classify
    simp only [List.flatMap_append, List.flatMap_cons, declarations_withHandlers]

/-- The new handler is judged at one place among the others, unless its file is left out. -/
theorem handlers_of_inserted (hinserted : Inserted h units units') (x : Extractor) :
    ∃ before after, handlers x units = before ++ after ∧
      handlers x units' =
        before ++ (if x.isIgnored h.location then [] else [h]) ++ after := by
  cases hinserted with
  | @intro before after u earlier later hu =>
    -- The order of the units does not look at their handlers.
    obtain ⟨l₁, l₂, hsorted, hsorted'⟩ :=
      mergeSort_replace (fun a b => Path.atMost a.origin b.origin) u
        (withHandlers u (earlier ++ h :: later)) (fun _ => rfl) (fun _ => rfl) before after
    refine ⟨((l₁.flatMap fun u => u.facts.handlers) ++ earlier).filter
      (fun h => !x.isIgnored h.location), (later ++ l₂.flatMap fun u => u.facts.handlers).filter
      (fun h => !x.isIgnored h.location), ?_, ?_⟩
    · unfold handlers
      simp only [hsorted, List.flatMap_append, List.flatMap_cons, hu, List.filter_append,
        List.append_assoc]
    · unfold handlers
      simp only [hsorted', List.flatMap_append, List.flatMap_cons, handlers_withHandlers,
        List.filter_append, List.append_assoc, List.cons_append, List.filter_cons]
      cases x.isIgnored h.location <;> rfl

/-- The findings of the new handler arrive together, and the others as before. -/
theorem arrivals_of_inserted (hinserted : Inserted h units units') (x : Extractor)
    (failures : List LoadFailure) :
    ∃ before own after, own ⊆ findingsOf x h ∧ arrivals x units failures = before ++ after ∧
      arrivals x units' failures = before ++ own ++ after := by
  obtain ⟨before, after, hbefore, hafter⟩ := handlers_of_inserted hinserted x
  refine ⟨failures.map Finding.ofLoadFailure ++ before.flatMap (findingsOf x),
    (if x.isIgnored h.location then [] else [h]).flatMap (findingsOf x),
    after.flatMap (findingsOf x), ?_, ?_, ?_⟩
  · cases x.isIgnored h.location <;> simp
  · unfold arrivals
    rw [hbefore, List.flatMap_append, List.append_assoc]
  · unfold arrivals
    rw [hafter, List.flatMap_append, List.flatMap_append]
    simp only [List.append_assoc]

/-! ### Findings of two handlers -/

/-- The access point of a finding has the address of the handler. -/
theorem exists_idOf_of_mem {f : Finding} (hf : f ∈ findingsOf x h) {id : String}
    (hid : f.accessPoint = some id) : ∃ index, id = AccessPoint.idOf h.location index := by
  have hmem := (ids_findingsOf x h).subset (List.mem_filterMap.mpr ⟨f, hf, hid⟩)
  obtain ⟨index, -, hindex⟩ := List.mem_map.mp hmem
  exact ⟨index, hindex.symm⟩

/-- Handlers that share an access point have the same address. -/
theorem address_eq_of_accessPoint {f g : Finding} (hf : f ∈ findingsOf x h)
    (hg : g ∈ findingsOf x h') {id : String} (hfid : f.accessPoint = some id)
    (hgid : g.accessPoint = some id) : h.location.address = h'.location.address := by
  obtain ⟨index, hindex⟩ := exists_idOf_of_mem hf hfid
  obtain ⟨index', hindex'⟩ := exists_idOf_of_mem hg hgid
  exact (AccessPoint.idOf_eq_iff.mp (hindex.symm.trans hindex')).1

/-- A finding that is said of two handlers gives them the same address. -/
theorem address_eq_of_findingOf {f : Finding} (hf : f ∈ findingsOf x h)
    (hf' : f ∈ findingsOf x h') : h.location.address = h'.location.address := by
  cases hid : f.accessPoint with
  | some id => exact address_eq_of_accessPoint hf hf' hid hid
  | none =>
    -- Without an access point both handlers could not be read, and the finding says where.
    have hlocation : ∀ {h : Handler}, f ∈ findingsOf x h → f.location = h.location := by
      intro h hf
      cases findingOf_of_mem hf with
      | unreadable herror => exact location_of_extract_eq_error herror
      | verdict => cases hid
    rw [← hlocation hf, ← hlocation hf']

/-- What arrives without the new handler: it is not a finding of it, and shares no access point with
one. -/
theorem apart_of_mem_arrivals {f : Finding} (hf : f ∈ arrivals x units failures)
    (haddress : ∀ u ∈ units, ∀ other ∈ u.facts.handlers,
      other.location.address ≠ h.location.address) :
    f ∉ findingsOf x h ∧ ∀ g ∈ findingsOf x h, ∀ id, f.accessPoint = some id →
      g.accessPoint ≠ some id := by
  rcases List.mem_append.mp hf with hf | hf
  · have hnone := accessPoint_of_mem_failures hf
    obtain ⟨failure, -, rfl⟩ := List.mem_map.mp hf
    refine ⟨?_, fun g _ id hid => by rw [hnone] at hid; cases hid⟩
    intro hown
    generalize hf : Finding.ofLoadFailure failure = f at hown
    cases findingOf_of_mem hown with
    | @unreadable e herror =>
      exact Finding.rationale_ofLoadFailure_ne failure e (congrArg Finding.rationale hf)
    | verdict => cases hf
  · obtain ⟨other, hother, hf⟩ := List.mem_flatMap.mp hf
    obtain ⟨⟨u, hu, hmem⟩, -⟩ := mem_handlers_iff.mp hother
    have hne := haddress u hu other hmem
    exact ⟨fun hown => hne (address_eq_of_findingOf hf hown),
      fun g hg id hid hgid => hne (address_eq_of_accessPoint hf hg hid hgid)⟩

/-- Whatever arrives carries no marks. -/
theorem unmarked_of_mem_arrivals {f : Finding} (hf : f ∈ arrivals x units failures) :
    f.unmarked = f := by
  rcases List.mem_append.mp hf with hf | hf
  · obtain ⟨failure, -, rfl⟩ := List.mem_map.mp hf
    rfl
  · obtain ⟨h, -, hf⟩ := List.mem_flatMap.mp hf
    exact (findingOf_of_mem hf).unmarked_eq

/-! ### The two reports -/

/-- Without the findings of the new handler there is left what arrived before. -/
theorem filter_arrivals_of_inserted (hinserted : Inserted h units units')
    (haddress : ∀ u ∈ units, ∀ other ∈ u.facts.handlers,
      other.location.address ≠ h.location.address) (x : Extractor)
    (failures : List LoadFailure) :
    Finding.IsAlike (fun f => ¬ IsFrom x h f) (arrivals x units' failures) ∧
      (arrivals x units' failures).filter (fun f => ¬ IsFrom x h f) =
        arrivals x units failures := by
  obtain ⟨before, own, after, hown, hold, hnew⟩ := arrivals_of_inserted hinserted x failures
  have hothers : ∀ f ∈ before ++ after, ¬ IsFrom x h f := by
    intro f hf hfrom
    rw [← hold] at hf
    unfold IsFrom at hfrom
    rw [unmarked_of_mem_arrivals hf] at hfrom
    exact (apart_of_mem_arrivals hf haddress).1 hfrom
  have hfrom : ∀ f ∈ own, IsFrom x h f := by
    intro f hf
    unfold IsFrom
    rw [(findingOf_of_mem (hown hf)).unmarked_eq]
    exact hown hf
  have hsplit : ∀ f ∈ arrivals x units' failures, f ∈ own ∨ f ∈ before ++ after := by
    intro f hf
    rw [hnew] at hf
    simp only [List.mem_append] at hf ⊢
    tauto
  constructor
  · intro f hf g hg id hfid hgid
    rcases hsplit f hf with hf | hf <;> rcases hsplit g hg with hg | hg
    · simp [hfrom f hf, hfrom g hg]
    · exact absurd hfid ((apart_of_mem_arrivals (hold ▸ hg) haddress).2 f (hown hf) id hgid)
    · exact absurd hgid ((apart_of_mem_arrivals (hold ▸ hf) haddress).2 g (hown hg) id hfid)
    · simp [hothers f hf, hothers g hg]
  · have hkept : ∀ l, l ⊆ before ++ after → l.filter (fun f => ¬ IsFrom x h f) = l := by
      intro l hl
      refine List.filter_eq_self.mpr fun f hf => ?_
      simp [hothers f (hl hf)]
    have hdropped : own.filter (fun f => ¬ IsFrom x h f) = [] := by
      refine List.filter_eq_nil_iff.mpr fun f hf => ?_
      simp [hfrom f hf]
    rw [hnew, hold, List.filter_append, List.filter_append, hdropped,
      hkept before (List.subset_append_left before after),
      hkept after (List.subset_append_right before after), List.append_nil]

/-- **No handler has an influence on another.** A unit is given one handler more, whose address no
other handler has. Then a run that is not strict still gives a report, and without what there is to
say about the new handler it lists the same findings as before, in the same order and with the same
marks. -/
theorem run_of_inserted (hstrict : s.analysis.strict = false) (hinserted : Inserted h units units')
    (haddress : ∀ u ∈ units, ∀ other ∈ u.facts.handlers,
      other.location.address ≠ h.location.address)
    {report : Report} (hrun : run s units failures = .ok report) :
    ∃ schema report', classify s units = .ok schema ∧ run s units' failures = .ok report' ∧
      (∀ f, IsFrom (.ofSettings schema s) h f ↔ FindingOf (.ofSettings schema s) h f.unmarked) ∧
      report'.findings.filter (fun f => ¬ IsFrom (.ofSettings schema s) h f) =
        report.findings := by
  obtain ⟨schema, hclassify, rfl⟩ := (run_eq_ok_iff_assemble hstrict).mp hrun
  have hclassify' : classify s units' = .ok schema := by
    rw [classify_of_inserted hinserted, hclassify]
  obtain ⟨halike, harrivals⟩ := filter_arrivals_of_inserted hinserted haddress
    (.ofSettings schema s) failures
  refine ⟨schema, _, hclassify,
    (run_eq_ok_iff_assemble hstrict).mpr ⟨schema, hclassify', rfl⟩,
    isFrom_iff (x := .ofSettings schema s) hclassify, ?_⟩
  have hmarks : ∀ f : Finding,
      decide (¬ IsFrom (.ofSettings schema s) h (f.suppressBy s.suppressions)) =
        decide (¬ IsFrom (.ofSettings schema s) h f) := by
    intro f
    rw [decide_eq_decide]
    unfold IsFrom
    rw [Finding.unmarked_suppressBy]
  rw [Report.filter_findings_assemble s.analysis.includeSafe halike hmarks, harrivals]

/-- The sample application, where a violation is suppressed by its file, and between two of its
handlers a new one of the same name that cannot be read. -/
theorem run_of_inserted_sample :
    ∃ (s : Settings) (units units' : List SourceUnit) (h : Handler) (schema : Schema)
      (report report' : Report), Inserted h units units' ∧
      (∀ u ∈ units, ∀ other ∈ u.facts.handlers, other.location.address ≠ h.location.address) ∧
      findingsOf (.ofSettings schema s) h ≠ [] ∧
      run s units [] = .ok report ∧ run s units' [] = .ok report' ∧
      report'.findings.filter (fun f => ¬ IsFrom (.ofSettings schema s) h f) =
        report.findings := by
  let s := { Sample.settings with suppressions := [⟨Sample.routesFile, "*", some "known"⟩] }
  let h := (Sample.handler 30 "list_users_bad" "/users").addOperation
    (Sample.operation .read "Nowhere" 31)
  let models : SourceUnit := ⟨"facts/models.json", ⟨some Sample.modelsFile, Sample.schema, []⟩⟩
  let routes : SourceUnit := ⟨"facts/routes.json", ⟨some Sample.routesFile, [], Sample.handlers⟩⟩
  let units := [models] ++ routes :: []
  have hinserted : Inserted h units ([models] ++ withHandlers routes
      (Sample.handlers.take 3 ++ h :: Sample.handlers.drop 3) :: []) :=
    .intro [models] [] routes (List.take_append_drop 3 Sample.handlers).symm
  have haddress : ∀ u ∈ units, ∀ other ∈ u.facts.handlers,
      other.location.address ≠ h.location.address := by
    decide +kernel
  have hclassify : classify s units = .ok ((classify s units).toOption.getD default) := by
    decide +kernel
  obtain ⟨report, hrun⟩ := exists_run_eq_ok (s := s) rfl hclassify []
  obtain ⟨schema, report', hschema, hrun', -, hfindings⟩ :=
    run_of_inserted (s := s) rfl hinserted haddress hrun
  have hsame : schema = (classify s units).toOption.getD default := by
    rw [hschema]
    rfl
  have hown : findingsOf (.ofSettings schema s) h ≠ [] := by
    rw [hsame]
    decide +kernel
  exact ⟨s, units, _, h, schema, report, report', hinserted, haddress, hown, hrun, hrun',
    hfindings⟩

end Tenancy.Analysis

import Tenancy.Proofs.Report.Assemble
import Tenancy.Proofs.Verdict.Isolation
import Tenancy.Sample

/-!
# No finding is lost

A report that could be made says something about everything the analysis was given. What there is to
say about a handler is `FindingOf`: the error that its operations cannot be read, or the verdict on
each operation that is executed. `run_complete` says that these findings and those on documents that
could not be loaded make up the report (`Complete`), and that leaving safe accesses out of it leaves
out nothing else. Handlers in files to ignore are not given: `isIgnored_ofSettings_iff` says which
files these are, and `Complete.accepts_eq_false` that nothing is said about them.

Three lemmas carry the findings through the run: `mem_judgePoints_iff` for the operations of a
handler, `mem_judgeHandler_iff` for a handler and `mem_findings_iff` for all units.
-/

set_option autoImplicit false

namespace Tenancy.Analysis

open Tenancy.Support

/-- What there is to say about a handler: that its operations make no sense, or the verdict on an
operation that is executed. -/
inductive FindingOf (x : Extractor) (h : Handler) : Finding → Prop where
  | unreadable {e : HandlerError} (herror : x.extract h = .error e) :
      FindingOf x h (.ofHandlerError e)
  | verdict {points : List AccessPoint} {operation : Nat} {o : Operation} {p : AccessPoint}
      {v : Verdict} (hpoints : x.extract h = .ok points)
      (ho : h.operations[operation]? = some o) (hrun : ∃ branch, o.flow.IsRun branch)
      (hp : points[operation]? = some p) (hv : p.evaluate x.schema = .ok (some v)) :
      FindingOf x h (.ofVerdict p v)

variable {s : Settings} {x : Extractor} {schema : Schema} {units : List SourceUnit}

/-! ### Handlers -/

/-- The findings of access points are those of the points that have a verdict. -/
theorem mem_judgePoints_iff {points : List AccessPoint} {fs : List Finding}
    (hok : judgePoints schema points = .ok fs) (f : Finding) :
    f ∈ fs ↔ ∃ p ∈ points, ∃ v, p.evaluate schema = .ok (some v) ∧ f = .ofVerdict p v := by
  induction points generalizing fs with
  | nil =>
    cases hok
    simp
  | cons p points ih =>
    unfold judgePoints at hok
    obtain ⟨verdict, hverdict, hok⟩ := bind_eq_ok_iff.mp hok
    obtain ⟨others, hothers, hok⟩ := bind_eq_ok_iff.mp hok
    cases hok
    rw [List.mem_append, ih hothers, List.exists_mem_cons_iff]
    refine or_congr_left ?_
    -- A point that is never executed has no verdict and adds nothing.
    cases verdict with
    | none => simp [hverdict]
    | some v => simp [hverdict]

/-- Access points that can each be evaluated can be judged together. -/
theorem exists_judgePoints_eq_ok {points : List AccessPoint}
    (h : ∀ p ∈ points, ∃ verdict, p.evaluate schema = .ok verdict) :
    ∃ fs, judgePoints schema points = .ok fs := by
  induction points with
  | nil => exact ⟨[], rfl⟩
  | cons p points ih =>
    obtain ⟨verdict, hverdict⟩ := h p List.mem_cons_self
    obtain ⟨others, hothers⟩ := ih fun q hq => h q (List.mem_cons_of_mem p hq)
    refine ⟨(verdict.map (Finding.ofVerdict p)).toList ++ others, ?_⟩
    unfold judgePoints
    rw [hverdict, hothers]
    rfl

/-- Access points of a handler that can be read are judged without an error. -/
theorem exists_judgeHandler_eq_ok {settings : SchemaSettings} {declarations : List Declaration}
    (hschema : Schema.classify settings declarations = .ok x.schema) (h : Handler) :
    ∃ fs, judgeHandler false x h = .ok fs := by
  unfold judgeHandler
  cases hextract : x.extract h with
  | error e => exact ⟨_, rfl⟩
  | ok points =>
    have hevaluate : ∀ p ∈ points, ∃ verdict, p.evaluate x.schema = .ok verdict := by
      intro p hp
      obtain ⟨verdict, hverdict, -⟩ := Extractor.exists_evaluate_eq_ok hschema hextract hp
      exact ⟨verdict, hverdict⟩
    obtain ⟨fs, hfs⟩ := exists_judgePoints_eq_ok hevaluate
    refine ⟨fs, ?_⟩
    simp only [hfs]

/-- An operation with a verdict is executed. -/
theorem run_of_evaluate {h : Handler} {operation : Nat} {o : Operation} {p : AccessPoint}
    (hp : x.point h operation o = .ok p) {v : Verdict} (hv : p.evaluate schema = .ok (some v)) :
    ∃ branch, o.flow.IsRun branch := by
  by_contra hnot
  obtain ⟨targets, filters, -, -, rfl⟩ := Extractor.point_eq_ok hp
  rw [Extractor.evaluate_of_not_run targets filters schema hnot] at hv
  cases hv

/-- The findings of a handler are what there is to say about it. -/
theorem mem_judgeHandler_iff {h : Handler} {fs : List Finding}
    (hok : judgeHandler false x h = .ok fs) (f : Finding) : f ∈ fs ↔ FindingOf x h f := by
  unfold judgeHandler at hok
  cases hextract : x.extract h with
  | error e =>
    rw [hextract] at hok
    cases hok
    rw [List.mem_singleton]
    constructor
    · rintro rfl
      exact .unreadable hextract
    · rintro (herror | hpoints)
      · rw [hextract] at herror
        cases herror
        rfl
      · rw [hextract] at hpoints
        cases hpoints
  | ok points =>
    rw [hextract] at hok
    cases hjudge : judgePoints x.schema points with
    | error e => simp [hjudge] at hok
    | ok found =>
      simp only [hjudge, Except.ok.injEq] at hok
      subst hok
      rw [mem_judgePoints_iff hjudge]
      constructor
      · rintro ⟨p, hp, v, hv, rfl⟩
        obtain ⟨operation, o, hget, ho, hpoint⟩ := Extractor.exists_operation hextract hp
        exact .verdict hextract ho (run_of_evaluate hpoint hv) hget hv
      · rintro (herror | ⟨hpoints, _, _, hp, hv⟩)
        · rw [hextract] at herror
          cases herror
        · rw [hextract] at hpoints
          cases hpoints
          exact ⟨_, List.mem_of_getElem? hp, _, hv, rfl⟩

/-! ### Units -/

/-- The settings leave a file out exactly if one of their patterns for files to ignore matches it;
texts that are no patterns leave out nothing. -/
theorem isIgnored_ofSettings_iff {l : Location} :
    (Extractor.ofSettings schema s).isIgnored l = true ↔
      ∃ text ∈ s.analysis.ignore, ∃ g, Glob.compile text = .ok g ∧ g.accepts l.file = true := by
  unfold Extractor.isIgnored Extractor.ofSettings
  simp only [List.any_eq_true, List.mem_filterMap, Glob.compile?_eq_some_iff]
  constructor
  · rintro ⟨g, ⟨text, htext, hg⟩, haccepts⟩
    exact ⟨text, htext, g, hg, haccepts⟩
  · rintro ⟨text, htext, g, hg, haccepts⟩
    exact ⟨g, ⟨text, htext, hg⟩, haccepts⟩

/-- The handlers that are judged are those of the units, except where the settings leave a file
out. -/
theorem mem_handlers_iff {h : Handler} :
    h ∈ handlers x units ↔
      (∃ u ∈ units, h ∈ u.facts.handlers) ∧ x.isIgnored h.location = false := by
  unfold handlers
  simp only [List.mem_filter, List.mem_flatMap, List.mem_mergeSort, Bool.not_eq_true']

/-- The findings of all units are what there is to say about their handlers. -/
theorem mem_findings_iff (hstrict : s.analysis.strict = false) {fs : List Finding}
    (hok : findings s schema units = .ok fs) (f : Finding) :
    f ∈ fs ↔ ∃ h ∈ handlers (.ofSettings schema s) units,
      FindingOf (.ofSettings schema s) h f := by
  unfold findings at hok
  obtain ⟨found, hfound, hok⟩ := bind_eq_ok_iff.mp hok
  cases hok
  rw [hstrict] at hfound
  have hfound := mapM_eq_ok_iff.mp hfound
  rw [List.mem_flatten]
  constructor
  · rintro ⟨fs, hfs, hf⟩
    obtain ⟨h, hh, hjudge⟩ := exists_of_forall₂_right hfound hfs
    exact ⟨h, hh, (mem_judgeHandler_iff hjudge f).mp hf⟩
  · rintro ⟨h, hh, hf⟩
    obtain ⟨fs, hfs, hjudge⟩ := exists_of_forall₂_left hfound hh
    exact ⟨fs, hfs, (mem_judgeHandler_iff hjudge f).mpr hf⟩

/-- Unless it is strict and a document could not be loaded, a run classifies the schema, judges the
handlers and assembles a report of what could not be loaded and what was found. -/
theorem run_eq_ok_iff_of_loaded {failures : List LoadFailure}
    (hloaded : s.analysis.strict = true → failures = []) {report : Report} :
    run s units failures = .ok report ↔
      ∃ schema fs, classify s units = .ok schema ∧ findings s schema units = .ok fs ∧
        report = .assemble s.analysis.includeSafe s.suppressions
          (failures.map Finding.ofLoadFailure ++ fs) := by
  unfold run
  split
  · rename_i failure rest hstrict
    cases hloaded hstrict
  · cases hclassify : classify s units with
    | error e => simp
    | ok schema =>
      simp only [bind_eq_ok_iff]
      constructor
      · rintro ⟨fs, hfs, hreport⟩
        cases hreport
        exact ⟨schema, fs, rfl, hfs, rfl⟩
      · rintro ⟨other, fs, hother, hfs, rfl⟩
        cases hother
        exact ⟨fs, hfs, rfl⟩

/-- A run that is not strict classifies the schema, judges the handlers and assembles a report of
what could not be loaded and what was found. -/
theorem run_eq_ok_iff (hstrict : s.analysis.strict = false) {failures : List LoadFailure}
    {report : Report} :
    run s units failures = .ok report ↔
      ∃ schema fs, classify s units = .ok schema ∧ findings s schema units = .ok fs ∧
        report = .assemble s.analysis.includeSafe s.suppressions
          (failures.map Finding.ofLoadFailure ++ fs) := by
  refine run_eq_ok_iff_of_loaded fun htrue => ?_
  rw [hstrict] at htrue
  cases htrue

/-- A run that is not strict ends with a report, whatever could not be loaded and whatever the
handlers say, if the schema can be classified. -/
theorem exists_run_eq_ok (hstrict : s.analysis.strict = false)
    (hclassify : classify s units = .ok schema) (failures : List LoadFailure) :
    ∃ report, run s units failures = .ok report := by
  obtain ⟨found, hfound⟩ := exists_mapM_eq_ok (l := handlers (.ofSettings schema s) units)
    fun h _ => exists_judgeHandler_eq_ok (x := .ofSettings schema s) hclassify h
  refine ⟨_, (run_eq_ok_iff hstrict).mpr ⟨schema, found.flatten, hclassify, ?_, rfl⟩⟩
  unfold findings
  rw [hstrict]
  exact bind_eq_ok_iff.mpr ⟨found, hfound, rfl⟩

/-! ### Reports -/

/-- A report is complete: it says something about everything that was given, and says nothing else.
Marks of suppressions aside, a finding is one on a document that could not be loaded or one that
there is to say about a handler. -/
structure Complete (x : Extractor) (units : List SourceUnit) (failures : List LoadFailure)
    (report : Report) : Prop where
  loading : ∀ failure ∈ failures, ∃ f ∈ report.findings,
    f.classification = .unknown ∧ f.location.file = failure.path ∧
      f.errorCode = some failure.code
  reading : ∀ u ∈ units, ∀ h ∈ u.facts.handlers, x.isIgnored h.location = false →
    ∀ e, x.extract h = .error e → ∃ f ∈ report.findings,
      f.classification = .unknown ∧ f.location = h.location ∧ f.errorCode = some e.error.code
  judging : ∀ u ∈ units, ∀ h ∈ u.facts.handlers, x.isIgnored h.location = false →
    ∀ points, x.extract h = .ok points → ∀ operation o, h.operations[operation]? = some o →
      (∃ branch, o.flow.IsRun branch) → ∃ p v f, points[operation]? = some p ∧
        p.id = AccessPoint.idOf h.location operation ∧ p.evaluate x.schema = .ok (some v) ∧
        report.findings.filter (fun g => g.accessPoint = some p.id) = [f] ∧
        f.IsAsSevereAs (.ofVerdict p v)
  nothingElse : ∀ f ∈ report.findings,
    (∃ failure ∈ failures, f.unmarked = .ofLoadFailure failure) ∨
      ∃ u ∈ units, ∃ h ∈ u.facts.handlers, x.isIgnored h.location = false ∧
        FindingOf x h f.unmarked

/-- What there is to say about a handler carries no marks. -/
theorem FindingOf.unmarked_eq {h : Handler} {f : Finding} (hf : FindingOf x h f) :
    f.unmarked = f := by
  cases hf with
  | unreadable => rfl
  | verdict => rfl

/-- The error of a handler says where the handler is. -/
theorem location_of_extract_eq_error {h : Handler} {e : HandlerError}
    (he : x.extract h = .error e) : e.location = h.location := by
  unfold Extractor.extract at he
  split at he
  · cases he
  · cases he
    rfl

/-- What there is to say about a handler is said about its file. -/
theorem FindingOf.file_eq {h : Handler} {f : Finding} (hf : FindingOf x h f) :
    f.location.file = h.location.file := by
  cases hf with
  | unreadable herror => exact congrArg Location.file (location_of_extract_eq_error herror)
  | verdict hpoints ho hrun hp hv =>
    obtain ⟨p', hp', hpoint⟩ := (Extractor.extract_eq_ok hpoints).2 _ _ ho
    cases hp.symm.trans hp'
    obtain ⟨targets, filters, -, -, rfl⟩ := Extractor.point_eq_ok hpoint
    rfl

/-- A complete report says nothing about a file to ignore, unless it could not be loaded. -/
theorem Complete.accepts_eq_false {failures : List LoadFailure} {report : Report}
    (hcomplete : Complete (.ofSettings schema s) units failures report) {f : Finding}
    (hf : f ∈ report.findings) {text : String} (htext : text ∈ s.analysis.ignore) {g : Glob}
    (hg : Glob.compile text = .ok g) :
    (∃ failure ∈ failures, f.location.file = failure.path) ∨
      g.accepts f.location.file = false := by
  rcases hcomplete.nothingElse f hf with ⟨failure, hfailure, hsame⟩ | ⟨u, -, h, -, hignored, hdue⟩
  · exact .inl ⟨failure, hfailure, congrArg (fun g : Finding => g.location.file) hsame⟩
  · refine .inr (Bool.eq_false_iff.mpr fun haccepts => ?_)
    have hfile : f.location.file = h.location.file := hdue.file_eq
    rw [isIgnored_ofSettings_iff.mpr ⟨text, htext, g, hg, hfile ▸ haccepts⟩] at hignored
    cases hignored

/-- A report that lists safe accesses is complete if it was assembled from findings on all documents
that could not be loaded and all that there is to say about the handlers. -/
theorem complete_assemble {settings : SchemaSettings} {declarations : List Declaration}
    (hschema : Schema.classify settings declarations = .ok x.schema)
    {entries : List SuppressionEntry} {failures : List LoadFailure} {fs : List Finding}
    (hfs : ∀ f, f ∈ fs ↔ ∃ h ∈ handlers x units, FindingOf x h f) :
    Complete x units failures
      (.assemble true entries (failures.map Finding.ofLoadFailure ++ fs)) where
  loading failure hfailure := by
    have hgiven : Finding.ofLoadFailure failure ∈ failures.map Finding.ofLoadFailure ++ fs :=
      List.mem_append_left fs (List.mem_map_of_mem hfailure)
    obtain ⟨f, hf, hsame⟩ := Report.exists_mem_assemble entries hgiven rfl
    exact ⟨f, hf, congrArg (fun g : Finding => g.classification) hsame,
      congrArg (fun g : Finding => g.location.file) hsame,
      congrArg (fun g : Finding => g.errorCode) hsame⟩
  reading u hu h hh hignored e he := by
    have hdue := (hfs _).mpr ⟨h, mem_handlers_iff.mpr ⟨⟨u, hu, hh⟩, hignored⟩, .unreadable he⟩
    have hgiven := List.mem_append_right (failures.map Finding.ofLoadFailure) hdue
    obtain ⟨f, hf, hsame⟩ := Report.exists_mem_assemble entries hgiven rfl
    refine ⟨f, hf, congrArg (fun g : Finding => g.classification) hsame, ?_,
      congrArg (fun g : Finding => g.errorCode) hsame⟩
    rw [← location_of_extract_eq_error he]
    exact congrArg (fun g : Finding => g.location) hsame
  judging u hu h hh hignored points hpoints operation o ho hrun := by
    obtain ⟨p, hp, hpoint⟩ := (Extractor.extract_eq_ok hpoints).2 operation o ho
    obtain ⟨targets, filters, htargets, -, rfl⟩ := Extractor.point_eq_ok hpoint
    obtain ⟨v, hv, hid, -⟩ := Extractor.evaluate_of_run hschema htargets filters hrun
    have hdue := (hfs _).mpr
      ⟨h, mem_handlers_iff.mpr ⟨⟨u, hu, hh⟩, hignored⟩, .verdict hpoints ho hrun hp hv⟩
    have hgiven := List.mem_append_right (failures.map Finding.ofLoadFailure) hdue
    -- The finding of this operation came in, so one was kept for its access point.
    obtain ⟨f, hf⟩ := Finding.exists_mostSevere? hgiven (congrArg some hid)
    obtain ⟨-, -, hsevere⟩ := Finding.mostSevere?_eq_some hf
    refine ⟨_, v, _, hp, rfl, hv, Report.filter_assemble hf, ?_⟩
    rw [Finding.isAsSevereAs_suppressBy_iff]
    exact hsevere _ hgiven (congrArg some hid)
  nothingElse f hf := by
    obtain ⟨g, hg, hsame⟩ := Report.exists_of_mem_assemble hf
    rw [hsame]
    rcases List.mem_append.mp hg with hg | hg
    · obtain ⟨failure, hfailure, rfl⟩ := List.mem_map.mp hg
      exact .inl ⟨failure, hfailure, rfl⟩
    · obtain ⟨h, hh, hdue⟩ := (hfs g).mp hg
      obtain ⟨⟨u, hu, hmem⟩, hignored⟩ := mem_handlers_iff.mp hh
      rw [hdue.unmarked_eq]
      exact .inr ⟨u, hu, h, hmem, hignored, hdue⟩

/-- The same settings, except that safe accesses are not listed. -/
def hidingSafe (s : Settings) : Settings :=
  { s with analysis := { s.analysis with includeSafe := false } }

/-- **No finding is lost.** A run that is not strict and lists safe accesses gives a complete
report, and one that does not list them leaves out nothing else. -/
theorem run_complete {failures : List LoadFailure} {report : Report}
    (hstrict : s.analysis.strict = false) (hsafe : s.analysis.includeSafe = true)
    (hrun : run s units failures = .ok report) :
    ∃ schema, classify s units = .ok schema ∧
      Complete (.ofSettings schema s) units failures report ∧
      ∃ brief, run (hidingSafe s) units failures = .ok brief ∧
        brief.findings = report.findings.filter fun f => f.classification ≠ .safe := by
  obtain ⟨schema, fs, hclassify, hfindings, rfl⟩ := (run_eq_ok_iff hstrict).mp hrun
  refine ⟨schema, hclassify, ?_, ?_⟩
  · rw [hsafe]
    exact complete_assemble (x := .ofSettings schema s) hclassify
      (mem_findings_iff hstrict hfindings)
  · -- Nothing but the assembly of the report looks at what is listed.
    refine ⟨.assemble false s.suppressions (failures.map Finding.ofLoadFailure ++ fs), ?_, ?_⟩
    · exact (run_eq_ok_iff (s := hidingSafe s) hstrict).mpr
        ⟨schema, fs, hclassify, hfindings, rfl⟩
    · rw [hsafe]
      exact Report.findings_assemble_false

/-- The sample application with every handler given twice, a handler that names an entity nobody
declares, the same handler in a file to ignore, and a document that could not be loaded. The report
names the document and the first of these handlers, and nothing in the file to ignore. -/
theorem run_complete_sample :
    ∃ (s : Settings) (units : List SourceUnit) (failure : LoadFailure) (report : Report)
      (schema : Schema), s.analysis.strict = false ∧ s.analysis.includeSafe = true ∧
      run s units [failure] = .ok report ∧
      Complete (.ofSettings schema s) units [failure] report ∧
      (∃ f ∈ report.findings, f.classification = .unknown ∧
        f.location.file = "facts/broken.json" ∧ f.errorCode = some "E002") ∧
      (∃ f ∈ report.findings, f.classification = .unknown ∧
        f.location = ⟨"routes.py", some 1, "lost", some "/lost"⟩ ∧ f.errorCode = some "E020") ∧
      (∃ u ∈ units, ∃ h ∈ u.facts.handlers, h.location.file = "jobs/purge.py") ∧
      ∀ f ∈ report.findings, f.location.file ≠ "jobs/purge.py" := by
  let s := { Sample.settings with
    analysis := { Sample.settings.analysis with
      strict := false, includeSafe := true, ignore := ["jobs/*"] } }
  let lost := (Sample.handler 1 "lost" "/lost").addOperation (Sample.operation .read "Nowhere" 2)
  let ignored := { lost with location := { lost.location with file := "jobs/purge.py" } }
  let unit : SourceUnit := ⟨"facts/more.json", ⟨none, [], lost :: ignored :: Sample.handlers⟩⟩
  let units := Sample.units ++ [unit]
  let failure : LoadFailure := ⟨"facts/broken.json", .fileParse, "unexpected end"⟩
  have hclassify : classify s units = .ok ((classify s units).toOption.getD default) := by
    decide +kernel
  obtain ⟨report, hrun⟩ := exists_run_eq_ok (s := s) rfl hclassify [failure]
  obtain ⟨schema, hschema, hcomplete, -⟩ := run_complete (s := s) rfl rfl hrun
  cases hclassify.symm.trans hschema
  have hunit : unit ∈ units := List.mem_append_right _ List.mem_cons_self
  have hlost := hcomplete.reading unit hunit lost List.mem_cons_self (by decide +kernel)
    ⟨lost.location, .unknownEntity "Nowhere" 0⟩ (by decide +kernel)
  refine ⟨s, units, failure, report, _, rfl, rfl, hrun, hcomplete,
    hcomplete.loading failure List.mem_cons_self, hlost,
    ⟨unit, hunit, ignored, List.mem_cons_of_mem _ List.mem_cons_self, rfl⟩, fun f hf hfile => ?_⟩
  have hg : Glob.compile "jobs/*" = .ok ((Glob.compile "jobs/*").toOption.getD default) := by
    decide +kernel
  rcases hcomplete.accepts_eq_false hf List.mem_cons_self hg with ⟨other, hother, hpath⟩ | haccepts
  · cases List.mem_singleton.mp hother
    exact absurd (hfile.symm.trans hpath) (by decide)
  · rw [hfile] at haccepts
    exact absurd haccepts (by decide +kernel)

end Tenancy.Analysis

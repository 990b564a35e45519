import Tenancy.Proofs.Access.Address
import Tenancy.Proofs.Report.Assemble
import Tenancy.Proofs.Verdict.Isolation
import Tenancy.Sample

/-!
# Which findings are folded into one

Of the findings on one access point a report keeps one, and which findings are on one access point
is seen from its name alone. `verdicts_fold_iff` says what that means for two verdicts: they are
folded exactly if they are on the operations at the same place of two handlers that have the same
file, line and name, or of which one is misread as the other. Handlers at legible locations are
never misread, so there each operation keeps a finding of its own.

`misread_files_fold` shows what is lost otherwise: two handlers in different files, and a report
that leaves out a violation of one of them.
-/

set_option autoImplicit false

namespace Tenancy

/-! ### Findings of one name -/

namespace Finding

variable {fs : List Finding} {f g : Finding}

/-- Findings are reduced to one that stands for two of them: it is the only one left by the name of
either. -/
def Folds (fs : List Finding) (f g : Finding) : Prop :=
  ∃ kept, (dedup fs).filter (fun other => other.accessPoint = f.accessPoint) = [kept] ∧
    (dedup fs).filter (fun other => other.accessPoint = g.accessPoint) = [kept]

/-- A finding on an access point leaves one of its name. -/
theorem exists_filter_dedup {id : String} (hf : f ∈ fs) (hid : f.accessPoint = some id) :
    ∃ kept, (dedup fs).filter (fun other => other.accessPoint = f.accessPoint) = [kept] := by
  obtain ⟨kept, hkept⟩ := exists_mostSevere? hf hid
  rw [hid]
  exact ⟨kept, filter_dedup hkept⟩

/-- Findings on access points are folded exactly if these have the same name. -/
theorem folds_iff {id id' : String} (hf : f ∈ fs) (hid : f.accessPoint = some id)
    (hid' : g.accessPoint = some id') : Folds fs f g ↔ id = id' := by
  constructor
  · rintro ⟨kept, hleft, hright⟩
    -- The finding that is left has the name of both.
    have hnamed : ∀ {p : Finding → Bool}, (dedup fs).filter p = [kept] → p kept = true := by
      intro p h
      have hmem : kept ∈ (dedup fs).filter p := by rw [h]; exact List.mem_singleton_self kept
      exact (List.mem_filter.mp hmem).2
    have hf : kept.accessPoint = f.accessPoint := of_decide_eq_true (hnamed hleft)
    have hg : kept.accessPoint = g.accessPoint := of_decide_eq_true (hnamed hright)
    rw [hf, hid, hid', Option.some.injEq] at hg
    exact hg
  · rintro rfl
    obtain ⟨kept, hkept⟩ := exists_filter_dedup hf hid
    refine ⟨kept, hkept, ?_⟩
    rw [hid', ← hid]
    exact hkept

end Finding

/-! ### Verdicts -/

namespace Analysis

/-- A finding is the verdict on the operation at a place of a handler. -/
inductive IsVerdictOn (x : Extractor) (h : Handler) (operation : Nat) : Finding → Prop where
  | intro {points : List AccessPoint} {p : AccessPoint} {v : Verdict}
      (hpoints : x.extract h = .ok points) (hp : points[operation]? = some p)
      (hv : p.evaluate x.schema = .ok (some v)) : IsVerdictOn x h operation (.ofVerdict p v)

/-- A verdict has the name of its operation. -/
theorem IsVerdictOn.accessPoint_eq {x : Extractor} {h : Handler} {operation : Nat} {f : Finding}
    (hf : IsVerdictOn x h operation f) :
    f.accessPoint = some (AccessPoint.idOf h.location operation) := by
  cases hf with
  | @intro points p v hpoints hp hv =>
    -- The point at a place is made from the operation there, which gives it the name.
    have hid : p.id = AccessPoint.idOf h.location operation := by
      have hnames := congrArg (·[operation]?) (Extractor.map_id_of_extract hpoints)
      simp only [List.getElem?_map, hp, Option.map_some] at hnames
      obtain ⟨place, hplace, hname⟩ := Option.map_eq_some_iff.mp hnames.symm
      rw [← hname, ← (List.getElem?_eq_some_iff.mp hplace).2, List.getElem_range]
    show some v.accessPoint = _
    rw [AccessPoint.accessPoint_of_evaluate hv, hid]

/-- **Two verdicts are folded exactly if they are on the same place of handlers that cannot be told
apart by their addresses.** These are handlers with the same file, line and name, and handlers of
which one is misread as the other; legible locations are not misread. -/
theorem verdicts_fold_iff (l m : Location) (i j : Nat) :
    (AccessPoint.idOf l i = AccessPoint.idOf m j ↔
      i = j ∧ (l.SameSpot m ∨ l.Misread m ∨ m.Misread l)) ∧
    (l.IsLegible → m.IsLegible → ¬ (l.Misread m ∨ m.Misread l)) ∧
    ∀ (x : Extractor) (h h' : Handler), h.location = l → h'.location = m →
      ∀ (fs : List Finding), ∀ f ∈ fs, ∀ g ∈ fs, IsVerdictOn x h i f → IsVerdictOn x h' j g →
        (Finding.Folds fs f g ↔ i = j ∧ (l.SameSpot m ∨ l.Misread m ∨ m.Misread l)) := by
  have hids : AccessPoint.idOf l i = AccessPoint.idOf m j ↔
      i = j ∧ (l.SameSpot m ∨ l.Misread m ∨ m.Misread l) := by
    rw [AccessPoint.idOf_eq_iff, Location.address_eq_iff, and_comm]
  refine ⟨hids, ?_, ?_⟩
  · rintro hl hm (hmisread | hmisread)
    · exact hl.not_misread hm hmisread
    · exact hm.not_misread hl hmisread
  · rintro x h h' rfl rfl fs f hf g - hverdict hverdict'
    rw [Finding.folds_iff hf hverdict.accessPoint_eq hverdict'.accessPoint_eq, hids]

/-- The verdicts on two handlers of the sample application, which are both legible. -/
theorem verdicts_fold_iff_sample :
    ∃ (x : Extractor) (h h' : Handler) (f g : Finding), h ∈ Sample.handlers ∧
      h' ∈ Sample.handlers ∧ h.location.IsLegible ∧ h'.location.IsLegible ∧
      IsVerdictOn x h 0 f ∧ IsVerdictOn x h' 0 g ∧ Finding.Folds [f, f, g] f f ∧
      ¬ Finding.Folds [f, f, g] f g := by
  let schema := (Schema.classify Sample.settings.schema Sample.schema).toOption.getD default
  let x := Extractor.ofSettings schema Sample.settings
  let points := fun h => (x.extract h).toOption.getD []
  let point := fun h => (points h)[0]?.getD default
  let verdict := fun h => (((point h).evaluate schema).toOption.getD none).getD default
  let h := Sample.handlers[0]
  let h' := Sample.handlers[2]
  have hf : IsVerdictOn x h 0 (.ofVerdict (point h) (verdict h)) :=
    .intro (show x.extract h = .ok (points h) by decide +kernel) (by decide +kernel)
      (by decide +kernel)
  have hg : IsVerdictOn x h' 0 (.ofVerdict (point h') (verdict h')) :=
    .intro (show x.extract h' = .ok (points h') by decide +kernel) (by decide +kernel)
      (by decide +kernel)
  have hl : h.location.IsLegible := ⟨by decide, nofun⟩
  have hl' : h'.location.IsLegible := ⟨by decide, nofun⟩
  refine ⟨x, h, h', _, _, List.getElem_mem _, List.getElem_mem _, hl, hl', hf, hg, ?_, ?_⟩
  · obtain ⟨-, -, hfolds⟩ := verdicts_fold_iff h.location h.location 0 0
    exact (hfolds x h h rfl rfl _ _ (by simp) _ (by simp) hf hf).mpr ⟨rfl, .inl ⟨rfl, rfl, rfl⟩⟩
  · obtain ⟨-, hlegible, hfolds⟩ := verdicts_fold_iff h.location h'.location 0 0
    intro hfold
    obtain ⟨-, hspot | hmisread⟩ :=
      (hfolds x h h' rfl rfl _ _ (by simp) _ (by simp) hf hg).mp hfold
    · exact absurd hspot.line (by decide)
    · exact hlegible hl hl' hmisread

/-- A handler that reads an entity and is not given the tenant context. -/
def unscopedHandler (file : String) (line : Option UInt32) (entity : String) : Handler :=
  let h := (Sample.handler 0 "list_all" "/all").addOperation (Operation.on .read [entity])
  { h with location := { h.location with file, line } }

/-- Two handlers of one name, the first on a line of a file and the second in another file that is
called like the first with its line. Both leave out the tenant filter, but together only the
violation of the first is reported. -/
theorem misread_files_fold :
    let h := unscopedHandler "routes.py" (some 26) "User"
    let h' := unscopedHandler "routes.py:26" none "Project"
    let reported := fun handlers : List Handler =>
      (run Sample.settings [⟨"facts.json", ⟨none, Sample.schema, handlers⟩⟩] []).toOption.map
        fun report => report.findings.map fun f => (f.location.file, f.classification)
    h.location.file ≠ h'.location.file ∧
      AccessPoint.idOf h.location 0 = AccessPoint.idOf h'.location 0 ∧
      reported [h'] = some [("routes.py:26", .violation)] ∧
      reported [h, h'] = some [("routes.py", .violation)] := by
  decide +kernel

end Analysis

end Tenancy

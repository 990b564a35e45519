import Tenancy.Proofs.Schema.Plan
import Tenancy.Sample

/-!
# Classification does not depend on the order of declarations

An entity may be declared in several pieces and the pieces may come in any order. Merging turns a
permutation into declarations that are `Alike`: they differ in the order of their marks and in the
place that is kept. Nothing that follows reads either of the two.

* `Label.ofDeclaration_alike`: declarations that are alike have the same label, or the same error.
* `relationships_alike`: they have the same relationships, in the same order.
* `ofPlan_outline`: once labels are known, a schema is made from the names, storage keys and columns
  alone (`Labelled.outline`).

`classify_eq_of_perm` and `classify_of_twoKeys` put these together.
-/

set_option autoImplicit false

namespace Tenancy

open Tenancy.Support
open Declaration (Alike TwoKeys IsKeyClash)

/-! ### Labels -/

namespace Label

/-- A column is named by a tenant mark exactly when the mark is there. -/
theorem mem_tenantColumns {d : Declaration} {column : Option String} :
    column ∈ tenantColumns d ↔ ScopeMark.tenantScoped column ∈ d.marks := by
  unfold tenantColumns
  rw [List.mem_filterMap]
  constructor
  · rintro ⟨mark, hmark, h⟩
    cases mark with
    | tenantScoped other =>
      cases h
      exact hmark
    | global => cases h
    | tenantRoot => cases h
  · intro h
    exact ⟨_, h, rfl⟩

variable {d d' : Declaration}

/-- Lists of the settings name both of two declarations that are alike, or neither. -/
theorem isListed_alike (h : Alike d d') (list : List String) :
    isListed list d = isListed list d' := by
  unfold isListed
  rw [h.entity, h.storageKey]

/-- Declarations that are alike carry the same marks. -/
theorem contains_marks_alike (h : Alike d d') (mark : ScopeMark) :
    d.marks.contains mark = d'.marks.contains mark := by
  rw [Bool.eq_iff_iff, List.contains_iff_mem, List.contains_iff_mem]
  exact h.marks mark

/-- Declarations that are alike have tenant marks both or neither. -/
theorem isEmpty_tenantColumns_alike (h : Alike d d') :
    (tenantColumns d).isEmpty = (tenantColumns d').isEmpty := by
  rw [Bool.eq_iff_iff, List.isEmpty_iff, List.isEmpty_iff, List.eq_nil_iff_forall_not_mem,
    List.eq_nil_iff_forall_not_mem]
  simp only [mem_tenantColumns, h.marks]

/-- Declarations that are alike name the same scoping columns. -/
theorem namedColumns_alike (h : Alike d d') : namedColumns d = namedColumns d' := by
  unfold namedColumns
  apply Ordered.ofList_eq_of_mem_iff
  intro column
  simp only [List.mem_filterMap, mem_tenantColumns, h.marks]

/-- Declarations that are alike have the same label, or the same error. -/
theorem ofDeclaration_alike (h : Alike d d') (s : SchemaSettings) (c : Conventions) :
    ofDeclaration s c d = ofDeclaration s c d' := by
  -- Everything that makes up a label looks for marks and never at their order.
  have htenant : tenantOrigin? d s = tenantOrigin? d' s := by
    unfold tenantOrigin?
    rw [isEmpty_tenantColumns_alike h, isListed_alike h]
  have hglobal : globalOrigin? d s = globalOrigin? d' s := by
    unfold globalOrigin?
    rw [contains_marks_alike h, isListed_alike h]
  have hroot : rootOrigin? d s = rootOrigin? d' s := by
    unfold rootOrigin?
    rw [contains_marks_alike h, isListed_alike h]
  have hcolumn : scopingColumn d c = scopingColumn d' c := by
    unfold scopingColumn
    rw [namedColumns_alike h, h.columns, h.entity]
  unfold ofDeclaration
  rw [htenant, hglobal, hroot, hcolumn, h.entity]

end Label

/-! ### Relationships -/

namespace Propagation

variable {merged merged' : List Declaration}

/-- A foreign key leads to the same entity. -/
theorem target?_alike (h : List.Forall₂ Alike merged merged') (references : String) :
    target? merged references = target? merged' references := by
  -- A name counts more than a storage key, so both searches are compared.
  have hname := find?_forall₂ (p := fun d => decide (d.entity = references))
    (q := fun d => decide (d.entity = references)) (fun a b hab => by rw [hab.entity]) h
  have hkey := find?_forall₂ (p := fun d => decide (d.storageKey = references))
    (q := fun d => decide (d.storageKey = references)) (fun a b hab => by rw [hab.storageKey]) h
  unfold target?
  revert hname hkey
  generalize merged.find? (fun d => decide (d.entity = references)) = byName
  generalize merged'.find? (fun d => decide (d.entity = references)) = byName'
  generalize merged.find? (fun d => decide (d.storageKey = references)) = byKey
  generalize merged'.find? (fun d => decide (d.storageKey = references)) = byKey'
  intro hname hkey
  cases hname with
  | some hd => simp only [hd.entity]
  | none =>
    cases hkey with
    | some hd => simp only [Option.map_some, hd.entity]
    | none => rfl

/-- Declarations that are alike one by one have the same relationships. -/
theorem relationships_alike (h : List.Forall₂ Alike merged merged') :
    relationships merged = relationships merged' := by
  unfold relationships
  rw [funext (target?_alike h)]
  generalize target? merged' = target
  -- The look-up is the same by now, so the lists can be compared piece by piece.
  induction h with
  | nil => rfl
  | cons hd _ ih =>
    rw [List.flatMap_cons, List.flatMap_cons, ih, hd.foreignKeys, hd.entity]

end Propagation

/-! ### From labels to a schema -/

/-- A labelled entity without the marks and the place of its declaration. -/
def Labelled.outline (l : Labelled) : Labelled :=
  { l with declaration := { l.declaration with marks := [], file := none, line := none } }

namespace Schema

/-- Once labels are known, marks and places are not read any more. -/
theorem ofPlan_outline (p : Plan) :
    ofPlan { p with labelled := p.labelled.map Labelled.outline } = ofPlan p := by
  -- Anchors and candidates are picked by label and name, which an outline keeps.
  have hanchors : ∀ infer edges, Propagation.anchors infer edges (p.labelled.map Labelled.outline)
      = Propagation.anchors infer edges p.labelled := by
    intro infer edges
    unfold Propagation.anchors
    rw [List.filter_map, List.map_map]
    rfl
  have hcandidates : ∀ infer edges,
      Propagation.candidates infer edges (p.labelled.map Labelled.outline)
        = Propagation.candidates infer edges p.labelled := by
    intro infer edges
    unfold Propagation.candidates
    rw [List.filter_map, List.map_map]
    rfl
  unfold ofPlan Propagation.anchored
  simp only [hanchors, hcandidates, List.map_map]
  rfl

/-- Classification after a successful merge: labels first, then the schema of their outlines. -/
theorem classify_of_merge {s : SchemaSettings} {declarations merged : List Declaration}
    (h : Declaration.merge declarations = .ok merged) :
    classify s declarations = (fun outlines => ofPlan (planOf s merged outlines)) <$>
      (merged.mapM (labelOne s)).map (List.map Labelled.outline) := by
  unfold classify
  rw [plan_of_merge h]
  cases merged.mapM (labelOne s) with
  | error e => rfl
  | ok labelled =>
    show Except.ok (ofPlan (planOf s merged labelled)) = Except.ok _
    rw [← ofPlan_outline]
    rfl

/-- An entity with two storage keys is an error that names such an entity. -/
theorem classify_of_twoKeys (s : SchemaSettings) {declarations : List Declaration}
    (h : TwoKeys declarations) :
    ∃ e, classify s declarations = .error e ∧ IsKeyClash declarations e := by
  obtain ⟨e, he, hclash⟩ := Declaration.merge_of_twoKeys h
  refine ⟨e, ?_, hclash⟩
  unfold classify plan
  rw [he]
  rfl

/-- As long as no entity has two storage keys, a permutation is classified alike, errors
included. -/
theorem classify_eq_of_perm (s : SchemaSettings) {declarations declarations' : List Declaration}
    (h : declarations.Perm declarations') (hkeys : ¬ TwoKeys declarations) :
    classify s declarations = classify s declarations' := by
  rcases Declaration.merge_perm h hkeys with
    ⟨e, he, he'⟩ | ⟨merged, merged', hmerge, hmerge', halike⟩
  · unfold classify plan
    rw [he, he']
  · -- What follows the merge reads outlines and relationships, and these are the same.
    have hlabels : (merged.mapM (labelOne s)).map (List.map Labelled.outline)
        = (merged'.mapM (labelOne s)).map (List.map Labelled.outline) := by
      refine mapM_congr_forall₂ Labelled.outline ?_ halike
      intro d d' hd
      unfold labelOne
      rw [Label.ofDeclaration_alike hd]
      cases Label.ofDeclaration s ⟨s.scopingColumns⟩ d' with
      | error e => rfl
      | ok label =>
        show Except.ok (Labelled.outline ⟨d, label⟩) = Except.ok (Labelled.outline ⟨d', label⟩)
        simp only [Labelled.outline, hd.entity, hd.storageKey, hd.columns, hd.foreignKeys]
    rw [classify_of_merge hmerge, classify_of_merge hmerge', hlabels]
    unfold planOf
    rw [Propagation.relationships_alike halike]

/-- A permutation is classified as the same schema, or as none. -/
theorem classify_eq_ok_iff_of_perm (s : SchemaSettings)
    {declarations declarations' : List Declaration} (h : declarations.Perm declarations')
    (schema : Schema) :
    classify s declarations = .ok schema ↔ classify s declarations' = .ok schema := by
  by_cases hkeys : TwoKeys declarations
  · obtain ⟨e, he, -⟩ := classify_of_twoKeys s hkeys
    obtain ⟨e', he', -⟩ := classify_of_twoKeys s ((Declaration.twoKeys_perm h).mp hkeys)
    rw [he, he']
    constructor <;> intro hok <;> cases hok
  · rw [classify_eq_of_perm s h hkeys]

/-- **Classification does not depend on the order of declarations.** If an entity has two storage
keys, both orders fail with an error that names such an entity. Otherwise both fail with the same
error, or both give the same schema: the same entities, which also make up the look-up by storage
key, and the same relationships. -/
theorem classify_perm (s : SchemaSettings) {declarations declarations' : List Declaration}
    (h : declarations.Perm declarations') :
    (TwoKeys declarations →
      (∃ e, classify s declarations = .error e ∧ IsKeyClash declarations e) ∧
        ∃ e, classify s declarations' = .error e ∧ IsKeyClash declarations' e) ∧
    (¬ TwoKeys declarations → classify s declarations = classify s declarations') := by
  constructor
  · intro hkeys
    exact ⟨classify_of_twoKeys s hkeys,
      classify_of_twoKeys s ((Declaration.twoKeys_perm h).mp hkeys)⟩
  · exact classify_eq_of_perm s h

/-- The sample application with a second piece of an entity, which carries a mark, in front of the
first piece or behind it. -/
theorem classify_perm_of_split :
    ∃ (declarations declarations' : List Declaration) (schema : Schema),
      declarations ≠ declarations' ∧ declarations.Perm declarations' ∧
      classify .default declarations = .ok schema ∧
      classify .default declarations' = .ok schema := by
  let piece := ((Declaration.named "AuditLog" "audit_logs").addColumns ["zone", "at"]).addMark
    (.tenantScoped none)
  let schema := (classify .default (Sample.schema ++ [piece])).toOption.getD default
  have hperm : (Sample.schema ++ [piece]).Perm (piece :: Sample.schema) :=
    List.perm_append_singleton piece Sample.schema
  have hkeys : ¬ TwoKeys (Sample.schema ++ [piece]) := by decide +kernel
  have hclassify : classify .default (Sample.schema ++ [piece]) = .ok schema := by decide +kernel
  have hsame := (classify_perm .default hperm).2 hkeys
  exact ⟨_, _, schema, by decide +kernel, hperm, hclassify, hsame ▸ hclassify⟩

end Schema

end Tenancy

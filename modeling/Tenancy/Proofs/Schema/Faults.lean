import Tenancy.Proofs.Schema.Conventions
import Tenancy.Proofs.Schema.DeclarationOrder

/-!
# When declarations contradict themselves

Once declarations are merged, classification can fail for one reason only: an entity that is
labelled tenant-scoped is labelled in another way too, or it is not clear by which column its rows
belong to a tenant. `Declaration.IsFaulty` lists these cases, and `Declaration.Fault` says which
error stands for which of them: two labels come before two columns, and these before a column that
is unknown or missing.

* `scopingColumn_eq_error_iff` and `ofDeclaration_eq_error_iff`: the label of an entity is refused
  exactly for its fault.
* `exists_fault_iff`: an entity has a fault exactly when it is faulty.
* `classify_fails_iff`: classification fails exactly when some entity is faulty, and the error is
  the fault of the one with the least name.
-/

set_option autoImplicit false

namespace Tenancy

open Tenancy.Support

namespace Declaration

/-! ### Labels that are written down -/

/-- A list of the settings names an entity, by its name or its storage key. -/
def IsNamedIn (list : List String) (d : Declaration) : Prop :=
  d.entity ∈ list ∨ d.storageKey ∈ list

/-- An entity is labelled tenant-scoped, with or without a column. -/
def LabelledTenant (s : SchemaSettings) (d : Declaration) : Prop :=
  (∃ column, ScopeMark.tenantScoped column ∈ d.marks) ∨ d.IsNamedIn s.tenantTables

/-- An entity is labelled global. -/
def LabelledGlobal (s : SchemaSettings) (d : Declaration) : Prop :=
  ScopeMark.global ∈ d.marks ∨ d.IsNamedIn s.globalTables

/-- An entity is labelled a tenant root. -/
def LabelledRoot (s : SchemaSettings) (d : Declaration) : Prop :=
  ScopeMark.tenantRoot ∈ d.marks ∨ d.IsNamedIn s.tenantRoots

/-- A mark names a scoping column outright. -/
def NamesColumn (d : Declaration) (column : String) : Prop :=
  ScopeMark.tenantScoped (some column) ∈ d.marks

/-! ### Faults -/

/-- It is not clear by which column rows belong to a tenant: two columns are named, or the one that
is named is not among the columns that are listed, or none is named and none that is listed matches
a convention. -/
def LacksColumn (c : Conventions) (d : Declaration) : Prop :=
  (∃ first second, first ≠ second ∧ d.NamesColumn first ∧ d.NamesColumn second) ∨
    (∃ column, (∀ other, d.NamesColumn other ↔ other = column) ∧ d.columns ≠ [] ∧
      column ∉ d.columns) ∨
    (∀ column, ¬ d.NamesColumn column) ∧ ∀ column ∈ d.columns, c.accepts column = false

/-- An entity that is labelled tenant-scoped has another label, or lacks a scoping column. -/
def IsFaulty (s : SchemaSettings) (d : Declaration) : Prop :=
  d.LabelledTenant s ∧
    (d.LabelledGlobal s ∨ d.LabelledRoot s ∨ d.LacksColumn ⟨s.scopingColumns⟩)

/-- The error for an entity that lacks a scoping column. Of several columns that are named it shows
the least two. -/
inductive ColumnFault (c : Conventions) (d : Declaration) : SchemaError → Prop
  | several {first second : String} : d.NamesColumn first → d.NamesColumn second →
      first < second → (∀ column, d.NamesColumn column → column = first ∨ second ≤ column) →
      ColumnFault c d (.conflictingMarks d.entity s!"tenant-scoped ({first})"
        s!"tenant-scoped ({second})")
  | unknown {column : String} : (∀ other, d.NamesColumn other ↔ other = column) →
      d.columns ≠ [] → column ∉ d.columns →
      ColumnFault c d (.unknownScopingColumn d.entity column)
  | missing : (∀ column, ¬ d.NamesColumn column) →
      (∀ column ∈ d.columns, c.accepts column = false) →
      ColumnFault c d (.missingScopingColumn d.entity (", ".intercalate c.texts))

/-- The error for a faulty entity: another label counts before the column, and a global label
before a root. -/
inductive Fault (s : SchemaSettings) (d : Declaration) : SchemaError → Prop
  | global : d.LabelledTenant s → d.LabelledGlobal s →
      Fault s d (.conflictingMarks d.entity "tenant-scoped" "global")
  | root : d.LabelledTenant s → ¬ d.LabelledGlobal s → d.LabelledRoot s →
      Fault s d (.conflictingMarks d.entity "tenant-scoped" "tenant-root")
  | column {e : SchemaError} : d.LabelledTenant s → ¬ d.LabelledGlobal s → ¬ d.LabelledRoot s →
      ColumnFault ⟨s.scopingColumns⟩ d e → Fault s d e

end Declaration

/-! ### Labels that are found -/

namespace Label

variable {s : SchemaSettings} {c : Conventions} {d : Declaration} {e : SchemaError}

/-- A list is searched for the name and the storage key. -/
theorem isListed_iff {list : List String} : isListed list d = true ↔ d.IsNamedIn list := by
  unfold isListed Declaration.IsNamedIn
  simp only [List.any_eq_true, Bool.or_eq_true, decide_eq_true_eq, and_or_left, exists_or,
    exists_eq_right]

/-- A label has an origin exactly when there is a mark or an entry. -/
theorem isSome_origin?_iff {marked listed : Bool} :
    (origin? marked listed).isSome = true ↔ marked = true ∨ listed = true := by
  cases marked <;> cases listed <;> simp [origin?]

/-- What is labelled tenant-scoped is found to be. -/
theorem isSome_tenantOrigin?_iff : (tenantOrigin? d s).isSome = true ↔ d.LabelledTenant s := by
  unfold tenantOrigin? Declaration.LabelledTenant
  rw [isSome_origin?_iff, isListed_iff, Bool.not_eq_true', List.isEmpty_eq_false_iff_exists_mem]
  simp only [mem_tenantColumns]

/-- What is labelled global is found to be. -/
theorem isSome_globalOrigin?_iff : (globalOrigin? d s).isSome = true ↔ d.LabelledGlobal s := by
  unfold globalOrigin? Declaration.LabelledGlobal
  rw [isSome_origin?_iff, isListed_iff, List.contains_iff_mem]

/-- What is labelled a root is found to be. -/
theorem isSome_rootOrigin?_iff : (rootOrigin? d s).isSome = true ↔ d.LabelledRoot s := by
  unfold rootOrigin? Declaration.LabelledRoot
  rw [isSome_origin?_iff, isListed_iff, List.contains_iff_mem]

/-- The columns that are named are those of the marks. -/
theorem mem_namedColumns {column : String} : column ∈ namedColumns d ↔ d.NamesColumn column := by
  unfold namedColumns Declaration.NamesColumn
  rw [Ordered.mem_ofList, List.mem_filterMap]
  simp only [mem_tenantColumns, id_eq, exists_eq_right]

/-- The columns that are named stand in order. -/
theorem increasing_namedColumns (d : Declaration) : Ordered.Increasing (namedColumns d) :=
  Ordered.increasing_ofList _

/-- If two or more columns are named, the least two are the fault. -/
theorem columnFault_of_named {first second : String} {rest : List String}
    (h : namedColumns d = first :: second :: rest) :
    d.ColumnFault c (.conflictingMarks d.entity s!"tenant-scoped ({first})"
      s!"tenant-scoped ({second})") := by
  have hsorted := increasing_namedColumns d
  rw [h] at hsorted
  obtain ⟨hfirst, hsorted⟩ := List.pairwise_cons.mp hsorted
  obtain ⟨hsecond, -⟩ := List.pairwise_cons.mp hsorted
  refine .several (mem_namedColumns.mp (by simp [h])) (mem_namedColumns.mp (by simp [h]))
    (compareOfLessAndEq_eq_lt.mp (hfirst second List.mem_cons_self)) ?_
  intro column hcolumn
  rw [← mem_namedColumns, h, List.mem_cons, List.mem_cons] at hcolumn
  rcases hcolumn with rfl | rfl | hcolumn
  · exact .inl rfl
  · exact .inr (String.le_refl _)
  · exact .inr (Std.le_of_lt (compareOfLessAndEq_eq_lt.mp (hsecond column hcolumn)))

/-- If two columns are named and no other is less than the second, they are the first two. -/
theorem namedColumns_of_least {first second : String} (hfirst : d.NamesColumn first)
    (hsecond : d.NamesColumn second) (hlt : first < second)
    (hleast : ∀ column, d.NamesColumn column → column = first ∨ second ≤ column) :
    ∃ rest, namedColumns d = first :: second :: rest := by
  have hsorted := increasing_namedColumns d
  -- What is left are the named columns behind the second.
  let rest := (namedColumns d).filter fun column => second < column
  refine ⟨rest, hsorted.eq_of_mem_iff ?_ ?_⟩
  · have hrest : ∀ column ∈ rest, second < column := by simp [rest]
    refine List.pairwise_cons.mpr ⟨?_, List.pairwise_cons.mpr ⟨?_, hsorted.filter _⟩⟩
    · intro column hcolumn
      refine compareOfLessAndEq_eq_lt.mpr ?_
      rcases List.mem_cons.mp hcolumn with rfl | hcolumn
      · exact hlt
      · exact String.lt_trans hlt (hrest column hcolumn)
    · exact fun column hcolumn => compareOfLessAndEq_eq_lt.mpr (hrest column hcolumn)
  · intro column
    simp only [rest, List.mem_cons, List.mem_filter, mem_namedColumns, decide_eq_true_eq]
    constructor
    · intro hcolumn
      rcases hleast column hcolumn with rfl | hle
      · exact .inl rfl
      · by_cases hsame : column = second
        · exact .inr (.inl hsame)
        · refine .inr (.inr ⟨hcolumn, ?_⟩)
          exact String.not_le.mp fun hge => hsame (String.le_antisymm hge hle)
    · rintro (rfl | rfl | ⟨hcolumn, -⟩)
      · exact hfirst
      · exact hsecond
      · exact hcolumn

/-- A scoping column is refused exactly for its fault. -/
theorem scopingColumn_eq_error_iff : scopingColumn d c = .error e ↔ d.ColumnFault c e := by
  constructor
  · intro h
    unfold scopingColumn at h
    split at h
    · rename_i first second rest hnamed
      cases h
      exact columnFault_of_named hnamed
    · rename_i column hnamed
      split at h
      · cases h
      · rename_i hlisted
        cases h
        simp only [Bool.or_eq_true, List.isEmpty_iff, List.contains_iff_mem, not_or] at hlisted
        refine .unknown (fun other => ?_) hlisted.1 hlisted.2
        rw [← mem_namedColumns, hnamed, List.mem_singleton]
    · rename_i hnamed
      split at h
      · cases h
      · rename_i hbest
        cases h
        refine .missing (fun column hcolumn => ?_) (Conventions.best?_eq_none_iff.mp hbest)
        rw [← mem_namedColumns, hnamed] at hcolumn
        cases hcolumn
  · intro h
    unfold scopingColumn
    cases h with
    | several hfirst hsecond hlt hleast =>
      obtain ⟨rest, hnamed⟩ := namedColumns_of_least hfirst hsecond hlt hleast
      simp only [hnamed]
    | @unknown column honly hsome hunlisted =>
      have hnamed : namedColumns d = [column] := by
        refine (increasing_namedColumns d).eq_of_mem_iff (List.pairwise_singleton _ _) ?_
        intro other
        rw [mem_namedColumns, honly, List.mem_singleton]
      simp [hnamed, hsome, hunlisted]
    | missing hnone hmatch =>
      have hnamed : namedColumns d = [] := by
        rw [List.eq_nil_iff_forall_not_mem]
        exact fun column hcolumn => hnone column (mem_namedColumns.mp hcolumn)
      simp only [hnamed, Conventions.best?_eq_none_iff.mpr hmatch]
      rfl

/-- A label is refused exactly for the fault of its entity. -/
theorem ofDeclaration_eq_error_iff :
    ofDeclaration s ⟨s.scopingColumns⟩ d = .error e ↔ d.Fault s e := by
  unfold ofDeclaration
  cases htenant : tenantOrigin? d s with
  | none =>
    have hnot : ¬ d.LabelledTenant s := by
      rw [← isSome_tenantOrigin?_iff, htenant]
      simp
    constructor
    · intro h
      simp only at h
      split at h <;> cases h
    · intro h
      cases h with
      | global h _ => exact absurd h hnot
      | root h _ _ => exact absurd h hnot
      | column h _ _ _ => exact absurd h hnot
  | some origin =>
    have hlabelled : d.LabelledTenant s := by
      rw [← isSome_tenantOrigin?_iff, htenant]
      rfl
    simp only
    -- The checks are made in the order in which faults count.
    by_cases hglobal : d.LabelledGlobal s
    · rw [if_pos (isSome_globalOrigin?_iff.mpr hglobal)]
      constructor
      · intro h
        cases h
        exact .global hlabelled hglobal
      · intro h
        cases h with
        | global _ _ => rfl
        | root _ h _ => exact absurd hglobal h
        | column _ h _ _ => exact absurd hglobal h
    · rw [if_neg (mt isSome_globalOrigin?_iff.mp hglobal)]
      by_cases hroot : d.LabelledRoot s
      · rw [if_pos (isSome_rootOrigin?_iff.mpr hroot)]
        constructor
        · intro h
          cases h
          exact .root hlabelled hglobal hroot
        · intro h
          cases h with
          | global _ h => exact absurd h hglobal
          | root _ _ _ => rfl
          | column _ _ h _ => exact absurd hroot h
      · rw [if_neg (mt isSome_rootOrigin?_iff.mp hroot), bind_eq_error_iff,
          scopingColumn_eq_error_iff]
        constructor
        · rintro (h | ⟨column, -, h⟩)
          · exact .column hlabelled hglobal hroot h
          · cases h
        · intro h
          cases h with
          | global _ h => exact absurd h hglobal
          | root _ _ h => exact absurd h hroot
          | column _ _ _ h => exact .inl h

end Label

namespace Declaration

/-- An entity lacks a scoping column exactly when there is an error for it. -/
theorem exists_columnFault_iff {c : Conventions} {d : Declaration} :
    (∃ e, d.ColumnFault c e) ↔ d.LacksColumn c := by
  constructor
  · rintro ⟨e, h⟩
    cases h with
    | several hfirst hsecond hlt _ => exact .inl ⟨_, _, String.ne_of_lt hlt, hfirst, hsecond⟩
    | unknown honly hsome hunlisted => exact .inr (.inl ⟨_, honly, hsome, hunlisted⟩)
    | missing hnone hmatch => exact .inr (.inr ⟨hnone, hmatch⟩)
  · rintro (⟨first, second, hne, hfirst, hsecond⟩ | ⟨column, honly, hsome, hunlisted⟩ |
      ⟨hnone, hmatch⟩)
    · rw [← Label.mem_namedColumns] at hfirst hsecond
      match hnamed : Label.namedColumns d with
      | [] =>
        rw [hnamed] at hfirst
        cases hfirst
      | [column] =>
        rw [hnamed, List.mem_singleton] at hfirst hsecond
        exact absurd (hfirst.trans hsecond.symm) hne
      | _ :: _ :: _ => exact ⟨_, Label.columnFault_of_named hnamed⟩
    · exact ⟨_, .unknown honly hsome hunlisted⟩
    · exact ⟨_, .missing hnone hmatch⟩

/-- An entity is faulty exactly when it has a fault. -/
theorem exists_fault_iff {s : SchemaSettings} {d : Declaration} :
    (∃ e, d.Fault s e) ↔ d.IsFaulty s := by
  constructor
  · rintro ⟨e, h⟩
    cases h with
    | global htenant hglobal => exact ⟨htenant, .inl hglobal⟩
    | root htenant _ hroot => exact ⟨htenant, .inr (.inl hroot)⟩
    | column htenant _ _ hcolumn =>
      exact ⟨htenant, .inr (.inr (exists_columnFault_iff.mp ⟨e, hcolumn⟩))⟩
  · rintro ⟨htenant, h⟩
    by_cases hglobal : d.LabelledGlobal s
    · exact ⟨_, .global htenant hglobal⟩
    by_cases hroot : d.LabelledRoot s
    · exact ⟨_, .root htenant hglobal hroot⟩
    have hlacks := (h.resolve_left hglobal).resolve_left hroot
    obtain ⟨e, he⟩ := exists_columnFault_iff.mpr hlacks
    exact ⟨e, .column htenant hglobal hroot he⟩

end Declaration

/-! ### Classification -/

namespace Schema

variable {s : SchemaSettings} {declarations merged : List Declaration} {d : Declaration}
  {e : SchemaError}

/-- An entity is not labelled exactly for its fault. -/
theorem labelOne_eq_error_iff : labelOne s d = .error e ↔ d.Fault s e := by
  unfold labelOne
  rw [bind_eq_error_iff, ← Label.ofDeclaration_eq_error_iff]
  refine or_iff_left ?_
  rintro ⟨label, -, h⟩
  cases h

/-- An entity is labelled exactly when it is not faulty. -/
theorem exists_labelOne_iff : (∃ l, labelOne s d = .ok l) ↔ ¬ d.IsFaulty s := by
  rw [← Declaration.exists_fault_iff]
  simp only [← labelOne_eq_error_iff]
  cases labelOne s d with
  | error e => simp
  | ok l => simp

/-- After a successful merge only the labels can fail. -/
theorem classify_eq_error_iff (hmerge : Declaration.merge declarations = .ok merged) :
    classify s declarations = .error e ↔ merged.mapM (labelOne s) = .error e := by
  unfold classify
  rw [plan_of_merge hmerge]
  cases merged.mapM (labelOne s) with
  | error e' =>
    constructor
    · intro h
      cases h
      rfl
    · intro h
      cases h
      rfl
  | ok labelled =>
    constructor
    · intro h
      cases h
    · intro h
      cases h

/-- The first entity that is not labelled has the least name of those that are faulty. -/
theorem mapM_labelOne_eq_error_iff (hsorted : Ordered.Increasing (merged.map Declaration.entity)) :
    merged.mapM (labelOne s) = .error e ↔ ∃ d ∈ merged, d.Fault s e ∧
      ∀ other ∈ merged, other.IsFaulty s → d.entity ≤ other.entity := by
  rw [hsorted.mapM_eq_error_iff]
  simp only [labelOne_eq_error_iff, ← Declaration.exists_fault_iff, forall_exists_index]

/-- **Classification fails exactly on a faulty entity.** After a successful merge, it fails exactly
when some merged entity is labelled tenant-scoped and has another label too or lacks a scoping
column. The error is the fault of the least of these entities, by name. -/
theorem classify_fails_iff (s : SchemaSettings)
    (hmerge : Declaration.merge declarations = .ok merged) :
    ((∃ e, classify s declarations = .error e) ↔ ∃ d ∈ merged, d.IsFaulty s) ∧
      ∀ e, classify s declarations = .error e ↔ ∃ d ∈ merged, d.Fault s e ∧
        ∀ other ∈ merged, other.IsFaulty s → d.entity ≤ other.entity := by
  have herror : ∀ e, classify s declarations = .error e ↔ ∃ d ∈ merged, d.Fault s e ∧
      ∀ other ∈ merged, other.IsFaulty s → d.entity ≤ other.entity := by
    intro e
    rw [classify_eq_error_iff hmerge]
    exact mapM_labelOne_eq_error_iff (Declaration.increasing_merge hmerge)
  refine ⟨?_, herror⟩
  constructor
  · rintro ⟨e, he⟩
    obtain ⟨d, hd, hfault, -⟩ := (herror e).mp he
    exact ⟨d, hd, Declaration.exists_fault_iff.mp ⟨e, hfault⟩⟩
  · rintro ⟨d, hd, hfaulty⟩
    by_contra hok
    -- Otherwise every entity has been labelled, the faulty one included.
    cases hlabels : merged.mapM (labelOne s) with
    | error e => exact hok ⟨e, (classify_eq_error_iff hmerge).mpr hlabels⟩
    | ok labelled =>
      obtain ⟨l, -, hl⟩ := exists_of_forall₂_left (mapM_eq_ok_iff.mp hlabels) hd
      exact exists_labelOne_iff.mp ⟨l, hl⟩ hfaulty

/-- Invoices and orders are both labelled tenant-scoped. Orders have no scoping column, and invoices
name one that is not theirs; but they are also in the list of global entities, and they come first
by name. -/
theorem classify_fails_of_invoices :
    ∃ (s : SchemaSettings) (declarations merged : List Declaration) (e : SchemaError),
      Declaration.merge declarations = .ok merged ∧ classify s declarations = .error e ∧
      e = .conflictingMarks "Invoice" "tenant-scoped" "global" ∧
      ∃ d ∈ merged, d.Fault s e ∧
        ∀ other ∈ merged, other.IsFaulty s → d.entity ≤ other.entity := by
  let s := { SchemaSettings.default with globalTables := ["invoices"] }
  let declarations := [
    ((Declaration.named "Order" "orders").addColumns ["id"]).addMark (.tenantScoped none),
    ((Declaration.named "Invoice" "invoices").addColumns ["id"]).addMark
      (.tenantScoped (some "account_id"))]
  let merged := (Declaration.merge declarations).toOption.getD []
  have hmerge : Declaration.merge declarations = .ok merged := by decide +kernel
  have hclassify : classify s declarations =
      .error (.conflictingMarks "Invoice" "tenant-scoped" "global") := by decide +kernel
  exact ⟨s, declarations, merged, _, hmerge, hclassify, rfl,
    ((classify_fails_iff s hmerge).2 _).mp hclassify⟩

end Schema

end Tenancy

import Tenancy.Proofs.Access.Lookup

/-!
# Which column a text is bound to

A text is bound to a column of a target or refused. `IsBinding` says what a binding is without
looking anything up, and `Fault` when a text is refused and with which error. If the targets are
told apart by their names and storage keys (`Entity.AreDistinct`), resolving a text finds its
binding whenever it has one, and otherwise gives the error of its fault:
`resolve_iff_binding_or_fault`.

* `isBinding_of_resolve` and `resolve_of_isBinding`: whatever is found is a binding, and every
  binding is found.
* `fault_of_resolve` and `resolve_of_fault`: the same for faults.
-/

set_option autoImplicit false

namespace Tenancy

open Tenancy.Support

/-- Entities that are told apart: no two have the same name or the same storage key, and none is
named like the storage key of another. -/
structure Entity.AreDistinct (entities : List Entity) : Prop where
  names : (entities.map Entity.name).Nodup
  keys : (entities.map Entity.storageKey).Nodup
  apart : ∀ e ∈ entities, ∀ other ∈ entities, e.name = other.storageKey → e = other

/-- A text is the name or storage key of one entity at most. -/
theorem Entity.AreDistinct.eq_of_isNamed {entities : List Entity} (h : AreDistinct entities)
    {e other : Entity} (he : e ∈ entities) (hother : other ∈ entities) {text : String}
    (hnamed : e.isNamed text = true) (hnamed' : other.isNamed text = true) : e = other := by
  refine Entity.eq_of_isNamed h.names h.keys (fun _ => id) ?_ he hother hnamed hnamed'
  rintro ⟨e, he, other, hother, hname, hkey, hne⟩
  exact hne (h.apart e he other hother (hname.trans hkey.symm))

namespace ColumnRef

variable {targets : List Entity} {text : String} {operation : Nat}

/-- A column is listed by one target and by no other. -/
def IsOnlyLister (targets : List Entity) (column : String) (e : Entity) : Prop :=
  column ∈ e.columns ∧ ∀ other ∈ targets, column ∈ other.columns → other = e

/-- A text is bound to a column of a target that accepts it. The text is the column alone, and then
there is no other target or none that lists the column; or it is the column with the name or storage
key of the target in front. -/
structure IsBinding (targets : List Entity) (text : String) (ref : ColumnRef) (e : Entity) :
    Prop where
  mem : e ∈ targets
  name : e.name = ref.entity
  accepts : e.acceptsColumn ref.column = true
  written : IsBare text ref.column ∧ (targets = [e] ∨ IsOnlyLister targets ref.column e) ∨
    ∃ qualifier, IsQualified text qualifier ref.column ∧ e.isNamed qualifier = true

/-- Why a text is refused. -/
inductive Fault (targets : List Entity) (text : String) (operation : Nat) : ExtractionError → Prop
  /-- Nothing is written. -/
  | blank : Text.trim text = "" → Fault targets text operation (.emptyColumn operation)
  /-- Nothing is written behind the name of a target. -/
  | missing {qualifier : String} {e : Entity} : IsDotted text qualifier "" → e ∈ targets →
      e.isNamed qualifier = true → Fault targets text operation (.emptyColumn operation)
  /-- No target has the name in front. -/
  | foreign {qualifier column : String} : IsDotted text qualifier column →
      (∀ e ∈ targets, e.isNamed qualifier = false) →
      Fault targets text operation (.foreignQualifier qualifier column operation)
  /-- The target with the name in front does not accept the column. -/
  | rejected {qualifier column : String} {e : Entity} : IsQualified text qualifier column →
      e ∈ targets → e.isNamed qualifier = true → e.acceptsColumn column = false →
      Fault targets text operation (.unknownColumn e.name column operation)
  /-- The only target does not accept the column. -/
  | unknown {column : String} {e : Entity} : IsBare text column → targets = [e] →
      e.acceptsColumn column = false →
      Fault targets text operation (.unknownColumn e.name column operation)
  /-- There are several targets, and none of them lists the column. -/
  | unlisted {column : String} : IsBare text column → 2 ≤ targets.length →
      (∀ e ∈ targets, column ∉ e.columns) →
      Fault targets text operation
        (.ambiguousColumn column (", ".intercalate (targets.map Entity.name)) operation)
  /-- Several targets list the column. -/
  | ambiguous {column : String} {e other : Entity} : IsBare text column → e ∈ targets →
      other ∈ targets → e ≠ other → column ∈ e.columns → column ∈ other.columns →
      Fault targets text operation
        (.ambiguousColumn column (", ".intercalate (targets.map Entity.name)) operation)

/-! ### What each look-up can give -/

/-- A text with nothing in it has no column. -/
theorem resolve_of_blank (h : Text.trim text = "") :
    resolve targets text operation = .error (.emptyColumn operation) := by
  unfold resolve
  simp only [h, if_true]

/-- An entity gives the columns that it accepts. -/
theorem ofEntity_eq_ok_iff {e : Entity} {column : String} {ref : ColumnRef} :
    ofEntity e column operation = .ok ref ↔
      e.acceptsColumn column = true ∧ ref = ⟨e.name, column⟩ := by
  unfold ofEntity
  cases e.acceptsColumn column <;> simp [eq_comm]

/-- An entity rejects the columns that it does not accept. -/
theorem ofEntity_eq_error_iff {e : Entity} {column : String} {err : ExtractionError} :
    ofEntity e column operation = .error err ↔
      e.acceptsColumn column = false ∧ err = .unknownColumn e.name column operation := by
  unfold ofEntity
  cases e.acceptsColumn column <;> simp [eq_comm]

/-- A qualified column is one of the target that has the qualifier, unless no column is written or
no target has it. -/
theorem ofQualified_cases (targets : List Entity) (qualifier column : String) (operation : Nat) :
    (∀ e ∈ targets, e.isNamed qualifier = false) ∧
        ofQualified targets qualifier column operation =
          .error (.foreignQualifier qualifier column operation) ∨
      ∃ e ∈ targets, e.isNamed qualifier = true ∧
        (column = "" ∧
            ofQualified targets qualifier column operation = .error (.emptyColumn operation) ∨
          column ≠ "" ∧
            ofQualified targets qualifier column operation = ofEntity e column operation) := by
  unfold ofQualified
  cases hfind : targets.find? fun e => e.isNamed qualifier with
  | none => exact .inl ⟨by simpa using hfind, rfl⟩
  | some e =>
    refine .inr ⟨e, List.mem_of_find?_eq_some hfind, by simpa using List.find?_some hfind, ?_⟩
    by_cases hcolumn : column = ""
    · exact .inl ⟨hcolumn, if_pos hcolumn⟩
    · exact .inr ⟨hcolumn, if_neg hcolumn⟩

/-- A bare column is one of the only target; if there are more, it is one of the target that lists
it and no other does. -/
theorem ofBare_cases (targets : List Entity) (column : String) (operation : Nat) :
    (∃ e, targets = [e] ∧ ofBare targets column operation = ofEntity e column operation) ∨
      targets.length ≠ 1 ∧
        ((∃ e, targets.filter (fun e => decide (column ∈ e.columns)) = [e] ∧
            ofBare targets column operation = .ok ⟨e.name, column⟩) ∨
          (∀ e, targets.filter (fun e => decide (column ∈ e.columns)) ≠ [e]) ∧
            ofBare targets column operation = .error (.ambiguousColumn column
              (", ".intercalate (targets.map Entity.name)) operation)) := by
  unfold ofBare
  split
  · exact .inl ⟨_, rfl, rfl⟩
  · rename_i hmany
    refine .inr ⟨fun hone => ?_, ?_⟩
    · obtain ⟨e, he⟩ := List.length_eq_one_iff.mp hone
      exact hmany e he
    · split
      · rename_i e hlisted
        exact .inl ⟨e, hlisted, rfl⟩
      · rename_i hnone
        exact .inr ⟨hnone, rfl⟩

/-- The only target that is left of those that list a column is its only lister. -/
theorem isOnlyLister_of_filter {column : String} {e : Entity}
    (h : targets.filter (fun e => decide (column ∈ e.columns)) = [e]) :
    e ∈ targets ∧ IsOnlyLister targets column e := by
  have hmem : ∀ other, other ∈ targets ∧ column ∈ other.columns ↔ other = e := by
    intro other
    rw [← List.mem_singleton, ← h, List.mem_filter, decide_eq_true_eq]
  obtain ⟨he, hcolumn⟩ := (hmem e).mpr rfl
  exact ⟨he, hcolumn, fun other hother hlists => (hmem other).mp ⟨hother, hlists⟩⟩

/-- Of targets without repetitions, the only lister of a column is all that is left. -/
theorem filter_of_isOnlyLister (htargets : targets.Nodup) {column : String} {e : Entity}
    (he : e ∈ targets) (h : IsOnlyLister targets column e) :
    targets.filter (fun e => decide (column ∈ e.columns)) = [e] := by
  rw [← List.perm_singleton,
    List.perm_ext_iff_of_nodup (htargets.filter _) (List.nodup_singleton e)]
  intro other
  rw [List.mem_filter, List.mem_singleton, decide_eq_true_eq]
  constructor
  · rintro ⟨hother, hlists⟩
    exact h.2 other hother hlists
  · rintro rfl
    exact ⟨he, h.1⟩

/-! ### Bindings -/

/-- An entity that lists a column accepts it. -/
theorem IsOnlyLister.acceptsColumn {column : String} {e : Entity}
    (h : IsOnlyLister targets column e) : e.acceptsColumn column = true := by
  simp [Entity.acceptsColumn, h.1]

/-- Whatever a text is resolved to, it is bound to. -/
theorem isBinding_of_resolve {ref : ColumnRef} (h : resolve targets text operation = .ok ref) :
    ∃ e, IsBinding targets text ref e := by
  rcases written_cases text with hblank | ⟨column, hbare⟩ | ⟨qualifier, column, hdotted⟩
  · rw [resolve_of_blank hblank] at h
    cases h
  · rw [resolve_of_isBare hbare] at h
    rcases ofBare_cases targets column operation with
      ⟨e, rfl, hof⟩ | ⟨-, ⟨e, hlisted, hof⟩ | ⟨-, hof⟩⟩ <;> rw [hof] at h
    · obtain ⟨haccepts, rfl⟩ := ofEntity_eq_ok_iff.mp h
      exact ⟨e, List.mem_singleton_self e, rfl, haccepts, .inl ⟨hbare, .inl rfl⟩⟩
    · cases h
      obtain ⟨he, honly⟩ := isOnlyLister_of_filter hlisted
      exact ⟨e, he, rfl, honly.acceptsColumn, .inl ⟨hbare, .inr honly⟩⟩
    · cases h
  · rw [resolve_of_isDotted hdotted] at h
    rcases ofQualified_cases targets qualifier column operation with
      ⟨-, hof⟩ | ⟨e, he, hnamed, ⟨-, hof⟩ | ⟨hcolumn, hof⟩⟩ <;> rw [hof] at h
    · cases h
    · cases h
    · obtain ⟨haccepts, rfl⟩ := ofEntity_eq_ok_iff.mp h
      exact ⟨e, he, rfl, haccepts, .inr ⟨qualifier, hdotted.isQualified hcolumn, hnamed⟩⟩

/-- A qualified column is one of the target that the qualifier names. -/
theorem resolve_of_isNamed (hdistinct : Entity.AreDistinct targets) {qualifier column : String}
    (hqualified : IsQualified text qualifier column) {e : Entity} (he : e ∈ targets)
    (hnamed : e.isNamed qualifier = true) (operation : Nat) :
    resolve targets text operation = ofEntity e column operation := by
  refine resolve_of_find? hqualified operation (find?_of_unique he hnamed ?_)
  intro other hother hnamed'
  exact hdistinct.eq_of_isNamed hother he hnamed' hnamed

/-- A text is resolved to whatever it is bound to. -/
theorem resolve_of_isBinding (hdistinct : Entity.AreDistinct targets) {ref : ColumnRef}
    {e : Entity} (h : IsBinding targets text ref e) (operation : Nat) :
    resolve targets text operation = .ok ref := by
  have haccepted : ofEntity e ref.column operation = .ok ref := by
    rw [ofEntity_eq_ok_iff, h.name]
    exact ⟨h.accepts, rfl⟩
  rcases h.written with ⟨hbare, hone⟩ | ⟨qualifier, hqualified, hnamed⟩
  · rw [resolve_of_isBare hbare]
    rcases ofBare_cases targets ref.column operation with
      ⟨only, rfl, hof⟩ | ⟨hlength, hof⟩
    · obtain rfl := List.mem_singleton.mp h.mem
      rw [hof, haccepted]
    · have honly : IsOnlyLister targets ref.column e :=
        hone.resolve_left fun hsingle => hlength (by rw [hsingle]; rfl)
      have hlisted := filter_of_isOnlyLister hdistinct.names.of_map h.mem honly
      rcases hof with ⟨other, hother, hof⟩ | ⟨hnone, -⟩
      · rw [hlisted] at hother
        cases hother
        rw [hof, h.name]
      · exact absurd hlisted (hnone e)
  · rw [resolve_of_isNamed hdistinct hqualified h.mem hnamed, haccepted]

/-! ### Faults -/

/-- A text that is refused has the fault that it is refused for. -/
theorem fault_of_resolve (hne : targets ≠ []) (hdistinct : Entity.AreDistinct targets)
    {err : ExtractionError} (h : resolve targets text operation = .error err) :
    Fault targets text operation err := by
  rcases written_cases text with hblank | ⟨column, hbare⟩ | ⟨qualifier, column, hdotted⟩
  · rw [resolve_of_blank hblank] at h
    cases h
    exact .blank hblank
  · rw [resolve_of_isBare hbare] at h
    rcases ofBare_cases targets column operation with
      ⟨e, rfl, hof⟩ | ⟨hlength, ⟨e, -, hof⟩ | ⟨hnone, hof⟩⟩ <;> rw [hof] at h
    · obtain ⟨hrejects, rfl⟩ := ofEntity_eq_error_iff.mp h
      exact .unknown hbare rfl hrejects
    · cases h
    · cases h
      -- Either no target lists the column, or at least two do.
      cases hlisted : targets.filter fun e => decide (column ∈ e.columns) with
      | nil =>
        have hmany : 2 ≤ targets.length := by
          have hpos := List.length_pos_of_ne_nil hne
          omega
        exact .unlisted hbare hmany (by simpa using hlisted)
      | cons e rest =>
        cases rest with
        | nil => exact absurd hlisted (hnone e)
        | cons other rest =>
          have hnodup := hdistinct.names.of_map.filter fun e => decide (column ∈ e.columns)
          have hmem : ∀ a ∈ e :: other :: rest, a ∈ targets ∧ column ∈ a.columns := by
            intro a ha
            rw [← hlisted, List.mem_filter, decide_eq_true_eq] at ha
            exact ha
          rw [hlisted] at hnodup
          obtain ⟨he, hcolumn⟩ := hmem e (by simp)
          obtain ⟨hother, hcolumn'⟩ := hmem other (by simp)
          refine .ambiguous hbare he hother ?_ hcolumn hcolumn'
          rintro rfl
          simp at hnodup
  · rw [resolve_of_isDotted hdotted] at h
    rcases ofQualified_cases targets qualifier column operation with
      ⟨hforeign, hof⟩ | ⟨e, he, hnamed, ⟨rfl, hof⟩ | ⟨hcolumn, hof⟩⟩ <;> rw [hof] at h
    · cases h
      exact .foreign hdotted hforeign
    · cases h
      exact .missing hdotted he hnamed
    · obtain ⟨hrejects, rfl⟩ := ofEntity_eq_error_iff.mp h
      exact .rejected (hdotted.isQualified hcolumn) he hnamed hrejects

/-- A text is refused for every fault that it has. -/
theorem resolve_of_fault (hdistinct : Entity.AreDistinct targets) {err : ExtractionError}
    (h : Fault targets text operation err) : resolve targets text operation = .error err := by
  cases h with
  | blank hblank => exact resolve_of_blank hblank
  | @missing qualifier e hdotted he hnamed =>
    rw [resolve_of_isDotted hdotted]
    rcases ofQualified_cases targets qualifier "" operation with
      ⟨hforeign, -⟩ | ⟨-, -, -, ⟨-, hof⟩ | ⟨hcolumn, -⟩⟩
    · rw [hforeign e he] at hnamed
      cases hnamed
    · exact hof
    · exact absurd rfl hcolumn
  | @foreign qualifier column hdotted hforeign =>
    rw [resolve_of_isDotted hdotted]
    rcases ofQualified_cases targets qualifier column operation with
      ⟨-, hof⟩ | ⟨e, he, hnamed, -⟩
    · exact hof
    · rw [hforeign e he] at hnamed
      cases hnamed
  | @rejected qualifier column e hqualified he hnamed hrejects =>
    rw [resolve_of_isNamed hdistinct hqualified he hnamed]
    exact ofEntity_eq_error_iff.mpr ⟨hrejects, rfl⟩
  | @unknown column e hbare hsingle hrejects =>
    subst hsingle
    rw [resolve_of_isBare hbare]
    exact ofEntity_eq_error_iff.mpr ⟨hrejects, rfl⟩
  | @unlisted column hbare hmany hnone =>
    rw [resolve_of_isBare hbare]
    rcases ofBare_cases targets column operation with
      ⟨e, rfl, -⟩ | ⟨-, ⟨e, hlisted, -⟩ | ⟨-, hof⟩⟩
    · exact absurd hmany (by simp)
    · obtain ⟨he, honly⟩ := isOnlyLister_of_filter hlisted
      exact absurd honly.1 (hnone e he)
    · exact hof
  | @ambiguous column e other hbare he hother hne hcolumn hcolumn' =>
    rw [resolve_of_isBare hbare]
    rcases ofBare_cases targets column operation with
      ⟨only, rfl, -⟩ | ⟨-, ⟨only, hlisted, -⟩ | ⟨-, hof⟩⟩
    · exact absurd ((List.mem_singleton.mp he).trans (List.mem_singleton.mp hother).symm) hne
    · obtain ⟨-, honly⟩ := isOnlyLister_of_filter hlisted
      exact absurd ((honly.2 e he hcolumn).trans (honly.2 other hother hcolumn').symm) hne
    · exact hof

/-- **A text is resolved to the column that it is bound to, and refused for the fault that it has.**
It is refused exactly if it is bound to no column of the targets. -/
theorem resolve_iff_binding_or_fault (hne : targets ≠ []) (hdistinct : Entity.AreDistinct targets)
    (text : String) (operation : Nat) :
    (∀ ref, resolve targets text operation = .ok ref ↔ ∃ e, IsBinding targets text ref e) ∧
    (∀ err, resolve targets text operation = .error err ↔ Fault targets text operation err) ∧
    ((∃ err, resolve targets text operation = .error err) ↔
      ¬ ∃ ref e, IsBinding targets text ref e) := by
  have hok : ∀ ref, resolve targets text operation = .ok ref ↔
      ∃ e, IsBinding targets text ref e := by
    intro ref
    refine ⟨isBinding_of_resolve, ?_⟩
    rintro ⟨e, hbinding⟩
    exact resolve_of_isBinding hdistinct hbinding operation
  refine ⟨hok, fun err => ⟨fault_of_resolve hne hdistinct, resolve_of_fault hdistinct⟩, ?_⟩
  simp only [← hok]
  cases resolve targets text operation with
  | error err => simp
  | ok ref => simp

/-- In the sample application, a column of the table `users` is bound to users, and the same column
without the table could be one of users or of projects. -/
theorem resolve_iff_binding_or_fault_sample :
    ∃ targets : List Entity, targets.map Entity.name = ["Project", "User"] ∧
      Entity.AreDistinct targets ∧
      resolve targets " models.users.workspace_id" 0 = .ok ⟨"User", "workspace_id"⟩ ∧
      resolve targets "workspace_id" 0 =
        .error (.ambiguousColumn "workspace_id" "Project, User" 0) := by
  let schema := (Schema.classify Sample.settings.schema Sample.schema).toOption.getD default
  let user := (schema.get? "User").getD default
  let project := (schema.get? "Project").getD default
  have hdistinct : Entity.AreDistinct [project, user] :=
    ⟨by decide +kernel, by decide +kernel, by decide +kernel⟩
  refine ⟨[project, user], by decide +kernel, hdistinct, ?_, ?_⟩
  · refine ((resolve_iff_binding_or_fault (by simp) hdistinct _ 0).1 _).mpr ⟨user, ?_⟩
    refine ⟨by simp, by decide +kernel, by decide +kernel, .inr ⟨"users", ?_, by decide +kernel⟩⟩
    exact ⟨.inr ⟨"models", by decide⟩, by decide, by decide, by decide⟩
  · refine ((resolve_iff_binding_or_fault (by simp) hdistinct _ 0).2.1 _).mpr ?_
    have hnames : ", ".intercalate ([project, user].map Entity.name) = "Project, User" := by
      decide +kernel
    have hproject : project ∈ [project, user] := by simp
    have huser : user ∈ [project, user] := by simp
    rw [← hnames]
    exact .ambiguous ⟨by decide, by decide, by decide⟩ hproject huser (by decide +kernel)
      (by decide +kernel) (by decide +kernel)

end ColumnRef

end Tenancy

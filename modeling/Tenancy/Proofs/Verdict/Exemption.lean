import Tenancy.Proofs.Verdict.Isolation

/-!
# When an access is exempt

An exemption is decided once for a whole handler and switches the rules off for each of its
operations. `evaluate_exempt_iff` says when that is: a dependency of the handler gives administrator
rights, or its route starts with one of the texts that the settings list.

A route starts with a text wherever the text ends, also in the middle of a segment. `LiesUnder` is
the narrower reading, by which a listed text has to end where a segment of the route does, and
`exempt_beside_admin` is an exempt handler whose route does not lie under any listed text.

`evaluate_cases` lists what a verdict can be: exempt, safe or a violation.
-/

set_option autoImplicit false

namespace Tenancy

open Tenancy.Support

namespace AccessPoint

variable {p : AccessPoint}

/-! ### What a verdict can be -/

/-- An access that leaves targets open breaks a rule. -/
theorem exists_withGaps_eq (required covered uncovered : List Entity) :
    ∃ kind text fix, p.withGaps required covered uncovered = p.violation kind text fix := by
  unfold withGaps
  simp only
  split
  · exact ⟨_, _, _, rfl⟩
  · split
    · exact ⟨_, _, _, rfl⟩
    · exact ⟨_, _, _, rfl⟩

/-- An access that is looked at is safe or breaks a rule. -/
theorem judge_cases (required : List Entity) :
    (∃ text, p.judge required = p.safe text) ∨
      ∃ kind text fix, p.judge required = p.violation kind text fix := by
  unfold judge
  split
  · exact .inl ⟨_, rfl⟩
  · split
    · exact .inr ⟨_, _, _, rfl⟩
    · simp only
      split
      · exact .inl ⟨_, rfl⟩
      · exact .inr (exists_withGaps_eq _ _ _)

/-- The verdict on an access with an exemption is that it is exempt. Without one the access is safe
or breaks a rule. -/
theorem evaluate_cases {schema : Schema} {v : Verdict} (h : p.evaluate schema = .ok (some v)) :
    p.exemptions ≠ [] ∧ v = p.exempt ∨
      p.exemptions = [] ∧
        ((∃ text, v = p.safe text) ∨ ∃ kind text fix, v = p.violation kind text fix) := by
  unfold evaluate at h
  split at h
  · cases h
  split at h
  · cases h
  split at h
  · rename_i hexempt
    cases h
    exact .inl ⟨by simpa using hexempt, rfl⟩
  · rename_i hexempt
    obtain ⟨required, -, hjudge⟩ := bind_eq_ok_iff.mp h
    cases hjudge
    exact .inr ⟨by simpa using hexempt, judge_cases required⟩

/-- An access is exempt exactly when it has an exemption. -/
theorem classification_eq_exempt_iff {schema : Schema} {v : Verdict}
    (h : p.evaluate schema = .ok (some v)) :
    v.classification = .exempt ↔ p.exemptions ≠ [] := by
  rcases evaluate_cases h with ⟨hsome, rfl⟩ | ⟨hnone, ⟨text, rfl⟩ | ⟨kind, text, fix, rfl⟩⟩
  · exact ⟨fun _ => hsome, fun _ => rfl⟩
  · simp [safe, hnone]
  · simp [violation, hnone]

end AccessPoint

namespace Extractor

variable {x : Extractor} {h : Handler}

/-! ### Exemptions of a handler -/

/-- A handler is on a route for administrators exactly when its route starts with a listed text. -/
theorem isAdminRoute_iff :
    x.isAdminRoute h = true ↔ ∃ route, h.location.route = some route ∧
      ∃ start ∈ x.adminRoutePrefixes, start.toList <+: route.toList := by
  unfold isAdminRoute Text.startsWith
  cases h.location.route with
  | none => simp
  | some route => simp

/-- A handler has an exemption exactly when a dependency makes it one for administrators, or its
route does. -/
theorem exemptions_ne_nil_iff :
    x.exemptions h ≠ [] ↔
      (∃ d ∈ h.dependencies, x.kindOf d = .admin) ∨ x.isAdminRoute h = true := by
  rw [← mem_kinds_iff]
  unfold exemptions
  by_cases hadmin : .admin ∈ x.kinds h
  · simp [hadmin]
  · by_cases hroute : x.isAdminRoute h = true
    · simp [hroute]
    · simp [hadmin, hroute]

/-- **Exempt means for administrators.** A verdict on an operation of a handler is that it is exempt
exactly when the handler has a dependency that the providers say is for administrators, or its route
starts with a text that the settings list. -/
theorem evaluate_exempt_iff (schema : Schema) (s : Settings) {found : List AccessPoint}
    (hfound : (Extractor.ofSettings schema s).extract h = .ok found) {operation : Nat}
    {p : AccessPoint} (hp : found[operation]? = some p) {v : Verdict}
    (hv : p.evaluate schema = .ok (some v)) :
    v.classification = .exempt ↔
      (∃ d ∈ h.dependencies,
        (ProviderTable.ofSettings s.providers).classify d.provider d.hint = .admin) ∨
      ∃ route, h.location.route = some route ∧
        ∃ start ∈ s.exemptions.adminRoutePrefixes, start.toList <+: route.toList := by
  obtain ⟨_, o, -, -, hpoint⟩ := exists_operation hfound (List.mem_of_getElem? hp)
  obtain ⟨targets, filters, -, -, rfl⟩ := point_eq_ok hpoint
  rw [AccessPoint.classification_eq_exempt_iff hv]
  exact exemptions_ne_nil_iff.trans (or_congr_right isAdminRoute_iff)

/-- In the sample application, a deletion on a route for administrators is exempt, although nothing
that its handler is given is for administrators. -/
theorem evaluate_exempt_of_route :
    ∃ (schema : Schema) (h : Handler) (found : List AccessPoint) (p : AccessPoint) (v : Verdict),
      (Extractor.ofSettings schema Sample.settings).extract h = .ok found ∧
      found[0]? = some p ∧ p.evaluate schema = .ok (some v) ∧
      (∀ d ∈ h.dependencies, (Extractor.ofSettings schema Sample.settings).kindOf d ≠ .admin) ∧
      v.classification = .exempt := by
  let schema := (Schema.classify Sample.settings.schema Sample.schema).toOption.getD default
  let x := Extractor.ofSettings schema Sample.settings
  let h := (Sample.handler 1 "purge_users" "/admin/users").addOperation
    (Sample.operation .delete "User" 2)
  let found := (x.extract h).toOption.getD []
  let p := found[0]?.getD default
  let v := ((p.evaluate schema).toOption.getD none).getD default
  have hfound : x.extract h = .ok found := by decide +kernel
  have hp : found[0]? = some p := by decide +kernel
  have hv : p.evaluate schema = .ok (some v) := by decide +kernel
  refine ⟨schema, h, found, p, v, hfound, hp, hv, by decide +kernel, ?_⟩
  exact (evaluate_exempt_iff schema Sample.settings hfound hp hv).mpr
    (.inr ⟨"/admin/users", rfl, "/admin", by decide, by decide⟩)

/-! ### Segments of routes -/

/-- A route lies under another: it is the other one, or goes on behind it with a new segment. -/
def LiesUnder (route start : String) : Prop :=
  route = start ∨ start.toList <+: route.toList ∧
    (start.toList.getLast? = some '/' ∨ route.toList[start.toList.length]? = some '/')

instance (route start : String) : Decidable (LiesUnder route start) :=
  inferInstanceAs (Decidable (_ ∨ _))

/-- In the sample application, a handler is exempt that needs no administrator and whose route
`/administration` does not lie under the one listed text `/admin`. -/
theorem exempt_beside_admin :
    ∃ (schema : Schema) (h : Handler) (found : List AccessPoint) (p : AccessPoint) (v : Verdict),
      Schema.classify Sample.settings.schema Sample.schema = .ok schema ∧
      (Extractor.ofSettings schema Sample.settings).extract h = .ok found ∧
      found[0]? = some p ∧ p.evaluate schema = .ok (some v) ∧ v.classification = .exempt ∧
      ¬ ((∃ d ∈ h.dependencies,
          (ProviderTable.ofSettings Sample.settings.providers).classify d.provider d.hint
            = .admin) ∨
        ∃ route, h.location.route = some route ∧
          ∃ start ∈ Sample.settings.exemptions.adminRoutePrefixes, LiesUnder route start) := by
  let schema := (Schema.classify Sample.settings.schema Sample.schema).toOption.getD default
  let x := Extractor.ofSettings schema Sample.settings
  let h := (Sample.handler 1 "list_members" "/administration").addOperation
    (Sample.operation .read "User" 2)
  let found := (x.extract h).toOption.getD []
  let p := found[0]?.getD default
  let v := ((p.evaluate schema).toOption.getD none).getD default
  refine ⟨schema, h, found, p, v, by decide +kernel, by decide +kernel, by decide +kernel,
    by decide +kernel, by decide +kernel, ?_⟩
  rintro (⟨d, hd, hadmin⟩ | ⟨route, hroute, start, hstart, hunder⟩)
  · exact absurd hadmin (by revert d; decide +kernel)
  · cases hroute
    cases List.mem_singleton.mp hstart
    exact absurd hunder (by decide +kernel)

end Extractor

end Tenancy

import Mathlib.Data.List.Nodup
import Tenancy.Access.Provider
import Tenancy.Proofs.Support.Ordered
import Tenancy.Proofs.Support.Texts

/-!
# Which entry of the settings decides about a provider

The table of providers is filled from three sources, each of which overwrites what the one before it
has set, and it is read with two names. `get?_ofSettings` says what the table holds
(`ProviderSettings.kindOf?`): the mapping counts most, then the list of administrators, then that of
tenant contexts. Which name is looked up first counts more than all of this, so that a whole name in
the last of the lists wins over its last part in the mapping: `classify_follows_precedence`.

* `NameMap.get?_insert`: a table after one entry was set.
* `NameMap.get?_foldl_insert`: a table after many were, if no two of them contradict each other.
-/

set_option autoImplicit false

namespace Tenancy

/-! ### Tables that are filled -/

namespace NameMap

variable {α : Type}

/-- The entry that is found after one was set. -/
theorem find?_insertEntry (name other : String) (value : α) (l : List (String × α)) :
    (insertEntry name value l).find? (fun e => e.1 == other) =
      if name = other then some (name, value) else l.find? fun e => e.1 == other := by
  by_cases h : name = other
  · subst h
    rw [if_pos rfl]
    fun_induction insertEntry name value l with
    | case1 => exact List.find?_cons_of_pos (beq_self_eq_true name)
    | case2 => exact List.find?_cons_of_pos (beq_self_eq_true name)
    | case3 => exact List.find?_cons_of_pos (beq_self_eq_true name)
    | case4 next old rest hgt ih =>
      have hnext : (next == name) = false := by
        rw [beq_eq_false_iff_ne]
        rintro rfl
        rw [Std.ReflOrd.compare_self] at hgt
        cases hgt
      simp only [List.find?_cons, hnext, ih]
  · have hname : (name == other) = false := beq_false_of_ne h
    rw [if_neg h]
    fun_induction insertEntry name value l with
    | case1 => simp only [List.find?_cons, hname]
    | case2 => rw [List.find?_cons, hname]
    | case3 next old rest heq =>
      obtain rfl : name = next := Std.LawfulEqOrd.eq_of_compare heq
      simp only [List.find?_cons, hname]
    | case4 next old rest hgt ih => rw [List.find?_cons, List.find?_cons, ih]

/-- The value of a name after one entry was set. -/
theorem get?_insert (m : NameMap α) (name other : String) (value : α) :
    (m.insert name value).get? other = if name = other then some value else m.get? other := by
  show ((insertEntry name value m.entries).find? fun e => e.1 == other).map Prod.snd = _
  rw [find?_insertEntry]
  split
  · rfl
  · rfl

/-- The value of a name after many entries were set: what they say of it, or what it had before.
They may come in any order and repeat each other, but not contradict. -/
theorem get?_foldl_insert {l : List (String × α)}
    (h : ∀ e ∈ l, ∀ e' ∈ l, e.1 = e'.1 → e.2 = e'.2) (m : NameMap α) (name : String) :
    (l.foldl (fun m e => m.insert e.1 e.2) m).get? name =
      ((l.find? fun e => e.1 == name).map Prod.snd).or (m.get? name) := by
  induction l generalizing m with
  | nil => rfl
  | cons e l ih =>
    have hrest := fun a ha b hb => h a (List.mem_cons_of_mem e ha) b (List.mem_cons_of_mem e hb)
    rw [List.foldl_cons, ih hrest, get?_insert, List.find?_cons]
    by_cases hname : e.1 = name
    · rw [if_pos hname, beq_iff_eq.mpr hname]
      cases hfind : l.find? fun e => e.1 == name with
      | none => rfl
      | some later =>
        -- A later entry overwrites this one, but it says the same.
        have hlater : later.1 = name := by simpa using List.find?_some hfind
        have hsame := h e List.mem_cons_self later
          (List.mem_cons_of_mem e (List.mem_of_find?_eq_some hfind)) (hname.trans hlater.symm)
        simp [hsame]
    · rw [if_neg hname, beq_false_of_ne hname]

/-- The value of a name after a list of names got one value. -/
theorem get?_foldl_insert_names (names : List String) (value : α) (m : NameMap α)
    (name : String) :
    ((names.map (·, value)).foldl (fun m e => m.insert e.1 e.2) m).get? name =
      if name ∈ names then some value else m.get? name := by
  have hvalue : ∀ e ∈ names.map (·, value), e.2 = value := by simp
  rw [get?_foldl_insert fun e he e' he' _ => (hvalue e he).trans (hvalue e' he').symm]
  split
  · rename_i hmem
    obtain ⟨e, hfind⟩ : ∃ e, (names.map (·, value)).find? (fun e => e.1 == name) = some e := by
      rw [← Option.isSome_iff_exists, List.find?_isSome]
      exact ⟨(name, value), List.mem_map_of_mem hmem, beq_self_eq_true name⟩
    rw [hfind, Option.map_some, hvalue e (List.mem_of_find?_eq_some hfind)]
    rfl
  · rename_i hmem
    have hfind : (names.map (·, value)).find? (fun e => e.1 == name) = none := by
      rw [List.find?_eq_none]
      simp only [List.mem_map, forall_exists_index, and_imp, forall_apply_eq_imp_iff₂, beq_iff_eq]
      rintro other hother rfl
      exact hmem hother
    rw [hfind]
    rfl

/-- A table has one value for each name. -/
theorem value_eq_of_mem (m : NameMap α) {e e' : String × α} (he : e ∈ m.entries)
    (he' : e' ∈ m.entries) (hname : e.1 = e'.1) : e.2 = e'.2 := by
  rw [List.inj_on_of_nodup_map m.increasing.nodup he he' hname]

end NameMap

namespace ProviderSettings

/-- What the settings say of a name: the mapping counts most, then administrators, then tenant
contexts. -/
def kindOf? (s : ProviderSettings) (name : String) : Option ProviderKind :=
  (s.mapping.get? name).or
    (if name ∈ s.admin then some .admin
    else if name ∈ s.tenantContext then some .tenantContext
    else none)

end ProviderSettings

namespace ProviderTable

open Tenancy.Support

/-- The table holds what the settings say. -/
theorem get?_ofSettings (s : ProviderSettings) (name : String) :
    (ofSettings s).entries.get? name = s.kindOf? name := by
  unfold ofSettings NameMap.ofList
  -- The last source is taken off first, because it overwrites the others.
  rw [List.foldl_append, List.foldl_append,
    NameMap.get?_foldl_insert fun e he e' he' => s.mapping.value_eq_of_mem he he',
    NameMap.get?_foldl_insert_names, NameMap.get?_foldl_insert_names]
  rfl

/-- What a provider gives, by what the table holds for its name and for its last part. -/
theorem classify_eq (t : ProviderTable) (provider : String) (hint : Option ProviderKind) :
    t.classify provider hint = (((t.entries.get? (Text.trim provider)).or
      ((Text.splitLast? '.' (Text.trim provider)).bind fun parts =>
        t.entries.get? parts.2)).or hint).getD .other := by
  cases hwhole : t.entries.get? (Text.trim provider) with
  | some kind => simp [classify, hwhole]
  | none =>
    cases hlast : (Text.splitLast? '.' (Text.trim provider)).bind fun parts =>
        t.entries.get? parts.2 with
    | some kind => simp [classify, hwhole, hlast]
    | none => cases hint <;> simp [classify, hwhole, hlast]

/-- **Which entry decides.** What the settings say of the whole name of a provider counts most, then
what they say of the part behind its last dot, then the hint. Neither the order of the lists nor
repetitions in them make a difference. -/
theorem classify_follows_precedence (s : ProviderSettings) (provider : String)
    (hint : Option ProviderKind) :
    let name := Text.trim provider
    let result := (ofSettings s).classify provider hint
    (∀ kind, s.kindOf? name = some kind → result = kind) ∧
    (s.kindOf? name = none →
      (∀ before last : String, name = before ++ "." ++ last → '.' ∉ last.toList →
        result = ((s.kindOf? last).or hint).getD .other) ∧
      ('.' ∉ name.toList → result = hint.getD .other)) ∧
    ∀ s' : ProviderSettings, s'.mapping = s.mapping → (∀ x, x ∈ s'.admin ↔ x ∈ s.admin) →
      (∀ x, x ∈ s'.tenantContext ↔ x ∈ s.tenantContext) →
      (ofSettings s').classify provider hint = result := by
  intro name result
  have hresult : ∀ s : ProviderSettings, (ofSettings s).classify provider hint =
      (((s.kindOf? name).or ((Text.splitLast? '.' name).bind fun parts =>
        s.kindOf? parts.2)).or hint).getD .other := by
    intro s
    simp only [classify_eq, get?_ofSettings]
    rfl
  refine ⟨?_, ?_, ?_⟩
  · intro kind hkind
    show (ofSettings s).classify provider hint = kind
    rw [hresult, hkind]
    rfl
  · intro hnone
    constructor
    · intro before last hname hlast
      have hsplit : Text.splitLast? '.' name = some (before, last) := by
        refine splitLast?_of_toList ?_ hlast
        rw [hname]
        exact toList_divided rfl before last
      show (ofSettings s).classify provider hint = _
      rw [hresult, hnone, hsplit]
      rfl
    · intro hdot
      show (ofSettings s).classify provider hint = _
      rw [hresult, hnone, splitLast?_of_not_mem hdot]
      rfl
  · intro s' hmapping hadmin htenant
    have hsame : ∀ x, s'.kindOf? x = s.kindOf? x := by
      intro x
      simp only [ProviderSettings.kindOf?, hmapping, hadmin, htenant]
    show _ = (ofSettings s).classify provider hint
    simp only [hresult, hsame]

/-- Settings that list a name as a tenant context, and its last part as an administrator in another
list. The name is a tenant context, another name with the same last part is an administrator
whatever the hint says, and a name that is listed nowhere is what the hint says. It does not matter
that the list of administrators repeats itself. -/
theorem classify_follows_precedence_sample :
    let s : ProviderSettings :=
      ⟨["app.auth.require_admin"], ["require_admin"], .ofList [("get_db", .other)]⟩
    let repeating : ProviderSettings := { s with admin := ["require_admin", "require_admin"] }
    (ofSettings s).classify " app.auth.require_admin " none = .tenantContext ∧
      (ofSettings s).classify "core.require_admin" (some .other) = .admin ∧
      (ofSettings s).classify "is_superuser" (some .admin) = .admin ∧
      (ofSettings repeating).classify "core.require_admin" (some .other) = .admin := by
  intro s repeating
  obtain ⟨hwhole, -, -⟩ := classify_follows_precedence s " app.auth.require_admin " none
  obtain ⟨-, hlast, hsame⟩ := classify_follows_precedence s "core.require_admin" (some .other)
  obtain ⟨-, hhint, -⟩ := classify_follows_precedence s "is_superuser" (some .admin)
  have hadmin : (ofSettings s).classify "core.require_admin" (some .other) = .admin :=
    (hlast (by decide +kernel)).1 "core" "require_admin" (by decide +kernel) (by decide)
  refine ⟨hwhole .tenantContext (by decide +kernel), hadmin,
    (hhint (by decide +kernel)).2 (by decide +kernel), ?_⟩
  rw [hsame repeating rfl (by simp [repeating, s]) (fun _ => Iff.rfl), hadmin]

end ProviderTable

end Tenancy

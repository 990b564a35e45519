import Mathlib.Data.List.Nodup
import Tenancy.Facts.Build
import Tenancy.Proofs.Schema.Merge

/-!
# What merged declarations hold

Merging loses nothing and invents nothing. `merge_contents` says when it succeeds and what comes out
then: one declaration for each entity, in the order of the names, and each of them is the union of
the pieces of its entity (`IsUnion`).

* `exists_merge_iff`: the only obstacles are an entity with two storage keys (`TwoKeys`) and a
  storage key of two entities (`SharedKey`).
* `site_combine`: the place that is kept is that of a piece, and no piece with a file comes before
  it. A piece without a file has no say once there is one with a file, whatever its line is.
* `isUnion_of_merged?`: all fields of a merged declaration at once.

The columns and foreign keys of a merged declaration are increasing, so the union determines them.
Its marks are determined up to their order only.
-/

set_option autoImplicit false

namespace Tenancy.Declaration

open Tenancy.Support

/-! ### The place that is kept -/

namespace Site

instance : Std.TransCmp Site.order :=
  inferInstanceAs (Std.TransCmp (compareLex (compareOn Prod.fst) (compareOn Prod.snd)))

/-- Places that compare as equal are equal. -/
instance : Std.LawfulEqCmp Site.order where
  compare_self {a} := Std.ReflCmp.compare_self
  eq_of_compare {a b} h := by
    obtain ⟨hfile, hline⟩ := compareLex_eq_eq.mp h
    exact Prod.ext (Std.LawfulEqOrd.eq_of_compare hfile) (Std.LawfulEqOrd.eq_of_compare hline)

/-- A place is kept against another: if the other has a file, the place has one too and does not
come later. -/
def Precedes (a b : Site) : Prop := b.1.isSome → a.1.isSome ∧ (Site.order a b).isLE

theorem Precedes.refl (a : Site) : Precedes a a := by
  intro ha
  exact ⟨ha, Std.ReflCmp.isLE_rfl⟩

theorem Precedes.trans {a b c : Site} (hab : Precedes a b) (hbc : Precedes b c) :
    Precedes a c := by
  intro hc
  obtain ⟨hb, hbc⟩ := hbc hc
  obtain ⟨ha, hab⟩ := hab hb
  exact ⟨ha, Std.TransCmp.isLE_trans hab hbc⟩

end Site

/-- Of two places the one that is kept precedes the other. -/
theorem keepSite_cases (a b : Site) :
    keepSite a b = a ∧ Site.Precedes a b ∨ keepSite a b = b ∧ Site.Precedes b a := by
  unfold keepSite
  split
  · rename_i h
    refine .inr ⟨rfl, fun ha => ⟨h.1, ?_⟩⟩
    -- The other place has a file, so the candidate has won by the order.
    have hlt : Site.order b a = .lt := h.2.resolve_left (by simp [Option.isSome_iff_ne_none.mp ha])
    rw [hlt]
    rfl
  · rename_i h
    refine .inl ⟨rfl, fun hb => ?_⟩
    obtain ⟨hfile, horder⟩ := not_or.mp fun hor => h ⟨hb, hor⟩
    refine ⟨Option.isSome_iff_ne_none.mpr (by simpa using hfile), ?_⟩
    by_contra hle
    exact horder (Std.OrientedCmp.lt_of_not_isLE hle)

/-- The place of pieces that are put together is that of one of them, and it precedes the others. -/
theorem site_combine (first : Declaration) (rest : List Declaration) :
    (∃ piece ∈ first :: rest, piece.site = (combine first rest).site) ∧
      ∀ piece ∈ first :: rest, Site.Precedes (combine first rest).site piece.site := by
  obtain ⟨hmem, hleast⟩ := foldl_least Site.Precedes Site.Precedes.refl
    (fun _ _ _ => Site.Precedes.trans) keepSite_cases (rest.map site) first.site
  rw [← List.map_cons] at hmem hleast
  refine ⟨List.mem_map.mp hmem, ?_⟩
  intro piece hpiece
  exact hleast piece.site (List.mem_map_of_mem hpiece)

/-! ### One merged declaration -/

/-- A declaration is the union of the pieces of its entity: it has their storage key, their columns
and foreign keys in order and each once, their marks each once, and a place of theirs that no piece
with a file comes before. -/
structure IsUnion (all : List Declaration) (d : Declaration) : Prop where
  storageKey : ∀ piece ∈ all, piece.entity = d.entity → piece.storageKey = d.storageKey
  columns : Ordered.Increasing d.columns ∧ ∀ column,
    column ∈ d.columns ↔ ∃ piece ∈ all, piece.entity = d.entity ∧ column ∈ piece.columns
  foreignKeys : Ordered.Increasing d.foreignKeys ∧ ∀ key,
    key ∈ d.foreignKeys ↔ ∃ piece ∈ all, piece.entity = d.entity ∧ key ∈ piece.foreignKeys
  marks : d.marks.Nodup ∧ ∀ mark,
    mark ∈ d.marks ↔ ∃ piece ∈ all, piece.entity = d.entity ∧ mark ∈ piece.marks
  site : ∃ piece ∈ all, piece.entity = d.entity ∧ piece.site = d.site
  least : ∀ piece ∈ all, piece.entity = d.entity → piece.file.isSome →
    d.file.isSome ∧ (Site.order d.site piece.site).isLE

/-- The marks of a merged declaration are those of its pieces. -/
theorem mem_marks_of_merged? {all : List Declaration} {name : String} {d : Declaration}
    (h : merged? all name = some d) {mark : ScopeMark} :
    mark ∈ d.marks ↔ ∃ piece ∈ all, piece.entity = name ∧ mark ∈ piece.marks := by
  obtain ⟨first, rest, rfl, hpieces⟩ := exists_pieces_of_merged? h
  show mark ∈ ((first :: rest).flatMap marks).eraseDups ↔ _
  simp only [List.mem_eraseDups, List.mem_flatMap, hpieces, and_assoc]

/-- Unless an entity has two storage keys, its pieces have that of the merged declaration. -/
theorem storageKey_of_merged? {all : List Declaration} (hkeys : ¬ TwoKeys all) {name : String}
    {d : Declaration} (h : merged? all name = some d) {piece : Declaration} (hpiece : piece ∈ all)
    (hentity : piece.entity = name) : piece.storageKey = d.storageKey := by
  obtain ⟨first, rest, rfl, hpieces⟩ := exists_pieces_of_merged? h
  obtain ⟨hfirst, hname⟩ := (hpieces first).mp List.mem_cons_self
  by_contra hne
  exact hkeys ⟨piece, hpiece, first, hfirst, hentity.trans hname.symm, hne⟩

/-- The pieces of an entity are put together to their union. -/
theorem isUnion_of_merged? {all : List Declaration} (hkeys : ¬ TwoKeys all) {name : String}
    {d : Declaration} (h : merged? all name = some d) : IsUnion all d := by
  obtain rfl := entity_of_merged? h
  refine ⟨fun piece => storageKey_of_merged? hkeys h, ⟨?_, fun _ => mem_columns_of_merged? h⟩,
    ⟨?_, fun _ => mem_foreignKeys_of_merged? h⟩, ⟨?_, fun _ => mem_marks_of_merged? h⟩, ?_, ?_⟩
  all_goals obtain ⟨first, rest, hd, hpieces⟩ := exists_pieces_of_merged? h
  · rw [hd]
    exact Ordered.increasing_ofList _
  · rw [hd]
    exact Ordered.increasing_ofList _
  · rw [hd]
    exact nodup_eraseDups _
  · obtain ⟨piece, hpiece, hsite⟩ := (site_combine first rest).1
    obtain ⟨hmem, hentity⟩ := (hpieces piece).mp hpiece
    exact ⟨piece, hmem, hentity, hsite.trans (by rw [hd])⟩
  · intro piece hpiece hentity hfile
    have hprecedes := (site_combine first rest).2 piece ((hpieces piece).mpr ⟨hpiece, hentity⟩)
    rw [← hd] at hprecedes
    exact hprecedes hfile

/-! ### All merged declarations -/

/-- Some storage key is declared for two different entities. -/
def SharedKey (all : List Declaration) : Prop :=
  ∃ d ∈ all, ∃ d' ∈ all, d.storageKey = d'.storageKey ∧ d.entity ≠ d'.entity

instance : DecidablePred SharedKey := fun all =>
  inferInstanceAs (Decidable (∃ d ∈ all, ∃ d' ∈ all,
    d.storageKey = d'.storageKey ∧ d.entity ≠ d'.entity))

/-- The pieces of all entities put together, before storage keys are compared. -/
def gathered (all : List Declaration) : List Declaration :=
  (Ordered.ofList (all.map entity)).filterMap (merged? all)

/-- What is put together are the pieces of entities. -/
theorem mem_gathered_iff {all : List Declaration} {d : Declaration} :
    d ∈ gathered all ↔ merged? all d.entity = some d := by
  unfold gathered
  rw [List.mem_filterMap]
  constructor
  · rintro ⟨name, -, hname⟩
    rw [entity_of_merged? hname]
    exact hname
  · intro h
    obtain ⟨first, rest, -, hpieces⟩ := exists_pieces_of_merged? h
    obtain ⟨hfirst, hentity⟩ := (hpieces first).mp List.mem_cons_self
    refine ⟨d.entity, ?_, h⟩
    rw [Ordered.mem_ofList, ← hentity]
    exact List.mem_map_of_mem hfirst

/-- The entities that are put together are those that are declared, in order. -/
theorem map_entity_gathered (all : List Declaration) :
    (gathered all).map entity = Ordered.ofList (all.map entity) := by
  refine map_entity_merged _ ?_
  intro name hname
  exact List.mem_map.mp (Ordered.mem_ofList.mp hname)

theorem nodup_gathered (all : List Declaration) : (gathered all).Nodup := by
  refine List.Nodup.of_map entity ?_
  rw [map_entity_gathered]
  exact (Ordered.increasing_ofList _).nodup

/-- Each entity is there once. -/
theorem eq_of_mem_gathered {all : List Declaration} {d d' : Declaration} (hd : d ∈ gathered all)
    (hd' : d' ∈ gathered all) (h : d.entity = d'.entity) : d = d' := by
  rw [mem_gathered_iff] at hd hd'
  rw [h, hd'] at hd
  exact (Option.some.inj hd).symm

/-- What a successful merge gives. -/
theorem eq_gathered_of_merge {all merged : List Declaration} (h : merge all = .ok merged) :
    merged = gathered all := (merge_eq_ok h).2.1

/-- If no entity has two storage keys, a merge succeeds once storage keys are not shared. -/
theorem merge_of_keyClash? {all : List Declaration} (hkeys : ¬ TwoKeys all)
    (hclash : keyClash? [] (gathered all) = none) : merge all = .ok (gathered all) := by
  unfold merge
  rw [findSome?_entityClash?_eq_none_iff.mpr hkeys]
  unfold gathered at hclash ⊢
  simp only [hclash]

/-- Storage keys that differ from each other and from those before do not clash. -/
theorem keyClash?_of_nodup {before rest : List Declaration} (hnodup : (rest.map storageKey).Nodup)
    (hbefore : ∀ d ∈ rest, ∀ other ∈ before, other.storageKey ≠ d.storageKey) :
    keyClash? before rest = none := by
  induction rest generalizing before with
  | nil => rfl
  | cons d rest ih =>
    rw [List.map_cons, List.nodup_cons] at hnodup
    have hfresh : before.find? (fun other => other.storageKey = d.storageKey) = none := by
      simpa using hbefore d List.mem_cons_self
    unfold keyClash?
    rw [hfresh]
    refine ih hnodup.2 ?_
    intro later hlater other hother
    rcases List.mem_cons.mp hother with rfl | hother
    · intro heq
      exact hnodup.1 (heq ▸ List.mem_map_of_mem hlater)
    · exact hbefore later (List.mem_cons_of_mem d hlater) other hother

/-- Put together, entities have different storage keys exactly if none is declared for two. -/
theorem nodup_storageKey_gathered_iff {all : List Declaration} (hkeys : ¬ TwoKeys all) :
    ((gathered all).map storageKey).Nodup ↔ ¬ SharedKey all := by
  constructor
  · rintro hnodup ⟨d, hd, d', hd', hkey, hentity⟩
    obtain ⟨m, hm⟩ := exists_merged? hd
    obtain ⟨m', hm'⟩ := exists_merged? hd'
    have hmem : m ∈ gathered all := mem_gathered_iff.mpr (entity_of_merged? hm ▸ hm)
    have hmem' : m' ∈ gathered all := mem_gathered_iff.mpr (entity_of_merged? hm' ▸ hm')
    have hsame : m.storageKey = m'.storageKey := by
      rw [← storageKey_of_merged? hkeys hm hd rfl, ← storageKey_of_merged? hkeys hm' hd' rfl, hkey]
    -- One storage key is one merged declaration, so the two names are one.
    obtain rfl := List.inj_on_of_nodup_map hnodup hmem hmem' hsame
    exact hentity ((entity_of_merged? hm).symm.trans (entity_of_merged? hm'))
  · intro hshared
    refine (nodup_gathered all).map_on ?_
    intro m hm m' hm' hkey
    refine eq_of_mem_gathered hm hm' ?_
    -- A piece of each of the two has the key that they share.
    have hunion := isUnion_of_merged? hkeys (mem_gathered_iff.mp hm)
    have hunion' := isUnion_of_merged? hkeys (mem_gathered_iff.mp hm')
    obtain ⟨piece, hpiece, hentity, -⟩ := hunion.site
    obtain ⟨piece', hpiece', hentity', -⟩ := hunion'.site
    rw [← hentity, ← hentity']
    by_contra hne
    refine hshared ⟨piece, hpiece, piece', hpiece', ?_, hne⟩
    rw [hunion.storageKey piece hpiece hentity, hunion'.storageKey piece' hpiece' hentity', hkey]

/-- A merge succeeds exactly if no entity has two storage keys and no storage key two entities. -/
theorem exists_merge_iff (all : List Declaration) :
    (∃ merged, merge all = .ok merged) ↔ ¬ TwoKeys all ∧ ¬ SharedKey all := by
  constructor
  · rintro ⟨merged, h⟩
    have hkeys := (merge_eq_ok h).1
    have hnodup := nodup_storageKey_merge h
    rw [eq_gathered_of_merge h] at hnodup
    exact ⟨hkeys, (nodup_storageKey_gathered_iff hkeys).mp hnodup⟩
  · rintro ⟨hkeys, hshared⟩
    have hnodup := (nodup_storageKey_gathered_iff hkeys).mpr hshared
    exact ⟨gathered all, merge_of_keyClash? hkeys (keyClash?_of_nodup hnodup (by simp))⟩

/-- Every merged declaration is the union of the pieces of its entity. -/
theorem isUnion_of_merge {all merged : List Declaration} (h : merge all = .ok merged)
    {d : Declaration} (hd : d ∈ merged) : IsUnion all d :=
  isUnion_of_merged? (merge_eq_ok h).1 (merged?_of_mem h hd)

/-- **Merging loses nothing and invents nothing.** It succeeds exactly if no entity has two storage
keys and no storage key two entities. Then it gives one declaration for each entity that is
declared, in strictly increasing order of the names, and each of them is the union of the pieces of
its entity. -/
theorem merge_contents (all : List Declaration) :
    ((∃ merged, merge all = .ok merged) ↔ ¬ TwoKeys all ∧ ¬ SharedKey all) ∧
    ∀ merged, merge all = .ok merged →
      Ordered.Increasing (merged.map entity) ∧
      (∀ name, name ∈ merged.map entity ↔ name ∈ all.map entity) ∧
      ∀ d ∈ merged, IsUnion all d := by
  refine ⟨exists_merge_iff all, ?_⟩
  intro merged h
  refine ⟨increasing_merge h, ?_, fun d => isUnion_of_merge h⟩
  intro name
  rw [map_entity_merge h, Ordered.mem_ofList]

/-- An entity in three pieces: the first repeats a mark and has a line without a file, the last has
a file without a line. -/
def userPieces : List Declaration := [
  { (named "User" "users").addColumns ["name", "id"] with
    marks := [.tenantScoped none, .tenantScoped none]
    line := some 3 },
  ((named "User" "users").addColumns ["id", "workspace_id"]).declaredAt "models/user.py" 4,
  { (named "User" "users").addForeignKey "workspace_id" "workspaces" with
    marks := [.tenantScoped (some "workspace_id"), .tenantScoped none]
    file := some "models/user.py" }]

/-- Of the three pieces the place without a line is kept, and every mark once. -/
theorem merge_contents_of_pieces :
    ∃ d, merge userPieces = .ok [d] ∧ IsUnion userPieces d ∧
      d.columns = ["id", "name", "workspace_id"] ∧
      d.marks = [.tenantScoped none, .tenantScoped (some "workspace_id")] ∧
      d.site = (some "models/user.py", none) := by
  let d := (gathered userPieces).headD default
  have h : merge userPieces = .ok [d] := by decide +kernel
  have hunion := ((merge_contents userPieces).2 [d] h).2.2 d List.mem_cons_self
  exact ⟨d, h, hunion, by decide +kernel, by decide +kernel, by decide +kernel⟩

end Tenancy.Declaration

import Mathlib.Data.List.Forall2
import Tenancy.Proofs.Support.Lists
import Tenancy.Proofs.Support.Ordered
import Tenancy.Schema.Merge

/-!
# What merging keeps of declarations

The pieces of an entity may be declared in any order. Merging sorts columns, foreign keys and names,
and of the marks only the order depends on the declarations: `Alike` is the relation between two
merged declarations that differ in the order of their marks and in the place that is kept.

* `merge_eq_ok`: what a successful merge has checked and what it gives.
* `increasing_merge`: merged declarations stand in strictly increasing order of their entities, and
  `nodup_storageKey_merge`: no two of them have the same storage key.
* `mem_columns_of_merged?` and `mem_foreignKeys_of_merged?`: the columns and foreign keys of an
  entity are those of its pieces.
* `merge_perm`: merging a permutation gives the same error or declarations that are alike one by
  one, unless an entity has two storage keys; `merge_of_twoKeys` says what happens then.
-/

set_option autoImplicit false

namespace Tenancy.Declaration

open Tenancy.Support

/-! ### Entities with two storage keys -/

/-- Some entity is declared with two different storage keys. -/
def TwoKeys (all : List Declaration) : Prop :=
  ∃ d ∈ all, ∃ d' ∈ all, d.entity = d'.entity ∧ d.storageKey ≠ d'.storageKey

instance : DecidablePred TwoKeys := fun all =>
  inferInstanceAs (Decidable (∃ d ∈ all, ∃ d' ∈ all,
    d.entity = d'.entity ∧ d.storageKey ≠ d'.storageKey))

/-- An error that names an entity and two different storage keys it is declared with. -/
def IsKeyClash (all : List Declaration) (e : SchemaError) : Prop :=
  ∃ d ∈ all, ∃ d' ∈ all, d.entity = d'.entity ∧ d.storageKey ≠ d'.storageKey ∧
    e = .duplicateEntity d.entity d.storageKey d'.storageKey

theorem twoKeys_perm {all all' : List Declaration} (h : all.Perm all') :
    TwoKeys all ↔ TwoKeys all' := by
  simp only [TwoKeys, h.mem_iff]

/-- The error for a declaration is about another piece of its entity. -/
theorem isKeyClash_of_entityClash? {all : List Declaration} {d : Declaration} {e : SchemaError}
    (hd : d ∈ all) (h : entityClash? all d = some e) : IsKeyClash all e := by
  unfold entityClash? at h
  obtain ⟨first, hfirst, h⟩ := Option.bind_eq_some_iff.mp h
  have hmem := List.mem_of_find?_eq_some hfirst
  have hentity : first.entity = d.entity := by simpa using List.find?_some hfirst
  split at h
  · cases h
  · rename_i hkey
    -- The error lists the lesser key first, whichever piece has it.
    by_cases hle : first.storageKey ≤ d.storageKey
    · refine ⟨first, hmem, d, hd, hentity, hkey, ?_⟩
      simp only [sorted, hle, if_true, Option.some.injEq] at h
      rw [← h, hentity]
    · refine ⟨d, hd, first, hmem, hentity.symm, Ne.symm hkey, ?_⟩
      simp only [sorted, hle, if_false, Option.some.injEq] at h
      exact h.symm

/-- No declaration clashes with another piece exactly when no entity has two storage keys. -/
theorem findSome?_entityClash?_eq_none_iff {all : List Declaration} :
    all.findSome? (entityClash? all) = none ↔ ¬ TwoKeys all := by
  constructor
  · rintro h ⟨d, hd, d', hd', hentity, hkey⟩
    rw [List.findSome?_eq_none_iff] at h
    -- The first piece of the entity is the same for both, and both have its key.
    have hsame : ∀ c ∈ all, c.entity = d.entity →
        ∀ first, all.find? (fun other => other.entity = d.entity) = some first →
          first.storageKey = c.storageKey := by
      intro c hc hce first hfirst
      have hnone := h c hc
      unfold entityClash? at hnone
      rw [hce, hfirst] at hnone
      by_contra hne
      simp [hne] at hnone
    obtain ⟨first, hfirst⟩ : ∃ first,
        all.find? (fun other => other.entity = d.entity) = some first := by
      apply Option.isSome_iff_exists.mp
      rw [List.find?_isSome]
      exact ⟨d, hd, by simp⟩
    have h₁ := hsame d hd rfl first hfirst
    have h₂ := hsame d' hd' hentity.symm first hfirst
    exact hkey (h₁.symm.trans h₂)
  · intro h
    rw [List.findSome?_eq_none_iff]
    intro d hd
    by_contra hne
    obtain ⟨e, he⟩ := Option.ne_none_iff_exists'.mp hne
    obtain ⟨d₁, hd₁, d₂, hd₂, hentity, hkey, -⟩ := isKeyClash_of_entityClash? hd he
    exact h ⟨d₁, hd₁, d₂, hd₂, hentity, hkey⟩

/-- An entity with two storage keys is an error that names such an entity. -/
theorem merge_of_twoKeys {all : List Declaration} (h : TwoKeys all) :
    ∃ e, merge all = .error e ∧ IsKeyClash all e := by
  unfold merge
  cases hclash : all.findSome? (entityClash? all) with
  | none => exact absurd h (findSome?_entityClash?_eq_none_iff.mp hclash)
  | some e =>
    obtain ⟨d, hd, he⟩ := List.exists_of_findSome?_eq_some hclash
    exact ⟨e, rfl, isKeyClash_of_entityClash? hd he⟩

/-! ### The entities of merged declarations -/

/-- The first piece of an entity is one of the declarations, and of that entity. -/
theorem mem_of_pieces {all rest : List Declaration} {name : String} {first : Declaration}
    (h : (all.filter fun d => d.entity = name) = first :: rest) :
    first ∈ all ∧ first.entity = name := by
  have hfirst : first ∈ all.filter fun d => d.entity = name := by
    rw [h]
    exact List.mem_cons_self
  obtain ⟨hmem, hentity⟩ := List.mem_filter.mp hfirst
  exact ⟨hmem, of_decide_eq_true hentity⟩

/-- The pieces of an entity are put together under its name. -/
theorem entity_of_merged? {all : List Declaration} {name : String} {d : Declaration}
    (h : merged? all name = some d) : d.entity = name := by
  unfold merged? at h
  split at h
  · cases h
  · rename_i first rest hpieces
    cases h
    exact (mem_of_pieces hpieces).2

/-- An entity that is declared has pieces to put together. -/
theorem exists_merged? {all : List Declaration} {d : Declaration} (hd : d ∈ all) :
    ∃ m, merged? all d.entity = some m := by
  unfold merged?
  split
  · rename_i hnone
    have := List.filter_eq_nil_iff.mp hnone d hd
    simp at this
  · exact ⟨_, rfl⟩

/-- Putting the pieces of declared entities together keeps the list of their names. -/
theorem map_entity_merged {all : List Declaration} (names : List String)
    (hnames : ∀ name ∈ names, ∃ d ∈ all, d.entity = name) :
    (names.filterMap (merged? all)).map entity = names := by
  induction names with
  | nil => rfl
  | cons name names ih =>
    obtain ⟨d, hd, rfl⟩ := hnames name List.mem_cons_self
    obtain ⟨m, hm⟩ := exists_merged? hd
    rw [List.filterMap_cons_some hm, List.map_cons, entity_of_merged? hm,
      ih fun other hother => hnames other (List.mem_cons_of_mem _ hother)]

/-- What a successful merge has checked and what it gives. -/
theorem merge_eq_ok {all merged : List Declaration} (h : merge all = .ok merged) :
    ¬ TwoKeys all ∧ merged = (Ordered.ofList (all.map entity)).filterMap (merged? all) ∧
      keyClash? [] merged = none := by
  unfold merge at h
  split at h
  · cases h
  · rename_i hclash
    simp only at h
    split at h
    · cases h
    · rename_i hkeys
      cases h
      exact ⟨findSome?_entityClash?_eq_none_iff.mp hclash, rfl, hkeys⟩

/-- A merged declaration is put together from the pieces of its entity. -/
theorem merged?_of_mem {all merged : List Declaration} (h : merge all = .ok merged)
    {d : Declaration} (hd : d ∈ merged) : merged? all d.entity = some d := by
  obtain ⟨-, rfl, -⟩ := merge_eq_ok h
  obtain ⟨name, -, hname⟩ := List.mem_filterMap.mp hd
  rw [entity_of_merged? hname]
  exact hname

/-- A merged declaration is one of pieces that are all those of its entity. -/
theorem exists_pieces_of_merged? {all : List Declaration} {name : String} {d : Declaration}
    (h : merged? all name = some d) :
    ∃ first rest, d = combine first rest ∧
      ∀ piece, piece ∈ first :: rest ↔ piece ∈ all ∧ piece.entity = name := by
  unfold merged? at h
  split at h
  · cases h
  · rename_i first rest hpieces
    cases h
    refine ⟨first, rest, rfl, ?_⟩
    intro piece
    rw [← hpieces, List.mem_filter, decide_eq_true_eq]

/-- The columns of a merged declaration are those that its pieces list. -/
theorem mem_columns_of_merged? {all : List Declaration} {name : String} {d : Declaration}
    (h : merged? all name = some d) {column : String} :
    column ∈ d.columns ↔ ∃ piece ∈ all, piece.entity = name ∧ column ∈ piece.columns := by
  obtain ⟨first, rest, rfl, hpieces⟩ := exists_pieces_of_merged? h
  show column ∈ Ordered.ofList ((first :: rest).flatMap columns) ↔ _
  simp only [Ordered.mem_ofList, List.mem_flatMap, hpieces, and_assoc]

/-- The foreign keys of a merged declaration are those of its pieces. -/
theorem mem_foreignKeys_of_merged? {all : List Declaration} {name : String} {d : Declaration}
    (h : merged? all name = some d) {key : ForeignKey} :
    key ∈ d.foreignKeys ↔ ∃ piece ∈ all, piece.entity = name ∧ key ∈ piece.foreignKeys := by
  obtain ⟨first, rest, rfl, hpieces⟩ := exists_pieces_of_merged? h
  show key ∈ Ordered.ofList ((first :: rest).flatMap foreignKeys) ↔ _
  simp only [Ordered.mem_ofList, List.mem_flatMap, hpieces, and_assoc]

/-- Merging keeps the names of the entities, sorted and each once. -/
theorem map_entity_merge {all merged : List Declaration} (h : merge all = .ok merged) :
    merged.map entity = Ordered.ofList (all.map entity) := by
  obtain ⟨-, rfl, -⟩ := merge_eq_ok h
  apply map_entity_merged
  intro name hname
  rw [Ordered.mem_ofList] at hname
  exact List.mem_map.mp hname

/-- Merged declarations stand in strictly increasing order of their entities. -/
theorem increasing_merge {all merged : List Declaration} (h : merge all = .ok merged) :
    Ordered.Increasing (merged.map entity) := by
  rw [map_entity_merge h]
  exact Ordered.increasing_ofList _

/-- If no storage key is taken, those of the declarations differ from each other and from those
before. -/
theorem nodup_of_keyClash? {before rest : List Declaration} (h : keyClash? before rest = none) :
    (rest.map storageKey).Nodup ∧
      ∀ d ∈ rest, ∀ other ∈ before, other.storageKey ≠ d.storageKey := by
  induction rest generalizing before with
  | nil => simp
  | cons d rest ih =>
    unfold keyClash? at h
    split at h
    · cases h
    · rename_i hnone
      obtain ⟨hnodup, hbefore⟩ := ih h
      have hfresh : ∀ other ∈ before, other.storageKey ≠ d.storageKey := by
        simpa using hnone
      refine ⟨?_, ?_⟩
      · rw [List.map_cons, List.nodup_cons]
        refine ⟨?_, hnodup⟩
        intro hmem
        -- The declaration itself is among those before the rest.
        obtain ⟨later, hlater, hkey⟩ := List.mem_map.mp hmem
        exact hbefore later hlater d List.mem_cons_self hkey.symm
      · intro later hlater other hother
        rcases List.mem_cons.mp hlater with rfl | hlater
        · exact hfresh other hother
        · exact hbefore later hlater other (List.mem_cons_of_mem d hother)

/-- Merged declarations have different storage keys. -/
theorem nodup_storageKey_merge {all merged : List Declaration} (h : merge all = .ok merged) :
    (merged.map storageKey).Nodup := by
  obtain ⟨-, -, hkeys⟩ := merge_eq_ok h
  exact (nodup_of_keyClash? hkeys).1

/-! ### The order of declarations -/

/-- Declarations that differ in the order and number of their marks and in their place alone. -/
structure Alike (d d' : Declaration) : Prop where
  entity : d.entity = d'.entity
  storageKey : d.storageKey = d'.storageKey
  columns : d.columns = d'.columns
  foreignKeys : d.foreignKeys = d'.foreignKeys
  marks : ∀ mark, mark ∈ d.marks ↔ mark ∈ d'.marks

/-- Pieces of one entity with one storage key are put together alike in every order. -/
theorem combine_perm {first first' : Declaration} {rest rest' : List Declaration}
    (h : (first :: rest).Perm (first' :: rest')) (hentity : first.entity = first'.entity)
    (hkey : first.storageKey = first'.storageKey) :
    Alike (combine first rest) (combine first' rest') where
  entity := hentity
  storageKey := hkey
  columns := Ordered.ofList_perm (h.flatMap_right Declaration.columns)
  foreignKeys := Ordered.ofList_perm (h.flatMap_right Declaration.foreignKeys)
  marks mark := by
    show mark ∈ ((first :: rest).flatMap Declaration.marks).eraseDups ↔
      mark ∈ ((first' :: rest').flatMap Declaration.marks).eraseDups
    rw [List.mem_eraseDups, List.mem_eraseDups]
    exact (h.flatMap_right Declaration.marks).mem_iff

/-- The pieces of an entity are put together alike in every order of the declarations. -/
theorem merged?_perm {all all' : List Declaration} (h : all.Perm all') (hkeys : ¬ TwoKeys all)
    (name : String) : Option.Rel Alike (merged? all name) (merged? all' name) := by
  have hpieces := h.filter fun d => decide (d.entity = name)
  unfold merged?
  cases hp : all.filter fun d => d.entity = name with
  | nil =>
    rw [hp] at hpieces
    rw [hpieces.nil_eq.symm]
    exact .none
  | cons first rest =>
    cases hp' : all'.filter fun d => d.entity = name with
    | nil =>
      rw [hp, hp'] at hpieces
      exact absurd hpieces.eq_nil (by simp)
    | cons first' rest' =>
      rw [hp, hp'] at hpieces
      have hfirst := mem_of_pieces hp
      have hfirst' := mem_of_pieces hp'
      have hentity : first.entity = first'.entity := hfirst.2.trans hfirst'.2.symm
      refine .some (combine_perm hpieces hentity ?_)
      -- Pieces with different keys are what was ruled out.
      by_contra hne
      exact hkeys ⟨first, hfirst.1, first', h.mem_iff.mpr hfirst'.1, hentity, hne⟩

/-- Whether two entities share a storage key does not depend on marks and places. -/
theorem keyClash?_alike {merged merged' before before' : List Declaration}
    (h : List.Forall₂ Alike merged merged') (hbefore : List.Forall₂ Alike before before') :
    keyClash? before merged = keyClash? before' merged' := by
  induction h generalizing before before' with
  | nil => rfl
  | @cons d d' rest rest' hd _ ih =>
    -- Of the entities before, both sides find one that is alike, or none.
    have hfind := find?_forall₂ (p := fun other => decide (other.storageKey = d.storageKey))
      (q := fun other => decide (other.storageKey = d'.storageKey))
      (fun a b hab => by rw [hab.storageKey, hd.storageKey]) hbefore
    unfold keyClash?
    revert hfind
    generalize before.find? (fun other => decide (other.storageKey = d.storageKey)) = found
    generalize before'.find? (fun other => decide (other.storageKey = d'.storageKey)) = found'
    intro hfind
    cases hfind with
    | none => exact ih (.cons hd hbefore)
    | some hother => simp only [hd.storageKey, hd.entity, hother.entity]

/-- Merging a permutation fails with the same error, or gives declarations that are alike one by
one, as long as no entity has two storage keys. -/
theorem merge_perm {all all' : List Declaration} (h : all.Perm all') (hkeys : ¬ TwoKeys all) :
    (∃ e, merge all = .error e ∧ merge all' = .error e) ∨
      ∃ merged merged', merge all = .ok merged ∧ merge all' = .ok merged' ∧
        List.Forall₂ Alike merged merged' := by
  have hnames : Ordered.ofList (all.map entity) = Ordered.ofList (all'.map entity) :=
    Ordered.ofList_perm (h.map entity)
  -- The names are one sorted list, so the merged lists can be compared place by place.
  have hwhole : List.Forall₂ Alike ((Ordered.ofList (all.map entity)).filterMap (merged? all))
      ((Ordered.ofList (all'.map entity)).filterMap (merged? all')) := by
    rw [hnames]
    refine List.rel_filterMap (R := Eq) ?_ (List.forall₂_refl _)
    rintro name _ rfl
    exact merged?_perm h hkeys name
  have hclash := findSome?_entityClash?_eq_none_iff.mpr hkeys
  have hclash' := findSome?_entityClash?_eq_none_iff.mpr (mt (twoKeys_perm h).mpr hkeys)
  have hkey := keyClash?_alike hwhole .nil
  unfold merge
  rw [hclash, hclash']
  simp only [hkey]
  split
  · rename_i e _
    exact .inl ⟨e, rfl, rfl⟩
  · exact .inr ⟨_, _, rfl, rfl, hwhole⟩

end Tenancy.Declaration

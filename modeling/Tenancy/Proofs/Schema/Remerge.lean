import Tenancy.Proofs.Schema.Contents
import Tenancy.Proofs.Support.FirstMet

/-!
# Merging step by step

Declarations that were merged can be merged again together with others, and nothing of the first
merge shows: neither in the result nor in the error. `merge_append_of_merge` says so for all
declarations that follow, and for none this is idempotence.

The pieces of an entity collapse into one in the first merge (`pieces_of_merge`), and that one
stands for them in the second:

* `combine_combine`: a piece that was put together from others adds to more pieces what these add.
* `entityClash?_of_merge`: a later piece clashes with it over the storage key as it would with the
  first of them, so the same piece fails with the same error.
-/

set_option autoImplicit false

namespace Tenancy

namespace Ordered

/-- What was sorted before may be sorted again with more. -/
theorem ofList_ofList_append {α : Type} [Ord α] [Std.TransOrd α] [Std.LawfulEqOrd α]
    (a b : List α) : ofList (ofList a ++ b) = ofList (a ++ b) := by
  refine ofList_eq_of_mem_iff fun x => ?_
  simp

end Ordered

namespace Declaration

open Tenancy.Support

/-! ### One entity -/

/-- Pieces may be put together in two steps. -/
theorem combine_combine (first : Declaration) (rest more : List Declaration) :
    combine (combine first rest) more = combine first (rest ++ more) := by
  -- In each field the pieces of the first step stand in front of the others.
  have hsplit : ∀ {β : Type} (field : Declaration → List β),
      (first :: (rest ++ more)).flatMap field
        = (first :: rest).flatMap field ++ more.flatMap field := by
    intro β field
    rw [← List.cons_append, List.flatMap_append]
  have hcolumns : (combine (combine first rest) more).columns
      = (combine first (rest ++ more)).columns := by
    show Ordered.ofList (Ordered.ofList ((first :: rest).flatMap columns) ++ more.flatMap columns)
      = Ordered.ofList ((first :: (rest ++ more)).flatMap columns)
    rw [Ordered.ofList_ofList_append, hsplit]
  have hforeignKeys : (combine (combine first rest) more).foreignKeys
      = (combine first (rest ++ more)).foreignKeys := by
    show Ordered.ofList (Ordered.ofList ((first :: rest).flatMap foreignKeys)
        ++ more.flatMap foreignKeys)
      = Ordered.ofList ((first :: (rest ++ more)).flatMap foreignKeys)
    rw [Ordered.ofList_ofList_append, hsplit]
  have hmarks : (combine (combine first rest) more).marks
      = (combine first (rest ++ more)).marks := by
    show (((first :: rest).flatMap marks).eraseDups ++ more.flatMap marks).eraseDups
      = ((first :: (rest ++ more)).flatMap marks).eraseDups
    rw [eraseDups_eraseDups_append, hsplit]
  -- The place is a fold over the pieces, which goes on where the first step stopped.
  have hsite : (combine (combine first rest) more).site = (combine first (rest ++ more)).site := by
    show (more.map site).foldl keepSite ((rest.map site).foldl keepSite first.site)
      = ((rest ++ more).map site).foldl keepSite first.site
    rw [List.map_append, List.foldl_append]
  exact (Declaration.mk.injEq ..).mpr ⟨rfl, rfl, hcolumns, hforeignKeys, hmarks,
    congrArg Prod.fst hsite, congrArg Prod.snd hsite⟩

/-- After a merge an entity has one piece if it had any, put together from them. -/
theorem pieces_of_merge {all merged : List Declaration} (h : merge all = .ok merged)
    (name : String) :
    ((all.filter fun d => d.entity = name) = [] ∧ (merged.filter fun d => d.entity = name) = []) ∨
      ∃ first rest, (all.filter fun d => d.entity = name) = first :: rest ∧
        (merged.filter fun d => d.entity = name) = [combine first rest] := by
  rw [eq_gathered_of_merge h]
  cases hpieces : all.filter fun d => d.entity = name with
  | nil =>
    refine .inl ⟨rfl, ?_⟩
    rw [List.filter_eq_nil_iff]
    intro d hd hentity
    -- A merged declaration of the entity would have a piece.
    have hnone := mem_gathered_iff.mp hd
    rw [of_decide_eq_true hentity] at hnone
    unfold merged? at hnone
    rw [hpieces] at hnone
    cases hnone
  | cons first rest =>
    refine .inr ⟨first, rest, rfl, ?_⟩
    have hentity : first.entity = name := (mem_of_pieces hpieces).2
    have hmem : combine first rest ∈ gathered all := by
      rw [mem_gathered_iff]
      show merged? all first.entity = _
      unfold merged?
      rw [hentity, hpieces]
    -- No other merged declaration has its name, and it is there once.
    have honly : ((gathered all).filter fun d => d.entity = name)
        = (gathered all).filter fun d => d = combine first rest := by
      refine List.filter_congr fun d hd => ?_
      rw [decide_eq_decide]
      constructor
      · intro hd'
        exact eq_of_mem_gathered hd hmem (hd'.trans hentity.symm)
      · rintro rfl
        exact hentity
    rw [honly, List.filter_eq, List.count_eq_one_of_mem (nodup_gathered all) hmem]
    rfl

variable {all merged : List Declaration}

/-- With more pieces, those of an entity are put together as if they had not been merged before. -/
theorem merged?_append_of_merge (h : merge all = .ok merged) (more : List Declaration)
    (name : String) : merged? (merged ++ more) name = merged? (all ++ more) name := by
  unfold merged?
  rw [List.filter_append, List.filter_append]
  rcases pieces_of_merge h name with ⟨hall, hmerged⟩ | ⟨first, rest, hall, hmerged⟩
  · rw [hall, hmerged]
  · rw [hall, hmerged]
    exact congrArg some (combine_combine first rest _)

/-- The pieces of all entities are put together as if they had not been merged before. -/
theorem gathered_append_of_merge (h : merge all = .ok merged) (more : List Declaration) :
    gathered (merged ++ more) = gathered (all ++ more) := by
  have hnames : Ordered.ofList ((merged ++ more).map entity)
      = Ordered.ofList ((all ++ more).map entity) := by
    rw [List.map_append, List.map_append, map_entity_merge h]
    exact Ordered.ofList_ofList_append _ _
  unfold gathered
  rw [hnames, funext (merged?_append_of_merge h more)]

/-! ### Storage keys -/

/-- A declaration clashes with the storage key of the first piece of its entity. -/
theorem entityClash?_congr {all all' : List Declaration} {d : Declaration}
    (h : (all.find? fun other => other.entity = d.entity).map storageKey
      = (all'.find? fun other => other.entity = d.entity).map storageKey) :
    entityClash? all d = entityClash? all' d := by
  unfold entityClash?
  revert h
  generalize all.find? (fun other => decide (other.entity = d.entity)) = found
  generalize all'.find? (fun other => decide (other.entity = d.entity)) = found'
  intro h
  cases found with
  | none =>
    cases found' with
    | none => rfl
    | some first' => cases h
  | some first =>
    cases found' with
    | none => cases h
    | some first' =>
      have hkey : first.storageKey = first'.storageKey := Option.some.inj h
      simp only [Option.bind_eq_bind, Option.bind_some, hkey]

/-- A piece clashes with merged declarations exactly as it clashes with their pieces. -/
theorem entityClash?_of_merge (h : merge all = .ok merged) (more : List Declaration)
    (d : Declaration) : entityClash? (merged ++ more) d = entityClash? (all ++ more) d := by
  refine entityClash?_congr ?_
  -- What is found first is the head of the pieces, and merging keeps its storage key.
  rw [← List.head?_filter, ← List.head?_filter, List.filter_append, List.filter_append]
  rcases pieces_of_merge h d.entity with ⟨hall, hmerged⟩ | ⟨first, rest, hall, hmerged⟩
  · rw [hall, hmerged]
  · rw [hall, hmerged]
    rfl

/-- A declaration does not clash if its entity is declared in front, with its storage key only. -/
theorem entityClash?_append_of_same {d : Declaration}
    (hdeclared : ∃ piece ∈ all, piece.entity = d.entity)
    (hsame : ∀ piece ∈ all, piece.entity = d.entity → piece.storageKey = d.storageKey)
    (more : List Declaration) : entityClash? (all ++ more) d = none := by
  obtain ⟨first, hfirst⟩ :
      ∃ first, all.find? (fun other => other.entity = d.entity) = some first := by
    apply Option.isSome_iff_exists.mp
    rw [List.find?_isSome]
    simpa using hdeclared
  have hkey : first.storageKey = d.storageKey :=
    hsame first (List.mem_of_find?_eq_some hfirst) (by simpa using List.find?_some hfirst)
  unfold entityClash?
  rw [List.find?_append, hfirst]
  simp [hkey]

/-- The first clash is among the declarations that follow, before a merge as after it. -/
theorem findSome?_entityClash?_of_merge (h : merge all = .ok merged) (more : List Declaration) :
    (merged ++ more).findSome? (entityClash? (merged ++ more))
      = (all ++ more).findSome? (entityClash? (all ++ more)) := by
  have hpieces : all.findSome? (entityClash? (all ++ more)) = none := by
    rw [List.findSome?_eq_none_iff]
    intro d hd
    refine entityClash?_append_of_same ⟨d, hd, rfl⟩ ?_ more
    intro piece hpiece hentity
    by_contra hkey
    exact (merge_eq_ok h).1 ⟨piece, hpiece, d, hd, hentity, hkey⟩
  have hmerged : merged.findSome? (entityClash? (all ++ more)) = none := by
    rw [List.findSome?_eq_none_iff]
    intro d hd
    have hunion := isUnion_of_merge h hd
    obtain ⟨piece, hpiece, hentity, -⟩ := hunion.site
    exact entityClash?_append_of_same ⟨piece, hpiece, hentity⟩ hunion.storageKey more
  rw [funext (entityClash?_of_merge h more), List.findSome?_append, List.findSome?_append, hpieces,
    hmerged]

/-- **Merging is incremental.** Merged declarations stand for their pieces in every later merge:
with whatever follows, merging gives the same declarations or the same error. Merged again by
themselves they stay as they are. -/
theorem merge_append_of_merge (h : merge all = .ok merged) :
    (∀ more, merge (merged ++ more) = merge (all ++ more)) ∧ merge merged = .ok merged := by
  have happend : ∀ more, merge (merged ++ more) = merge (all ++ more) := by
    intro more
    have hgathered := gathered_append_of_merge h more
    unfold gathered at hgathered
    unfold merge
    rw [findSome?_entityClash?_of_merge h more, hgathered]
  refine ⟨happend, ?_⟩
  have hagain := happend []
  rw [List.append_nil, List.append_nil] at hagain
  rw [hagain, h]

/-- The merged user stands for its three pieces, whether the next piece adds a mark and an earlier
place or has another storage key. -/
theorem merge_append_of_userPieces :
    ∃ d d', merge userPieces = .ok [d] ∧ merge [d] = .ok [d] ∧ d ≠ d' ∧
      merge ([d] ++ [((named "User" "users").addMark .global).declaredAt "models/base.py" 9])
        = .ok [d'] ∧
      merge ([d] ++ [named "User" "accounts"])
        = .error (.duplicateEntity "User" "accounts" "users") := by
  let d := (gathered userPieces).headD default
  let later := ((named "User" "users").addMark .global).declaredAt "models/base.py" 9
  let d' := (gathered (userPieces ++ [later])).headD default
  have h : merge userPieces = .ok [d] := by decide +kernel
  obtain ⟨happend, hagain⟩ := merge_append_of_merge h
  refine ⟨d, d', h, hagain, by decide +kernel, ?_, ?_⟩
  · rw [happend]
    decide +kernel
  · rw [happend]
    decide +kernel

end Declaration

end Tenancy

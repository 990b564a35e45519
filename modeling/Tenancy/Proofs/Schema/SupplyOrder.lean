import Tenancy.Proofs.Schema.Contents
import Tenancy.Proofs.Support.FirstMet

/-!
# Where the order of declarations shows

Two fields of a merged declaration remember which piece came first. Marks are listed in the order in
which they were met, and if no piece of an entity has a file, the line of the first piece is kept.
`merge_eq_of_perm_iff` says that nothing else does: a permutation is merged to declarations that
differ in these two alone (`Reordered`), and every order gives the same exactly if pieces of one
entity agree on the order of their marks and, without a file, on the line (`HidesOrder`).

* `reordered_of_isUnion`: unions of the same pieces are equal up to the two fields.
* `merge_perm_of_hidesOrder`: pieces that agree are merged to the same declarations in every order.
* `first_piece_shows`: what comes first shows its marks first, and its line.
* `supply_order_shows`: pieces of both sorts.
-/

set_option autoImplicit false

namespace Tenancy.Declaration

open Tenancy.Support

variable {all all' merged : List Declaration} {d d' : Declaration}

/-- Merged declarations of one entity that differ in the order of their marks and, if they have no
file, in their line alone. -/
structure Reordered (d d' : Declaration) : Prop where
  entity : d.entity = d'.entity
  storageKey : d.storageKey = d'.storageKey
  columns : d.columns = d'.columns
  foreignKeys : d.foreignKeys = d'.foreignKeys
  marks : d.marks.Perm d'.marks
  file : d.file = d'.file
  line : d.file.isSome → d.line = d'.line

/-- The order of declarations cannot be seen in what is merged: pieces of an entity agree on the
order of their marks, and on the line if none of them has a file. -/
structure HidesOrder (all : List Declaration) : Prop where
  marks : ∀ d ∈ all, ∀ d' ∈ all, d.entity = d'.entity → Comparable d.marks d'.marks
  line : ∀ d ∈ all, ∀ d' ∈ all, d.entity = d'.entity →
    (∀ piece ∈ all, piece.entity = d.entity → piece.file = none) → d.line = d'.line

/-! ### What does not depend on the order -/

/-- Unions of the same pieces have the same file, and with it the same line. -/
theorem site_of_isUnion (hmem : ∀ piece, piece ∈ all ↔ piece ∈ all') (h : IsUnion all d)
    (h' : IsUnion all' d') (hentity : d.entity = d'.entity) :
    d.file = d'.file ∧ (d.file.isSome → d.line = d'.line) := by
  -- Each union has a place of a piece, and that piece is one of the other union, too.
  obtain ⟨piece, hpiece, hname, hsite⟩ := h.site
  obtain ⟨piece', hpiece', hname', hsite'⟩ := h'.site
  have hfile : piece.file = d.file := congrArg Prod.fst hsite
  have hfile' : piece'.file = d'.file := congrArg Prod.fst hsite'
  have hleast := h.least piece' ((hmem piece').mpr hpiece') (hname'.trans hentity.symm)
  have hleast' := h'.least piece ((hmem piece).mp hpiece) (hname.trans hentity)
  rw [hfile', hsite'] at hleast
  rw [hfile, hsite] at hleast'
  cases hd : d.file with
  | none =>
    cases hd' : d'.file with
    | none => exact ⟨rfl, nofun⟩
    | some file' =>
      have hsome := (hleast (by simp [hd'])).1
      simp [hd] at hsome
  | some file =>
    obtain ⟨hsome', hle'⟩ := hleast' (by simp [hd])
    -- Neither place comes before the other.
    have heq : d.site = d'.site :=
      Std.LawfulEqCmp.eq_of_compare (Std.OrientedCmp.isLE_antisymm (hleast hsome').2 hle')
    exact ⟨hd ▸ congrArg Prod.fst heq, fun _ => congrArg Prod.snd heq⟩

/-- Unions of the same pieces are equal up to the order of marks and a line without a file. -/
theorem reordered_of_isUnion (hmem : ∀ piece, piece ∈ all ↔ piece ∈ all') (h : IsUnion all d)
    (h' : IsUnion all' d') (hentity : d.entity = d'.entity) : Reordered d d' := by
  obtain ⟨hfile, hline⟩ := site_of_isUnion hmem h h' hentity
  obtain ⟨piece, hpiece, hname, -⟩ := h.site
  refine ⟨hentity, ?_, ?_, ?_, ?_, hfile, hline⟩
  · rw [← h.storageKey piece hpiece hname,
      h'.storageKey piece ((hmem piece).mp hpiece) (hname.trans hentity)]
  · refine h.columns.1.eq_of_mem_iff h'.columns.1 fun column => ?_
    rw [h.columns.2, h'.columns.2, hentity]
    simp only [hmem]
  · refine h.foreignKeys.1.eq_of_mem_iff h'.foreignKeys.1 fun key => ?_
    rw [h.foreignKeys.2, h'.foreignKeys.2, hentity]
    simp only [hmem]
  · refine (List.perm_ext_iff_of_nodup h.marks.1 h'.marks.1).mpr fun mark => ?_
    rw [h.marks.2, h'.marks.2, hentity]
    simp only [hmem]

/-- A permutation is merged, too, and to the same declarations up to the order of marks and a line
without a file. -/
theorem merge_reordered (hperm : all.Perm all') (h : merge all = .ok merged) :
    ∃ merged', merge all' = .ok merged' ∧ List.Forall₂ Reordered merged merged' := by
  rcases merge_perm hperm (merge_eq_ok h).1 with ⟨e, he, -⟩ | ⟨_, merged', hmerge, h', halike⟩
  · rw [h] at he
    cases he
  · obtain rfl : merged = _ := Except.ok.inj (h.symm.trans hmerge)
    refine ⟨merged', h', ?_⟩
    -- The lists are alike place by place, so it is enough to compare what stands at one place.
    rw [List.forall₂_iff_zip] at halike ⊢
    refine ⟨halike.1, ?_⟩
    intro d d' hzip
    obtain ⟨hd, hd'⟩ := List.of_mem_zip hzip
    exact reordered_of_isUnion (fun _ => hperm.mem_iff) (isUnion_of_merge h hd)
      (isUnion_of_merge h' hd') (halike.2 hzip).entity

/-! ### Pieces that agree -/

/-- The marks of a merged declaration are listed as they are met in its pieces. -/
theorem marks_of_merged? {name : String} (h : merged? all name = some d) :
    d.marks = ((all.filter fun piece => piece.entity = name).map marks).flatten.eraseDups := by
  unfold merged? at h
  split at h
  · cases h
  · rename_i first rest hpieces
    cases h
    rw [hpieces, ← List.flatMap_def]
    rfl

/-- Pieces that agree are put together to the same declaration in every order. -/
theorem eq_of_merged?_of_hidesOrder (hperm : all.Perm all') (hkeys : ¬ TwoKeys all)
    (hides : HidesOrder all) {name : String} (h : merged? all name = some d)
    (h' : merged? all' name = some d') : d = d' := by
  have hentity : d.entity = d'.entity := (entity_of_merged? h).trans (entity_of_merged? h').symm
  have hunion := isUnion_of_merged? hkeys h
  have hunion' := isUnion_of_merged? (mt (twoKeys_perm hperm).mpr hkeys) h'
  have hreordered := reordered_of_isUnion (fun _ => hperm.mem_iff) hunion hunion' hentity
  have hmarks : d.marks = d'.marks := by
    rw [marks_of_merged? h, marks_of_merged? h']
    refine eraseDups_flatten_perm ((hperm.filter _).map marks) ?_
    simp only [List.mem_map, List.mem_filter, decide_eq_true_eq]
    rintro _ ⟨c, ⟨hc, hcname⟩, rfl⟩ _ ⟨c', ⟨hc', hcname'⟩, rfl⟩
    exact hides.marks c hc c' hc' (hcname.trans hcname'.symm)
  have hline : d.line = d'.line := by
    by_cases hfile : d.file.isSome
    · exact hreordered.line hfile
    · -- No piece has a file, so all of them have one line.
      obtain ⟨c, hc, hcname, hsite⟩ := hunion.site
      obtain ⟨c', hc', hcname', hsite'⟩ := hunion'.site
      have hnone : ∀ piece ∈ all, piece.entity = c.entity → piece.file = none := by
        intro piece hpiece hname
        by_contra hne
        exact hfile (hunion.least piece hpiece (hname.trans hcname)
          (Option.isSome_iff_ne_none.mpr hne)).1
      calc d.line = c.line := (congrArg Prod.snd hsite).symm
        _ = c'.line := hides.line c hc c' (hperm.mem_iff.mpr hc')
          (hcname.trans (hentity.trans hcname'.symm)) hnone
        _ = d'.line := congrArg Prod.snd hsite'
  cases d
  cases d'
  obtain ⟨hentity, hkey, hcolumns, hforeignKeys, -, hfile, -⟩ := hreordered
  simp_all

/-- Pieces that agree are merged to the same declarations in every order. -/
theorem merge_perm_of_hidesOrder (hperm : all.Perm all') (h : merge all = .ok merged)
    (hides : HidesOrder all) : merge all' = .ok merged := by
  obtain ⟨merged', h', hreordered⟩ := merge_reordered hperm h
  have heq : List.Forall₂ Eq merged merged' := by
    rw [List.forall₂_iff_zip] at hreordered ⊢
    refine ⟨hreordered.1, ?_⟩
    intro d d' hzip
    obtain ⟨hd, hd'⟩ := List.of_mem_zip hzip
    refine eq_of_merged?_of_hidesOrder hperm (merge_eq_ok h).1 hides (merged?_of_mem h hd) ?_
    rw [(hreordered.2 hzip).entity]
    exact merged?_of_mem h' hd'
  rw [List.forall₂_eq_eq_eq] at heq
  rw [h', heq]

/-! ### What comes first -/

/-- Places without a file change nothing. -/
theorem foldl_keepSite_of_none {a : Site} {sites : List Site} (h : ∀ s ∈ sites, s.1 = none) :
    sites.foldl keepSite a = a := by
  induction sites with
  | nil => rfl
  | cons s sites ih =>
    have hkeep : keepSite a s = a := by
      unfold keepSite
      rw [if_neg]
      simp [h s List.mem_cons_self]
    rw [List.foldl_cons, hkeep]
    exact ih fun s' hs' => h s' (List.mem_cons_of_mem s hs')

/-- The piece that comes first shows its marks first and, if no piece of its entity has a file, its
line. -/
theorem first_piece_shows {rest : List Declaration} (h : merge (d :: rest) = .ok merged) :
    ∃ m ∈ merged, m.entity = d.entity ∧ d.marks.eraseDups <+: m.marks ∧
      ((∀ piece ∈ rest, piece.entity = d.entity → piece.file = none) → m.line = d.line) := by
  let pieces := rest.filter fun piece => piece.entity = d.entity
  have hmerged : merged? (d :: rest) d.entity = some (combine d pieces) := by
    unfold merged?
    rw [List.filter_cons_of_pos (by simp)]
  refine ⟨combine d pieces, ?_, rfl, ?_, ?_⟩
  · rw [eq_gathered_of_merge h, mem_gathered_iff]
    exact hmerged
  · show d.marks.eraseDups <+: ((d :: pieces).flatMap marks).eraseDups
    rw [List.flatMap_cons]
    exact eraseDups_isPrefix_append _ _
  · intro hnone
    have hsite : (combine d pieces).site = d.site := by
      refine foldl_keepSite_of_none ?_
      simp only [pieces, List.mem_map, List.mem_filter, decide_eq_true_eq]
      rintro _ ⟨piece, ⟨hpiece, hname⟩, rfl⟩
      exact hnone piece hpiece hname
    exact congrArg Prod.snd hsite

/-- If every order gives the same declarations, pieces agree. -/
theorem hidesOrder_of_merge_perm (h : merge all = .ok merged)
    (hsame : ∀ all', all.Perm all' → merge all' = .ok merged) : HidesOrder all := by
  -- Any piece can be made to come first, and then shows in the one result.
  have hfirst : ∀ d ∈ all, ∃ m ∈ merged, m.entity = d.entity ∧ d.marks.eraseDups <+: m.marks ∧
      ((∀ piece ∈ all, piece.entity = d.entity → piece.file = none) → m.line = d.line) := by
    intro d hd
    have hperm := List.perm_cons_erase hd
    obtain ⟨m, hm, hentity, hmarks, hline⟩ := first_piece_shows (hsame _ hperm)
    refine ⟨m, hm, hentity, hmarks, fun hnone => hline fun piece hpiece => ?_⟩
    exact hnone piece (List.mem_of_mem_erase hpiece)
  -- Two pieces of an entity show in the same merged declaration.
  have hboth : ∀ d ∈ all, ∀ d' ∈ all, d.entity = d'.entity → ∃ m : Declaration,
      (d.marks.eraseDups <+: m.marks ∧ d'.marks.eraseDups <+: m.marks) ∧
      ((∀ piece ∈ all, piece.entity = d.entity → piece.file = none) →
        m.line = d.line ∧ m.line = d'.line) := by
    intro d hd d' hd' hentity
    obtain ⟨m, hm, hname, hmarks, hline⟩ := hfirst d hd
    obtain ⟨m', hm', hname', hmarks', hline'⟩ := hfirst d' hd'
    rw [eq_gathered_of_merge h] at hm hm'
    obtain rfl := eq_of_mem_gathered hm hm' (hname.trans (hentity.trans hname'.symm))
    exact ⟨m, ⟨hmarks, hmarks'⟩, fun hnone => ⟨hline hnone, hline' (hentity ▸ hnone)⟩⟩
  refine ⟨?_, ?_⟩
  · intro d hd d' hd' hentity
    obtain ⟨m, ⟨hmarks, hmarks'⟩, -⟩ := hboth d hd d' hd' hentity
    exact List.prefix_or_prefix_of_prefix hmarks hmarks'
  · intro d hd d' hd' hentity hnone
    obtain ⟨m, -, hline⟩ := hboth d hd d' hd' hentity
    exact (hline hnone).1.symm.trans (hline hnone).2

/-- **When the order of declarations does not matter.** If declarations are merged, so is every
permutation of them, with a result that differs at most in the order of marks and in lines without a
file. Every permutation gives the very same result exactly if pieces of one entity agree on the
order of their marks and, where none has a file, on the line. -/
theorem merge_eq_of_perm_iff (h : merge all = .ok merged) :
    (∀ all', all.Perm all' →
      ∃ merged', merge all' = .ok merged' ∧ List.Forall₂ Reordered merged merged') ∧
    ((∀ all', all.Perm all' → merge all' = .ok merged) ↔ HidesOrder all) := by
  refine ⟨fun all' hperm => merge_reordered hperm h, hidesOrder_of_merge_perm h, ?_⟩
  intro hides all' hperm
  exact merge_perm_of_hidesOrder hperm h hides

/-- A piece without a file does not show beside one with a file, whatever its line is. -/
theorem merge_eq_of_perm_iff_of_pieces :
    ∃ d, merge (userPieces.take 2) = .ok [d] ∧ HidesOrder (userPieces.take 2) ∧
      merge (userPieces.take 2).reverse = .ok [d] ∧ d.site = (some "models/user.py", some 4) := by
  let d := (gathered (userPieces.take 2)).headD default
  have h : merge (userPieces.take 2) = .ok [d] := by decide +kernel
  have hides : HidesOrder (userPieces.take 2) := ⟨by decide +kernel, by decide +kernel⟩
  have hsame := (merge_eq_of_perm_iff h).2.mpr hides _ (List.reverse_perm _).symm
  exact ⟨d, h, hides, hsame, by decide +kernel⟩

/-- A piece that marks the entity as tenant-scoped, with or without a column. -/
def markedPiece (column : Option String) : Declaration :=
  (named "User" "users").addMark (.tenantScoped column)

/-- A piece of which only the line is known. -/
def linePiece (line : UInt32) : Declaration := { named "User" "users" with line := some line }

/-- The order of declarations shows in either field: for two pieces with different marks, and for
two pieces with different lines and no file. -/
theorem supply_order_shows :
    (∃ d d', merge [markedPiece none, markedPiece (some "workspace_id")] = .ok [d] ∧
      merge [markedPiece (some "workspace_id"), markedPiece none] = .ok [d'] ∧
      d.marks ≠ d'.marks) ∧
    ∃ d d', merge [linePiece 3, linePiece 7] = .ok [d] ∧
      merge [linePiece 7, linePiece 3] = .ok [d'] ∧ d.line ≠ d'.line := by
  refine ⟨⟨combine (markedPiece none) [markedPiece (some "workspace_id")],
    combine (markedPiece (some "workspace_id")) [markedPiece none], ?_, ?_, ?_⟩,
    ⟨combine (linePiece 3) [linePiece 7], combine (linePiece 7) [linePiece 3], ?_, ?_, ?_⟩⟩
  all_goals decide +kernel

end Tenancy.Declaration

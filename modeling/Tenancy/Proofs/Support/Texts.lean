import Mathlib.Data.List.Basic
import Tenancy.Text.Blank
import Tenancy.Text.Split

/-!
# Texts that are put together

A text that was put together from parts shows them again if the divider between them occurs in none
of the parts before it (`eq_of_append_divider`), or in none behind it (`eq_of_divider_append`). If
it may occur in both, the parts are told apart up to a piece that can be counted to either of them
(`append_divider_eq_iff`). In names and messages the part is a number: it consists of digits
(`not_mem_toString`) and can be read again (`eq_of_toList_toString`).

`splitLast?_of_toList` and `splitLast?_of_not_mem` say how a text is split at its last divider, and
`exists_last_divider` finds it; `splitPair?_eq_some` and `splitPair?_append` say how a text is split
at the first of two characters in a row. `mem_trim_of_mem`: trimming keeps whatever is not blank,
and the whole text if it neither starts nor ends with a blank (`trim_eq_self`, `trim_divided`).
-/

set_option autoImplicit false

namespace Tenancy.Support

/-- The characters of two texts with a divider between them. -/
theorem toList_divided {divider : String} {c : Char} (h : divider.toList = [c]) (a b : String) :
    (a ++ divider ++ b).toList = a.toList ++ c :: b.toList := by
  rw [String.toList_append, String.toList_append, h, List.append_assoc]
  rfl

/-- What stands before the first divider and behind it can be told apart. -/
theorem eq_of_append_divider {α : Type} {divider : α} {a a' b b' : List α} (ha : divider ∉ a)
    (ha' : divider ∉ a') (h : a ++ divider :: b = a' ++ divider :: b') : a = a' ∧ b = b' := by
  induction a generalizing a' with
  | nil =>
    cases a' with
    | nil => exact ⟨rfl, (List.cons.inj h).2⟩
    | cons c a' => exact absurd ((List.cons.inj h).1 ▸ List.mem_cons_self) ha'
  | cons c a ih =>
    cases a' with
    | nil => exact absurd ((List.cons.inj h).1 ▸ List.mem_cons_self) ha
    | cons c' a' =>
      obtain ⟨rfl, hrest⟩ := List.cons.inj h
      obtain ⟨rfl, hb⟩ :=
        ih (mt (List.mem_cons_of_mem c) ha) (mt (List.mem_cons_of_mem c) ha') hrest
      exact ⟨rfl, hb⟩

/-- What stands before the last divider and behind it can be told apart. -/
theorem eq_of_divider_append {α : Type} {divider : α} {a a' b b' : List α} (hb : divider ∉ b)
    (hb' : divider ∉ b') (h : a ++ divider :: b = a' ++ divider :: b') : a = a' ∧ b = b' := by
  have hreversed := congrArg List.reverse h
  simp only [List.reverse_append, List.reverse_cons, List.append_assoc, List.singleton_append]
    at hreversed
  obtain ⟨hb, ha⟩ := eq_of_append_divider (by simpa using hb) (by simpa using hb') hreversed
  exact ⟨List.reverse_injective ha, List.reverse_injective hb⟩

/-- Two texts with a divider are the same exactly if their parts are the same, or one has a piece
with a divider of its own before the divider that the other has behind it. -/
theorem append_divider_eq_iff {α : Type} {divider : α} {a a' b b' : List α} :
    a ++ divider :: b = a' ++ divider :: b' ↔
      (a = a' ∧ b = b') ∨ (∃ piece, a = a' ++ divider :: piece ∧ b' = piece ++ divider :: b) ∨
        ∃ piece, a' = a ++ divider :: piece ∧ b = piece ++ divider :: b' := by
  constructor
  · intro h
    rcases List.append_eq_append_iff.mp h with ⟨excess, ha, hb⟩ | ⟨excess, ha, hb⟩
    · cases excess with
      | nil => exact .inl ⟨by simpa using ha.symm, (List.cons.inj hb).2⟩
      | cons c piece =>
        obtain ⟨rfl, hpiece⟩ := List.cons.inj hb
        exact .inr (.inr ⟨piece, ha, hpiece⟩)
    · cases excess with
      | nil => exact .inl ⟨by simpa using ha, (List.cons.inj hb).2.symm⟩
      | cons c piece =>
        obtain ⟨rfl, hpiece⟩ := List.cons.inj hb
        exact .inr (.inl ⟨piece, ha, hpiece⟩)
  · rintro (⟨rfl, rfl⟩ | ⟨piece, rfl, rfl⟩ | ⟨piece, rfl, rfl⟩)
    · rfl
    · simp
    · simp

/-- A text with a divider has a last one. -/
theorem exists_last_divider {divider : Char} {s : String} (h : divider ∈ s.toList) :
    ∃ before after : String, s.toList = before.toList ++ divider :: after.toList ∧
      divider ∉ after.toList := by
  obtain ⟨after, before, hsplit, hafter⟩ :=
    List.eq_append_cons_of_mem (List.mem_reverse.mpr h)
  refine ⟨String.ofList before.reverse, String.ofList after.reverse, ?_, by simpa using hafter⟩
  rw [← List.reverse_reverse s.toList, hsplit]
  simp

/-- A text is split at its last divider. -/
theorem splitLast?_of_toList {divider : Char} {s before after : String}
    (hs : s.toList = before.toList ++ divider :: after.toList) (hafter : divider ∉ after.toList) :
    Text.splitLast? divider s = some (before, after) := by
  have hreversed : s.toList.reverse = after.toList.reverse ++ divider :: before.toList.reverse := by
    simp [hs]
  have htake : s.toList.reverse.takeWhile (· != divider) = after.toList.reverse := by
    rw [hreversed, List.takeWhile_append_of_pos]
    · simp
    · intro c hc
      rw [bne_iff_ne]
      rintro rfl
      exact hafter (List.mem_reverse.mp hc)
  unfold Text.splitLast?
  simp only [htake]
  rw [hreversed, List.drop_left]
  simp

/-- A text without the divider is not split. -/
theorem splitLast?_of_not_mem {divider : Char} {s : String} (hs : divider ∉ s.toList) :
    Text.splitLast? divider s = none := by
  cases h : Text.splitLast? divider s with
  | none => rfl
  | some parts =>
    obtain ⟨before, after⟩ := parts
    rw [Text.splitLast?_eq_some h] at hs
    simp at hs

/-- A text that is split at two characters in a row contains them. -/
theorem splitPair?_eq_some {a b : Char} {cs before after : List Char}
    (h : Text.splitPair? a b cs = some (before, after)) : cs = before ++ a :: b :: after := by
  fun_induction Text.splitPair? a b cs generalizing before with
  | case1 => cases h
  | case2 => cases h
  | case3 _ _ _ hpair =>
    cases h
    rw [hpair.1, hpair.2]
    rfl
  | case4 c d rest _ ih =>
    obtain ⟨⟨front, back⟩, hfound, heq⟩ := Option.map_eq_some_iff.mp h
    cases heq
    rw [ih hfound]
    rfl

/-- A text is split at two characters in a row if they do not stand in what is before them, nor go
across its end. -/
theorem splitPair?_append {a b : Char} {before : List Char} (after : List Char)
    (hnone : Text.splitPair? a b before = none) (hlast : before.getLast? ≠ some a) :
    Text.splitPair? a b (before ++ a :: b :: after) = some (before, after) := by
  fun_induction Text.splitPair? a b before with
  | case1 => simp [Text.splitPair?]
  | case2 c =>
    have hc : c ≠ a := by simpa using hlast
    simp [Text.splitPair?, hc]
  | case3 => cases hnone
  | case4 c d rest hpair ih =>
    rw [List.getLast?_cons_cons] at hlast
    have hrest := ih (Option.map_eq_none_iff.mp hnone) hlast
    rw [List.cons_append] at hrest
    rw [List.cons_append, List.cons_append, Text.splitPair?, if_neg hpair, hrest]
    rfl

/-- A text with the two characters in a row is split. -/
theorem isSome_splitPair?_append {a b : Char} (before after : List Char) :
    (Text.splitPair? a b (before ++ a :: b :: after)).isSome = true := by
  induction before with
  | nil => simp [Text.splitPair?]
  | cons c before ih =>
    obtain ⟨d, rest, hcons⟩ : ∃ d rest, before ++ a :: b :: after = d :: rest :=
      List.exists_cons_of_ne_nil (by simp)
    rw [List.cons_append, hcons, Text.splitPair?]
    split
    · rfl
    · rw [Option.isSome_map, ← hcons]
      exact ih

/-! ### Blanks at the ends -/

/-- Whether a text starts with a blank. -/
def startsBlank (text : String) : Bool := text.toList.head?.any Text.isBlank

/-- Whether a text ends with a blank. -/
def endsBlank (text : String) : Bool := text.toList.getLast?.any Text.isBlank

/-- Two texts in a row start like the first, unless it is empty. -/
theorem startsBlank_append (a b : String) :
    startsBlank (a ++ b) = if a = "" then startsBlank b else startsBlank a := by
  unfold startsBlank
  rw [String.toList_append, List.head?_append]
  split
  · rename_i h
    simp [h]
  · rename_i h
    obtain ⟨c, cs, ha⟩ := List.exists_cons_of_ne_nil (mt String.toList_eq_nil_iff.mp h)
    simp [ha]

/-- Two texts in a row end like the second, unless it is empty. -/
theorem endsBlank_append (a b : String) :
    endsBlank (a ++ b) = if b = "" then endsBlank a else endsBlank b := by
  unfold endsBlank
  rw [String.toList_append, List.getLast?_append]
  split
  · rename_i h
    simp [h]
  · rename_i h
    obtain ⟨cs, c, hb⟩ :=
      (List.eq_nil_or_concat' b.toList).resolve_left (mt String.toList_eq_nil_iff.mp h)
    simp [hb]

/-- A text that neither starts nor ends with a blank stays as it is. -/
theorem trim_eq_self {text : String} (hstart : startsBlank text = false)
    (hend : endsBlank text = false) : Text.trim text = text := by
  have hdrop : ∀ cs : List Char, cs.head?.any Text.isBlank = false →
      cs.dropWhile Text.isBlank = cs := by
    intro cs h
    cases cs with
    | nil => rfl
    | cons c cs => exact List.dropWhile_cons_of_neg (by simpa using h)
  unfold endsBlank at hend
  rw [← List.head?_reverse] at hend
  unfold Text.trim Text.trimChars
  rw [hdrop _ hstart, hdrop _ hend, List.reverse_reverse, String.ofList_toList]

/-- Two texts with a divider between them stay as they are, if the first does not start with a blank
and the second does not end with one. -/
theorem trim_divided {divider : String} (hdivider : divider ≠ "")
    (hfirst : startsBlank divider = false) (hlast : endsBlank divider = false) {a b : String}
    (hstart : startsBlank a = false) (hend : endsBlank b = false) :
    Text.trim (a ++ divider ++ b) = a ++ divider ++ b := by
  refine trim_eq_self ?_ ?_
  · rw [String.append_assoc, startsBlank_append, startsBlank_append, if_neg hdivider, hfirst,
      hstart, ite_self]
  · rw [endsBlank_append, endsBlank_append, if_neg hdivider, hlast, hend, ite_self]

/-- Trimming keeps whatever is not blank. -/
theorem mem_trim_of_mem {text : String} {c : Char} (hc : Text.isBlank c = false)
    (h : c ∈ text.toList) : c ∈ (Text.trim text).toList := by
  have hdrop : ∀ cs : List Char, c ∈ cs → c ∈ cs.dropWhile Text.isBlank := by
    intro cs hmem
    have hsplit : cs.takeWhile Text.isBlank ++ cs.dropWhile Text.isBlank = cs :=
      List.takeWhile_append_dropWhile
    rw [← hsplit, List.mem_append] at hmem
    refine hmem.resolve_left fun htake => ?_
    have hblank := List.all_eq_true.mp List.all_takeWhile c htake
    rw [hc] at hblank
    cases hblank
  show c ∈ (String.ofList (Text.trimChars text.toList)).toList
  rw [String.toList_ofList]
  exact List.mem_reverse.mpr (hdrop _ (List.mem_reverse.mpr (hdrop _ h)))

/-! ### Numbers -/

/-- A number is written in digits. -/
theorem not_mem_toString {c : Char} (hc : c.isDigit = false) (n : Nat) :
    c ∉ (toString n).toList := by
  rw [Nat.toString_eq_repr, Nat.toList_repr]
  intro hmem
  rw [Nat.isDigit_of_mem_toDigits (by decide) (by decide) hmem] at hc
  cases hc

/-- No digit is blank. -/
theorem isDigit_of_isBlank {c : Char} (h : Text.isBlank c = true) : c.isDigit = false := by
  rw [Bool.eq_false_iff]
  intro hdigit
  simp only [Char.isDigit, Bool.and_eq_true, decide_eq_true_eq, ge_iff_le,
    UInt32.le_iff_toNat_le] at hdigit
  have hlow : 48 ≤ c.toNat := hdigit.1
  have hhigh : c.toNat ≤ 57 := hdigit.2
  simp only [Text.isBlank, Bool.or_eq_true, Bool.and_eq_true, decide_eq_true_eq, beq_iff_eq] at h
  omega

/-- A number does not end with a blank. -/
theorem endsBlank_toString (n : Nat) : endsBlank (toString n) = false := by
  unfold endsBlank
  rw [Bool.eq_false_iff]
  intro h
  obtain ⟨c, hlast, hblank⟩ := (Option.any_eq_true _ _).mp h
  exact not_mem_toString (isDigit_of_isBlank hblank) n (List.mem_of_getLast? hlast)

/-- Different numbers are written differently. -/
theorem eq_of_toList_toString {m n : Nat} (h : (toString m).toList = (toString n).toList) :
    m = n := by
  rw [Nat.toString_eq_repr, Nat.toString_eq_repr, Nat.toList_repr, Nat.toList_repr] at h
  calc m = Nat.ofDigitChars 10 (Nat.toDigits 10 m) 0 := Nat.ofDigitChars_ten_toDigits.symm
    _ = Nat.ofDigitChars 10 (Nat.toDigits 10 n) 0 := by rw [h]
    _ = n := Nat.ofDigitChars_ten_toDigits

end Tenancy.Support

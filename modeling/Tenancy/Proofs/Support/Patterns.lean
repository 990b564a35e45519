import Tenancy.Glob
import Tenancy.Proofs.Support.Lists
import Tenancy.Text.Blank

/-!
# Which texts are patterns

`Glob.IsPattern` is the grammar of patterns: a star is followed by no other star, `**` stands
between dividers or at an end, and the set behind a bracket is closed. `exists_compile_iff` says
that exactly the texts of this grammar are read.

A text without pattern characters matches itself and nothing else (`exists_compile_literal`).

Blanks are characters of a pattern like any other, so a text may lose them at both ends and still be
a pattern (`exists_compile_trim`). This is no matter of course: without its end a pattern could lose
the bracket that closes a set, and without its start a `**` could come to stand where it may not.
Neither happens, because a closing bracket is not blank and a start is a place for `**`.
-/

set_option autoImplicit false

namespace Tenancy

open Tenancy.Support

namespace Glob

/-- The texts that may follow a character, or start a pattern if there is none. -/
inductive IsPattern : Option Char → List Char → Prop where
  | nil (before : Option Char) : IsPattern before []
  | star {before : Option Char} {rest : List Char} (hrest : rest.head? ≠ some '*')
      (h : IsPattern (some '*') rest) : IsPattern before ('*' :: rest)
  | recursiveEnd {before : Option Char} (hbefore : before = none ∨ before = some '/') :
      IsPattern before ['*', '*']
  | recursive {before : Option Char} {rest : List Char}
      (hbefore : before = none ∨ before = some '/') (h : IsPattern (some '/') rest) :
      IsPattern before ('*' :: '*' :: '/' :: rest)
  | except {before : Option Char} {first : Char} {inner rest : List Char} (hinner : ']' ∉ inner)
      (h : IsPattern (some ']') rest) :
      IsPattern before ('[' :: '!' :: first :: (inner ++ ']' :: rest))
  | within {before : Option Char} {first : Char} {inner rest : List Char} (hfirst : first ≠ '!')
      (hinner : ']' ∉ inner) (h : IsPattern (some ']') rest) :
      IsPattern before ('[' :: first :: (inner ++ ']' :: rest))
  | char {before : Option Char} {c : Char} {rest : List Char} (hstar : c ≠ '*') (hset : c ≠ '[')
      (h : IsPattern (some c) rest) : IsPattern before (c :: rest)

/-! ### Reading follows the grammar -/

/-- A set is closed by the first bracket. -/
theorem closeSet?_append {inner : List Char} (h : ']' ∉ inner) (rest : List Char) :
    closeSet? (inner ++ ']' :: rest) = some (inner, inner.length + 1) := by
  have hinner : (inner ++ ']' :: rest).takeWhile (· != ']') = inner := by
    rw [List.takeWhile_append_of_pos]
    · simp
    · intro c hc
      rw [bne_iff_ne]
      rintro rfl
      exact h hc
  unfold closeSet?
  rw [if_pos (by simp), hinner]

/-- What is in front of the bracket that closes a set, and what is behind it. -/
theorem exists_of_closeSet? {cs inner : List Char} {width : Nat}
    (h : closeSet? cs = some (inner, width)) :
    ∃ rest, ']' ∉ inner ∧ cs = inner ++ ']' :: rest ∧ cs.drop width = rest := by
  have hmem : ']' ∈ cs := by
    by_contra hnot
    unfold closeSet? at h
    rw [if_neg hnot] at h
    cases h
  obtain ⟨front, rest, rfl, hfront⟩ := List.eq_append_cons_of_mem hmem
  rw [closeSet?_append hfront] at h
  cases h
  exact ⟨rest, hfront, rfl, by simp⟩

/-- What is read is in the grammar. -/
theorem isPattern_of_compileFrom {position : Nat} {before : Option Char} {cs : List Char}
    {tokens : List Token} (h : compileFrom position before cs = .ok tokens) :
    IsPattern before cs := by
  fun_induction compileFrom position before cs generalizing tokens with
  | case1 => exact .nil _
  | case2 => cases h
  | case3 _ _ hbefore => exact .recursiveEnd hbefore
  | case4 _ _ hbefore more _ ih =>
    obtain ⟨inner, hinner, -⟩ := bind_eq_ok_iff.mp h
    exact .recursive hbefore (ih hinner)
  | case5 => cases h
  | case6 => cases h
  | case7 _ _ after _ hstar ih =>
    obtain ⟨inner, hinner, -⟩ := bind_eq_ok_iff.mp h
    refine .star ?_ (ih hinner)
    -- A second star would have been read as a part of `**`.
    intro hhead
    obtain ⟨rest, hrest⟩ := List.head?_eq_some_iff.mp hhead
    exact hstar rest hrest
  | case8 => cases h
  | case9 _ _ first rest inner width hclose ih =>
    obtain ⟨tail, htail, -⟩ := bind_eq_ok_iff.mp h
    obtain ⟨behind, hinner, rfl, hdrop⟩ := exists_of_closeSet? hclose
    rw [hdrop] at ih htail
    exact .except hinner (ih htail)
  | case10 => cases h
  | case11 => cases h
  | case12 _ _ first rest hmore hnone inner width hclose ih =>
    obtain ⟨tail, htail, -⟩ := bind_eq_ok_iff.mp h
    obtain ⟨behind, hinner, rfl, hdrop⟩ := exists_of_closeSet? hclose
    rw [hdrop] at ih htail
    refine .within ?_ hinner (ih htail)
    -- A set that starts with `!` has another first character, or is not closed.
    rintro rfl
    cases inner with
    | nil => exact hmore _ _ rfl rfl
    | cons c inner => exact hmore _ _ rfl rfl
  | case13 => cases h
  | case14 _ _ rest ih =>
    obtain ⟨inner, hinner, -⟩ := bind_eq_ok_iff.mp h
    exact .char (by decide) (by decide) (ih hinner)
  | case15 _ _ c rest hstar _ _ hset hlone _ ih =>
    obtain ⟨inner, hinner, -⟩ := bind_eq_ok_iff.mp h
    refine .char hstar ?_ (ih hinner)
    intro hc
    cases rest with
    | nil => exact hlone hc rfl
    | cons first rest => exact hset first rest hc rfl

/-- Everything in the grammar is read. -/
theorem IsPattern.exists_compileFrom {before : Option Char} {cs : List Char}
    (h : IsPattern before cs) (position : Nat) :
    ∃ tokens, compileFrom position before cs = .ok tokens := by
  induction h generalizing position with
  | nil before => exact ⟨[], by rw [compileFrom]⟩
  | star hrest _ ih =>
    obtain ⟨tokens, htokens⟩ := ih (position + 1)
    refine ⟨.sequence :: tokens, ?_⟩
    rw [compileFrom, htokens]
    · rfl
    · rintro tail rfl
      simp at hrest
    · rintro tail rfl
      simp at hrest
  | recursiveEnd hbefore => exact ⟨[.recursive], by rw [compileFrom, if_pos hbefore]⟩
  | recursive hbefore _ ih =>
    obtain ⟨tokens, htokens⟩ := ih (position + 3)
    refine ⟨.recursive :: tokens, ?_⟩
    rw [compileFrom, if_pos hbefore, htokens]
    rfl
  | @except _ first inner rest hinner _ ih =>
    obtain ⟨tokens, htokens⟩ := ih (position + 3 + (inner.length + 1))
    have hdrop : (inner ++ ']' :: rest).drop (inner.length + 1) = rest := by simp
    refine ⟨.except (members (first :: inner)) :: tokens, ?_⟩
    rw [compileFrom, closeSet?_append hinner]
    show (compileFrom _ _ ((inner ++ ']' :: rest).drop (inner.length + 1)) >>= _) = _
    rw [hdrop, htokens]
    rfl
  | @within _ first inner rest hfirst hinner _ ih =>
    obtain ⟨tokens, htokens⟩ := ih (position + 2 + (inner.length + 1))
    have hdrop : (inner ++ ']' :: rest).drop (inner.length + 1) = rest := by simp
    refine ⟨.within (members (first :: inner)) :: tokens, ?_⟩
    rw [compileFrom, closeSet?_append hinner]
    · show (compileFrom _ _ ((inner ++ ']' :: rest).drop (inner.length + 1)) >>= _) = _
      rw [hdrop, htokens]
      rfl
    · exact fun _ _ h _ => hfirst h
    · exact fun h _ => hfirst h
  | @char _ c rest hstar hset _ ih =>
    obtain ⟨tokens, htokens⟩ := ih (position + 1)
    by_cases hany : c = '?'
    · subst hany
      refine ⟨.anyChar :: tokens, ?_⟩
      rw [compileFrom, htokens]
      rfl
    · refine ⟨.char c :: tokens, ?_⟩
      rw [compileFrom, htokens]
      · rfl
      · exact hstar
      · exact fun _ _ h _ => hset h
      · exact fun h _ => hset h
      · exact fun _ _ h _ => hset h
      · exact fun h _ => hset h
      · exact hany

/-- Exactly the texts of the grammar are read. -/
theorem exists_compile_iff {text : String} :
    (∃ g, compile text = .ok g) ↔ IsPattern none text.toList := by
  constructor
  · rintro ⟨g, h⟩
    unfold compile at h
    cases htokens : compileFrom 0 none text.toList with
    | error e =>
      rw [htokens] at h
      cases h
    | ok tokens => exact isPattern_of_compileFrom htokens
  · intro h
    obtain ⟨tokens, htokens⟩ := h.exists_compileFrom 0
    refine ⟨⟨tokens⟩, ?_⟩
    unfold compile
    rw [htokens]
    rfl

/-! ### Texts without pattern characters -/

/-- Plain characters stand for themselves and nothing else. -/
theorem matchTokens_literal_iff {cs ds : List Char} :
    matchTokens (cs.map .char) ds = true ↔ ds = cs := by
  induction cs generalizing ds with
  | nil => simp [matchTokens]
  | cons c cs ih =>
    cases ds with
    | nil => simp [matchTokens]
    | cons d ds => simp [matchTokens, Token.holds, ih]

/-- A text without pattern characters is a pattern that matches the text and nothing else. -/
theorem exists_compile_literal {text : String}
    (plain : ∀ c ∈ text.toList, isPatternChar c = false) :
    ∃ g, compile text = .ok g ∧ ∀ path, g.accepts path = true ↔ path = text := by
  refine ⟨⟨text.toList.map .char⟩, ?_, fun path => ?_⟩
  · simp [compile, compileFrom_literal 0 none plain, Functor.map, Except.map]
  · unfold accepts
    rw [matchTokens_literal_iff, String.toList_inj]

/-! ### Blanks at the ends -/

/-- What may follow a character may also start a pattern. -/
theorem IsPattern.atStart {before : Option Char} {cs : List Char} (h : IsPattern before cs) :
    IsPattern none cs := by
  cases h with
  | nil => exact .nil none
  | star hrest h => exact .star hrest h
  | recursiveEnd _ => exact .recursiveEnd (.inl rfl)
  | recursive _ h => exact .recursive (.inl rfl) h
  | except hinner h => exact .except hinner h
  | within hfirst hinner h => exact .within hfirst hinner h
  | char hstar hset h => exact .char hstar hset h

/-- A pattern may lose a blank in front. -/
theorem IsPattern.of_blank_cons {before : Option Char} {c : Char} {cs : List Char}
    (hc : Text.isBlank c) (h : IsPattern before (c :: cs)) : IsPattern none cs := by
  cases h with
  | star => exact absurd hc (by decide)
  | recursiveEnd => exact absurd hc (by decide)
  | recursive => exact absurd hc (by decide)
  | except => exact absurd hc (by decide)
  | within => exact absurd hc (by decide)
  | char _ _ h => exact h.atStart

/-- A text that goes on behind a character which is not its last has its last character behind
it. -/
theorem exists_of_append_eq_concat (front : List Char) {rest cs : List Char} {x c : Char}
    (hx : x ≠ c) (h : cs ++ [c] = front ++ x :: rest) :
    ∃ rest', rest = rest' ++ [c] ∧ cs = front ++ x :: rest' := by
  rcases rest.eq_nil_or_concat with rfl | ⟨rest', b, rfl⟩
  · have hlast := (List.append_inj' h rfl).2
    exact absurd (List.cons.inj hlast).1.symm hx
  · rw [List.concat_eq_append, ← List.cons_append, ← List.append_assoc] at h
    obtain ⟨hfront, hlast⟩ := List.append_inj' h rfl
    cases hlast
    exact ⟨rest', List.concat_eq_append, hfront⟩

/-- A pattern may lose a blank at its end. -/
theorem IsPattern.of_append_blank {before : Option Char} {c : Char} {cs : List Char}
    (hc : Text.isBlank c) (h : IsPattern before (cs ++ [c])) : IsPattern before cs := by
  -- No character that a token ends with is blank, so the blank is behind the last token.
  have hne : ∀ x, Text.isBlank x = false → x ≠ c := by
    rintro x hx rfl
    rw [hx] at hc
    cases hc
  generalize hwhole : cs ++ [c] = whole at h
  induction h generalizing cs with
  | nil => simp at hwhole
  | star hrest _ ih =>
    obtain ⟨rest', rfl, rfl⟩ := exists_of_append_eq_concat [] (hne '*' (by decide)) hwhole
    refine .star ?_ (ih rfl)
    cases rest' with
    | nil => simp
    | cons x rest' => simpa using hrest
  | recursiveEnd =>
    obtain ⟨rest', hrest', -⟩ := exists_of_append_eq_concat ['*'] (hne '*' (by decide)) hwhole
    simp at hrest'
  | recursive hbefore _ ih =>
    obtain ⟨rest', rfl, rfl⟩ := exists_of_append_eq_concat ['*', '*'] (hne '/' (by decide)) hwhole
    exact .recursive hbefore (ih rfl)
  | @except _ first inner rest hinner _ ih =>
    obtain ⟨rest', rfl, rfl⟩ :=
      exists_of_append_eq_concat ('[' :: '!' :: first :: inner) (hne ']' (by decide)) hwhole
    exact .except hinner (ih rfl)
  | @within _ first inner rest hfirst hinner _ ih =>
    obtain ⟨rest', rfl, rfl⟩ :=
      exists_of_append_eq_concat ('[' :: first :: inner) (hne ']' (by decide)) hwhole
    exact .within hfirst hinner (ih rfl)
  | char hstar hset _ ih =>
    cases cs with
    | nil => exact .nil _
    | cons x cs =>
      obtain ⟨rfl, rfl⟩ := List.cons.inj hwhole
      exact .char hstar hset (ih rfl)

/-- A pattern may lose all blanks in front. -/
theorem IsPattern.dropWhile_isBlank {cs : List Char} (h : IsPattern none cs) :
    IsPattern none (cs.dropWhile Text.isBlank) := by
  induction cs with
  | nil => exact h
  | cons c cs ih =>
    by_cases hc : Text.isBlank c
    · rw [List.dropWhile_cons_of_pos hc]
      exact ih (h.of_blank_cons hc)
    · rw [List.dropWhile_cons_of_neg hc]
      exact h

/-- A pattern may lose all blanks at its end. -/
theorem IsPattern.reverse_dropWhile_isBlank {cs : List Char} (h : IsPattern none cs.reverse) :
    IsPattern none (cs.dropWhile Text.isBlank).reverse := by
  induction cs with
  | nil => exact h
  | cons c cs ih =>
    by_cases hc : Text.isBlank c
    · rw [List.dropWhile_cons_of_pos hc]
      rw [List.reverse_cons] at h
      exact ih (h.of_append_blank hc)
    · rw [List.dropWhile_cons_of_neg hc]
      exact h

/-- A pattern without the blanks at its two ends is a pattern. -/
theorem exists_compile_trim {text : String} (h : ∃ g, compile text = .ok g) :
    ∃ g, compile (Text.trim text) = .ok g := by
  rw [exists_compile_iff] at h ⊢
  show IsPattern none (String.ofList (Text.trimChars text.toList)).toList
  rw [String.toList_ofList]
  refine IsPattern.reverse_dropWhile_isBlank ?_
  rw [List.reverse_reverse]
  exact h.dropWhile_isBlank

end Glob

end Tenancy

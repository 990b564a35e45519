import Mathlib.Data.List.Basic
import Tenancy.Wire.Json

/-!
# Reading a written scalar

Texts are written between quotation marks, with escapes where a character would end the text or has
no printed form. `readText_escaped` says that what stands between the marks is the text again,
whatever follows it: every character is read as one code unit (`readUnits_escapeChar`), and no
character is half of a surrogate pair (`joinUnits_toNat`).

Whole numbers are written in digits without superfluous zeros. `readNumber_toDigits` reads them back
if nothing follows that would go on with the number (`EndsNumber`).
-/

set_option autoImplicit false

namespace Tenancy.Wire.Json

/-! ### Texts -/

/-- Puts a code unit in front of those that were read. -/
def addUnit (unit : Nat) (read : List Nat × List Char) : List Nat × List Char :=
  (unit :: read.1, read.2)

/-- A short escape is read as the character it stands for. -/
theorem readUnits_short {e c : Char} (h : shortEscape? e = some c) (cs : List Char) :
    readUnits ('\\' :: e :: cs) = (readUnits cs).map (addUnit c.toNat) := by
  have hne : e ≠ 'u' := by
    rintro rfl
    cases h
  rw [readUnits.eq_3 e cs (fun _ _ _ _ _ hu _ => hne hu), h]
  cases readUnits cs with
  | none => rfl
  | some read => rfl

/-- A numbered escape is read as its number. -/
theorem readUnits_numbered {a b c d : Char} {n : Nat} (h : hexValue4? a b c d = some n)
    (cs : List Char) :
    readUnits ('\\' :: 'u' :: a :: b :: c :: d :: cs) = (readUnits cs).map (addUnit n) := by
  rw [readUnits.eq_2, h]
  cases readUnits cs with
  | none => rfl
  | some read => rfl

/-- A character that stands for itself is read as its code. -/
theorem readUnits_plain {c : Char} (hquote : c ≠ '"') (hslash : c ≠ '\\')
    (hprinted : 0x20 ≤ c.toNat) (cs : List Char) :
    readUnits (c :: cs) = (readUnits cs).map (addUnit c.toNat) := by
  rw [readUnits.eq_4 c cs hquote (fun _ _ _ _ _ h _ => hslash h) (fun _ _ h _ => hslash h)]
  rw [if_neg (by rintro (h | h); exacts [hslash h, absurd h (by omega)])]
  cases readUnits cs with
  | none => rfl
  | some read => rfl

/-- The two digits of a control character name it. -/
theorem hexValue4?_hexDigit {n : Nat} (hn : n < 32) :
    hexValue4? '0' '0' (Value.hexDigit (n / 16)) (Value.hexDigit (n % 16)) = some n := by
  revert n
  decide

/-- What is written for a character is read as its code. -/
theorem readUnits_escapeChar (c : Char) (cs : List Char) :
    readUnits (Value.escapeChar c ++ cs) = (readUnits cs).map (addUnit c.toNat) := by
  unfold Value.escapeChar
  -- One case for each way in which a character is written.
  split
  · rename_i hquote
    subst hquote
    exact readUnits_short rfl cs
  rename_i hquote
  split
  · rename_i hslash
    subst hslash
    exact readUnits_short rfl cs
  rename_i hslash
  split
  · rename_i hbackspace
    rw [hbackspace]
    exact readUnits_short (c := Char.ofNat 0x8) rfl cs
  split
  · rename_i hfeed
    rw [hfeed]
    exact readUnits_short (c := Char.ofNat 0xC) rfl cs
  split
  · rename_i hline
    subst hline
    exact readUnits_short rfl cs
  split
  · rename_i hreturn
    subst hreturn
    exact readUnits_short rfl cs
  split
  · rename_i htab
    subst htab
    exact readUnits_short rfl cs
  split
  · rename_i hcontrol
    exact readUnits_numbered (hexValue4?_hexDigit hcontrol) cs
  · rename_i hcontrol
    exact readUnits_plain hquote hslash (by omega) cs

/-- What is written for characters is read as their codes, up to the closing mark. -/
theorem readUnits_escaped (cs rest : List Char) :
    readUnits (cs.flatMap Value.escapeChar ++ '"' :: rest) = some (cs.map Char.toNat, rest) := by
  induction cs with
  | nil => rw [List.flatMap_nil, List.nil_append, readUnits.eq_1]; rfl
  | cons c cs ih =>
    rw [List.flatMap_cons, List.append_assoc, readUnits_escapeChar, ih]
    rfl

/-- No character is half of a surrogate pair. -/
theorem not_isHigh_or_isLow (c : Char) : (isHigh c.toNat || isLow c.toNat) = false := by
  have hvalid := c.valid
  have hcode : c.toNat = c.val.toNat := rfl
  simp only [UInt32.isValidChar, Nat.isValidChar] at hvalid
  unfold isHigh isLow
  simp only [Bool.or_eq_false_iff, Bool.and_eq_false_iff, decide_eq_false_iff_not]
  omega

/-- The codes of characters are the characters again. -/
theorem joinUnits_toNat (cs : List Char) : joinUnits (cs.map Char.toNat) = some cs := by
  induction cs with
  | nil => rfl
  | cons c cs ih =>
    have hwhole := not_isHigh_or_isLow c
    have hhigh : isHigh c.toNat = false := (Bool.or_eq_false_iff.mp hwhole).1
    cases cs with
    | nil => simp [joinUnits, hwhole]
    | cons c' cs =>
      rw [List.map_cons] at ih
      rw [List.map_cons, List.map_cons, joinUnits, hhigh, Bool.false_and, if_neg Bool.false_ne_true]
      rw [hhigh] at hwhole
      rw [if_neg (by simp [hwhole]), ih, Char.ofNat_toNat]
      rfl

/-- A text that was written is read again, whatever follows it. -/
theorem readText_escaped (s : String) (rest : List Char) :
    readText (s.toList.flatMap Value.escapeChar ++ '"' :: rest) = some (some s, rest) := by
  unfold readText
  rw [readUnits_escaped, Option.map_some]
  simp only [joinUnits_toNat, Option.map_some, String.ofList_toList]

/-! ### Numbers -/

/-- Nothing that goes on with a number stands at the front. -/
def EndsNumber (rest : List Char) : Prop :=
  ∀ c ∈ rest.head?, c.isDigit = false ∧ c ≠ '.' ∧ c ≠ 'e' ∧ c ≠ 'E'

/-- The digits of a number start with zero only if it is zero. -/
theorem exists_toDigits_eq_cons (n : Nat) :
    ∃ d ds, Nat.toDigits 10 n = d :: ds ∧ (d = '0' → n = 0) := by
  induction n using Nat.strongRecOn with
  | _ n ih =>
    by_cases hn : n < 10
    · refine ⟨n.digitChar, [], Nat.toDigits_of_lt_base hn, Nat.digitChar_eq_zero.mp⟩
    · obtain ⟨d, ds, hdigits, hzero⟩ := ih (n / 10) (by omega)
      rw [Nat.toDigits_of_base_le (by decide) (by omega), hdigits]
      refine ⟨d, ds ++ [(n % 10).digitChar], rfl, fun hd => ?_⟩
      have := hzero hd
      omega

/-- Digits are read as the number that they are the digits of. -/
theorem digits?_toDigits (n : Nat) : Node.digits? 10 (Nat.toDigits 10 n) = some n := by
  have hfold : ∀ (cs : List Char) (start : Nat), (∀ c ∈ cs, c.isDigit = true) →
      cs.foldlM (fun n c =>
        let d := if c.isDigit then c.toNat - 48
          else if 'a' ≤ c ∧ c ≤ 'f' then c.toNat - 87
          else if 'A' ≤ c ∧ c ≤ 'F' then c.toNat - 55
          else 10
        if d < 10 then some (10 * n + d) else none) start
      = some (Nat.ofDigitChars 10 cs start) := by
    intro cs
    induction cs with
    | nil => intro start _; rfl
    | cons c cs ih =>
      intro start hdigits
      rw [List.forall_mem_cons] at hdigits
      have hbound : c.toNat - 48 < 10 := by
        have hdigit := hdigits.1
        simp only [Char.isDigit, Bool.and_eq_true, decide_eq_true_eq] at hdigit
        have hcode : c.toNat = c.val.toNat := rfl
        have hmost : c.val.toNat ≤ 57 := hdigit.2
        omega
      simp only [List.foldlM_cons, hdigits.1, if_true, hbound]
      rw [Nat.ofDigitChars_cons]
      exact ih _ hdigits.2
  unfold Node.digits?
  rw [if_neg (by simp [Nat.toDigits_ne_nil]), hfold _ 0 fun c hc =>
    Nat.isDigit_of_mem_toDigits (by decide) (by decide) hc, Nat.ofDigitChars_ten_toDigits]

/-- Digits are split off as far as they go. -/
theorem spanDigits_append {ds rest : List Char} (hds : ∀ c ∈ ds, c.isDigit = true)
    (hrest : EndsNumber rest) : spanDigits (ds ++ rest) = (ds, rest) := by
  have hstop : rest.takeWhile Char.isDigit = [] ∧ rest.dropWhile Char.isDigit = rest := by
    cases rest with
    | nil => exact ⟨rfl, rfl⟩
    | cons c rest =>
      have hc : c.isDigit = false := (hrest c (by simp)).1
      exact ⟨by simp [hc], by simp [hc]⟩
  unfold spanDigits
  rw [List.takeWhile_append_of_pos hds, List.dropWhile_append_of_pos hds, hstop.1, hstop.2,
    List.append_nil]

theorem readFraction_of_ends {rest : List Char} (h : EndsNumber rest) :
    readFraction rest = some ([], rest, false) := by
  unfold readFraction
  split
  · exact absurd rfl (h '.' (by simp)).2.1
  · rfl

theorem readExponent_of_ends {rest : List Char} (h : EndsNumber rest) :
    readExponent rest = some (0, rest, false) := by
  unfold readExponent
  split
  · rename_i e rest
    have hmark := (h e (by simp)).2.2
    rw [if_neg (by simp [hmark])]
  · rfl

/-- Reads what follows the whole part of a number. -/
def readBehind (negative : Bool) (front rest : List Char) : Option (Number × List Char) := do
  let (back, rest, hasPoint) ← readFraction rest
  let (exponent, rest, hasExponent) ← readExponent rest
  let digits ← Node.digits? 10 (front ++ back)
  let value : Int := if negative then -(digits : Int) else digits
  if hasPoint || hasExponent || !Number.fits value || (negative && digits = 0) then
    return (.decimal negative digits (exponent - back.length), rest)
  else
    return (.whole value, rest)

/-- A zero takes no further digits. -/
theorem readNumber_zero (negative : Bool) (rest : List Char) :
    readNumber negative ('0' :: rest) = readBehind negative ['0'] rest := rfl

/-- Without a zero at the front the whole part is all digits there are. -/
theorem readNumber_digits (negative : Bool) {d : Char} {ds rest : List Char} (hzero : d ≠ '0')
    (hds : ∀ c ∈ d :: ds, c.isDigit = true) (hrest : EndsNumber rest) :
    readNumber negative (d :: ds ++ rest) = readBehind negative (d :: ds) rest := by
  have hspan := spanDigits_append hds hrest
  rw [List.cons_append] at hspan ⊢
  unfold readNumber
  extract_lets next
  split
  · rename_i hcs
    exact absurd (List.cons.inj hcs).1 hzero
  · rw [hspan]
    rfl

theorem readBehind_of_ends {negative : Bool} {front rest : List Char} {n : Nat}
    (hfront : Node.digits? 10 front = some n) (hrest : EndsNumber rest)
    (hfits : Number.fits (if negative then -(n : Int) else n) = true)
    (hsign : negative = true → n ≠ 0) :
    readBehind negative front rest = some (.whole (if negative then -(n : Int) else n), rest) := by
  unfold readBehind
  simp only [readFraction_of_ends hrest, readExponent_of_ends hrest, List.append_nil, hfront, bind,
    Option.bind_some, hfits]
  simpa using hsign

/-- The digits of a number and its sign are read as that number, if nothing follows that would go on
with it. The sign of zero would be lost, so zero has none. -/
theorem readNumber_toDigits {negative : Bool} {n : Nat} {rest : List Char} (hrest : EndsNumber rest)
    (hfits : Number.fits (if negative then -(n : Int) else n) = true)
    (hsign : negative = true → n ≠ 0) :
    readNumber negative (Nat.toDigits 10 n ++ rest)
      = some (.whole (if negative then -(n : Int) else n), rest) := by
  rw [← readBehind_of_ends (digits?_toDigits n) hrest hfits hsign]
  obtain ⟨d, ds, hcons, hzero⟩ := exists_toDigits_eq_cons n
  by_cases hd : d = '0'
  · rw [hzero hd, Nat.toDigits_zero]
    exact readNumber_zero negative rest
  · rw [hcons]
    refine readNumber_digits negative hd (fun c hc => ?_) hrest
    rw [← hcons] at hc
    exact Nat.isDigit_of_mem_toDigits (by decide) (by decide) hc

/-- A whole number is written as its digits, after a sign if it is negative. -/
theorem toList_toText_whole (n : Int) :
    (Number.whole n).toText.toList
      = if 0 ≤ n then Nat.toDigits 10 n.natAbs else '-' :: Nat.toDigits 10 n.natAbs := by
  change (toString n).toList = _
  rw [Int.toString_eq_repr, Int.repr_eq_if]
  split
  · have hvalue : n.toNat = n.natAbs := by omega
    rw [Nat.toList_repr, hvalue]
  · have hvalue : (-n).toNat = n.natAbs := by omega
    rw [String.toList_append, Nat.toList_repr, hvalue]
    rfl

/-- What starts with a digit is a number. -/
theorem readScalar_digit {d : Char} (hd : d.isDigit = true) (cs : List Char) :
    readScalar (d :: cs)
      = match readNumber false (d :: cs) with
        | some (n, rest) => (.number n, some rest)
        | none => stop := by
  unfold readScalar
  split
  all_goals first
    | rfl
    | rename_i hcs
      cases (List.cons.inj hcs).1
      exact absurd hd (by decide)

/-- A whole number that was written is read again, if nothing follows that would go on with it. -/
theorem readScalar_whole {n : Int} {rest : List Char} (hfits : Number.fits n = true)
    (hrest : EndsNumber rest) :
    readScalar ((Number.whole n).toText.toList ++ rest) = (.number (.whole n), some rest) := by
  rw [toList_toText_whole]
  split
  · rename_i hsign
    have hvalue : (if false then -(n.natAbs : Int) else n.natAbs) = n := by
      rw [if_neg Bool.false_ne_true]
      omega
    have hread := readNumber_toDigits hrest (hvalue ▸ hfits) (by simp)
    obtain ⟨d, ds, hcons, -⟩ := exists_toDigits_eq_cons n.natAbs
    have hd : d.isDigit = true :=
      Nat.isDigit_of_mem_toDigits (by decide) (by decide) (hcons ▸ List.mem_cons_self)
    rw [hvalue, hcons, List.cons_append] at hread
    rw [hcons, List.cons_append, readScalar_digit hd, hread]
  · rename_i hsign
    have hvalue : (if true then -(n.natAbs : Int) else n.natAbs) = n := by
      rw [if_pos rfl]
      omega
    have hread := readNumber_toDigits hrest (hvalue ▸ hfits) (fun _ => by omega)
    rw [hvalue] at hread
    rw [List.cons_append, readScalar.eq_5, hread]

end Tenancy.Wire.Json

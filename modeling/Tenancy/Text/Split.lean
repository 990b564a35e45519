/-!
# Splitting texts

A text is split at the first or the last place where a divider stands.

Main statement: `splitLast?_eq_some`, the parts and the divider make up the text again.
-/

set_option autoImplicit false

namespace Tenancy.Text

/-- What stands before and after the last occurrence of a character. -/
def splitLast? (divider : Char) (s : String) : Option (String × String) :=
  let reversed := s.toList.reverse
  let after := reversed.takeWhile (· != divider)
  match reversed.drop after.length with
  | [] => none
  | _ :: before => some (String.ofList before.reverse, String.ofList after.reverse)

theorem splitLast?_eq_some {divider : Char} {s before after : String}
    (h : splitLast? divider s = some (before, after)) :
    s.toList = before.toList ++ divider :: after.toList := by
  have drop : ∀ l : List Char, l.drop (l.takeWhile (· != divider)).length
      = l.dropWhile (· != divider) := by
    intro l
    induction l with
    | nil => rfl
    | cons c l ih => by_cases hc : c != divider <;> simp [hc, ih]
  simp only [splitLast?, drop] at h
  split at h
  · cases h
  · next c rest hrest =>
    simp only [Option.some.injEq, Prod.mk.injEq] at h
    obtain ⟨rfl, rfl⟩ := h
    have hc : c = divider := by
      have := List.head?_dropWhile_not (· != divider) s.toList.reverse
      rw [hrest] at this
      simpa using this
    have whole := List.takeWhile_append_dropWhile (p := (· != divider)) (l := s.toList.reverse)
    rw [hrest, hc] at whole
    have := congrArg List.reverse whole
    simpa using this.symm

/-- What stands before and after the first occurrence of two characters in a row. -/
def splitPair? (a b : Char) : List Char → Option (List Char × List Char)
  | [] => none
  | [_] => none
  | c :: d :: rest =>
    if c = a ∧ d = b then some ([], rest)
    else (splitPair? a b (d :: rest)).map fun (before, after) => (c :: before, after)

/-- Whether a text starts with another. -/
def startsWith (s start : String) : Bool := start.toList.isPrefixOf s.toList

/-- The lines of a text; a text that ends in a line break has an empty last line. -/
def lines (s : String) : List String := (s.toList.splitOn '\n').map String.ofList

end Tenancy.Text

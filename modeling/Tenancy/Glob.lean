/-!
# Glob patterns

`?` stands for one character, `*` for any run of characters, `[...]` and `[!...]` for one character
in or outside a set, and `**` as a whole path component for any number of components. A divider is
a character like any other, so `*` also runs over it, and nothing can be escaped.

`Glob.compile` turns a text into tokens or says where it is no pattern; `Glob.accepts` matches a
whole text. Main statement: `compileFrom_literal`, characters that are not special stand for
themselves.
-/

set_option autoImplicit false

namespace Tenancy

namespace Glob

/-- One member of a character set. -/
inductive Member where
  | single (c : Char)
  | range (low high : Char)
  deriving DecidableEq, Repr, Inhabited

/-- Whether a character is meant by a member of a set. -/
def Member.holds : Member → Char → Bool
  | single a, c => c == a
  | range low high, c => low ≤ c && c ≤ high

/-- One step of a pattern. -/
inductive Token where
  | char (c : Char)
  | anyChar
  | sequence
  | recursive
  | within (members : List Member)
  | except (members : List Member)
  deriving DecidableEq, Repr, Inhabited

/-- Whether a token that stands for one character stands for this one. -/
def Token.holds : Token → Char → Bool
  | char a, c => c == a
  | anyChar, _ => true
  | within members, c => members.any (·.holds c)
  | except members, c => !members.any (·.holds c)
  | sequence, _ => false
  | recursive, _ => false

/-- Why a text is no pattern. -/
inductive Fault where
  | wildcards
  | recursiveWildcards
  | invalidRange
  deriving DecidableEq, Repr, Inhabited

/-- What is wrong with a pattern. -/
def Fault.message : Fault → String
  | wildcards => "wildcards are either regular `*` or recursive `**`"
  | recursiveWildcards => "recursive wildcards must form a single path component"
  | invalidRange => "invalid range pattern"

/-- A fault and the character it was found at, counted from 0. -/
structure Error where
  position : Nat
  fault : Fault
  deriving DecidableEq, Repr, Inhabited

/-- The text of a fault with its position. -/
def Error.message (e : Error) : String :=
  s!"Pattern syntax error near position {e.position}: {e.fault.message}"

/-- The members of a set, read from left to right: `x-y` is a range. -/
def members : List Char → List Member
  | low :: '-' :: high :: rest => .range low high :: members rest
  | c :: rest => .single c :: members rest
  | [] => []

/-- Splits the text of a set after its first character at the closing bracket. -/
def closeSet? (cs : List Char) : Option (List Char × Nat) :=
  if ']' ∈ cs then
    let inner := cs.takeWhile (· != ']')
    some (inner, inner.length + 1)
  else none

/-- The tokens of a pattern. `position` is the place of the next character and `before` the
character in front of it. -/
def compileFrom (position : Nat) (before : Option Char) : List Char → Except Error (List Token)
  | [] => .ok []
  | '*' :: rest =>
    match rest with
    | '*' :: '*' :: _ => .error ⟨position + 2, .wildcards⟩
    | '*' :: after =>
      if before = none ∨ before = some '/' then
        match after with
        | [] => .ok [.recursive]
        -- The divider behind `**` belongs to it, so `a/**/b` also stands for `a/b`.
        | '/' :: more => do
          let tokens ← compileFrom (position + 3) (some '/') more
          return .recursive :: tokens
        | _ => .error ⟨position + 2, .recursiveWildcards⟩
      else .error ⟨position - 1, .recursiveWildcards⟩
    | after => do
      let tokens ← compileFrom (position + 1) (some '*') after
      return .sequence :: tokens
  -- The first character of a set never closes it.
  | '[' :: '!' :: first :: rest =>
    match closeSet? rest with
    | none => .error ⟨position, .invalidRange⟩
    | some (inner, width) => do
      let tokens ← compileFrom (position + 3 + width) (some ']') (rest.drop width)
      return .except (members (first :: inner)) :: tokens
  | ['[', '!'] => .error ⟨position, .invalidRange⟩
  | '[' :: first :: rest =>
    match closeSet? rest with
    | none => .error ⟨position, .invalidRange⟩
    | some (inner, width) => do
      let tokens ← compileFrom (position + 2 + width) (some ']') (rest.drop width)
      return .within (members (first :: inner)) :: tokens
  | ['['] => .error ⟨position, .invalidRange⟩
  | '?' :: rest => do
    let tokens ← compileFrom (position + 1) (some '?') rest
    return .anyChar :: tokens
  | c :: rest => do
    let tokens ← compileFrom (position + 1) (some c) rest
    return .char c :: tokens
termination_by cs => cs.length
decreasing_by all_goals grind

/-- Whether a test holds of some end piece of a list, the list itself and the empty one included. -/
def anySuffix (test : List Char → Bool) : List Char → Bool
  | [] => test []
  | c :: cs => test (c :: cs) || anySuffix test cs

/-- Whether a test holds of what follows some divider, or of the empty list. -/
def anyBelow (test : List Char → Bool) : List Char → Bool
  | [] => test []
  | c :: cs => (c == '/' && test cs) || anyBelow test cs

/-- Whether tokens stand for the whole of a text. -/
def matchTokens : List Token → List Char → Bool
  | [], cs => cs.isEmpty
  | .sequence :: tokens, cs => anySuffix (matchTokens tokens) cs
  | .recursive :: tokens, cs => matchTokens tokens cs || anyBelow (matchTokens tokens) cs
  | token :: tokens, c :: cs => token.holds c && matchTokens tokens cs
  | _ :: _, [] => false

end Glob

/-- A pattern that has been read. -/
structure Glob where
  tokens : List Glob.Token
  deriving DecidableEq, Repr, Inhabited

namespace Glob

/-- Reads a pattern. -/
def compile (text : String) : Except Error Glob := Glob.mk <$> compileFrom 0 none text.toList

/-- The pattern of a text, if it is one. -/
def compile? (text : String) : Option Glob := (compile text).toOption

/-- The pattern of a text is what is read from it. -/
theorem compile?_eq_some_iff {text : String} {g : Glob} :
    compile? text = some g ↔ compile text = .ok g := by
  unfold compile?
  cases compile text <;> simp [Except.toOption]

/-- Whether a pattern stands for a whole text. -/
def accepts (g : Glob) (text : String) : Bool := matchTokens g.tokens text.toList

/-- The characters that make a text more than a plain name. -/
def isPatternChar (c : Char) : Bool := c == '*' || c == '?' || c == '['

theorem compileFrom_literal (position : Nat) (before : Option Char) {cs : List Char}
    (plain : ∀ c ∈ cs, isPatternChar c = false) :
    compileFrom position before cs = .ok (cs.map .char) := by
  induction cs generalizing position before with
  | nil => simp [compileFrom]
  | cons c rest ih =>
    have hc : c ≠ '*' ∧ c ≠ '?' ∧ c ≠ '[' := by
      have := plain c List.mem_cons_self
      simpa [isPatternChar, and_assoc] using this
    have step : compileFrom position before (c :: rest)
        = (compileFrom (position + 1) (some c) rest).map (.char c :: ·) := by
      rw [compileFrom.eq_def]
      split <;> simp_all [Except.map, bind, Except.bind, pure, Except.pure]
    rw [step, ih _ _ fun d hd => plain d (List.mem_cons_of_mem _ hd)]
    rfl

end Glob

end Tenancy

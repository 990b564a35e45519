import Tenancy.Text.Keyword
import Tenancy.Verdict.Basic

/-!
# Styles

Colours and weights of text on a terminal. A style is a list of codes that is switched on in front
of a text and off behind it; without colour every text stays as it is.
-/

set_option autoImplicit false

namespace Tenancy

/-- When colour is used. -/
inductive ColorMode where
  /-- Where it can be shown. -/
  | auto
  | always
  | never
  deriving DecidableEq, Repr, Inhabited

namespace ColorMode

/-- The mode that a word names. -/
def ofText? (text : String) : Option ColorMode :=
  if Text.isKeyword "auto" text then some .auto
  else if Text.isKeyword "always" text then some .always
  else if Text.isKeyword "never" text then some .never
  else none

/-- Whether colour is used on an output that can show it or not. -/
def isOn (capable : Bool) : ColorMode → Bool
  | auto => capable
  | always => true
  | never => false

end ColorMode

/-- How a report looks on a terminal. -/
structure Appearance where
  color : ColorMode
  /-- Only ASCII characters for lines, and no colour. -/
  plain : Bool
  deriving DecidableEq, Repr, Inhabited

namespace Appearance

/-- The appearance that holds unless another is asked for. -/
def default : Appearance := ⟨.auto, false⟩

/-- The plain appearance. -/
def bare : Appearance := ⟨.never, true⟩

/-- Whether colour is used on an output that can show it or not. -/
def usesColor (a : Appearance) (capable : Bool) : Bool := !a.plain && a.color.isOn capable

/-- The appearance that the variables of the environment ask for; the last one that does counts. -/
def ofEnvironment (env : String → Option String) : Appearance :=
  let color := if (env "NO_COLOR").isSome then ColorMode.never else .auto
  let color := if env "CLICOLOR" = some "0" then ColorMode.never else color
  let color := if env "CLICOLOR_FORCE" = some "1" then ColorMode.always else color
  ⟨color, false⟩

/-- Whether an output can show colour. -/
def isCapable (env : String → Option String) (isTerminal : Bool) : Bool :=
  env "TERM" ≠ some "dumb" && isTerminal

end Appearance

/-- The styles of texts. -/
inductive Style where
  | header
  | bold
  | dim
  | success
  | error
  | warning
  | notice
  | doubt
  | danger
  deriving DecidableEq, Repr, Inhabited

namespace Style

/-- The codes of a style: weight before colour. -/
def codes : Style → String
  | header => "1;34"
  | bold => "1"
  | dim => "2"
  | success => "32"
  | error => "1;31"
  | warning => "33"
  | notice => "36"
  | doubt => "1;35"
  | danger => "31"

/-- Switches a style on. -/
def opening (s : Style) : String := "\x1b[" ++ s.codes ++ "m"

/-- Switches every style off. -/
def closing : String := "\x1b[0m"

/-- A text in a style, if there is colour. Where the text itself switches styles off, the style is
switched on again. -/
def apply (s : Style) (color : Bool) (text : String) : String :=
  if color then s.opening ++ text.replace closing (closing ++ s.opening) ++ closing else text

end Style

namespace Classification

/-- The style of an outcome. -/
def style : Classification → Style
  | violation => .error
  | unknown => .doubt
  | exempt => .notice
  | safe => .success

/-- An outcome in capital letters and in its style. -/
def styled (c : Classification) (color : Bool) : String := c.style.apply color c.label.toUpper

end Classification

namespace Severity

/-- The style of a severity; the lowest has none. -/
def style? : Severity → Option Style
  | critical => some .error
  | high => some .danger
  | medium => some .warning
  | low => none

/-- A severity in its style. -/
def styled (s : Severity) (color : Bool) : String :=
  match s.style? with
  | some style => style.apply color s.label
  | none => s.label

end Severity

end Tenancy

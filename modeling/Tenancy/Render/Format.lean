import Tenancy.Text.Keyword
import Tenancy.Wire.Codec

/-!
# Output formats

The forms in which a report can be written. Their names may be written in either case.
-/

set_option autoImplicit false

namespace Tenancy

/-- The forms in which a report can be written. -/
inductive OutputFormat where
  | terminal
  | json
  | markdown
  deriving DecidableEq, Repr, Inhabited

namespace OutputFormat

/-- All formats. -/
def all : List OutputFormat := [terminal, json, markdown]

/-- The written form of a format. -/
def key : OutputFormat → String
  | terminal => "terminal"
  | json => "json"
  | markdown => "markdown"

/-- The format that a word names. -/
def ofText? (text : String) : Option OutputFormat :=
  if Text.isKeyword "terminal" text then some .terminal
  else if Text.isKeyword "json" text then some .json
  else if Text.isKeyword "markdown" text || Text.isKeyword "md" text then some .markdown
  else none

end OutputFormat

end Tenancy

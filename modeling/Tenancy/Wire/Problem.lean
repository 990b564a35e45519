/-!
# Problems of a document

What can be wrong with a document, apart from the text of a fault in its notation: a field that is
missing, unknown or written twice, a variant that does not exist, or a value that has no meaning
where it stands.
-/

set_option autoImplicit false

namespace Tenancy.Wire

/-- The first problem of a document. -/
inductive Problem where
  | missingField (name : String)
  | duplicateField (name : String)
  | unknownField (name : String) (expected : List String)
  | unknownVariant (name : String) (expected : List String)
  /-- The text is no document, or a value has the wrong type or range. -/
  | malformed
  deriving DecidableEq, Repr, Inhabited

namespace Problem

/-- A name between backticks. -/
def tick (name : String) : String := "`" ++ name ++ "`"

/-- The names that would have been right. -/
def oneOf : List String → String
  | [] => ""
  | [a] => tick a
  | [a, b] => tick a ++ " or " ++ tick b
  | names => "one of " ++ ", ".intercalate (names.map tick)

/-- The text of a problem, if it has one that does not depend on the notation. -/
def message? : Problem → Option String
  | missingField name => some s!"missing field {tick name}"
  | duplicateField name => some s!"duplicate field {tick name}"
  | unknownField name expected => some s!"unknown field {tick name}, expected {oneOf expected}"
  | unknownVariant name expected => some s!"unknown variant {tick name}, expected {oneOf expected}"
  | malformed => none

end Problem

end Tenancy.Wire

import Tenancy.Facts.Location

/-!
# Handlers that cannot be analyzed

Why the operations of a handler do not make up access points. Operations are counted from 0.
-/

set_option autoImplicit false

namespace Tenancy

/-- Why a handler cannot be analyzed. -/
inductive ExtractionError where
  | unknownEntity (entity : String) (operation : Nat)
  | noTargets (operation : Nat)
  | unknownColumn (entity column : String) (operation : Nat)
  | ambiguousColumn (column candidates : String) (operation : Nat)
  | foreignQualifier (qualifier column : String) (operation : Nat)
  | emptyColumn (operation : Nat)
  | scanCapExceeded (limit : String) (value most : Nat)
  deriving DecidableEq, Repr, Inhabited

namespace ExtractionError

/-- The code of an error. -/
def code : ExtractionError → String
  | unknownEntity .. => "E020"
  | unknownColumn .. => "E021"
  | ambiguousColumn .. => "E021"
  | foreignQualifier .. => "E021"
  | noTargets .. => "E022"
  | emptyColumn .. => "E022"
  | scanCapExceeded .. => "E023"

/-- The text of an error. -/
def message : ExtractionError → String
  | unknownEntity entity operation => s!"operation #{operation} targets unknown entity `{entity}`"
  | noTargets operation => s!"operation #{operation} has no target entities"
  | unknownColumn entity column operation =>
    s!"operation #{operation} filters on `{entity}.{column}`, which is not a column of `{entity}`"
  | ambiguousColumn column candidates operation =>
    s!"operation #{operation} filters on `{column}`, which could belong to any of: {candidates}"
  | foreignQualifier qualifier column operation =>
    s!"operation #{operation} filters on `{qualifier}.{column}` but does not target `{qualifier}`"
  | emptyColumn operation => s!"operation #{operation} has an empty predicate column"
  | scanCapExceeded limit value most => s!"scan cap exceeded: {limit} is {value} (max {most})"

end ExtractionError

/-- A handler that cannot be analyzed, and why. -/
structure HandlerError where
  location : Location
  error : ExtractionError
  deriving DecidableEq, Repr, Inhabited

/-- The text of the error with the location in front. -/
def HandlerError.message (e : HandlerError) : String := s!"{e.location.toText}: {e.error.message}"

end Tenancy

import Tenancy.Report.Finding

/-!
# Batches

What came out of loading many documents: those that were loaded and the failures, each in the order
in which they were tried.
-/

set_option autoImplicit false

namespace Tenancy

/-- What was loaded and what could not be. -/
structure Batch (α : Type) where
  successes : List α
  failures : List LoadFailure
  deriving Repr, Inhabited

namespace Batch

variable {α : Type}

/-- Sorts results into what was loaded and what could not be. -/
def ofResults (results : List (Except LoadFailure α)) : Batch α where
  successes := results.filterMap Except.toOption
  failures := results.filterMap fun
    | .error failure => some failure
    | .ok _ => none

/-- The number of results. -/
def total (b : Batch α) : Nat := b.successes.length + b.failures.length

/-- Whether nothing failed. -/
def isComplete (b : Batch α) : Bool := b.failures.isEmpty

end Batch

end Tenancy

import Tenancy.Glob

/-!
# Scoping conventions

How scoping columns are named: a list of names and patterns, the preferred first. A column has the
priority of the first entry that it matches; of several columns the best is the one with the least
priority and, among those, the least name.
-/

set_option autoImplicit false

namespace Tenancy

/-- One entry of the list. -/
inductive Convention where
  | exact (name : String)
  | pattern (glob : Glob)
  deriving DecidableEq, Repr, Inhabited

namespace Convention

/-- Reads an entry: a text with a star is a pattern, unless it is none. -/
def ofText (text : String) : Convention :=
  if text.toList.contains '*' then
    match Glob.compile? text with
    | some glob => .pattern glob
    | none => .exact text
  else .exact text

/-- Whether a column is named as the entry says. -/
def accepts : Convention → String → Bool
  | exact name, column => name = column
  | pattern glob, column => glob.accepts column

end Convention

/-- The names and patterns of scoping columns, the preferred first. -/
structure Conventions where
  texts : List String
  deriving DecidableEq, Repr, Inhabited

namespace Conventions

/-- The entries that have been read. -/
def entries (c : Conventions) : List Convention := c.texts.map Convention.ofText

/-- The place of the first entry that a column matches. -/
def priority? (c : Conventions) (column : String) : Option Nat :=
  c.entries.findIdx? (·.accepts column)

/-- Whether a column matches an entry. -/
def accepts (c : Conventions) (column : String) : Bool := (c.priority? column).isSome

/-- The better of two columns with their priorities. -/
def better (a b : Nat × String) : Nat × String :=
  if a.1 < b.1 ∨ (a.1 = b.1 ∧ a.2 ≤ b.2) then a else b

/-- Those of some columns that match an entry, with their priorities. -/
def ranked (c : Conventions) (columns : List String) : List (Nat × String) :=
  columns.filterMap fun column => (c.priority? column).map fun p => (p, column)

/-- The column with the least priority and, among those, the least name. -/
def best? (c : Conventions) (columns : List String) : Option String :=
  match c.ranked columns with
  | [] => none
  | first :: rest => some (rest.foldl better first).2

/-- The list as a text. -/
def describe (c : Conventions) : String := ", ".intercalate c.texts

end Conventions

end Tenancy

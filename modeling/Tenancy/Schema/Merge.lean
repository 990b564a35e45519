import Tenancy.Facts.Declaration
import Tenancy.Schema.Error

/-!
# Merged declarations

The pieces in which an entity is declared are put together: its columns and foreign keys are sorted
and listed once, its marks are listed once in the order in which they were met, and of the places
where it is declared the least is kept. Two storage keys for one entity, or one storage key for two
entities, are errors.
-/

set_option autoImplicit false

namespace Tenancy.Declaration

/-- Two texts, the lesser first. -/
def sorted (a b : String) : String × String := if a ≤ b then (a, b) else (b, a)

/-- The error for a declaration whose entity has another storage key in the first of its pieces. -/
def entityClash? (all : List Declaration) (d : Declaration) : Option SchemaError := do
  let first ← all.find? fun other => other.entity = d.entity
  if first.storageKey = d.storageKey then none
  else
    let (low, high) := sorted first.storageKey d.storageKey
    some (.duplicateEntity d.entity low high)

/-- The error for the first entity whose storage key an entity before it has. -/
def keyClash? (before : List Declaration) : List Declaration → Option SchemaError
  | [] => none
  | d :: rest =>
    match before.find? fun other => other.storageKey = d.storageKey with
    | some other => some (.duplicateStorageKey d.storageKey other.entity d.entity)
    | none => keyClash? (d :: before) rest

/-- A place in a source file. -/
abbrev Site := Option String × Option UInt32

/-- The order of places: by file, then line, and what is missing comes first. -/
def Site.order : Site → Site → Ordering := compareLex (compareOn Prod.fst) (compareOn Prod.snd)

/-- Where a piece is declared. -/
def site (d : Declaration) : Site := (d.file, d.line)

/-- The lesser of two places; one without a file gives way to one with a file. -/
def keepSite (current candidate : Site) : Site :=
  if candidate.1.isSome ∧ (current.1.isNone ∨ Site.order candidate current = .lt) then candidate
  else current

/-- Puts the pieces of one entity together. -/
def combine (first : Declaration) (rest : List Declaration) : Declaration :=
  let pieces := first :: rest
  let place := (rest.map site).foldl keepSite first.site
  { entity := first.entity
    storageKey := first.storageKey
    columns := Ordered.ofList (pieces.flatMap columns)
    foreignKeys := Ordered.ofList (pieces.flatMap foreignKeys)
    marks := (pieces.flatMap marks).eraseDups
    file := place.1
    line := place.2 }

/-- The pieces of an entity, put together. -/
def merged? (all : List Declaration) (entity : String) : Option Declaration :=
  match all.filter fun d => d.entity = entity with
  | [] => none
  | first :: rest => some (combine first rest)

/-- Puts the pieces of every entity together, in the order of the names. -/
def merge (all : List Declaration) : Except SchemaError (List Declaration) :=
  match all.findSome? (entityClash? all) with
  | some e => .error e
  | none =>
    let whole := (Ordered.ofList (all.map entity)).filterMap (merged? all)
    match keyClash? [] whole with
    | some e => .error e
    | none => .ok whole

end Tenancy.Declaration

import Tenancy.Wire.Node

/-!
# TOML tables

The tables of a TOML document while it is read. A table may be opened by a header, by a header of a
table below it or by a dotted key; a table that a header has opened is not opened again, neither by
a header nor by a dotted key, and a key is given a value once.
-/

set_option autoImplicit false

namespace Tenancy.Wire.Toml

/-- How a table came into being. -/
inductive Made where
  /-- Its own header opened it. -/
  | header
  /-- The header of a table below it mentioned it. -/
  | implied
  /-- A dotted key mentioned it. -/
  | dotted
  deriving DecidableEq, Repr, Inhabited

/-- What a key stands for. -/
inductive Item where
  | value (node : Node)
  | table (made : Made) (members : List (String × Item))
  /-- A list of tables; the last one is still open. -/
  | tables (items : List Item)
  deriving Inhabited

/-- The members of a table. -/
abbrev Members := List (String × Item)

mutual

/-- The document of an item. -/
def Item.toNode : Item → Node
  | .value node => node
  | .table _ members => .record (toMembers members)
  | .tables items => .list (toNodes items)

/-- The documents of members. -/
def Item.toMembers : List (String × Item) → List (Option String × Node)
  | [] => []
  | (name, item) :: rest => (some name, item.toNode) :: toMembers rest

/-- The documents of a list of tables. -/
def Item.toNodes : List Item → List Node
  | [] => []
  | item :: rest => item.toNode :: toNodes rest

end

/-- Changes what a key stands for; no result if the change is refused. -/
def alter (f : Option Item → Option Item) (key : String) : Members → Option Members
  | [] => (f none).map fun item => [(key, item)]
  | (name, item) :: rest =>
    if name = key then (f (some item)).map fun item => (name, item) :: rest
    else (alter f key rest).map ((name, item) :: ·)

/-- Changes the table at a path. Tables on the way that are missing are made. -/
def within (made : Made) (f : Members → Option Members) : (path : List String) →
    Members → Option Members
  | [], members => f members
  | key :: path, members =>
    let change : Option Item → Option Item
      | none => (within made f path []).map (.table made)
      | some (.table before inside) =>
        if made = .dotted ∧ before = .header then none
        else (within made f path inside).map (.table before)
      | some (.tables items) =>
        match items.getLast? with
        | some (.table before inside) =>
          (within made f path inside).map fun inside =>
            .tables (items.dropLast ++ [.table before inside])
        | _ => none
      | some (.value _) => none
    alter change key members

/-- Opens the table of a header. -/
def openTable (path : List String) (root : Members) : Option Members := do
  let last ← path.getLast?
  within .implied (alter (fun
    | none => some (.table .header [])
    | some (.table .implied members) => some (.table .header members)
    | _ => none) last) path.dropLast root

/-- Opens one more table of a list of tables. -/
def appendTable (path : List String) (root : Members) : Option Members := do
  let last ← path.getLast?
  within .implied (alter (fun
    | none => some (.tables [.table .header []])
    | some (.tables items) => some (.tables (items ++ [.table .header []]))
    | _ => none) last) path.dropLast root

/-- Gives a dotted key its value. -/
def assign (path : List String) (value : Node) (members : Members) : Option Members := do
  let last ← path.getLast?
  within .dotted (alter (fun
    | none => some (.value value)
    | some _ => none) last) path.dropLast members

/-- Gives a dotted key its value in the table that the latest header opened. -/
def assignUnder (header path : List String) (value : Node) (root : Members) : Option Members :=
  within .implied (assign path value) header root

end Tenancy.Wire.Toml

import Tenancy.Ordered
import Tenancy.Wire.Node
import Tenancy.Wire.Problem

/-!
# Codecs

A `Codec` says how a type is read from a document and how it is written as a value. Codecs of
larger types are put together from those of their parts, so that what holds of reading back what
was written is one fact per combinator.

A codec reads in the order of the document and stops at the first problem.
-/

set_option autoImplicit false

namespace Tenancy.Wire

/-- What a notation allows besides the plain form of a type. -/
structure Dialect where
  /-- A record may be written as the list of its fields. -/
  listsAsRecords : Bool
  /-- A variant without fields may be written as a record with one member that holds nothing. -/
  recordsAsVariants : Bool
  /-- How many more levels of nesting are read. -/
  room : Nat
  deriving DecidableEq, Repr, Inhabited

namespace Dialect

/-- JSON documents. -/
def json : Dialect := ⟨true, true, 127⟩

/-- YAML documents. -/
def yaml : Dialect := ⟨false, false, 128⟩

/-- TOML documents. -/
def toml : Dialect := ⟨true, true, 128⟩

/-- The dialect one level further in. -/
def inner (d : Dialect) : Except Problem Dialect :=
  match d.room with
  | 0 => .error .malformed
  | room + 1 => .ok { d with room }

end Dialect

/-- A way to read a type from documents and to write it as a value. -/
structure Codec (α : Type) where
  read : Dialect → Node → Except Problem α
  write : α → Value

namespace Codec

variable {α β κ : Type}

/-- Reads a whole document. -/
def decode (c : Codec α) (d : Dialect) (document : Document) : Except Problem α := do
  let a ← c.read d document.root
  if document.complete then return a else .error .malformed

/-- The codec of a type that is another one in different clothes. -/
def imap (c : Codec α) (forth : α → β) (back : β → α) : Codec β where
  read d node := forth <$> c.read d node
  write b := c.write (back b)

/-- Reads a text; a plain scalar stands for its characters. -/
def readText : Node → Except Problem String
  | .text (some s) => .ok s
  | .plain s => .ok s
  | _ => .error .malformed

/-- A text. -/
def text : Codec String where
  read _ node := readText node
  write := .text

/-- A truth value. -/
def flag : Codec Bool where
  read _ node :=
    match node with
    | .flag b => .ok b
    | .plain s =>
      match Node.scalarOf s with
      | .flag b => .ok b
      | _ => .error .malformed
    | _ => .error .malformed
  write := .flag

/-- A natural number below a limit. -/
def natBelow (limit : Nat) : Codec Nat where
  read _ node :=
    let check (n : Int) : Except Problem Nat :=
      if 0 ≤ n ∧ n < limit then .ok n.toNat else .error .malformed
    match node with
    | .number (.whole n) => check n
    | .plain s =>
      if s.startsWith "-" then .error .malformed
      else match Node.wholeNumber? s with
        | some n => check n
        | none => .error .malformed
    | _ => .error .malformed
  write n := .nat n

/-- A number of 32 bits. -/
def uint32 : Codec UInt32 := (natBelow UInt32.size).imap UInt32.ofNat UInt32.toNat

/-- A number of 64 bits. -/
def uint64 : Codec UInt64 := (natBelow UInt64.size).imap UInt64.ofNat UInt64.toNat

/-- A value that may be missing. -/
def optional (c : Codec α) : Codec (Option α) where
  read d node :=
    match node with
    | .null => .ok none
    | .plain s => if Node.isNullScalar s then .ok none else some <$> c.read d node
    | _ => some <$> c.read d node
  write
    | some a => c.write a
    | none => .null

/-- A list. A plain scalar that stands for nothing is the empty one. -/
def list (c : Codec α) : Codec (List α) where
  read d node :=
    match node with
    | .list items => do
      let d ← d.inner
      items.mapM (c.read d)
    | .plain s => if Node.isNullScalar s then .ok [] else .error .malformed
    | _ => .error .malformed
  write l := .list (l.map c.write)

/-- A set of names, written in order and read in any order. -/
def names : Codec NameSet := (list text).imap OrdSet.ofList OrdSet.toList

/-- Reads the name of a choice. -/
def readChoice (all : List α) (label : α → String) (name : String) : Except Problem α :=
  match all.find? fun a => label a == name with
  | some a => .ok a
  | none => .error (.unknownVariant name (all.map label))

/-- One of finitely many choices, written as its label. -/
def choice (all : List α) (label : α → String) : Codec α where
  read d node :=
    match node with
    | .text (some s) => readChoice all label s
    | .plain s => readChoice all label s
    | .record ((some name, inside) :: more) =>
      if d.recordsAsVariants then do
        let _ ← d.inner
        let a ← readChoice all label name
        match inside, more with
        | .null, [] => return a
        | _, _ => .error .malformed
      else .error .malformed
    | _ => .error .malformed
  write a := .text (label a)

/-- A set of choices, written in the order in which the choices are declared. -/
def choices [DecidableEq α] (all : List α) (label : α → String) : Codec (List α) :=
  (list (choice all label)).imap (fun l => all.filter (· ∈ l)) id

/-- Reads the entries of a table one after the other. -/
def readEntries (c : Codec α) (d : Dialect) :
    NameMap α → List (Option String × Node) → Except Problem (NameMap α)
  | m, [] => .ok m
  | _, (none, _) :: _ => .error .malformed
  | m, (some name, node) :: rest => do
    let a ← c.read d node
    readEntries c d (m.insert name a) rest

/-- A table with arbitrary names; of two entries for one name the later counts. -/
def table (c : Codec α) : Codec (NameMap α) where
  read d node :=
    match node with
    | .record members => do
      let d ← d.inner
      readEntries c d .empty members
    | .plain s => if s = "" then .ok .empty else .error .malformed
    | _ => .error .malformed
  write m := .record (m.entries.map fun e => (e.1, c.write e.2))

/-- Reads the entries of a count table one after the other. -/
def readCounts [DecidableEq κ] (all : List κ) (label : κ → String) (c : Codec α) (d : Dialect) :
    (κ → Option α) → List (Option String × Node) → Except Problem (κ → Option α)
  | m, [] => .ok m
  | _, (none, _) :: _ => .error .malformed
  | m, (some name, node) :: rest => do
    let key ← readChoice all label name
    let a ← c.read d node
    readCounts all label c d (fun k => if k = key then some a else m k) rest

/-- A table from choices to values, written in the order in which the choices are declared. -/
def tableOf [DecidableEq κ] (all : List κ) (label : κ → String) (c : Codec α) :
    Codec (κ → Option α) where
  read d node :=
    match node with
    | .record members => do
      let d ← d.inner
      readCounts all label c d (fun _ => none) members
    | .plain s => if s = "" then .ok fun _ => none else .error .malformed
    | _ => .error .malformed
  write m := .record (all.filterMap fun k => (m k).map fun a => (label k, c.write a))

/-- Any value at all. -/
def literal : Codec Value where
  read d node :=
    match node.settle d.room >>= Node.toValue with
    | some v => .ok v
    | none => .error .malformed
  write v := v

end Codec

end Tenancy.Wire

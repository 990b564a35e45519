import Tenancy.Wire.Codec

/-!
# Records

The fields of a record are read in whatever order they stand in the document. Each field may be
written once, under its own name or another that it accepts; a strict record refuses names that no
field accepts, any other passes over them. What is missing at the end takes its fallback or is a
problem, in the order in which the fields are declared.

`Fields σ α` is a list of fields whose values make up `α`; `σ` holds what has been read so far.
-/

set_option autoImplicit false

namespace Tenancy.Wire

/-- One field of a record. -/
structure Field (α : Type) where
  name : String
  /-- Other names under which the field is read. -/
  aliases : List String
  codec : Codec α
  /-- The value of a field that is missing; without it the field has to be there. -/
  fallback : Option α
  /-- Values that are not written. -/
  omits : α → Bool

namespace Field

variable {α : Type}

/-- A field that has to be there. -/
def required (name : String) (codec : Codec α) : Field α := ⟨name, [], codec, none, fun _ => false⟩

/-- A field that has a value when it is missing. -/
def fallingBack (name : String) (codec : Codec α) (value : α) : Field α :=
  ⟨name, [], codec, some value, fun _ => false⟩

/-- A field that may be missing. -/
def optional (name : String) (codec : Codec α) : Field (Option α) :=
  fallingBack name codec.optional none

/-- A field that is left out when there is nothing to write. -/
def sparse (name : String) (codec : Codec α) : Field (Option α) :=
  { optional name codec with omits := Option.isNone }

/-- A list that is empty when it is missing. -/
def many (name : String) (codec : Codec α) : Field (List α) := fallingBack name codec.list []

/-- The same field with another name under which it is read. -/
def alsoNamed (f : Field α) (name : String) : Field α := { f with aliases := name :: f.aliases }

/-- The names under which a field is read, in order. -/
def names (f : Field α) : List String := Ordered.ofList (f.name :: f.aliases)

end Field

/-- Fields in the order in which they are declared. -/
structure Fields (σ α : Type) where
  /-- All names under which a field is read. -/
  expected : List String
  /-- Nothing has been read. -/
  start : σ
  /-- Reads a member into the field of its name; no result if no field has that name. -/
  put : Dialect → String → Node → σ → Except Problem (Option σ)
  /-- The values of all fields after the last member. -/
  finish : σ → Except Problem α
  /-- Reads the fields from the front of a list. -/
  readList : Dialect → List Node → Except Problem (α × List Node)
  /-- The members that are written. -/
  write : α → List (String × Value)

namespace Fields

variable {α β σ : Type}

/-- No fields. -/
def nil : Fields Unit Unit where
  expected := []
  start := ()
  put _ _ _ _ := .ok none
  finish _ := .ok ()
  readList _ items := .ok ((), items)
  write _ := []

/-- One more field in front. -/
def cons (f : Field α) (rest : Fields σ β) : Fields (Option α × σ) (α × β) where
  expected := f.names ++ rest.expected
  start := (none, rest.start)
  put d name node s :=
    if name ∈ f.name :: f.aliases then
      if s.1.isSome then .error (.duplicateField f.name)
      else do
        let a ← f.codec.read d node
        return some (some a, s.2)
    else do
      let s' ← rest.put d name node s.2
      return s'.map fun t => (s.1, t)
  finish s := do
    let a ← match s.1, f.fallback with
      | some a, _ => Except.ok a
      | none, some a => Except.ok a
      | none, none => Except.error (.missingField f.name)
    let b ← rest.finish s.2
    return (a, b)
  readList d items := do
    let (a, items) ← match items, f.fallback with
      | node :: items, _ => do
        let a ← f.codec.read d node
        Except.ok (a, items)
      | [], some a => Except.ok (a, [])
      | [], none => Except.error .malformed
    let (b, items) ← rest.readList d items
    return ((a, b), items)
  write ab :=
    let others := rest.write ab.2
    if f.omits ab.1 then others else (f.name, f.codec.write ab.1) :: others

/-- Reads members one after the other. -/
def readMembers (fs : Fields σ α) (strict : Bool) (d : Dialect) :
    List (Option String × Node) → σ → Except Problem σ
  | [], s => .ok s
  | (none, _) :: _, _ => .error .malformed
  | (some name, node) :: rest, s => do
    match ← fs.put d name node s with
    | some s' => readMembers fs strict d rest s'
    | none =>
      if strict then .error (.unknownField name fs.expected)
      -- What is passed over still has to be well formed.
      else if node.isWhole then readMembers fs strict d rest s
      else .error .malformed

/-- Reads a record from its members. -/
def readRecord (fs : Fields σ α) (strict : Bool) (d : Dialect)
    (members : List (Option String × Node)) : Except Problem α := do
  let s ← fs.readMembers strict d members fs.start
  fs.finish s

/-- Reads a record from the list of its fields. -/
def readItems (fs : Fields σ α) (d : Dialect) (items : List Node) : Except Problem α := do
  let (a, rest) ← fs.readList d items
  if rest.isEmpty then return a else .error .malformed

end Fields

/-- A record with the given fields. -/
def Codec.record {σ α : Type} (strict : Bool) (fs : Fields σ α) : Codec α where
  read d node :=
    match node with
    | .record members => do
      let d ← d.inner
      fs.readRecord strict d members
    | .list items =>
      if d.listsAsRecords then do
        let d ← d.inner
        fs.readItems d items
      else .error .malformed
    -- An entry without a value is a record without members.
    | .plain s => if s = "" then fs.finish fs.start else .error .malformed
    | _ => .error .malformed
  write a := .record (fs.write a)

end Tenancy.Wire

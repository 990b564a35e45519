import Tenancy.Wire.Record

/-!
# Tagged variants

A variant with fields is written as a record in which one member, the tag, names the variant. The
tag may stand anywhere among the members, and members that the variant does not know are passed
over. The whole record is read before the fields of the variant are, so a fault anywhere in its
text comes before a fault of a field.
-/

set_option autoImplicit false

namespace Tenancy.Wire

/-- One variant of a tagged type. -/
structure Variant (α : Type) where
  name : String
  /-- Reads the variant from what stands beside its tag. -/
  read : Dialect → Node → Except Problem α
  /-- The members beside the tag, if the value is of this variant. -/
  write? : α → Option (List (String × Value))

namespace Variant

variable {α β σ : Type}

/-- A variant without fields. -/
def bare (name : String) (a : α) (is : α → Bool) : Variant α where
  name
  read _ node :=
    match node with
    | .record _ => .ok a
    | .list [] => .ok a
    | _ => .error .malformed
  write? x := if is x then some [] else none

/-- A variant with fields. -/
def fields (name : String) (fs : Fields σ β) (make : β → α) (split : α → Option β) : Variant α where
  name
  read d node :=
    match node with
    | .record members => make <$> fs.readRecord false d members
    | .list items => make <$> fs.readItems d items
    | _ => .error .malformed
  write? x := (split x).map fs.write

/-- Finds the variant that a tag names. -/
def ofTag (variants : List (Variant α)) (node : Node) : Except Problem (Variant α) := do
  let name ← Codec.readText node
  match variants.find? fun v => v.name == name with
  | some v => return v
  | none => .error (.unknownVariant name (variants.map Variant.name))

/-- Splits members into the variant that the tag names and the settled rest. -/
def gather (tag : String) (variants : List (Variant α)) (d : Dialect) :
    List (Option String × Node) → Option (Variant α) →
    Except Problem (Option (Variant α) × List (Option String × Node))
  | [], found => .ok (found, [])
  | (none, _) :: _, _ => .error .malformed
  | (some name, node) :: rest, found =>
    if name = tag then
      if found.isSome then .error (.duplicateField tag)
      else do
        let v ← ofTag variants node
        gather tag variants d rest (some v)
    else
      -- The tag may follow, so a fault in the text of a member counts at once.
      match node.settle d.room with
      | none => .error .malformed
      | some settled => do
        let (v, others) ← gather tag variants d rest found
        return (v, (some name, settled) :: others)

end Variant

/-- A type whose variants are told apart by a tag. -/
def Codec.tagged {α : Type} (tag : String) (variants : List (Variant α)) : Codec α where
  read d node :=
    match node with
    | .record members => do
      let d ← d.inner
      let (v, others) ← Variant.gather tag variants d members none
      match v with
      | some v => v.read d (.record others)
      | none => .error (.missingField tag)
    | .list items => do
      let d ← d.inner
      match items with
      | [] => .error (.missingField tag)
      | first :: rest =>
        let v ← Variant.ofTag variants first
        match Node.settleItems d.room rest with
        | some settled => v.read d (.list settled)
        | none => .error .malformed
    | _ => .error .malformed
  write a :=
    let written := variants.findSome? fun v =>
      (v.write? a).map fun members => Value.record ((tag, .text v.name) :: members)
    written.getD .null

end Tenancy.Wire

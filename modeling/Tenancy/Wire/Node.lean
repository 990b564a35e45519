import Tenancy.Wire.Value

/-!
# What was read

A `Node` is a document as far as it could be read: members keep their order and their repetitions,
and a place where the text stops making sense is the node `broken`. A decoder that goes through the
nodes in order therefore meets the first problem of the document first, whether that is a fault of
the text or of its meaning.

`Node.settle` gives a plain scalar the type that its text shows, for places where no type is
expected.
-/

set_option autoImplicit false

namespace Tenancy.Wire

/-- A document as far as it could be read. -/
inductive Node where
  | null
  | flag (b : Bool)
  | number (n : Number)
  /-- A text between quotation marks; `none` if it names half of a surrogate pair. -/
  | text (s : Option String)
  /-- A scalar without quotation marks, whose type depends on what is expected. -/
  | plain (s : String)
  | list (items : List Node)
  /-- Members in the order of the document; a name is `none` if it is no text. -/
  | record (members : List (Option String × Node))
  /-- The text makes no sense from here on. -/
  | broken
  deriving Inhabited

/-- A document that was read, and whether nothing but blanks follows it. -/
structure Document where
  root : Node
  complete : Bool
  deriving Inhabited

/-- The document of a text that makes no sense. -/
def Document.unreadable : Document := ⟨.broken, false⟩

mutual

/-- A value as a document that reads as it. -/
def Value.toNode : Value → Node
  | .null => .null
  | .flag b => .flag b
  | .number n => .number n
  | .text s => .text (some s)
  | .list items => .list (toNodes items)
  | .record members => .record (toMembers members)

/-- The items of a value as nodes. -/
def Value.toNodes : List Value → List Node
  | [] => []
  | v :: vs => v.toNode :: toNodes vs

/-- The members of a value as nodes. -/
def Value.toMembers : List (String × Value) → List (Option String × Node)
  | [] => []
  | (name, v) :: ms => (some name, v.toNode) :: toMembers ms

end

namespace Node

mutual

/-- Whether a node can be passed over: the text of it makes sense, whatever it means. -/
def isWhole : Node → Bool
  | .broken => false
  | .list items => areWhole items
  | .record members => membersWhole members
  | _ => true

/-- Whether all items can be passed over. -/
def areWhole : List Node → Bool
  | [] => true
  | n :: ns => n.isWhole && areWhole ns

/-- Whether all members can be passed over. -/
def membersWhole : List (Option String × Node) → Bool
  | [] => true
  | (_, n) :: ms => n.isWhole && membersWhole ms

end

/-- The values of plain scalars. -/
inductive Scalar where
  | null
  | flag (b : Bool)
  | number (n : Number)
  /-- An infinity or a number that is none. -/
  | boundless
  /-- A whole number that does not fit into 64 bits. -/
  | huge
  | text
  deriving DecidableEq, Repr, Inhabited

/-- Reads digits of a base. -/
def digits? (base : Nat) (cs : List Char) : Option Nat :=
  if cs.isEmpty then none
  else cs.foldlM (fun n c =>
    let d := if c.isDigit then c.toNat - 48
      else if 'a' ≤ c ∧ c ≤ 'f' then c.toNat - 87
      else if 'A' ≤ c ∧ c ≤ 'F' then c.toNat - 55
      else base
    if d < base then some (base * n + d) else none) 0

/-- Whether a scalar is a row of digits that starts with a superfluous zero. -/
def hasLeadingZero (cs : List Char) : Bool :=
  match cs with
  | '0' :: d :: rest => (d :: rest).all Char.isDigit
  | _ => false

/-- The sign of a scalar and the rest of it. -/
def splitSign : List Char → Bool × List Char
  | '-' :: cs => (true, cs)
  | '+' :: cs => (false, cs)
  | cs => (false, cs)

/-- Reads the whole number that a scalar shows: decimal without superfluous zeros, or with the mark
of a base. -/
def wholeNumber? (s : String) : Option Int :=
  let (negative, cs) := splitSign s.toList
  let magnitude := match cs with
    | '0' :: 'x' :: rest => digits? 16 rest
    | '0' :: 'o' :: rest => digits? 8 rest
    | '0' :: 'b' :: rest => digits? 2 rest
    | _ => if hasLeadingZero cs then none else digits? 10 cs
  magnitude.map fun (n : Nat) => if negative then -(n : Int) else n

/-- Reads digits with a point and an exponent, a digit at least before or after the point. -/
def decimalNumber? (s : String) : Option Number :=
  let (negative, cs) := splitSign s.toList
  let front := cs.takeWhile Char.isDigit
  let afterFront := cs.drop front.length
  let back := match afterFront with
    | '.' :: rest => rest.takeWhile Char.isDigit
    | _ => []
  let afterBack := match afterFront with
    | '.' :: rest => rest.drop back.length
    | _ => afterFront
  if front.isEmpty && back.isEmpty then none
  else do
    let digits ← digits? 10 (front ++ back)
    let exponent ← match afterBack with
      | [] => some 0
      | e :: rest =>
        if e = 'e' ∨ e = 'E' then
          let (down, ds) := splitSign rest
          (digits? 10 ds).map fun (n : Nat) => if down then -(n : Int) else n
        else none
    return .decimal negative digits (exponent - back.length)

/-- The type and value that a plain scalar shows. -/
def scalarOf (s : String) : Scalar :=
  if s = "" ∨ s = "~" ∨ s = "null" ∨ s = "Null" ∨ s = "NULL" then .null
  else if s = "true" ∨ s = "True" ∨ s = "TRUE" then .flag true
  else if s = "false" ∨ s = "False" ∨ s = "FALSE" then .flag false
  else
    match wholeNumber? s with
    | some n => if Number.fits n then .number (.whole n) else .huge
    | none =>
      if s ∈ [".inf", ".Inf", ".INF", "+.inf", "+.Inf", "+.INF", "-.inf", "-.Inf", "-.INF", ".nan",
          ".NaN", ".NAN"] then .boundless
      else if hasLeadingZero (splitSign s.toList).2 then .text
      else match decimalNumber? s with
        | some n => if n.isFinite then .number n else .text
        | none => .text

/-- Whether a plain scalar stands for nothing. -/
def isNullScalar (s : String) : Bool := scalarOf s = .null

/-- A plain scalar with the type that its text shows; what is boundless has no value. -/
def settleScalar (s : String) : Option Node :=
  match scalarOf s with
  | .null => some .null
  | .flag b => some (.flag b)
  | .number n => some (.number n)
  | .boundless => some .null
  | .huge => none
  | .text => some (.text (some s))

/-- Adds a member in front of others that are ordered by name, unless one of them has its name. -/
def insertMember (name : String) (value : Value) : List (String × Value) → List (String × Value)
  | [] => [(name, value)]
  | (other, old) :: rest =>
    match compare name other with
    | .lt => (name, value) :: (other, old) :: rest
    | .eq => (other, old) :: rest
    | .gt => (other, old) :: insertMember name value rest

mutual

/-- A node with every plain scalar typed, if the whole of it makes sense: every text is whole, every
number is in range and nesting goes at most `room` levels deep. -/
def settle (room : Nat) : Node → Option Node
  | .null => some .null
  | .flag b => some (.flag b)
  | .number n => if n.isFinite then some (.number n) else none
  | .text (some s) => some (.text (some s))
  | .text none => none
  | .plain s => settleScalar s
  | .list items =>
    match room with
    | 0 => none
    | room + 1 => Node.list <$> settleItems room items
  | .record members =>
    match room with
    | 0 => none
    | room + 1 => Node.record <$> settleMembers room members
  | .broken => none

/-- Settles all items. -/
def settleItems (room : Nat) : List Node → Option (List Node)
  | [] => some []
  | n :: ns => do
    let n' ← n.settle room
    let ns' ← settleItems room ns
    return n' :: ns'

/-- Settles all members. -/
def settleMembers (room : Nat) : List (Option String × Node) → Option (List (Option String × Node))
  | [] => some []
  | (none, _) :: _ => none
  | (some name, n) :: ms => do
    let n' ← n.settle room
    let ms' ← settleMembers room ms
    return (some name, n') :: ms'

end

mutual

/-- The value of a settled node. Members are ordered by name; of two with one name the later
counts. -/
def toValue : Node → Option Value
  | .null => some .null
  | .flag b => some (.flag b)
  | .number n => some (.number n)
  | .text (some s) => some (.text s)
  | .list items => Value.list <$> toValues items
  | .record members => Value.record <$> toValueMembers members
  | .text none => none
  | .plain _ => none
  | .broken => none

/-- The values of settled items. -/
def toValues : List Node → Option (List Value)
  | [] => some []
  | n :: ns => do
    let v ← n.toValue
    let vs ← toValues ns
    return v :: vs

/-- The members of a settled record in order of their names. -/
def toValueMembers : List (Option String × Node) → Option (List (String × Value))
  | [] => some []
  | (none, _) :: _ => none
  | (some name, n) :: ms => do
    let v ← n.toValue
    let vs ← toValueMembers ms
    return insertMember name v vs

end

end Node

end Tenancy.Wire

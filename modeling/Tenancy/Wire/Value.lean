/-!
# Values and their JSON text

A `Value` is what a record looks like when it is written: members stand in the order in which they
are written. `Value.pretty` lays it out over lines, two blanks per level.

Numbers are kept as they were written, so that nothing is rounded: a whole number, or a decimal
given by its digits and a power of ten.
-/

set_option autoImplicit false

namespace Tenancy.Wire

/-- A number as it was written. -/
inductive Number where
  | whole (value : Int)
  /-- The number `digits · 10 ^ exponent`, or its negative. -/
  | decimal (negative : Bool) (digits : Nat) (exponent : Int)
  deriving DecidableEq, Repr, Inhabited

namespace Number

/-- Whole numbers fit into 64 bits, with or without a sign. -/
def fits (value : Int) : Bool :=
  -9223372036854775808 ≤ value && value < 18446744073709551616

/-- The least number that is rounded to an infinity when it is read as a float of 64 bits. -/
def infinity : Nat := Nat.pow 2 1024 - Nat.pow 2 970

/-- Whether a number is in the range of a float of 64 bits. -/
def isFinite : Number → Bool
  | whole _ => true
  | decimal _ digits exponent =>
    if digits = 0 then true
    else if exponent ≤ 0 then digits / Nat.pow 10 exponent.natAbs < infinity
    else if 400 < exponent then false
    else digits * Nat.pow 10 exponent.toNat < infinity

/-- The text of a number. -/
def toText : Number → String
  | whole value => toString value
  | decimal negative digits exponent =>
    (if negative then "-" else "") ++ toString digits ++ "e" ++ toString exponent

end Number

/-- A value of a document. -/
inductive Value where
  | null
  | flag (b : Bool)
  | number (n : Number)
  | text (s : String)
  | list (items : List Value)
  | record (members : List (String × Value))
  deriving Repr, Inhabited

namespace Value

/-- A natural number as a value. -/
def nat (n : Nat) : Value := .number (.whole n)

/-- A text, or nothing. -/
def optional {α : Type} (write : α → Value) : Option α → Value
  | some a => write a
  | none => .null

/-- A list of texts. -/
def texts (l : List String) : Value := .list (l.map .text)

/-- The digits of a control character. -/
def hexDigit (n : Nat) : Char := if n < 10 then Char.ofNat (48 + n) else Char.ofNat (87 + n)

/-- A character of a text between quotation marks. -/
def escapeChar (c : Char) : List Char :=
  if c = '"' then ['\\', '"']
  else if c = '\\' then ['\\', '\\']
  else if c.toNat = 0x8 then ['\\', 'b']
  else if c.toNat = 0xC then ['\\', 'f']
  else if c = '\n' then ['\\', 'n']
  else if c = '\r' then ['\\', 'r']
  else if c = '\t' then ['\\', 't']
  else if c.toNat < 0x20 then
    ['\\', 'u', '0', '0', hexDigit (c.toNat / 16), hexDigit (c.toNat % 16)]
  else [c]

/-- A text between quotation marks. -/
def quote (s : String) : List Char := '"' :: (s.toList.flatMap escapeChar ++ ['"'])

/-- A line break and the blanks that open the next line. -/
def newLine (depth : Nat) : List Char := '\n' :: List.replicate (2 * depth) ' '

mutual

/-- The JSON text of a value that stands at a given depth. -/
def layout (depth : Nat) : Value → List Char
  | .null => "null".toList
  | .flag true => "true".toList
  | .flag false => "false".toList
  | .number n => n.toText.toList
  | .text s => quote s
  | .list [] => ['[', ']']
  | .list (item :: items) =>
    '[' :: (newLine (depth + 1) ++ layout (depth + 1) item ++ layoutItems (depth + 1) items
      ++ newLine depth ++ [']'])
  | .record [] => ['{', '}']
  | .record ((name, value) :: members) =>
    '{' :: (newLine (depth + 1) ++ quote name ++ [':', ' '] ++ layout (depth + 1) value
      ++ layoutMembers (depth + 1) members ++ newLine depth ++ ['}'])

/-- The items after the first, each on a line of its own. -/
def layoutItems (depth : Nat) : List Value → List Char
  | [] => []
  | item :: items => ',' :: (newLine depth ++ layout depth item ++ layoutItems depth items)

/-- The members after the first, each on a line of its own. -/
def layoutMembers (depth : Nat) : List (String × Value) → List Char
  | [] => []
  | (name, value) :: members =>
    ',' :: (newLine depth ++ quote name ++ [':', ' '] ++ layout depth value
      ++ layoutMembers depth members)

end

/-- The JSON text of a value, laid out over lines. -/
def pretty (v : Value) : String := String.ofList (layout 0 v)

end Value

end Tenancy.Wire

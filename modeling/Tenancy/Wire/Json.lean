import Tenancy.Wire.Node

/-!
# JSON texts

`Json.read` reads a text as far as it is JSON: no comments, no comma before a closing bracket, no
number with a superfluous zero, no control character inside a text. Where it stops being JSON the
document holds the node `broken`.

Each step of the reader takes one unit of fuel; two units per character are enough, because at most
two steps lie between two characters that are used up.
-/

set_option autoImplicit false

namespace Tenancy.Wire.Json

/-- The blanks of JSON. -/
def isSpace (c : Char) : Bool := c == ' ' || c == '\n' || c == '\t' || c == '\r'

/-- Passes over blanks. -/
def skipSpace (cs : List Char) : List Char := cs.dropWhile isSpace

/-- The value of four hexadecimal digits. -/
def hexValue4? (a b c d : Char) : Option Nat := Node.digits? 16 [a, b, c, d]

/-- Whether a code unit opens a surrogate pair. -/
def isHigh (n : Nat) : Bool := 0xD800 ≤ n && n ≤ 0xDBFF

/-- Whether a code unit closes a surrogate pair. -/
def isLow (n : Nat) : Bool := 0xDC00 ≤ n && n ≤ 0xDFFF

/-- The character of a surrogate pair. -/
def pairChar (high low : Nat) : Char :=
  Char.ofNat (0x10000 + (high - 0xD800) * 0x400 + (low - 0xDC00))

/-- The character that a letter after a backslash stands for. -/
def shortEscape? : Char → Option Char
  | '"' => some '"'
  | '\\' => some '\\'
  | '/' => some '/'
  | 'b' => some (Char.ofNat 0x8)
  | 'f' => some (Char.ofNat 0xC)
  | 'n' => some '\n'
  | 'r' => some '\r'
  | 't' => some '\t'
  | _ => none

/-- Reads the code units of a text up to its closing quotation mark. A character that is written as
itself is one unit. There is no result if the text is not JSON. -/
def readUnits : List Char → Option (List Nat × List Char)
  | '"' :: rest => some ([], rest)
  | '\\' :: 'u' :: a :: b :: c :: d :: rest => do
    let unit ← hexValue4? a b c d
    let (units, rest) ← readUnits rest
    return (unit :: units, rest)
  | '\\' :: e :: rest => do
    let c ← shortEscape? e
    let (units, rest) ← readUnits rest
    return (c.toNat :: units, rest)
  | c :: rest =>
    if c = '\\' ∨ c.toNat < 0x20 then none
    else do
      let (units, rest) ← readUnits rest
      return (c.toNat :: units, rest)
  | [] => none

/-- The characters of code units, unless half of a surrogate pair stands alone. -/
def joinUnits : List Nat → Option (List Char)
  | [] => some []
  | [n] => if isHigh n || isLow n then none else some [Char.ofNat n]
  | n :: m :: rest =>
    if isHigh n && isLow m then (pairChar n m :: ·) <$> joinUnits rest
    else if isHigh n || isLow n then none
    else (Char.ofNat n :: ·) <$> joinUnits (m :: rest)

/-- Reads a text up to its closing quotation mark; it has no content if it names half of a surrogate
pair. -/
def readText (cs : List Char) : Option (Option String × List Char) :=
  (readUnits cs).map fun (units, rest) => ((joinUnits units).map String.ofList, rest)

/-- Splits a row of digits off. -/
def spanDigits (cs : List Char) : List Char × List Char :=
  (cs.takeWhile Char.isDigit, cs.dropWhile Char.isDigit)

/-- Reads what follows the whole part of a number: a point with digits, then an exponent. The result
is the digits behind the point, the exponent and the rest, and whether either was there. -/
def readFraction (cs : List Char) : Option (List Char × List Char × Bool) :=
  match cs with
  | '.' :: rest =>
    let (ds, rest) := spanDigits rest
    if ds.isEmpty then none else some (ds, rest, true)
  | _ => some ([], cs, false)

/-- Reads an exponent, if one follows. -/
def readExponent (cs : List Char) : Option (Int × List Char × Bool) :=
  match cs with
  | e :: rest =>
    if e = 'e' ∨ e = 'E' then
      let (negative, rest) := Node.splitSign rest
      let (ds, rest) := spanDigits rest
      (Node.digits? 10 ds).map fun (n : Nat) => (if negative then -(n : Int) else n, rest, true)
    else some (0, cs, false)
  | [] => some (0, [], false)

/-- Reads a number whose sign has been read. -/
def readNumber (negative : Bool) (cs : List Char) : Option (Number × List Char) := do
  let (front, rest) ← match cs with
    | '0' :: rest => some (['0'], rest)
    | _ =>
      let (ds, rest) := spanDigits cs
      if ds.isEmpty then none else some (ds, rest)
  let (back, rest, hasPoint) ← readFraction rest
  let (exponent, rest, hasExponent) ← readExponent rest
  let digits ← Node.digits? 10 (front ++ back)
  let value : Int := if negative then -(digits : Int) else digits
  -- Minus zero is no whole number, because its sign would be lost.
  if hasPoint || hasExponent || !Number.fits value || (negative && digits = 0) then
    return (.decimal negative digits (exponent - back.length), rest)
  else
    return (.whole value, rest)

/-- A value that was read and what follows it, or nothing if the text broke off in it. -/
abbrev Step (α : Type) := α × Option (List Char)

/-- The step at which the text makes no sense. -/
def stop : Step Node := (.broken, none)

/-- What is left of a text that does not start with a container. -/
def readScalar : List Char → Step Node
  | 'n' :: 'u' :: 'l' :: 'l' :: rest => (.null, some rest)
  | 't' :: 'r' :: 'u' :: 'e' :: rest => (.flag true, some rest)
  | 'f' :: 'a' :: 'l' :: 's' :: 'e' :: rest => (.flag false, some rest)
  | '"' :: rest =>
    match readText rest with
    | some (s, rest) => (.text s, some rest)
    | none => stop
  | '-' :: rest =>
    match readNumber true rest with
    | some (n, rest) => (.number n, some rest)
    | none => stop
  | cs =>
    match readNumber false cs with
    | some (n, rest) => (.number n, some rest)
    | none => stop

mutual

/-- Reads a value. -/
def readValue : (fuel : Nat) → List Char → Step Node
  | 0, _ => stop
  | fuel + 1, cs =>
    match skipSpace cs with
    | '[' :: rest =>
      match skipSpace rest with
      | ']' :: rest => (.list [], some rest)
      | rest =>
        let (items, rest) := readItems fuel rest
        (.list items, rest)
    | '{' :: rest =>
      match skipSpace rest with
      | '}' :: rest => (.record [], some rest)
      | rest =>
        let (members, rest) := readMembers fuel rest
        (.record members, rest)
    | rest => readScalar rest

/-- Reads the items of a list up to its closing bracket. -/
def readItems : (fuel : Nat) → List Char → Step (List Node)
  | 0, _ => ([.broken], none)
  | fuel + 1, cs =>
    match readValue fuel cs with
    | (item, none) => ([item], none)
    | (item, some rest) =>
      match skipSpace rest with
      | ']' :: rest => ([item], some rest)
      | ',' :: rest =>
        let (items, rest) := readItems fuel rest
        (item :: items, rest)
      | _ => ([item, .broken], none)

/-- Reads the members of a record up to its closing brace. -/
def readMembers : (fuel : Nat) → List Char → Step (List (Option String × Node))
  | 0, _ => ([(none, .broken)], none)
  | fuel + 1, cs =>
    match skipSpace cs with
    | '"' :: rest =>
      match readText rest with
      | none => ([(none, .broken)], none)
      | some (name, rest) =>
        match skipSpace rest with
        | ':' :: rest =>
          match readValue fuel rest with
          | (value, none) => ([(name, value)], none)
          | (value, some rest) =>
            match skipSpace rest with
            | '}' :: rest => ([(name, value)], some rest)
            | ',' :: rest =>
              let (members, rest) := readMembers fuel rest
              ((name, value) :: members, rest)
            | _ => ([(name, value), (none, .broken)], none)
        | _ => ([(name, .broken)], none)
    | _ => ([(none, .broken)], none)

end

/-- Reads a JSON text. -/
def read (text : String) : Document :=
  let cs := text.toList
  match readValue (2 * cs.length + 2) cs with
  | (root, some rest) => ⟨root, (skipSpace rest).isEmpty⟩
  | (root, none) => ⟨root, false⟩

end Tenancy.Wire.Json

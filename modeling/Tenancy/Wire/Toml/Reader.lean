import Tenancy.Wire.Toml.Table

/-!
# TOML documents

`Toml.read` reads a TOML text: tables, lists of tables, dotted keys, the four kinds of strings,
numbers, truth values, dates, lists and inline tables. A document that gives a key two values, or
opens a table twice, is not read.

Each step of the value reader takes one unit of fuel; a few units per character are enough, because
every step but a fixed number of them uses up a character.
-/

set_option autoImplicit false

namespace Tenancy.Wire.Toml

/-- A blank inside a line. -/
def isBlank (c : Char) : Bool := c == ' ' || c == '\t'

/-- Passes over blanks. -/
def skipBlank (cs : List Char) : List Char := cs.dropWhile isBlank

/-- Characters that may stand in comments and strings. -/
def isAllowed (c : Char) : Bool := c == '\t' || (0x20 ≤ c.toNat && c.toNat != 0x7F)

/-- Passes over a comment; there is no result if it holds a control character. -/
def skipComment (cs : List Char) : Option (List Char) :=
  let line := cs.takeWhile (· != '\n')
  if line.all isAllowed then some (cs.drop line.length) else none

/-- Passes over blanks, comments and line breaks. -/
def skipTrivia : (fuel : Nat) → List Char → Option (List Char)
  | 0, _ => none
  | fuel + 1, cs =>
    match skipBlank cs with
    | '\n' :: rest => skipTrivia fuel rest
    | '#' :: rest => do
      let rest ← skipComment rest
      skipTrivia fuel rest
    | rest => some rest

/-- Passes over what may follow a statement on its line. -/
def endLine (cs : List Char) : Option (List Char) :=
  match skipBlank cs with
  | [] => some []
  | '\n' :: rest => some rest
  | '#' :: rest => (skipComment rest).map (·.drop 1)
  | _ => none

/-- Where the reader of a basic string stands. -/
inductive StringState where
  | content
  | escaped
  | hex (digits value : Nat)
  /-- Behind a backslash at the end of a line: blanks and line breaks do not count. -/
  | joining (broke : Bool)

/-- The character that a letter after a backslash stands for. -/
def escape? : Char → Option Char
  | 'b' => some (Char.ofNat 0x8)
  | 't' => some '\t'
  | 'n' => some '\n'
  | 'f' => some (Char.ofNat 0xC)
  | 'r' => some '\r'
  | 'e' => some (Char.ofNat 0x1B)
  | '"' => some '"'
  | '\\' => some '\\'
  | _ => none

/-- How many hexadecimal digits follow a letter after a backslash. -/
def hexWidth? : Char → Option Nat
  | 'x' => some 2
  | 'u' => some 4
  | 'U' => some 8
  | _ => none

/-- Puts characters in front of a text that was read. -/
def push (cs : List Char) (r : List Char × List Char) : List Char × List Char := (cs ++ r.1, r.2)

/-- Reads a basic string up to its closing quotation marks. -/
def basicString (long : Bool) : StringState → List Char → Option (List Char × List Char)
  | _, [] => none
  | .escaped, c :: rest =>
    match hexWidth? c, escape? c with
    | some width, _ => basicString long (.hex width 0) rest
    | none, some e => (basicString long .content rest).map (push [e])
    | none, none =>
      if long && isBlank c then basicString long (.joining false) rest
      else if long && c == '\n' then basicString long (.joining true) rest
      else none
  | .hex digits value, c :: rest =>
    match Node.digits? 16 [c] with
    | none => none
    | some d =>
      let value := 16 * value + d
      if digits ≤ 1 then
        if value.isValidChar then (basicString long .content rest).map (push [Char.ofNat value])
        else none
      else basicString long (.hex (digits - 1) value) rest
  | .joining broke, c :: rest =>
    if isBlank c then basicString long (.joining broke) rest
    else if c == '\n' then basicString long (.joining true) rest
    else if !broke then none
    else if c == '\\' then basicString long .escaped rest
    else if c == '"' then
      match rest with
      | '"' :: '"' :: after => some (closing after)
      | _ => (basicString long .content rest).map (push [c])
    else if isAllowed c then (basicString long .content rest).map (push [c])
    else none
  | .content, c :: rest =>
    if c == '\\' then basicString long .escaped rest
    else if c == '"' then
      if long then
        match rest with
        | '"' :: '"' :: after => some (closing after)
        | _ => (basicString long .content rest).map (push [c])
      else some ([], rest)
    else if isAllowed c || (long && c == '\n') then (basicString long .content rest).map (push [c])
    else none
where
  /-- Up to two quotation marks may stand directly in front of the three closing ones. -/
  closing : List Char → List Char × List Char
    | '"' :: '"' :: rest => (['"', '"'], rest)
    | '"' :: rest => (['"'], rest)
    | rest => ([], rest)

/-- Reads a literal string over several lines up to its closing quotation marks. -/
def longLiteral : List Char → Option (List Char × List Char)
  | '\'' :: '\'' :: '\'' :: rest =>
    match rest with
    | '\'' :: '\'' :: rest => some (['\'', '\''], rest)
    | '\'' :: rest => some (['\''], rest)
    | rest => some ([], rest)
  | c :: rest =>
    if isAllowed c || c == '\n' then (longLiteral rest).map (push [c]) else none
  | [] => none

/-- Reads a literal string on one line up to its closing quotation mark. -/
def literalString : List Char → Option (List Char × List Char)
  | [] => none
  | c :: rest =>
    if c == '\'' then some ([], rest)
    else if isAllowed c then (literalString rest).map (push [c])
    else none

/-- A line break directly behind the opening marks does not count. -/
def dropBreak : List Char → List Char
  | '\n' :: rest => rest
  | cs => cs

/-- Reads a string of any kind; no result if none stands here. -/
def string? (cs : List Char) : Option (String × List Char) :=
  let read := match cs with
    | '"' :: '"' :: '"' :: rest => basicString true .content (dropBreak rest)
    | '"' :: rest => basicString false .content rest
    | '\'' :: '\'' :: '\'' :: rest => longLiteral (dropBreak rest)
    | '\'' :: rest => literalString rest
    | _ => none
  read.map fun (text, rest) => (String.ofList text, rest)

/-- Whether a character can stand in a key without quotation marks. -/
def isBare (c : Char) : Bool := (c.toNat < 0x80 && c.isAlphanum) || c == '_' || c == '-'

/-- Reads one part of a key. -/
def keyPart (cs : List Char) : Option (String × List Char) :=
  match cs with
  | '"' :: '"' :: '"' :: _ => none
  | '\'' :: '\'' :: '\'' :: _ => none
  | c :: _ =>
    if c == '"' || c == '\'' then string? cs
    else
      let name := cs.takeWhile isBare
      if name.isEmpty then none else some (String.ofList name, cs.drop name.length)
  | [] => none

/-- Reads a key with the dots in it, and the blanks behind it. -/
def key : (fuel : Nat) → List Char → Option (List String × List Char)
  | 0, _ => none
  | fuel + 1, cs => do
    let (part, rest) ← keyPart (skipBlank cs)
    match skipBlank rest with
    | '.' :: rest => do
      let (parts, rest) ← key fuel rest
      return (part :: parts, rest)
    | rest => return ([part], rest)

/-- The digits of a number without the underscores between them; no result if one stands
elsewhere. -/
def digitsOnly (isDigit : Char → Bool) : (before : Bool) → List Char → Option (List Char)
  | before, [] => if before then some [] else none
  | before, c :: rest =>
    if isDigit c then (c :: ·) <$> digitsOnly isDigit true rest
    else if c == '_' && before && (rest.head?.any isDigit) then digitsOnly isDigit false rest
    else none

/-- Whether a character is a digit of a base. -/
def isDigitOf (base : Nat) (c : Char) : Bool := (Node.digits? base [c]).isSome

/-- The number of a row of digits with underscores. -/
def natural? (base : Nat) (cs : List Char) : Option Nat := do
  let ds ← digitsOnly (isDigitOf base) false cs
  Node.digits? base ds

/-- Reads a whole number in the range of 64 bits with a sign. -/
def integer? (cs : List Char) : Option Node := do
  let value : Int ← match cs with
    | '0' :: 'x' :: rest => (natural? 16 rest).map Int.ofNat
    | '0' :: 'o' :: rest => (natural? 8 rest).map Int.ofNat
    | '0' :: 'b' :: rest => (natural? 2 rest).map Int.ofNat
    | _ =>
      let (negative, ds) := Node.splitSign cs
      -- Only a lone zero may start with a zero.
      if ds.head? == some '0' && ds.length > 1 then none
      else (natural? 10 ds).map fun (n : Nat) => if negative then -(n : Int) else n
  if -9223372036854775808 ≤ value ∧ value < 9223372036854775808 then
    some (.number (.whole value))
  else none

/-- Reads a number with a point or an exponent. -/
def float? (cs : List Char) : Option Node := do
  let (negative, body) := Node.splitSign cs
  -- Neither is a value of any setting; what counts is that they are numbers and not whole.
  if body = "inf".toList || body = "nan".toList then return .number (.decimal negative 1 10000)
  let front := body.takeWhile fun c => c.isDigit || c == '_'
  let afterFront := body.drop front.length
  if afterFront.isEmpty then none
  let frontDigits ← digitsOnly Char.isDigit false front
  if frontDigits.head? == some '0' && frontDigits.length > 1 then none
  let (backDigits, afterBack) ← match afterFront with
    | '.' :: rest => do
      let back := rest.takeWhile fun c => c.isDigit || c == '_'
      let ds ← digitsOnly Char.isDigit false back
      some (ds, rest.drop back.length)
    | rest => some ([], rest)
  let exponent : Int ← match afterBack with
    | [] => some 0
    | e :: rest =>
      if e = 'e' ∨ e = 'E' then
        let (down, ds) := Node.splitSign rest
        (natural? 10 ds).map fun (n : Nat) => if down then -(n : Int) else n
      else none
  let digits ← Node.digits? 10 (frontDigits ++ backDigits)
  return .number (.decimal negative digits (exponent - backDigits.length))

/-- Whether a word has the form of a date or a time of day. -/
def isDateTime (cs : List Char) : Bool :=
  let digit (i : Nat) : Bool := (cs.drop i).head?.any Char.isDigit
  let char (i : Nat) (c : Char) : Bool := (cs.drop i).head? == some c
  let time (i : Nat) : Bool :=
    digit i && digit (i + 1) && char (i + 2) ':' && digit (i + 3) && digit (i + 4)
  let rest := cs.all fun c => c.isDigit || "-:.+TtZz ".toList.contains c
  let date := digit 0 && digit 1 && digit 2 && digit 3 && char 4 '-' && digit 5 && digit 6
    && char 7 '-' && digit 8 && digit 9
  rest && ((date && (cs.length == 10 || time 11)) || time 0)

/-- The node of a date or a time of day, which is no value of any other type. -/
def dateTime (cs : List Char) : Node := .record [(some "datetime", .text (some (String.ofList cs)))]

/-- The node of a word that is no string, list or table. -/
def word? (cs : List Char) : Option Node :=
  if cs = "true".toList then some (.flag true)
  else if cs = "false".toList then some (.flag false)
  else if isDateTime cs then some (dateTime cs)
  else match integer? cs with
    | some node => some node
    | none => float? cs

/-- Whether a character can stand in a word that is no string, list or table. -/
def isWordChar (c : Char) : Bool := isBare c || c == '+' || c == '.' || c == ':'

/-- Splits such a word off; a date and a time of day may be divided by one blank. -/
def splitWord (cs : List Char) : List Char × List Char :=
  let first := cs.takeWhile isWordChar
  let rest := cs.drop first.length
  match rest with
  | ' ' :: more =>
    let second := more.takeWhile isWordChar
    if first.length == 10 && isDateTime first && isDateTime second then
      (first ++ ' ' :: second, more.drop second.length)
    else (first, rest)
  | _ => (first, rest)

mutual

/-- Reads a value. -/
def value : (fuel : Nat) → List Char → Option (Node × List Char)
  | 0, _ => none
  | fuel + 1, cs =>
    match cs with
    | '[' :: rest => do
      let (items, rest) ← items fuel rest
      return (.list items, rest)
    | '{' :: rest => do
      let (members, rest) ← members fuel [] rest
      return (.record (Item.toMembers members), rest)
    | c :: _ =>
      if c == '"' || c == '\'' then
        (string? cs).map fun (s, rest) => (.text (some s), rest)
      else do
        let (word, rest) := splitWord cs
        let node ← word? word
        return (node, rest)
    | [] => none

/-- Reads the items of a list up to its closing bracket. -/
def items : (fuel : Nat) → List Char → Option (List Node × List Char)
  | 0, _ => none
  | fuel + 1, cs => do
    match ← skipTrivia (cs.length + 1) cs with
    | ']' :: rest => return ([], rest)
    | rest => do
      let (item, rest) ← value fuel rest
      match ← skipTrivia (rest.length + 1) rest with
      | ',' :: rest => do
        let (others, rest) ← items fuel rest
        return (item :: others, rest)
      | ']' :: rest => return ([item], rest)
      | _ => none

/-- Reads the members of an inline table up to its closing brace. -/
def members : (fuel : Nat) → Members → List Char → Option (Members × List Char)
  | 0, _, _ => none
  | fuel + 1, before, cs => do
    match ← skipTrivia (cs.length + 1) cs with
    | '}' :: rest => return (before, rest)
    | rest => do
      let (path, rest) ← key (rest.length + 1) rest
      match rest with
      | '=' :: rest => do
        let (node, rest) ← value fuel (skipBlank rest)
        let after ← assign path node before
        match ← skipTrivia (rest.length + 1) rest with
        | ',' :: rest => members fuel after rest
        | '}' :: rest => return (after, rest)
        | _ => none
      | _ => none

end

/-- Reads statements one after the other. `header` is the path of the table that is open. -/
def statements : (fuel : Nat) → (header : List String) → Members → List Char → Option Members
  | 0, _, _, _ => none
  | fuel + 1, header, root, cs =>
    match skipBlank cs with
    | [] => some root
    | '\n' :: rest => statements fuel header root rest
    | '#' :: rest => do
      let rest ← skipComment rest
      statements fuel header root rest
    | '[' :: '[' :: rest => do
      let (path, rest) ← key (rest.length + 1) rest
      match rest with
      | ']' :: ']' :: rest => do
        let rest ← endLine rest
        let root ← appendTable path root
        statements fuel path root rest
      | _ => none
    | '[' :: rest => do
      let (path, rest) ← key (rest.length + 1) rest
      match rest with
      | ']' :: rest => do
        let rest ← endLine rest
        let root ← openTable path root
        statements fuel path root rest
      | _ => none
    | rest => do
      let (path, rest) ← key (rest.length + 1) rest
      match rest with
      | '=' :: rest => do
        let (node, rest) ← value (4 * rest.length + 4) (skipBlank rest)
        let rest ← endLine rest
        let root ← assignUnder header path node root
        statements fuel header root rest
      | _ => none

/-- The text with every line ended by one line feed. -/
def normalize : List Char → List Char
  | '\r' :: '\n' :: rest => '\n' :: normalize rest
  | c :: rest => c :: normalize rest
  | [] => []

/-- Reads a TOML text. -/
def read (text : String) : Document :=
  let cs := match text.toList with
    | c :: rest => if c.toNat == 0xFEFF then rest else c :: rest
    | [] => []
  let cs := normalize cs
  match statements (cs.length + 1) [] [] cs with
  | some root => ⟨.record (Item.toMembers root), true⟩
  | none => .unreadable

end Tenancy.Wire.Toml

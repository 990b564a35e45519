/-!
# YAML scalars

The five ways to write a scalar. Plain and quoted scalars may run over several lines: a single line
break becomes a blank and every further one stays. Block scalars keep their lines (`|`) or join
them (`>`), by the indentation of their first line unless one is given.

All readers work on text in which every line ends in one line feed.
-/

set_option autoImplicit false

namespace Tenancy.Wire.Yaml

/-- A blank inside a line. -/
def isBlank (c : Char) : Bool := c == ' ' || c == '\t'

/-- Whether a list ends or goes on with a blank or a line break. -/
def atBlank : List Char → Bool
  | [] => true
  | c :: _ => isBlank c || c == '\n'

/-- The characters that divide and close flow collections. -/
def isFlowIndicator (c : Char) : Bool :=
  c == ',' || c == '[' || c == ']' || c == '{' || c == '}'

/-- The characters that cannot open a plain scalar. -/
def isIndicator (c : Char) : Bool :=
  isFlowIndicator c || c == '#' || c == '&' || c == '*' || c == '!' || c == '|' || c == '>'
    || c == '\'' || c == '"' || c == '%' || c == '@' || c.toNat == 0x60

/-- Whether a plain scalar can start here. -/
def startsPlain (flow : Bool) : List Char → Bool
  | [] => false
  | c :: rest =>
    if isBlank c || c == '\n' || isIndicator c then false
    else if c == '-' then !atBlank rest
    else if c == '?' || c == ':' then !flow && !atBlank rest
    else true

/-- What stands between two lines of a scalar that are joined. -/
def fold (breaks : Nat) : List Char :=
  if breaks = 1 then [' '] else List.replicate (breaks - 1) '\n'

/-- Whether a document marker stands at the start of a line. -/
def isMarker : List Char → Bool
  | '-' :: '-' :: '-' :: rest => atBlank rest
  | '.' :: '.' :: '.' :: rest => atBlank rest
  | _ => false

/-- Reads the part of a plain scalar on one line, without the blanks at its end. There is no result
if a colon stands directly in front of a flow indicator. -/
def plainLine (flow : Bool) : (blanks : List Char) → List Char → Option (List Char × List Char)
  | blanks, [] => some ([], blanks.reverse)
  | blanks, c :: rest =>
    if c == '\n' then some ([], c :: rest)
    else if isBlank c then plainLine flow (c :: blanks) rest
    else if c == '#' && !blanks.isEmpty then some ([], blanks.reverse ++ c :: rest)
    else if c == ':' && atBlank rest then some ([], blanks.reverse ++ c :: rest)
    else if flow && c == ':' && (rest.head?.any fun d => isFlowIndicator d || d == '?') then none
    else if flow && isFlowIndicator c then some ([], blanks.reverse ++ c :: rest)
    else do
      let (text, rest) ← plainLine flow [] rest
      return (blanks.reverse ++ c :: text, rest)

/-- Passes over the line breaks and blanks in front of the next line that has content. The result
counts the breaks and gives the column of that content. -/
def nextLine : (breaks column : Nat) → List Char → Nat × Nat × List Char
  | breaks, column, [] => (breaks, column, [])
  | breaks, column, c :: rest =>
    if c == '\n' then nextLine (breaks + 1) 0 rest
    else if isBlank c then nextLine breaks (column + 1) rest
    else (breaks, column, c :: rest)

/-- Reads the lines of a plain scalar after the first, as long as they are indented by at least
`indent` columns. -/
def plainMore (flow : Bool) (indent : Nat) : (fuel : Nat) → List Char →
    Option (List Char × List Char)
  | 0, _ => none
  | fuel + 1, cs =>
    match nextLine 0 0 cs with
    | (breaks, column, next) =>
      if breaks = 0 || next.isEmpty || (!flow && column < indent) || (column = 0 && isMarker next)
          || next.head? == some '#' then
        some ([], cs)
      else do
        let (line, rest) ← plainLine flow [] next
        if line.isEmpty then return ([], cs)
        let (more, rest) ← plainMore flow indent fuel rest
        return (fold breaks ++ line ++ more, rest)

/-- Reads a plain scalar of one or more lines. -/
def plain (flow : Bool) (indent : Nat) (cs : List Char) : Option (String × List Char) := do
  let (line, rest) ← plainLine flow [] cs
  let (more, rest) ← plainMore flow indent (cs.length + 1) rest
  return (String.ofList (line ++ more), rest)

/-- Blanks and line breaks that were met inside a quoted scalar and not written yet. -/
structure Pending where
  blanks : List Char
  breaks : Nat
  /-- The first line break was escaped and stands for nothing. -/
  joined : Bool

namespace Pending

/-- Nothing was met. -/
def none : Pending := ⟨[], 0, false⟩

/-- What the blanks and breaks stand for. -/
def text (p : Pending) : List Char :=
  if p.breaks = 0 then p.blanks.reverse
  else if p.joined then List.replicate (p.breaks - 1) '\n'
  else fold p.breaks

/-- One more blank; those at the start of a line do not count. -/
def blank (p : Pending) (c : Char) : Pending :=
  if p.breaks = 0 then { p with blanks := c :: p.blanks } else p

/-- One more line break. -/
def line (p : Pending) : Pending := { p with blanks := [], breaks := p.breaks + 1 }

end Pending

/-- The quoted text that was read, what follows it and whether it stands on one line. -/
structure Quoted where
  text : List Char
  rest : List Char
  single : Bool

/-- Puts characters in front of a quoted text. -/
def Quoted.push (cs : List Char) (q : Quoted) : Quoted := { q with text := cs ++ q.text }

/-- Reads a text between single quotation marks, of which two stand for one. -/
def singleQuoted : Pending → List Char → Option Quoted
  | _, [] => none
  | p, '\'' :: '\'' :: rest => (singleQuoted .none rest).map (·.push (p.text ++ ['\'']))
  | p, c :: rest =>
    if c == '\'' then some ⟨p.text, rest, true⟩
    else if isBlank c then singleQuoted (p.blank c) rest
    else if c == '\n' then (singleQuoted p.line rest).map fun q => { q with single := false }
    else (singleQuoted .none rest).map (·.push (p.text ++ [c]))

/-- The character that a letter after a backslash stands for. -/
def escape? : Char → Option Char
  | '0' => some (Char.ofNat 0)
  | 'a' => some (Char.ofNat 0x7)
  | 'b' => some (Char.ofNat 0x8)
  | 't' => some '\t'
  | '\t' => some '\t'
  | 'n' => some '\n'
  | 'v' => some (Char.ofNat 0xB)
  | 'f' => some (Char.ofNat 0xC)
  | 'r' => some '\r'
  | 'e' => some (Char.ofNat 0x1B)
  | ' ' => some ' '
  | '"' => some '"'
  | '/' => some '/'
  | '\\' => some '\\'
  | 'N' => some (Char.ofNat 0x85)
  | '_' => some (Char.ofNat 0xA0)
  | 'L' => some (Char.ofNat 0x2028)
  | 'P' => some (Char.ofNat 0x2029)
  | _ => none

/-- How many hexadecimal digits follow a letter after a backslash. -/
def hexWidth? : Char → Option Nat
  | 'x' => some 2
  | 'u' => some 4
  | 'U' => some 8
  | _ => none

/-- Adds a hexadecimal digit to a number. -/
def hexStep? (n : Nat) (c : Char) : Option Nat :=
  if c.isDigit then some (16 * n + (c.toNat - 48))
  else if 'a' ≤ c ∧ c ≤ 'f' then some (16 * n + (c.toNat - 87))
  else if 'A' ≤ c ∧ c ≤ 'F' then some (16 * n + (c.toNat - 55))
  else none

/-- Where the reader of a double-quoted text stands. -/
inductive QuoteState where
  | content
  | escaped
  | hex (digits value : Nat)

/-- Reads a text between double quotation marks. -/
def doubleQuoted : QuoteState → Pending → List Char → Option Quoted
  | _, _, [] => none
  | .escaped, p, c :: rest =>
    if c == '\n' then
      (doubleQuoted .content ⟨[], 1, true⟩ rest).map fun q => { q.push p.text with single := false }
    else match hexWidth? c with
      | some width => (doubleQuoted (.hex width 0) .none rest).map (·.push p.text)
      | none =>
        match escape? c with
        | some e => (doubleQuoted .content .none rest).map (·.push (p.text ++ [e]))
        | none => none
  | .hex digits value, _, c :: rest =>
    match hexStep? value c with
    | none => none
    | some value =>
      if digits ≤ 1 then
        if value.isValidChar then
          (doubleQuoted .content .none rest).map (·.push [Char.ofNat value])
        else none
      else doubleQuoted (.hex (digits - 1) value) .none rest
  | .content, p, c :: rest =>
    if c == '"' then some ⟨p.text, rest, true⟩
    else if c == '\\' then doubleQuoted .escaped p rest
    else if isBlank c then doubleQuoted .content (p.blank c) rest
    else if c == '\n' then
      (doubleQuoted .content p.line rest).map fun q => { q with single := false }
    else (doubleQuoted .content .none rest).map (·.push (p.text ++ [c]))

/-- What happens to the line breaks at the end of a block scalar. -/
inductive Chomp where
  | strip
  | clip
  | keep
  deriving DecidableEq

/-- What follows the mark of a block scalar: chomping, indentation and the lines. -/
structure BlockHeader where
  chomp : Chomp
  increment : Option Nat

/-- Reads the rest of the line on which a block scalar is opened. -/
def blockHeader (line : List Char) : Option BlockHeader :=
  let chomp? (c : Char) : Option Chomp :=
    if c == '-' then some .strip else if c == '+' then some .keep else none
  let increment? (c : Char) : Option Nat :=
    if '1' ≤ c ∧ c ≤ '9' then some (c.toNat - 48) else none
  let (header, rest) : BlockHeader × List Char :=
    match line with
    | a :: b :: rest =>
      match chomp? a, increment? b, increment? a, chomp? b with
      | some c, some i, _, _ => (⟨c, some i⟩, rest)
      | some c, none, _, _ => (⟨c, none⟩, b :: rest)
      | none, _, some i, some c => (⟨c, some i⟩, rest)
      | none, _, some i, none => (⟨.clip, some i⟩, b :: rest)
      | none, _, none, _ => (⟨.clip, none⟩, a :: b :: rest)
    | [a] =>
      match chomp? a, increment? a with
      | some c, _ => (⟨c, none⟩, [])
      | none, some i => (⟨.clip, some i⟩, [])
      | none, none => (⟨.clip, none⟩, [a])
    | [] => (⟨.clip, none⟩, [])
  match rest.dropWhile isBlank with
  | [] => some header
  | c :: _ => if c == '#' && rest.head?.any isBlank then some header else none

/-- The width of the indentation that the first lines of a block scalar show. -/
def blockIndent : List (List Char) → Nat
  | [] => 0
  | line :: lines =>
    let width := (line.takeWhile (· == ' ')).length
    if line.length = width then max width (blockIndent lines) else width

/-- The state between two lines of a block scalar. -/
structure BlockState where
  /-- The line before ended in a line break that was not written yet. -/
  leadingBreak : Bool
  /-- The line before started with a blank. -/
  leadingBlank : Bool
  /-- The empty lines since then. -/
  breaks : Nat

/-- What stands between the line before and the next one. -/
def BlockState.join (s : BlockState) (literal startsBlank : Bool) : List Char :=
  let first :=
    if !s.leadingBreak then []
    else if !literal && !s.leadingBlank && !startsBlank then if s.breaks = 0 then [' '] else []
    else ['\n']
  first ++ List.replicate s.breaks '\n'

/-- What stands after the last line. -/
def BlockState.tail (s : BlockState) (chomp : Chomp) : List Char :=
  (if s.leadingBreak && chomp != .strip then ['\n'] else [])
    ++ (if chomp == .keep then List.replicate s.breaks '\n' else [])

/-- Reads the lines of a block scalar; the result is its text and the lines that follow. -/
def blockLines (literal : Bool) (chomp : Chomp) (indent : Nat) :
    BlockState → List (List Char) → Option (List Char × List (List Char))
  | s, [] => some (s.tail chomp, [])
  | s, line :: lines =>
    let width := min indent (line.takeWhile (· == ' ')).length
    let content := line.drop width
    if content.isEmpty then
      -- The piece behind the last line break is no line of its own.
      if lines.isEmpty then some (s.tail chomp, [])
      else blockLines literal chomp indent { s with breaks := s.breaks + 1 } lines
    -- The first line that is indented less ends the scalar.
    else if width < indent then
      if content.head? == some '\t' then none else some (s.tail chomp, line :: lines)
    else do
      let startsBlank := content.head?.any isBlank
      let next : BlockState := ⟨!lines.isEmpty, startsBlank, 0⟩
      let (text, rest) ← blockLines literal chomp indent next lines
      return (s.join literal startsBlank ++ content ++ text, rest)

/-- Reads a block scalar whose mark has been read, inside a collection at column `parent - 1`. -/
def block (literal : Bool) (parent : Nat) (cs : List Char) : Option (String × List Char) := do
  let header ← blockHeader (cs.takeWhile (· != '\n'))
  let lines := ((cs.dropWhile (· != '\n')).drop 1).splitOn '\n'
  let indent := match header.increment with
    -- A given indentation is counted from the collection around the scalar.
    | some n => (parent - 1) + n
    | none => max (blockIndent lines) (max parent 1)
  let (text, rest) ← blockLines literal header.chomp indent ⟨false, false, 0⟩ lines
  return (String.ofList text, ['\n'].intercalate rest)

end Tenancy.Wire.Yaml

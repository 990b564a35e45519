import Tenancy.Wire.Node
import Tenancy.Wire.Yaml.Scalar

/-!
# YAML documents

`Yaml.read` reads one document of block and flow collections and scalars. Block collections are told
apart by the column at which their entries start; a block collection may open only at the start of a
line or behind the dash of a sequence entry. Anchors, aliases, tags and explicit keys are not read.

Each step takes one unit of fuel; a few units per character are enough, because every step but a
fixed number of them uses up a character.
-/

set_option autoImplicit false

namespace Tenancy.Wire.Yaml

/-- A place in a text. -/
structure Cursor where
  rest : List Char
  column : Nat
  /-- A block collection may open here. -/
  fresh : Bool

/-- Passes over blanks, comments and line breaks. Tabs do not indent: there is no result if one
stands where a block collection may open. -/
def gap (comment fresh : Bool) (column : Nat) : List Char → Option Cursor
  | [] => some ⟨[], column, fresh⟩
  | c :: rest =>
    if c == '\n' then gap false true 0 rest
    else if comment then gap true fresh column rest
    else if c == ' ' then gap false fresh (column + 1) rest
    else if c == '\t' then if fresh then none else gap false fresh (column + 1) rest
    else if c == '#' then gap true fresh column rest
    else some ⟨c :: rest, column, fresh⟩

/-- The next token at or behind a place. -/
def Cursor.next (c : Cursor) : Option Cursor := gap false c.fresh c.column c.rest

/-- The place after some characters of the same line. -/
def Cursor.skip (c : Cursor) (n : Nat) (fresh : Bool) : Cursor :=
  ⟨c.rest.drop n, c.column + n, fresh⟩

/-- Whether the document ends here. -/
def Cursor.atEnd (c : Cursor) : Bool :=
  c.rest.isEmpty || (c.fresh && c.column = 0 && isMarker c.rest)

/-- Whether an entry of a block sequence starts here. -/
def Cursor.atDash (c : Cursor) : Bool :=
  match c.rest with
  | '-' :: rest => c.fresh && atBlank rest
  | _ => false

/-- Passes over blanks, comments and line breaks inside a flow collection. -/
def flowGap (comment : Bool) : List Char → List Char
  | [] => []
  | c :: rest =>
    if c == '\n' then flowGap false rest
    else if comment || isBlank c then flowGap comment rest
    else if c == '#' then flowGap true rest
    else c :: rest

/-- The name under which a node stands in a mapping. -/
def nameOf : Node → Option String
  | .text s => s
  | .plain s => some s
  | _ => none

/-- Reads a quoted scalar whose opening mark is the first character. -/
def quoted (cs : List Char) : Option Quoted :=
  match cs with
  | '"' :: rest => doubleQuoted .content .none rest
  | '\'' :: rest => singleQuoted .none rest
  | _ => none

/-- Whether a quoted scalar starts here. -/
def startsQuoted (cs : List Char) : Bool := cs.head? == some '"' || cs.head? == some '\''

mutual

/-- Reads a node of a flow collection. -/
def flowNode : (fuel : Nat) → List Char → Option (Node × List Char)
  | 0, _ => none
  | fuel + 1, cs =>
    match cs with
    | '[' :: rest => do
      let (items, rest) ← flowItems fuel (flowGap false rest)
      return (.list items, rest)
    | '{' :: rest => do
      let (members, rest) ← flowMembers fuel (flowGap false rest)
      return (.record members, rest)
    | _ =>
      if startsQuoted cs then do
        let q ← quoted cs
        return (.text (some (String.ofList q.text)), q.rest)
      else if startsPlain true cs then do
        let (s, rest) ← plain true 0 cs
        return (.plain s, rest)
      else none

/-- Reads what follows the colon of a flow entry. -/
def flowValue : (fuel : Nat) → List Char → Option (Node × List Char)
  | 0, _ => none
  | fuel + 1, cs =>
    match cs with
    | ',' :: _ => some (.plain "", cs)
    | ']' :: _ => some (.plain "", cs)
    | '}' :: _ => some (.plain "", cs)
    | _ => flowNode fuel cs

/-- Reads the entries of a flow sequence up to its closing bracket. -/
def flowItems : (fuel : Nat) → List Char → Option (List Node × List Char)
  | 0, _ => none
  | fuel + 1, cs =>
    match cs with
    | ']' :: rest => some ([], rest)
    | _ => do
      let (entry, rest) ← flowNode fuel cs
      -- A pair inside a sequence is a mapping with one entry.
      let (item, rest) ← match flowGap false rest with
        | ':' :: rest => do
          let (value, rest) ← flowValue fuel (flowGap false rest)
          some (Node.record [(nameOf entry, value)], flowGap false rest)
        | rest => some (entry, rest)
      match rest with
      | ',' :: rest => do
        let (items, rest) ← flowItems fuel (flowGap false rest)
        return (item :: items, rest)
      | ']' :: rest => return ([item], rest)
      | _ => none

/-- Reads the entries of a flow mapping up to its closing brace. -/
def flowMembers : (fuel : Nat) → List Char → Option (List (Option String × Node) × List Char)
  | 0, _ => none
  | fuel + 1, cs =>
    match cs with
    | '}' :: rest => some ([], rest)
    | _ => do
      let (key, rest) ← flowNode fuel cs
      let (value, rest) ← match flowGap false rest with
        | ':' :: rest => do
          let (value, rest) ← flowValue fuel (flowGap false rest)
          some (value, flowGap false rest)
        | rest => some (Node.plain "", rest)
      match rest with
      | ',' :: rest => do
        let (members, rest) ← flowMembers fuel (flowGap false rest)
        return ((nameOf key, value) :: members, rest)
      | '}' :: rest => return ([(nameOf key, value)], rest)
      | _ => none

end

/-- Whether a colon that ends a key stands behind some blanks; the result is what follows it. -/
def afterColon (cs : List Char) : Option (List Char) :=
  match cs.dropWhile isBlank with
  | ':' :: rest => if atBlank rest then some rest else none
  | _ => none

/-- Reads a key of a block mapping with its colon; no result if no key stands here. -/
def key? (fuel : Nat) (cs : List Char) : Option (Option String × List Char) :=
  if startsQuoted cs then do
    let q ← quoted cs
    let rest ← afterColon q.rest
    if q.single then some (some (String.ofList q.text), rest) else none
  else match cs with
    | c :: _ =>
      if c == '[' || c == '{' then do
        let (_, rest) ← flowNode fuel cs
        -- A collection can be a key as long as it stays on one line; it has no name.
        let used := cs.take (cs.length - rest.length)
        let rest ← afterColon rest
        if used.contains '\n' then none else some (none, rest)
      else if startsPlain false cs then do
        let (text, rest) ← plainLine false [] cs
        let rest ← afterColon rest
        some (some (String.ofList text), rest)
      else none
    | [] => none

mutual

/-- Reads the node that belongs to a collection whose entries start at column `parent - 1`. A
sequence may start in that column itself if `level` is set. -/
def node : (fuel parent : Nat) → (level : Bool) → Cursor → Option (Node × Cursor)
  | 0, _, _, _ => none
  | fuel + 1, parent, level, c => do
    let t ← c.next
    if t.atEnd then return (.plain "", t)
    -- What is indented less belongs to a collection further out, so the node is empty.
    else if t.fresh && t.column < parent then
      if level && t.column + 1 = parent && t.atDash then sequence fuel t.column t
      else return (.plain "", t)
    else if t.atDash then sequence fuel t.column t
    -- A key is looked for first: a mapping may start with any kind of scalar.
    else match key? (2 * t.rest.length) t.rest with
      | some _ => if t.fresh then mapping fuel t.column t else none
      | none =>
        match t.rest with
        | '|' :: rest => do
          let (s, rest) ← block true parent rest
          return (.text (some s), ⟨rest, 0, true⟩)
        | '>' :: rest => do
          let (s, rest) ← block false parent rest
          return (.text (some s), ⟨rest, 0, true⟩)
        | '[' :: _ => do
          let (n, rest) ← flowNode (4 * t.rest.length) t.rest
          return (n, ⟨rest, t.column, false⟩)
        | '{' :: _ => do
          let (n, rest) ← flowNode (4 * t.rest.length) t.rest
          return (n, ⟨rest, t.column, false⟩)
        | cs =>
          if startsQuoted cs then do
            let q ← quoted cs
            return (.text (some (String.ofList q.text)), ⟨q.rest, t.column, false⟩)
          else if startsPlain false cs then do
            let (s, rest) ← plain false parent cs
            return (.plain s, ⟨rest, t.column, false⟩)
          else none

/-- Reads the entries of a block sequence whose dashes stand in one column. -/
def entries : (fuel column : Nat) → Cursor → Option (List Node × Cursor)
  | 0, _, _ => none
  | fuel + 1, column, c => do
    let (item, c) ← node fuel (column + 1) false (c.skip 1 true)
    let t ← c.next
    if t.atEnd then return ([item], t)
    else if !t.fresh then none
    else if t.column = column && t.atDash then do
      let (items, t) ← entries fuel column t
      return (item :: items, t)
    else if t.column ≤ column then return ([item], t)
    else none

/-- Reads a block sequence. -/
def sequence : (fuel column : Nat) → Cursor → Option (Node × Cursor)
  | 0, _, _ => none
  | fuel + 1, column, c => do
    let (items, c) ← entries fuel column c
    return (.list items, c)

/-- Reads the entries of a block mapping whose keys start in one column. -/
def pairs : (fuel column : Nat) → Cursor → Option (List (Option String × Node) × Cursor)
  | 0, _, _ => none
  | fuel + 1, column, c => do
    let (name, rest) ← key? (2 * c.rest.length) c.rest
    let (value, c) ← node fuel (column + 1) true ⟨rest, column + 1, false⟩
    let t ← c.next
    if t.atEnd then return ([(name, value)], t)
    else if !t.fresh then none
    else if t.column = column then do
      let (members, t) ← pairs fuel column t
      return ((name, value) :: members, t)
    else if t.column < column then return ([(name, value)], t)
    else none

/-- Reads a block mapping. -/
def mapping : (fuel column : Nat) → Cursor → Option (Node × Cursor)
  | 0, _, _ => none
  | fuel + 1, column, c => do
    let (members, c) ← pairs fuel column c
    return (.record members, c)

end

/-- Characters that may stand in a document. -/
def isPrintable (c : Char) : Bool :=
  let n := c.toNat
  n == 0x9 || n == 0xA || n == 0xD || (0x20 ≤ n && n ≤ 0x7E) || n == 0x85
    || (0xA0 ≤ n && n ≤ 0xFFFD) || 0x10000 ≤ n

/-- The text with every line ended by one line feed. -/
def normalize : List Char → List Char
  | '\r' :: '\n' :: rest => '\n' :: normalize rest
  | c :: rest => (if c == '\r' || c.toNat == 0x85 then '\n' else c) :: normalize rest
  | [] => []

/-- Reads the one document of a text. -/
def document? (cs : List Char) : Option Node := do
  let fuel := 4 * cs.length + 8
  let t ← gap false true 0 cs
  let start : Cursor := match t.rest with
    | '-' :: '-' :: '-' :: _ => if t.atEnd then t.skip 3 false else t
    | _ => t
  let (root, c) ← node fuel 0 false start
  -- Behind the document only its end marker may follow, and no second document.
  let t ← c.next
  if t.rest.isEmpty then return root
  else match t.rest with
    | '.' :: '.' :: '.' :: rest => do
      if !t.atEnd then none
      let u ← gap false false 3 rest
      if u.rest.isEmpty then return root else none
    | _ => none

/-- Reads a YAML text. -/
def read (text : String) : Document :=
  let cs := match text.toList with
    | c :: rest => if c.toNat == 0xFEFF then rest else c :: rest
    | [] => []
  if cs.all isPrintable then
    match document? (normalize cs) with
    | some root => ⟨root, true⟩
    | none => .unreadable
  else .unreadable

end Tenancy.Wire.Yaml

/-!
# Paths

A path is a text whose parts are divided by `/`. Two spellings of the same parts are the same
path: repeated dividers, a divider at the end and an inner `.` do not count, while a leading `/`
and a leading `.` are parts of their own. Paths are compared part by part, so `a/b` comes before
`a-b`.
-/

set_option autoImplicit false

namespace Tenancy.Path

/-- One part of a path. -/
inductive Part where
  | root
  | here
  | up
  | name (text : String)
  deriving DecidableEq, Repr, Inhabited

namespace Part

/-- The kinds of parts in their order. -/
def rank : Part → Nat
  | root => 0
  | here => 1
  | up => 2
  | name _ => 3

/-- The text by which two names are compared. -/
def text : Part → String
  | name t => t
  | _ => ""

instance : Ord Part := ⟨compareLex (compareOn rank) (compareOn text)⟩

instance : Std.TransOrd Part :=
  inferInstanceAs (Std.TransCmp (compareLex (compareOn rank) (compareOn text)))

end Part

/-- The pieces of a path between its dividers. -/
def segments (path : String) : List String := (path.toList.splitOn '/').map String.ofList

/-- Puts pieces together again, a divider between each two. -/
def ofSegments (pieces : List String) : String := "/".intercalate pieces

/-- The part that an inner piece stands for, if it stands for one. -/
def partOf? (piece : String) : Option Part :=
  if piece = "" ∨ piece = "." then none
  else if piece = ".." then some .up
  else some (.name piece)

/-- The parts of a path. -/
def parts (path : String) : List Part :=
  let pieces := segments path
  let first : List Part :=
    match pieces with
    | "" :: _ :: _ => [.root]
    | "." :: _ => [.here]
    | _ => []
  first ++ pieces.filterMap partOf?

/-- The order of paths, part by part. -/
def order (a b : String) : Ordering := compare (parts a) (parts b)

/-- Whether `a` comes before `b` or is the same path. -/
def atMost (a b : String) : Bool := (order a b).isLE

/-- Whether the parts of a path end in those of another. -/
def endsWith (path wanted : String) : Bool := (parts wanted).isSuffixOf (parts path)

/-- The last part, if it is a name. -/
def fileName? (path : String) : Option String :=
  match (parts path).getLast? with
  | some (.name t) => some t
  | _ => none

/-- What follows the last dot of the file name, if something stands before that dot. -/
def extension? (path : String) : Option String := do
  let name ← fileName? path
  let reversed := name.toList.reverse
  if '.' ∈ reversed.dropLast then
    some (String.ofList (reversed.takeWhile (· != '.')).reverse)
  else none

/-- Drops pieces from the end that stand for no part; the first piece stays. -/
def trimPieces (pieces : List String) : List String :=
  match pieces with
  | [] => []
  | first :: rest => first :: (rest.reverse.dropWhile fun p => p = "" ∨ p = ".").reverse

/-- The path without its last part, its text otherwise unchanged. The root and the empty path have
no parent. -/
def parent? (path : String) : Option String :=
  match trimPieces (segments path) with
  | [] => none
  | [only] => if only = "" then none else some ""
  | pieces =>
    match trimPieces pieces.dropLast with
    -- An empty first piece is what stands in front of the leading divider.
    | [""] => some "/"
    | above => some (ofSegments above)

/-- A path and the directories above it, nearest first, at most `depth` of them. -/
def ancestors (path : String) : (depth : Nat) → List String
  | 0 => []
  | depth + 1 =>
    path :: match parent? path with
      | some above => ancestors above depth
      | none => []

/-- Continues a directory by a path; an absolute path stands for itself. -/
def join (directory path : String) : String :=
  if path.startsWith "/" || directory = "" then path
  else if directory.endsWith "/" then directory ++ path
  else directory ++ "/" ++ path

/-- The piece of a path that a part is written as. -/
def Part.piece : Part → String
  | root => ""
  | here => "."
  | up => ".."
  | name t => t

/-- The text of a list of parts. -/
def ofParts (ps : List Part) : String :=
  match ps with
  | [.root] => "/"
  | _ => ofSegments (ps.map Part.piece)

/-- The rest of a path below a directory, or the path itself if it does not lie there. -/
def relativeTo (directory path : String) : String :=
  let above := parts directory
  let all := parts path
  if above.isPrefixOf all then ofParts (all.drop above.length) else path

end Tenancy.Path

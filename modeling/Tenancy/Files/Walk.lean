import Tenancy.Files.Tree
import Tenancy.Glob

/-!
# Finding documents

The documents below a root are the files with certain extensions that no pattern leaves out. A
pattern is tried on the path below the root and on the whole path.
-/

set_option autoImplicit false

namespace Tenancy

/-- The files that were found, and the paths that could not be searched with the reason. -/
structure Walk where
  files : List String
  faults : List (String × FileFault)
  deriving DecidableEq, Repr, Inhabited

namespace Walk

/-- The extensions of facts documents. -/
def factExtensions : List String := ["json", "yaml", "yml"]

/-- Whether a pattern leaves a file out; what is no pattern leaves out nothing. -/
def isLeftOut (root path pattern : String) : Bool :=
  match Glob.compile? pattern with
  | some glob => glob.accepts (Path.relativeTo root path) || glob.accepts path
  | none => false

/-- Whether a file is wanted. -/
def isWanted (root : String) (extensions ignore : List String) (path : String) : Bool :=
  match Path.extension? path with
  | some extension => extensions.contains extension && !ignore.any (isLeftOut root path)
  | none => false

/-- The path of a file below a root; the root itself if it is the file. -/
def pathOf (root : String) (names : Place) : String :=
  if names.isEmpty then root else Path.join root (Path.ofSegments names)

/-- Whether a root stands for the standard input, where nothing is searched. -/
def isStandardInput (root : String) : Bool := Path.parts root = [.name "-"]

end Walk

namespace FileTree

/-- Finds the files below a root that are wanted, in the order of their paths. -/
def walk (t : FileTree) (root : String) (extensions ignore : List String) : Walk :=
  if Walk.isStandardInput root then ⟨[], []⟩
  else
    match t.lookup root, t.placeOf root with
    | .ok _, .ok place =>
      -- Paths are spelled as the root is, so that they can be shown to the user as they are.
      let found := (t.filesBelow place).map (Walk.pathOf root)
      let wanted := found.filter (Walk.isWanted root extensions ignore)
      ⟨wanted.mergeSort Path.atMost, []⟩
    | .error fault, _ => ⟨[], [(root, fault)]⟩
    | _, .error fault => ⟨[], [(root, fault)]⟩

end FileTree

end Tenancy

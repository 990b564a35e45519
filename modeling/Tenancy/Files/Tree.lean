import Tenancy.Files.Fault
import Tenancy.Path

/-!
# File trees

A file tree holds directories and files by their names from the root, and the working directory
against which relative paths are read. A path leads to a place if every step on the way is a
directory; a path that ends in a divider leads to directories only.
-/

set_option autoImplicit false

namespace Tenancy

/-- What stands at a place. -/
inductive FileEntry where
  | directory
  | file (content : ByteArray)

namespace FileEntry

/-- Whether a directory stands there. -/
def isDirectory : FileEntry → Bool
  | directory => true
  | file _ => false

end FileEntry

/-- A place, as the names that lead to it from the root. -/
abbrev Place := List String

/-- Directories and files, and the working directory. -/
structure FileTree where
  home : Place
  /-- What stands at each place below the root. -/
  entries : List (Place × FileEntry)

namespace FileTree

instance : Inhabited FileTree := ⟨⟨[], []⟩⟩

/-- What stands at a place. The root is a directory. -/
def entryAt? (t : FileTree) (place : Place) : Option FileEntry :=
  if place.isEmpty then some .directory
  else (t.entries.find? fun e => e.1 = place).map Prod.snd

/-- Whether a directory stands at a place. -/
def hasDirectory (t : FileTree) (place : Place) : Bool :=
  match t.entryAt? place with
  | some .directory => true
  | _ => false

/-- The place that steps lead to from another, if every step on the way is a directory. -/
def follow? (t : FileTree) (place : Place) : List Path.Part → Except FileFault Place
  | [] => .ok place
  | .root :: rest => follow? t [] rest
  | .here :: rest => follow? t place rest
  -- A name and `..` both need a directory to start from.
  | step :: rest =>
    match t.entryAt? place with
    | none => .error .notFound
    | some (.file _) => .error .notDirectory
    | some .directory =>
      match step with
      | .name text => follow? t (place ++ [text]) rest
      | _ => follow? t place.dropLast rest

/-- The place that a path leads to, whether something stands there or not. -/
def placeOf (t : FileTree) (path : String) : Except FileFault Place :=
  if path = "" then .error .notFound else t.follow? t.home (Path.parts path)

/-- Whether a path is written as that of a directory. -/
def wantsDirectory (path : String) : Bool :=
  match (Path.segments path).reverse with
  | last :: _ :: _ => last = "" || last = "."
  | _ => false

/-- What a path leads to. -/
def lookup (t : FileTree) (path : String) : Except FileFault FileEntry := do
  let place ← t.placeOf path
  match t.entryAt? place with
  | none => .error .notFound
  | some .directory => .ok .directory
  | some (.file content) =>
    if wantsDirectory path then .error .notDirectory else .ok (.file content)

/-- Whether a path leads to something. -/
def leadsSomewhere (t : FileTree) (path : String) : Bool := (t.lookup path).toOption.isSome

/-- Whether a path leads to a directory. -/
def isDirectory (t : FileTree) (path : String) : Bool :=
  match t.lookup path with
  | .ok .directory => true
  | _ => false

/-- Whether a path leads to a file. -/
def isFile (t : FileTree) (path : String) : Bool :=
  match t.lookup path with
  | .ok (.file _) => true
  | _ => false

/-- The text of a file. -/
def readText (t : FileTree) (path : String) : Except FileFault String := do
  match ← t.lookup path with
  | .directory => .error .isDirectory
  | .file content =>
    match String.fromUTF8? content with
    | some text => .ok text
    | none => .error .notText

/-- Sets what stands at a place. -/
def setAt (t : FileTree) (place : Place) (entry : FileEntry) : FileTree :=
  { t with entries := t.entries.filter (fun e => e.1 ≠ place) ++ [(place, entry)] }

/-- Makes sure that a directory stands at every place on the way to a path. -/
def makeDirectories (t : FileTree) (place : Place) : List String → Except FileFault FileTree
  | [] => .ok t
  | name :: rest =>
    let next := place ++ [name]
    match t.entryAt? next with
    | some .directory => makeDirectories t next rest
    | some (.file _) => .error .notDirectory
    | none => makeDirectories (t.setAt next .directory) next rest

/-- The names that a path goes through, `..` taken back. -/
def namesOf (t : FileTree) (path : String) : Place :=
  (Path.parts path).foldl (fun place step =>
    match step with
    | .root => []
    | .here => place
    | .up => place.dropLast
    | .name text => place ++ [text]) t.home

/-- Makes sure that a path leads to a directory. The empty path and one that leads somewhere already
are left as they are. -/
def ensureDirectory (t : FileTree) (path : String) : Except FileFault FileTree :=
  if path = "" || t.leadsSomewhere path then .ok t
  else t.makeDirectories [] (t.namesOf path)

/-- Writes a file in a directory that is there. -/
def writeFile (t : FileTree) (path : String) (content : ByteArray) : Except FileFault FileTree := do
  let place ← t.placeOf path
  match t.entryAt? place.dropLast with
  | none => .error .notFound
  | some (.file _) => .error .notDirectory
  | some .directory =>
    if t.hasDirectory place || wantsDirectory path then .error .isDirectory
    else .ok (t.setAt place (.file content))

/-- Makes sure that the directory of a file is there. -/
def ensureParent (t : FileTree) (path : String) : Except FileFault FileTree :=
  match Path.parent? path with
  | some parent => t.ensureDirectory parent
  | none => .ok t

/-- Writes a file and the directories that lead to it. -/
def save (t : FileTree) (path text : String) : Except FileFault FileTree := do
  let t ← t.ensureParent path
  t.writeFile path text.toUTF8

/-- Removes what stands at a place, and all below it. -/
def removeAt (t : FileTree) (place : Place) : FileTree :=
  { t with entries := t.entries.filter fun e => !place.isPrefixOf e.1 }

/-- The files at or below a place, with the names that lead to them from there. -/
def filesBelow (t : FileTree) (place : Place) : List Place :=
  t.entries.filterMap fun (found, entry) =>
    if place.isPrefixOf found && !entry.isDirectory then some (found.drop place.length) else none

end FileTree

end Tenancy

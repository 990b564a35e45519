import Tenancy.Command.Reads

/-!
# The program

Fetches what a command looks at, carries the command out, and prints and writes what comes of it.
-/

set_option autoImplicit false

namespace Tenancy.Program

/-- The variables of the environment that matter. -/
def variableNames : List String :=
  ["NO_COLOR", "CLICOLOR", "CLICOLOR_FORCE", "TERM", Command.plainVariable]

/-- The names that lead to a path from the root. -/
def placeOf (home : Place) (path : String) : Place := (FileTree.mk home []).namesOf path

/-- Adds a place and the directories that lead to it. -/
def add (t : FileTree) (place : Place) (entry : FileEntry) : FileTree :=
  match t.makeDirectories [] place.dropLast with
  | .ok ready => if place.isEmpty then ready else ready.setAt place entry
  | .error _ => t

/-- Fetches what stands at a path. -/
def fetch (home : Place) (t : FileTree) (path : String) : IO FileTree := do
  let place := placeOf home path
  let whole := (← IO.currentDir) / path
  if ← whole.isDir then return add t place .directory
  else if ← whole.pathExists then
    return add t place (.file (← IO.FS.readBinFile whole))
  else return t

/-- Fetches a path and everything below it. -/
partial def fetchAll (home : Place) (t : FileTree) (path : String) : IO FileTree := do
  let t ← fetch home t path
  let whole := (← IO.currentDir) / path
  if ← whole.isDir then
    let names := (← whole.readDir).map fun e => e.fileName
    names.foldlM (fun t name => fetchAll home t (Path.join path name)) t
  else return t

/-- Fetches all that a command looks at. -/
def fetchFor (c : Command) : IO FileTree := do
  let home := placeOf [] (← IO.currentDir).toString
  let start := add ⟨home, []⟩ home .directory
  let tree ← match c.tree? with
    | some path => fetchAll home start path
    | none => pure start
  c.reads.foldlM (fetch home) tree

/-- Prints and writes what comes of a command. -/
def finish (o : Command.Outcome) : IO UInt32 := do
  if let some file := o.file then
    if let some parent := Path.parent? file.path then
      unless parent = "" do IO.FS.createDirAll parent
    IO.FS.writeFile file.path file.text
  (← IO.getStdout).putStr o.output
  for line in o.notices do
    IO.eprintln line
  return UInt32.ofNat o.status.code

end Tenancy.Program

open Tenancy in
/-- Carries out the command that the arguments make up. -/
def main (arguments : List String) : IO UInt32 := do
  let known ← Program.variableNames.mapM fun name => do return (name, ← IO.getEnv name)
  let env (name : String) : Option String := (known.find? fun v => v.1 = name).bind Prod.snd
  let capable := Appearance.isCapable env (← (← IO.getStdout).isTty)
  match Command.read env arguments with
  | .error e => Program.finish (Command.refuse e)
  | .ok c => Program.finish (c.run (← Program.fetchFor c) env capable)

import Tenancy.Files.Tree
import Tenancy.Settings.Check
import Tenancy.Settings.Parse

/-!
# Settings files

The settings of a run are those of the file that was named or, if none was, of the nearest settings
file at or above the documents; without one the defaults hold. Settings that cannot be read or have
faults are errors.
-/

set_option autoImplicit false

namespace Tenancy

namespace Settings

/-- The name of settings files. -/
def fileName : String := ".tenantguard.toml"

/-- How many directories are searched. -/
def searchDepth : Nat := 10

/-- The paths at which a settings file is looked for, the nearest first. -/
def candidates (start : String) : List String :=
  (Path.ancestors start searchDepth).map fun directory => Path.join directory fileName

/-- Settings without faults, or all faults. -/
def checked (s : Settings) : Except (List SettingsError) Settings :=
  if s.faults.isEmpty then .ok s else .error s.faults

end Settings

namespace FileTree

/-- The nearest settings file at or above a directory. -/
def findSettings? (t : FileTree) (start : String) : Option String :=
  (Settings.candidates start).find? t.isFile

/-- The settings of a file. -/
def settingsAt (t : FileTree) (path : String) : Except (List SettingsError) Settings :=
  match t.readText path with
  | .error fault => .error [.unreadable path fault]
  | .ok text =>
    match Settings.parse path text with
    | .error problem => .error [.unparsable path problem]
    | .ok s => s.checked

/-- The settings of the file that was named, or of the nearest one at or above a directory. -/
def loadSettings (t : FileTree) (named : Option String) (start : String) :
    Except (List SettingsError) Settings :=
  match named <|> t.findSettings? start with
  | some path => t.settingsAt path
  | none => Settings.default.checked

/-- The directory at which the search for the settings of a path starts. -/
def settingsStart (t : FileTree) (path : String) : String :=
  if t.isDirectory path then path else (Path.parent? path).getD "."

/-- The settings of a run over a path. -/
def runSettings (t : FileTree) (path : String) (named : Option String) :
    Except (List SettingsError) Settings :=
  t.loadSettings named (t.settingsStart path)

end FileTree

end Tenancy

import Tenancy.Command.Line

/-!
# What a command looks at

The paths that a command may read, so that they can be fetched before it is carried out: the
documents with everything below them, the settings files that may apply, and the directories that
lead to a file it writes.
-/

set_option autoImplicit false

namespace Tenancy.Command

/-- The settings files that may apply to a path. -/
def settingsReads (path : String) (named : Option String) : List String :=
  named.toList ++ Settings.candidates path
    ++ Settings.candidates ((Path.parent? path).getD ".")

/-- A path and the directories above it. -/
def placeReads (path : String) : List String := Path.ancestors path (Path.parts path).length

/-- The path below which a command reads everything. -/
def tree? : Command → Option String
  | .check request => some request.path
  | .schema request => some request.path
  | .init _ => none

/-- The single paths that a command reads. -/
def reads : Command → List String
  | .check request =>
    settingsReads request.path request.settings
      ++ (request.output.map placeReads).getD []
  | .schema request => settingsReads request.path request.settings
  | .init request => placeReads request.target

end Tenancy.Command

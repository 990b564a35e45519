import Tenancy.Path
import Tenancy.Settings.Basic
import Tenancy.Wire.Json
import Tenancy.Wire.Toml.Reader

/-!
# Settings as text

Settings are JSON if their path ends in `.json`, and TOML otherwise.
-/

set_option autoImplicit false

namespace Tenancy.Settings

open Wire

/-- Reads settings written in JSON. -/
def parseJson (text : String) : Except Problem Settings := codec.decode .json (Json.read text)

/-- Reads settings written in TOML. -/
def parseToml (text : String) : Except Problem Settings := codec.decode .toml (Toml.read text)

/-- Reads settings in the notation that a path asks for. -/
def parse (path text : String) : Except Problem Settings :=
  if Path.extension? path = some "json" then parseJson text else parseToml text

/-- The JSON text of settings. -/
def toJson (s : Settings) : String := (codec.write s).pretty

end Tenancy.Settings

import Tenancy.Facts.Document
import Tenancy.Path
import Tenancy.Wire.Json
import Tenancy.Wire.Yaml.Reader

/-!
# Facts documents as text

A facts document is YAML if its path ends in `.yaml` or `.yml`, and JSON otherwise.
-/

set_option autoImplicit false

namespace Tenancy.Facts

open Wire

/-- The notations of facts documents. -/
inductive Form where
  | json
  | yaml
  deriving DecidableEq, Repr, Inhabited

/-- The notation that a path asks for. -/
def formOf (path : String) : Form :=
  match Path.extension? path with
  | some "yaml" => .yaml
  | some "yml" => .yaml
  | _ => .json

/-- Reads a facts document. -/
def parse (path text : String) : Except Problem Facts :=
  match formOf path with
  | .yaml => codec.decode .yaml (Yaml.read text)
  | .json => codec.decode .json (Json.read text)

/-- The JSON text of a facts document. -/
def toJson (facts : Facts) : String := (codec.write facts).pretty

end Tenancy.Facts

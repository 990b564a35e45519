import Tenancy.Wire.Record

/-!
# Locations

Where a handler lives. Locations are ordered by file, then line, then handler, then route, and what
is missing comes first; reports are sorted in this order.
-/

set_option autoImplicit false

namespace Tenancy

/-- Where a handler lives. -/
structure Location where
  file : String
  line : Option UInt32
  handler : String
  route : Option String
  deriving DecidableEq, Repr, Inhabited

namespace Location

open Wire

instance : Ord Location :=
  ⟨compareLex (compareOn file) (compareLex (compareOn line)
    (compareLex (compareOn handler) (compareOn route)))⟩

instance : Std.TransOrd Location :=
  inferInstanceAs (Std.TransCmp (compareLex (compareOn file) (compareLex (compareOn line)
    (compareLex (compareOn handler) (compareOn route)))))

/-- A location of which only the file is known. -/
def ofFile (file : String) : Location := ⟨file, none, "", none⟩

/-- The file and the line, or the file alone when the line is not known. -/
def position (l : Location) : String :=
  match l.line with
  | some line => s!"{l.file}:{line}"
  | none => l.file

/-- The position and the handler in parentheses. -/
def toText (l : Location) : String := s!"{l.position} ({l.handler})"

/-- How locations are written. -/
def codec : Codec Location :=
  (Codec.record false
    (.cons (.required "file" .text)
    (.cons (.optional "line" .uint32)
    (.cons (.required "handler" .text)
    (.cons (.sparse "route" .text) .nil))))).imap
    (fun (file, line, handler, route, _) => ⟨file, line, handler, route⟩)
    (fun l => (l.file, l.line, l.handler, l.route, ()))

end Location

end Tenancy

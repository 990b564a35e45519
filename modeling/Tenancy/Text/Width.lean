/-!
# Columns of a terminal

Characters of the East Asian scripts take up two columns of a terminal, all others one.
-/

set_option autoImplicit false

namespace Tenancy.Text

/-- The first and the last code point of each block of wide characters. -/
def wideBlocks : List (Nat × Nat) := [
  (0x1100, 0x115F), (0x2E80, 0x303E), (0x3041, 0x33FF), (0x3400, 0x4DBF), (0x4E00, 0x9FFF),
  (0xA000, 0xA4CF), (0xA960, 0xA97F), (0xAC00, 0xD7A3), (0xF900, 0xFAFF), (0xFE30, 0xFE6F),
  (0xFF01, 0xFF60), (0xFFE0, 0xFFE6), (0x20000, 0x2FFFD), (0x30000, 0x3FFFD)]

/-- Whether a character takes up two columns. -/
def isWide (c : Char) : Bool :=
  wideBlocks.any fun (first, last) => first ≤ c.toNat && c.toNat ≤ last

/-- The number of columns that a text takes up. -/
def width (s : String) : Nat := s.toList.foldl (fun n c => n + if isWide c then 2 else 1) 0

end Tenancy.Text

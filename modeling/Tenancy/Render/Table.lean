import Tenancy.Text.Split
import Tenancy.Text.Width

/-!
# Tables

A table has a header and rows of cells. Every cell is padded to the widest cell of its column, with
a blank on both sides; a cell of several lines makes its row higher.
-/

set_option autoImplicit false

namespace Tenancy

/-- The characters of a horizontal line. -/
structure Rule where
  left : String
  fill : String
  cross : String
  right : String
  deriving DecidableEq, Repr, Inhabited

/-- The lines of a table. -/
structure Border where
  top : Rule
  /-- Between the header and the rows. -/
  header : Rule
  /-- Between two rows. -/
  row : Rule
  bottom : Rule
  left : String
  /-- Between two columns. -/
  inner : String
  right : String
  deriving DecidableEq, Repr, Inhabited

namespace Border

/-- Lines of ASCII characters. -/
def ascii : Border where
  top := ⟨"+", "-", "+", "+"⟩
  header := ⟨"+", "=", "=", "+"⟩
  row := ⟨"|", "-", "+", "|"⟩
  bottom := ⟨"+", "-", "+", "+"⟩
  left := "|"
  inner := "|"
  right := "|"

/-- Lines of box characters. -/
def box : Border where
  top := ⟨"┌", "─", "┬", "┐"⟩
  header := ⟨"╞", "═", "╪", "╡"⟩
  row := ⟨"├", "╌", "┼", "┤"⟩
  bottom := ⟨"└", "─", "┴", "┘"⟩
  left := "│"
  inner := "┆"
  right := "│"

/-- The lines that an appearance asks for. -/
def ofPlain (plain : Bool) : Border := if plain then ascii else box

end Border

/-- A header and rows of cells. -/
structure Table where
  header : List String
  rows : List (List String)
  deriving DecidableEq, Repr, Inhabited

namespace Table

/-- A text several times in a row. -/
def times (n : Nat) (s : String) : String := String.join (List.replicate n s)

/-- The width of a cell, which is that of its widest line. -/
def cellWidth (cell : String) : Nat := ((Text.lines cell).map Text.width).foldl max 0

/-- The widths of columns so far, widened to hold a row. -/
def widen (widths : List Nat) (row : List String) : List Nat :=
  List.zipWith (fun width cell => max width (cellWidth cell)) widths row

/-- The widths of all columns. -/
def widths (t : Table) : List Nat := t.rows.foldl widen (t.header.map cellWidth)

/-- A horizontal line. -/
def ruleLine (rule : Rule) (widths : List Nat) : String :=
  rule.left ++ rule.cross.intercalate (widths.map fun w => times (w + 2) rule.fill) ++ rule.right

/-- One line of a cell, padded. -/
def padded (width : Nat) (text : String) : String :=
  " " ++ text ++ times (width - Text.width text) " " ++ " "

/-- One line of a row. -/
def textLine (b : Border) (widths : List Nat) (texts : List String) : String :=
  b.left ++ b.inner.intercalate (List.zipWith padded widths texts) ++ b.right

/-- The lines of a row. -/
def rowLines (b : Border) (widths : List Nat) (row : List String) : List String :=
  let cells := row.map Text.lines
  let height := (cells.map List.length).foldl max 0
  (List.range height).map fun i => textLine b widths (cells.map fun lines => lines[i]?.getD "")

/-- The lines of a table. -/
def lines (t : Table) (b : Border) : List String :=
  let widths := t.widths
  let body := match t.rows with
    | [] => []
    | first :: rest =>
      rowLines b widths first
        ++ rest.flatMap fun row => ruleLine b.row widths :: rowLines b widths row
  ruleLine b.top widths :: rowLines b widths t.header ++ ruleLine b.header widths :: body
    ++ [ruleLine b.bottom widths]

/-- The text of a table, without a line break at the end. -/
def render (t : Table) (b : Border) : String := "\n".intercalate (t.lines b)

end Table

end Tenancy

import Tenancy.Render.Format
import Tenancy.Render.Markdown
import Tenancy.Render.Terminal

/-!
# The text of a report

A report in the format that is asked for; every line of it ends in a line break.
-/

set_option autoImplicit false

namespace Tenancy

/-- Lines as a text. -/
def textOfLines (lines : List String) : String := String.join (lines.map (· ++ "\n"))

/-- The text of a report, for an output that can show colour or not. -/
def Report.render (r : Report) (format : OutputFormat) (look : Appearance) (capable : Bool) :
    String :=
  match format with
  | .json => textOfLines [r.toJson]
  | .markdown => textOfLines r.markdownLines
  | .terminal => textOfLines (r.terminalLines (look.usesColor capable) look.plain)

end Tenancy

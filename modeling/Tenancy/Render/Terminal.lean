import Tenancy.Render.Style
import Tenancy.Render.Table
import Tenancy.Report.Basic

/-!
# Reports on a terminal

The findings, two or three lines each, then a table of counts, the warnings and one line that says
how the run ends.
-/

set_option autoImplicit false

namespace Tenancy

namespace Finding

/-- The first line of a finding. -/
def terminalHead (f : Finding) (color : Bool) : String :=
  f.classification.styled color ++ " " ++ Style.bold.apply color f.location.toText
    ++ (match f.severity with
      | some severity => " [" ++ severity.styled color ++ "]"
      | none => "")
    ++ (match f.ruleId <|> f.errorCode with
      | some rule => " " ++ Style.dim.apply color rule
      | none => "")
    ++ (if f.suppressed then " " ++ Style.dim.apply color "(suppressed)" else "")

/-- The lines of a finding. -/
def terminalLines (f : Finding) (color : Bool) : List String :=
  [f.terminalHead color, "    " ++ f.rationale]
    ++ (f.suggestedFix.map fun fix =>
      "    " ++ Style.success.apply color "fix:" ++ " " ++ fix).toList

end Finding

/-- The counts of a summary as a table. -/
def Summary.table (s : Summary) : Table :=
  let outcomes := [Classification.violation, .unknown, .exempt, .safe].map fun c =>
    [c.label, toString (s.count c)]
  ⟨["Classification", "Count"], outcomes ++ [["suppressed", toString s.suppressed]]⟩

namespace Report

/-- The line that says how a run ends. -/
def terminalVerdict (r : Report) (color : Bool) : String :=
  let blocking := r.blocking.length
  if 0 < blocking then Style.error.apply color s!"{blocking} blocking violation(s)"
  else if 0 < r.summary.analyzerErrors then
    Style.warning.apply color
      s!"no blocking violations, but {r.summary.analyzerErrors} unit(s) could not be analyzed"
  else Style.success.apply color "no blocking violations"

/-- The lines of a report on a terminal. -/
def terminalLines (r : Report) (color plain : Bool) : List String :=
  [Style.header.apply color s!"{r.tool} {r.version}", ""]
    ++ r.findings.flatMap (fun f => f.terminalLines color)
    ++ (if r.findings.isEmpty then [] else [""])
    ++ r.summary.table.lines (.ofPlain plain)
    ++ r.warnings.map (fun w => Style.warning.apply color "warning:" ++ " " ++ w)
    ++ [r.terminalVerdict color]

end Report

end Tenancy

import Tenancy.Report.Basic

/-!
# Reports in Markdown

A summary table, then one section per finding, then the warnings.
-/

set_option autoImplicit false

namespace Tenancy

namespace Summary

/-- The counts of a summary as rows of a Markdown table. -/
def markdownRows (s : Summary) : List String :=
  let outcomes := Classification.all.filterMap fun c =>
    (s.byClassification c).map fun n => s!"| {c.label} | {n} |"
  let severities := Severity.all.reverse.filterMap fun v =>
    (s.bySeverity v).map fun n => s!"| Severity {v.label} | {n} |"
  s!"| Access points | {s.total} |" :: outcomes ++ severities
    ++ [s!"| Suppressed | {s.suppressed} |", s!"| Analyzer errors | {s.analyzerErrors} |"]

end Summary

namespace Finding

/-- The outcome of a finding with its rule and severity. -/
def markdownStatus (f : Finding) : String :=
  f.classification.label
    ++ (match f.ruleId with
      | some rule => " (`" ++ rule ++ "`)"
      | none => "")
    ++ (match f.severity with
      | some severity => ", " ++ severity.label
      | none => "")
    ++ (if f.suppressed then ", suppressed" else "")

/-- A finding as a section. -/
def markdownLines (f : Finding) : List String :=
  ["### `" ++ f.location.position ++ "` " ++ f.location.handler, "",
    "- **Status:** " ++ f.markdownStatus]
    ++ (f.location.route.map fun route => "- **Route:** `" ++ route ++ "`").toList
    ++ (if f.entities.isEmpty then [] else ["- **Entities:** " ++ ", ".intercalate f.entities])
    ++ ["- **Why:** " ++ f.rationale]
    ++ (f.suggestedFix.map fun fix => "- **Fix:** " ++ fix).toList
    ++ (f.suppressionReason.map fun reason => "- **Suppressed because:** " ++ reason).toList
    ++ [""]

end Finding

namespace Report

/-- The lines of a report in Markdown. -/
def markdownLines (r : Report) : List String :=
  ["# Tenant Isolation Report", "", s!"Generated by {r.tool} {r.version}", "",
    "## Summary", "", "| Metric | Value |", "|--------|-------|"]
    ++ r.summary.markdownRows ++ ["", "## Findings", ""]
    ++ (if r.findings.isEmpty then ["No findings.", ""] else [])
    ++ r.findings.flatMap Finding.markdownLines
    ++ (if r.warnings.isEmpty then []
      else ["## Warnings", ""] ++ r.warnings.map (fun w => "- " ++ w) ++ [""])

end Report

end Tenancy

import Tenancy.Access.Filter
import Tenancy.Settings.Basic

/-!
# Coverage of paths

Only paths that both build and execute an operation count. A requirement is covered if on every such
path all filters that apply are joined by `and`, and one of them meets it.
-/

set_option autoImplicit false

namespace Tenancy

namespace Flow

/-- The branches of the paths that build and execute an operation, each once, in order. A straight
line is one path without a branch. -/
def executionPaths (f : Flow) : List (Option String) :=
  if f.paths.isEmpty then [none]
  else ((f.paths.filter fun p => p.builds && p.executes).map FlowPath.branch).eraseDups

/-- The limit that a control flow exceeds, if it exceeds one. -/
def exceeded? (f : Flow) (limits : ScanLimits) : Option ExtractionError :=
  if limits.maxPathsPerOperation.toNat < f.paths.length then
    some (.scanCapExceeded "max_paths_per_operation" f.paths.length
      limits.maxPathsPerOperation.toNat)
  else if limits.maxNestingDepth < f.nestingDepth then
    some (.scanCapExceeded "max_nesting_depth" f.nestingDepth.toNat limits.maxNestingDepth.toNat)
  else none

end Flow

/-- Whether a requirement is met on one path. -/
def coversPath (filters : List Filter) (required : Filter → Bool) (path : Option String) : Bool :=
  let active := filters.filter (·.activeOn path)
  (active.all fun f => f.conjunction = .and) && active.any required

/-- Whether a requirement is met on every path. Without paths it is not. -/
def coversEveryPath (paths : List (Option String)) (filters : List Filter)
    (required : Filter → Bool) : Bool :=
  !paths.isEmpty && paths.all (coversPath filters required)

end Tenancy

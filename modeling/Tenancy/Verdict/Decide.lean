import Tenancy.Access.Point
import Tenancy.Verdict.Basic

/-!
# The rules of isolation

An access is judged by its targets, its filters and what its handler is given. Accesses that are
never executed are not judged, and exempt ones are not looked at further. Every tenant-scoped target
has to be restricted to the caller's tenant on every path on which the access is executed.
-/

set_option autoImplicit false

namespace Tenancy

/-- Access points that contradict the schema or themselves. -/
inductive EvaluationError where
  | unknownEntity (accessPoint entity : String)
  | missingScopingColumn (accessPoint entity : String)
  | noExecutionPaths (accessPoint : String)
  deriving DecidableEq, Repr, Inhabited

namespace EvaluationError

/-- The code of an error. -/
def code (_ : EvaluationError) : String := "E030"

/-- The text of an error. -/
def message : EvaluationError → String
  | unknownEntity point entity =>
    s!"access point {point} targets `{entity}`, which is not in the classified schema"
  | missingScopingColumn point entity =>
    s!"access point {point} targets tenant-scoped `{entity}` without a scoping column"
  | noExecutionPaths point =>
    s!"access point {point} reaches execution but carries no execution paths"

end EvaluationError

namespace AccessPoint

/-- The target of a name, if it makes sense. -/
def target (p : AccessPoint) (s : Schema) (name : String) : Except EvaluationError Entity :=
  match s.get? name with
  | none => .error (.unknownEntity p.id name)
  | some e =>
    if e.isTenantScoped && e.scopingColumn.isNone then .error (.missingScopingColumn p.id name)
    else .ok e

/-- The targets whose rows belong to tenants. -/
def required (p : AccessPoint) (s : Schema) : Except EvaluationError (List Entity) := do
  let targets ← p.targets.toList.mapM (p.target s)
  return targets.filter Entity.isTenantScoped

/-- Whether a target is restricted to the caller's tenant on every path. -/
def covers (p : AccessPoint) (e : Entity) : Bool :=
  coversEveryPath p.paths p.filters fun f => f.scopes e

/-- Names, with commas between them. -/
def listNames (entities : List Entity) : String := ", ".intercalate (entities.map Entity.name)

/-- The filters that entities need, with commas between them. -/
def listFilters (entities : List Entity) : String :=
  ", ".intercalate (entities.map fun e => e.name ++ "." ++ e.scopingColumn.getD "?")

/-- A remark for accesses that are filtered on some of several paths. -/
def branchNote (p : AccessPoint) : String :=
  if 1 < p.paths.length && p.filters.any (fun f => f.branch.isSome) then
    " on every execution path"
  else ""

/-- How missing filters can be added. -/
def fix (p : AccessPoint) (missing : String) : String :=
  match p.kind with
  | .create => s!"set {missing} from the tenant context when inserting"
  | _ => s!"add a filter on {missing} == <tenant context>.id"

/-- The verdict that an access is safe. -/
def safe (p : AccessPoint) (rationale : String) : Verdict :=
  ⟨p.id, .safe, none, none, rationale, none⟩

/-- The verdict that an access is exempt. -/
def exempt (p : AccessPoint) : Verdict :=
  let reasons := ", ".intercalate (p.exemptions.map Exemption.reason)
  ⟨p.id, .exempt, none, none, s!"exempt from tenant scoping ({reasons})", none⟩

/-- The verdict that an access breaks a rule. -/
def violation (p : AccessPoint) (kind : ViolationKind) (rationale fix : String) : Verdict :=
  ⟨p.id, .violation, some kind, some (kind.severity p.kind), rationale, some fix⟩

/-- The verdict on an access without the tenant context. -/
def withoutContext (p : AccessPoint) (required : List Entity) : Verdict :=
  let names := listNames required
  let needed := listFilters required
  p.violation .missingDependency
    s!"{p.kind.label} on tenant-scoped {names} without a tenant-context dependency"
    s!"inject the tenant context into the handler and filter by {needed}"

/-- The verdict on an access that leaves targets open. -/
def withGaps (p : AccessPoint) (required covered uncovered : List Entity) : Verdict :=
  let names := listNames required
  let fix := p.fix (listFilters uncovered)
  if !covered.isEmpty then
    let done := listNames covered
    let left := listNames uncovered
    p.violation .partialFilterCoverage
      s!"{p.kind.label} is scoped for {done} but not for {left}" fix
  else if p.kind.isMutation then
    p.violation .missingFilterOnMutation
      s!"{p.kind.label} on {names} is not restricted to the caller's tenant{p.branchNote}" fix
  else
    p.violation .unusedDependency
      s!"tenant context is injected but the read on {names} does not filter by it{p.branchNote}" fix

/-- The verdict on an access with tenant-scoped targets. -/
def judge (p : AccessPoint) (required : List Entity) : Verdict :=
  -- Without tenant-scoped targets it does not matter what the handler is given.
  if required.isEmpty then p.safe "targets only global entities; no tenant filter required"
  else if !p.dependencies.contains .tenantContext then p.withoutContext required
  else
    let uncovered := required.filter fun e => !p.covers e
    if uncovered.isEmpty then
      let filters := listFilters required
      p.safe s!"filtered by {filters} on every execution path"
    else p.withGaps required (required.filter p.covers) uncovered

/-- The verdict on an access; there is none if it is never executed. -/
def evaluate (p : AccessPoint) (s : Schema) : Except EvaluationError (Option Verdict) :=
  if !p.reachesExecution then .ok none
  else if p.paths.isEmpty then .error (.noExecutionPaths p.id)
  -- The targets of an exempt access are not even looked up.
  else if !p.exemptions.isEmpty then .ok (some p.exempt)
  else do
    let required ← p.required s
    return some (p.judge required)

end AccessPoint

end Tenancy

import Tenancy.Access.Coverage
import Tenancy.Access.Provider
import Tenancy.Glob

/-!
# Access points

Every operation of a handler is an access point: its targets, its filters, the paths on which it is
executed, and what the handler's dependencies and route mean for it. If one operation makes no sense
the whole handler has no access points.
-/

set_option autoImplicit false

namespace Tenancy

open Wire

/-- Why an access needs no tenant filter. -/
inductive Exemption where
  | adminProvider
  | adminRoute
  deriving DecidableEq, Repr, Inhabited

namespace Exemption

/-- All exemptions, in the order in which they are listed. -/
def all : List Exemption := [adminProvider, adminRoute]

/-- The written form of an exemption. -/
def key : Exemption → String
  | adminProvider => "admin_provider"
  | adminRoute => "admin_route"

/-- The words for an exemption. -/
def reason : Exemption → String
  | adminProvider => "admin-only dependency"
  | adminRoute => "admin route"

end Exemption

/-- One access to stored data. -/
structure AccessPoint where
  id : String
  location : Location
  kind : OperationKind
  targets : NameSet
  /-- What the dependencies of the handler give, each kind once. -/
  dependencies : List ProviderKind
  exemptions : List Exemption
  filters : List Filter
  paths : List (Option String)
  reachesExecution : Bool
  deriving DecidableEq

namespace AccessPoint

instance : Inhabited AccessPoint := ⟨⟨"", default, default, .empty, [], [], [], [], false⟩⟩

/-- How access points are written. -/
def codec : Codec AccessPoint :=
  (Codec.record false
    (.cons (.required "id" .text)
    (.cons (.required "location" Location.codec)
    (.cons (.required "operation_kind" OperationKind.codec)
    (.cons (.required "target_entities" .names)
    (.cons (.required "dependencies" (.choices ProviderKind.all ProviderKind.key))
    (.cons (.required "exemptions" (.choices Exemption.all Exemption.key))
    (.cons (.required "predicates" Filter.codec.list)
    (.cons (.required "execution_paths" Codec.text.optional.list)
    (.cons (.required "reaches_execution" .flag) .nil)))))))))).imap
    (fun (id, location, kind, targets, dependencies, exemptions, filters, paths, reaches, _) =>
      ⟨id, location, kind, targets, dependencies, exemptions, filters, paths, reaches⟩)
    (fun p => (p.id, p.location, p.kind, p.targets, p.dependencies, p.exemptions, p.filters,
      p.paths, p.reachesExecution, ()))

/-- The name of the operation with a given index in a handler. -/
def idOf (l : Location) (index : Nat) : String := s!"{l.position}:{l.handler}#{index}"

end AccessPoint

/-- What is needed to find the access points of handlers. -/
structure Extractor where
  schema : Schema
  providers : ProviderTable
  adminRoutePrefixes : List String
  limits : ScanLimits
  /-- Handlers in files that match one of these are left out. -/
  ignore : List Glob

namespace Extractor

/-- The extractor of settings; patterns that are none are left out. -/
def ofSettings (schema : Schema) (s : Settings) : Extractor where
  schema
  providers := .ofSettings s.providers
  adminRoutePrefixes := s.exemptions.adminRoutePrefixes
  limits := s.limits
  ignore := s.analysis.ignore.filterMap Glob.compile?

/-- Whether a handler is left out. -/
def isIgnored (x : Extractor) (l : Location) : Bool := x.ignore.any (·.accepts l.file)

/-- What the dependency of a handler gives. -/
def kindOf (x : Extractor) (d : Dependency) : ProviderKind := x.providers.classify d.provider d.hint

/-- What the dependencies of a handler give, each kind once. -/
def kinds (x : Extractor) (h : Handler) : List ProviderKind :=
  ProviderKind.all.filter fun kind => (h.dependencies.map x.kindOf).contains kind

/-- The names that a handler knows. -/
def namesOf (x : Extractor) (h : Handler) : NameScope where
  bindings := h.bindings
  tenantValues := (h.dependencies.filter fun d => x.kindOf d = .tenantContext).map Dependency.name

/-- Whether the route of a handler starts like one for administrators. -/
def isAdminRoute (x : Extractor) (h : Handler) : Bool :=
  match h.location.route with
  | some route => x.adminRoutePrefixes.any fun start => Text.startsWith route start
  | none => false

/-- Why the accesses of a handler need no tenant filter. -/
def exemptions (x : Extractor) (h : Handler) : List Exemption :=
  (if (x.kinds h).contains .admin then [.adminProvider] else [])
    ++ (if x.isAdminRoute h then [.adminRoute] else [])

/-- The targets of an operation, each once, in the order in which they are written. -/
def targets (x : Extractor) (operation : Nat) : List Entity → List String →
    Except ExtractionError (List Entity)
  | found, [] => .ok found
  | found, name :: rest =>
    match x.schema.resolve? (Text.trim name) with
    | none => .error (.unknownEntity name operation)
    | some e =>
      if found.any fun other => other.name = e.name then targets x operation found rest
      else targets x operation (found ++ [e]) rest

/-- The access point of one operation. -/
def point (x : Extractor) (h : Handler) (index : Nat) (o : Operation) :
    Except ExtractionError AccessPoint := do
  match o.flow.exceeded? x.limits with
  | some e => .error e
  | none =>
    -- Targets are looked up before filters, because a filter needs its target.
    if o.targets.isEmpty then .error (.noTargets index)
    else
      let targets ← x.targets index [] o.targets
      let filters ← o.conditions.mapM (Filter.ofCondition (x.namesOf h) targets index)
      let paths := o.flow.executionPaths
      return {
        id := AccessPoint.idOf h.location index
        location := { h.location with line := o.line <|> h.location.line }
        kind := o.kind
        targets := .ofList (targets.map Entity.name)
        dependencies := x.kinds h
        exemptions := x.exemptions h
        filters
        paths
        reachesExecution := !paths.isEmpty }

/-- The access points of operations that are counted from `index` on. -/
def pointsFrom (x : Extractor) (h : Handler) : (index : Nat) → List Operation →
    Except ExtractionError (List AccessPoint)
  | _, [] => .ok []
  | index, o :: rest => do
    let p ← x.point h index o
    let others ← pointsFrom x h (index + 1) rest
    return p :: others

/-- The access points of a handler. -/
def points (x : Extractor) (h : Handler) : Except ExtractionError (List AccessPoint) :=
  let most := x.limits.maxOperationsPerHandler.toNat
  if most < h.operations.length then
    .error (.scanCapExceeded "max_operations_per_handler" h.operations.length most)
  else x.pointsFrom h 0 h.operations

/-- The access points of a handler, or the error with the location of the handler. -/
def extract (x : Extractor) (h : Handler) : Except HandlerError (List AccessPoint) :=
  match x.points h with
  | .ok points => .ok points
  | .error e => .error ⟨h.location, e⟩

end Extractor

end Tenancy

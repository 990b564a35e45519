import Tenancy.Facts.Handler

/-!
# Settings

Everything that can be configured: how scoping columns are named, which providers give the tenant
context or restrict a handler to administrators, which findings are suppressed, and the limits of a
scan. Each setting has a default.
-/

set_option autoImplicit false

namespace Tenancy

open Wire

/-- What becomes of an entity that nothing else classifies. -/
inductive UnresolvedScope where
  /-- It is global. -/
  | global
  /-- It is tenant-scoped if it has a column named like a scoping column. -/
  | markerColumn
  deriving DecidableEq, Repr, Inhabited

/-- How the choice for unclassified entities is written. -/
def UnresolvedScope.codec : Codec UnresolvedScope :=
  .choice [.global, .markerColumn] fun
    | .global => "global"
    | .markerColumn => "marker_column"

/-- How entities are classified. -/
structure SchemaSettings where
  /-- Names and patterns of scoping columns, the preferred first. -/
  scopingColumns : List String
  tenantTables : List String
  globalTables : List String
  tenantRoots : List String
  /-- The target of a scoping foreign key is a tenant root. -/
  inferRoots : Bool
  unresolvedScope : UnresolvedScope
  deriving DecidableEq, Repr

namespace SchemaSettings

/-- The settings that hold unless others are given. -/
def default : SchemaSettings := ⟨["workspace_id"], [], [], [], true, .global⟩

instance : Inhabited SchemaSettings := ⟨default⟩

/-- How these settings are written. -/
def codec : Codec SchemaSettings :=
  (Codec.record false
    (.cons (.fallingBack "scoping_columns" Codec.text.list default.scopingColumns)
    (.cons (.many "tenant_tables" .text)
    (.cons (.many "global_tables" .text)
    (.cons (.many "tenant_roots" .text)
    (.cons (.fallingBack "infer_roots" .flag default.inferRoots)
    (.cons (.fallingBack "unresolved_scope" UnresolvedScope.codec default.unresolvedScope)
      .nil))))))).imap
    (fun (scopingColumns, tenantTables, globalTables, tenantRoots, inferRoots, unresolvedScope,
        _) =>
      ⟨scopingColumns, tenantTables, globalTables, tenantRoots, inferRoots, unresolvedScope⟩)
    (fun s => (s.scopingColumns, s.tenantTables, s.globalTables, s.tenantRoots, s.inferRoots,
      s.unresolvedScope, ()))

end SchemaSettings

/-- Which providers are known. An entry of the mapping counts more than the two lists. -/
structure ProviderSettings where
  tenantContext : List String
  admin : List String
  mapping : NameMap ProviderKind
  deriving DecidableEq

namespace ProviderSettings

/-- No provider is known. -/
def default : ProviderSettings := ⟨[], [], .empty⟩

instance : Inhabited ProviderSettings := ⟨default⟩

/-- How these settings are written. -/
def codec : Codec ProviderSettings :=
  (Codec.record false
    (.cons (.many "tenant_context" .text)
    (.cons (.many "admin" .text)
    (.cons (.fallingBack "mapping" (.table ProviderKind.codec) .empty) .nil)))).imap
    (fun (tenantContext, admin, mapping, _) => ⟨tenantContext, admin, mapping⟩)
    (fun s => (s.tenantContext, s.admin, s.mapping, ()))

end ProviderSettings

/-- Routes under these prefixes are for administrators. -/
structure ExemptionSettings where
  adminRoutePrefixes : List String
  deriving DecidableEq, Repr, Inhabited

namespace ExemptionSettings

/-- No route is exempt. -/
def default : ExemptionSettings := ⟨[]⟩

/-- How these settings are written. -/
def codec : Codec ExemptionSettings :=
  (Codec.record false (.cons (.many "admin_route_prefixes" .text) .nil)).imap
    (fun (adminRoutePrefixes, _) => ⟨adminRoutePrefixes⟩)
    (fun s => (s.adminRoutePrefixes, ()))

end ExemptionSettings

/-- A request to suppress the findings of a rule at a location, as it is written. -/
structure SuppressionEntry where
  location : String
  rule : String
  reason : Option String
  deriving DecidableEq, Repr, Inhabited

/-- How suppressions are written. -/
def SuppressionEntry.codec : Codec SuppressionEntry :=
  (Codec.record false
    (.cons (.required "location" .text)
    (.cons (.required "rule" .text)
    (.cons (.optional "reason" .text) .nil)))).imap
    (fun (location, rule, reason, _) => ⟨location, rule, reason⟩)
    (fun s => (s.location, s.rule, s.reason, ()))

/-- How an analysis runs and what it lists. -/
structure AnalysisSettings where
  /-- Whatever cannot be analyzed ends the run. -/
  strict : Bool
  includeSafe : Bool
  /-- Patterns of files that are left out. -/
  ignore : List String
  jobs : Option UInt64
  deriving DecidableEq, Repr, Inhabited

namespace AnalysisSettings

/-- The settings that hold unless others are given. -/
def default : AnalysisSettings := ⟨false, false, [], none⟩

/-- How these settings are written. -/
def codec : Codec AnalysisSettings :=
  (Codec.record false
    (.cons (.fallingBack "strict" .flag default.strict)
    (.cons (.fallingBack "include_safe" .flag default.includeSafe)
    (.cons (.many "ignore" .text)
    (.cons (.optional "jobs" .uint64) .nil))))).imap
    (fun (strict, includeSafe, ignore, jobs, _) => ⟨strict, includeSafe, ignore, jobs⟩)
    (fun s => (s.strict, s.includeSafe, s.ignore, s.jobs, ()))

end AnalysisSettings

/-- The largest handlers that are analyzed. -/
structure ScanLimits where
  maxPathsPerOperation : UInt64
  maxNestingDepth : UInt32
  maxOperationsPerHandler : UInt64
  deriving DecidableEq, Repr

namespace ScanLimits

/-- The limits that hold unless others are given. -/
def default : ScanLimits := ⟨64, 32, 256⟩

instance : Inhabited ScanLimits := ⟨default⟩

/-- How limits are written. -/
def codec : Codec ScanLimits :=
  (Codec.record false
    (.cons (.fallingBack "max_paths_per_operation" .uint64 default.maxPathsPerOperation)
    (.cons (.fallingBack "max_nesting_depth" .uint32 default.maxNestingDepth)
    (.cons (.fallingBack "max_operations_per_handler" .uint64 default.maxOperationsPerHandler)
      .nil)))).imap
    (fun (paths, depth, operations, _) => ⟨paths, depth, operations⟩)
    (fun l => (l.maxPathsPerOperation, l.maxNestingDepth, l.maxOperationsPerHandler, ()))

end ScanLimits

/-- How a report is written. -/
structure OutputSettings where
  defaultFormat : Option String
  deriving DecidableEq, Repr, Inhabited

namespace OutputSettings

/-- No format is preferred. -/
def default : OutputSettings := ⟨none⟩

/-- How these settings are written. -/
def codec : Codec OutputSettings :=
  (Codec.record false (.cons (.optional "default_format" .text) .nil)).imap
    (fun (defaultFormat, _) => ⟨defaultFormat⟩)
    (fun s => (s.defaultFormat, ()))

end OutputSettings

/-- Everything that can be configured. -/
structure Settings where
  schema : SchemaSettings
  providers : ProviderSettings
  exemptions : ExemptionSettings
  suppressions : List SuppressionEntry
  analysis : AnalysisSettings
  limits : ScanLimits
  output : OutputSettings
  deriving DecidableEq

namespace Settings

/-- The settings that hold unless others are given. -/
def default : Settings :=
  ⟨.default, .default, .default, [], .default, .default, .default⟩

instance : Inhabited Settings := ⟨default⟩

/-- How settings are written. -/
def codec : Codec Settings :=
  (Codec.record false
    (.cons (.fallingBack "schema" SchemaSettings.codec .default)
    (.cons (.fallingBack "providers" ProviderSettings.codec .default)
    (.cons (.fallingBack "exemptions" ExemptionSettings.codec .default)
    (.cons (.many "suppressions" SuppressionEntry.codec)
    (.cons (.fallingBack "analysis" AnalysisSettings.codec .default)
    (.cons (.fallingBack "limits" ScanLimits.codec .default)
    (.cons (.fallingBack "output" OutputSettings.codec .default) .nil)))))))).imap
    (fun (schema, providers, exemptions, suppressions, analysis, limits, output, _) =>
      ⟨schema, providers, exemptions, suppressions, analysis, limits, output⟩)
    (fun s => (s.schema, s.providers, s.exemptions, s.suppressions, s.analysis, s.limits, s.output,
      ()))

/-- The number of workers that was asked for, if any was. -/
def workers? (s : Settings) : Option UInt64 := s.analysis.jobs.filter (0 < ·)

end Settings

end Tenancy

import Tenancy.Analysis
import Tenancy.Facts.Build

/-!
# A sample application

Five entities and eleven handlers that between them show every verdict: `Workspace` is the tenant
root, `User` and `Project` belong to it, `FeatureFlag` is global, and `AuditLog` has the scoping
column without a foreign key.
-/

set_option autoImplicit false

namespace Tenancy.Sample

/-- The file that the entities are declared in. -/
def modelsFile : String := "models.py"

/-- The file that the handlers are defined in. -/
def routesFile : String := "routes.py"

/-- The entities of the application. -/
def schema : List Declaration := [
  (Declaration.named "Workspace" "workspaces")
    |>.addColumns ["id", "name", "slug"]
    |>.declaredAt modelsFile 7,
  (Declaration.named "User" "users")
    |>.addColumns ["id", "workspace_id", "email", "name"]
    |>.addForeignKey "workspace_id" "workspaces"
    |>.declaredAt modelsFile 15,
  (Declaration.named "Project" "projects")
    |>.addColumns ["id", "workspace_id", "name", "description"]
    |>.addForeignKey "workspace_id" "workspaces"
    |>.declaredAt modelsFile 27,
  (Declaration.named "FeatureFlag" "feature_flags")
    |>.addColumns ["id", "key", "enabled", "description"]
    |>.declaredAt modelsFile 39,
  (Declaration.named "AuditLog" "audit_logs")
    |>.addColumns ["id", "action", "user_id", "workspace_id", "details"]
    |>.declaredAt modelsFile 49]

/-- The settings that fit the application. -/
def settings : Settings :=
  { Settings.default with
    providers :=
      { ProviderSettings.default with
        tenantContext := ["get_current_workspace"]
        admin := ["require_admin"] }
    exemptions := ⟨["/admin"]⟩ }

/-- A handler with access to the database. -/
def handler (line : UInt32) (name route : String) : Handler :=
  (Handler.named routesFile line name).onRoute route |>.addDependency "db" "get_db"

/-- A handler that is also given the tenant context. -/
def scopedHandler (line : UInt32) (name route : String) : Handler :=
  (handler line name route).addDependency "workspace" "get_current_workspace"

/-- An operation on one entity. -/
def operation (kind : OperationKind) (target : String) (line : UInt32) : Operation :=
  (Operation.on kind [target]).onLine line

/-- The handlers of the application. -/
def handlers : List Handler := [
  (handler 26 "list_users_bad" "/users").addOperation (operation .read "User" 28),
  (scopedHandler 34 "list_users_good" "/users/safe").addOperation
    ((operation .read "User" 39).filter "User.workspace_id" "workspace.id"),
  (handler 45 "list_projects_no_auth" "/projects").addOperation (operation .read "Project" 47),
  (scopedHandler 53 "list_projects_missing_filter" "/projects/missing-filter").addOperation
    (operation .read "Project" 58),
  (scopedHandler 64 "list_projects_safe" "/projects/safe").addOperation
    ((operation .read "Project" 69).filter "Project.workspace_id" "workspace.id"),
  (scopedHandler 75 "update_project_bad" "/projects/\x7bproject_id\x7d").addOperation
    ((operation .update "Project" 81).filter "Project.id" "project_id"),
  (scopedHandler 88 "update_project_safe" "/projects/\x7bproject_id\x7d/safe").addOperation
    (((operation .update "Project" 94).filter "Project.id" "project_id").filter
      "Project.workspace_id" "workspace.id"),
  (handler 104 "list_feature_flags" "/feature-flags").addOperation
    (operation .read "FeatureFlag" 106),
  ((handler 112 "admin_list_all_users" "/admin/all-users").addDependency
    "_admin" "require_admin").addOperation (operation .read "User" 117),
  (handler 123 "delete_user_bad" "/users/\x7buser_id\x7d").addOperation
    ((operation .delete "User" 128).filter "User.id" "user_id"),
  (scopedHandler 135 "delete_user_safe" "/users/\x7buser_id\x7d/safe").addOperation
    (((operation .delete "User" 141).filter "User.id" "user_id").filter
      "User.workspace_id" "workspace.id")]

/-- The application as two documents. -/
def units : List SourceUnit := [
  ⟨"facts/models.json", ⟨some modelsFile, schema, []⟩⟩,
  ⟨"facts/routes.json", ⟨some routesFile, [], handlers⟩⟩]

/-- The application as one document. -/
def document : Facts := ⟨none, schema, handlers⟩

end Tenancy.Sample

import Tenancy.Settings.Basic
import Tenancy.Text.Blank
import Tenancy.Text.Split

/-!
# Providers

What a dependency gives to a handler is looked up in a table that the settings fill: by the whole
name of its provider, then by the part after the last dot; a provider that is not listed is what the
hint says.
-/

set_option autoImplicit false

namespace Tenancy

/-- What each known provider gives. -/
structure ProviderTable where
  entries : NameMap ProviderKind
  deriving DecidableEq

namespace ProviderTable

instance : Inhabited ProviderTable := ⟨⟨.empty⟩⟩

/-- Sets what a provider gives. -/
def insert (t : ProviderTable) (provider : String) (kind : ProviderKind) : ProviderTable :=
  ⟨t.entries.insert provider kind⟩

/-- The table of settings: entries of the mapping count more than administrators, and these more
than tenant contexts. -/
def ofSettings (s : ProviderSettings) : ProviderTable :=
  ⟨.ofList (s.tenantContext.map (·, .tenantContext) ++ s.admin.map (·, .admin)
    ++ s.mapping.entries)⟩

/-- What a provider gives. -/
def classify (t : ProviderTable) (provider : String) (hint : Option ProviderKind) : ProviderKind :=
  let name := Text.trim provider
  let listed := match t.entries.get? name with
    | some kind => some kind
    | none => (Text.splitLast? '.' name).bind fun (_, last) => t.entries.get? last
  match listed, hint with
  | some kind, _ => kind
  | none, some kind => kind
  | none, none => .other

/-- The number of providers that are listed. -/
def size (t : ProviderTable) : Nat := t.entries.size

end ProviderTable

end Tenancy

import Tenancy.Facts.Handler
import Tenancy.Text.Blank
import Tenancy.Text.Word

/-!
# Where operands come from

An expression is traced by its leading name: if that is the name of a tenant context, the operand is
a value of the tenant; if it is a local name, the expression it stands for is traced in turn. Local
names may stand for each other in a circle, so a trail ends where a name comes up again.

`leadsToTenant` follows a trail to its end; it ends because every step takes at least one binding
from those whose names have not come up.
-/

set_option autoImplicit false

namespace Tenancy

open Wire

/-- Where the right-hand side of a filter comes from. -/
inductive OperandSource where
  | tenantContext
  | literal
  | unknown
  deriving DecidableEq, Repr, Inhabited

/-- How sources of operands are written. -/
def OperandSource.codec : Codec OperandSource :=
  .choice [.tenantContext, .literal, .unknown] fun
    | .tenantContext => "tenant_context_value"
    | .literal => "literal"
    | .unknown => "unknown"

/-- The name at the front of an expression; it is empty if none stands there. -/
def rootName (expr : String) : String :=
  String.ofList ((Text.trim expr).toList.takeWhile Text.isWord)

/-- The names that a handler knows. -/
structure NameScope where
  bindings : List Binding
  /-- The names of dependencies that give the tenant context. -/
  tenantValues : List String
  deriving DecidableEq, Repr, Inhabited

namespace NameScope

/-- The expression that a local name stands for; of two bindings the later counts. -/
def bound? (s : NameScope) (name : String) : Option String :=
  (s.bindings.reverse.find? fun b => b.name = name).map Binding.expr

/-- A trail of names: those that came up before, and the one that comes up now. -/
structure Trail where
  met : List String
  name : String
  deriving DecidableEq, Repr, Inhabited

/-- The trail from a name that is the first to come up. -/
def Trail.startingAt (name : String) : Trail := ⟨[], name⟩

/-- One step along a trail: it ends with an answer, or another name comes up. -/
def step (s : NameScope) (t : Trail) : Bool ⊕ Trail :=
  -- A tenant context is one also where a local name hides it.
  if s.tenantValues.contains t.name then .inl true
  else if t.met.contains t.name then .inl false
  else match s.bound? t.name with
    | some expr => .inr ⟨t.name :: t.met, rootName expr⟩
    | none => .inl false

/-- The bindings of names that have not come up before. -/
def unmet (s : NameScope) (t : Trail) : List Binding :=
  s.bindings.filter fun b => !t.met.contains b.name

theorem length_unmet_lt {s : NameScope} {t next : Trail} (h : s.step t = .inr next) :
    (s.unmet next).length < (s.unmet t).length := by
  unfold step at h
  split at h
  · cases h
  split at h
  · cases h
  rename_i hmet
  split at h
  · rename_i expr hexpr
    cases h
    obtain ⟨b, hb, -⟩ := Option.map_eq_some_iff.mp hexpr
    have hname : b.name = t.name := by simpa using List.find?_some hb
    have hmem : b ∈ s.unmet t := by
      refine List.mem_filter.mpr ⟨List.mem_reverse.mp (List.mem_of_find?_eq_some hb), ?_⟩
      simpa [hname] using hmet
    -- Of the bindings that were left, those of the name that came up now are taken.
    have hsplit : s.unmet ⟨t.name :: t.met, rootName expr⟩ =
        (s.unmet t).filter fun c => !decide (c.name = t.name) := by
      unfold unmet
      rw [List.filter_filter]
      simp
    rw [hsplit]
    exact List.length_filter_lt_length_iff_exists.mpr ⟨b, hmem, by simp [hname]⟩
  · cases h

/-- Whether a trail leads to a tenant context. -/
def leadsToTenant (s : NameScope) (t : Trail) : Bool :=
  match _h : s.step t with
  | .inl answer => answer
  | .inr next => leadsToTenant s next
termination_by (s.unmet t).length
decreasing_by exact length_unmet_lt ‹_›

/-- Where an operand comes from. -/
def sourceOf (s : NameScope) : Operand → OperandSource
  | .literal _ => .literal
  | .unknown => .unknown
  | .reference expr =>
    if s.leadsToTenant (.startingAt (rootName expr)) then .tenantContext else .unknown

end NameScope

end Tenancy

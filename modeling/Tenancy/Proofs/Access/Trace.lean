import Mathlib.Logic.Basic
import Tenancy.Access.Operand

/-!
# Tracing an expression to the tenant context

An expression is traced by its leading name; a local name stands for an expression, whose leading
name is traced in turn. `NameScope.after` lists the names that come up, and the list may go round in
circles for ever. The walk along it ends where a name comes up again; nothing is missed, because
from there on only names come up that it has looked at.

* `bound?_eq_some_iff`: a local name stands for the expression of its last binding.
* `step_cases`: what one step along a trail can be.
* `exists_follows_end`: every trail comes to its end, after at most one step for each binding.
* `leadsPast_step_iff` and `leadsToTenant_iff_leadsPast`: one step, and so the whole walk, neither
  opens nor closes a way to a tenant context past the names that were met.
* `sourceOf_follows_bindings`: an operand is a value of the tenant exactly when some name of the
  whole list is a tenant context, and the walk that finds this out ends.
-/

set_option autoImplicit false

namespace Tenancy.NameScope

/-- The leading name of the expression that a local name stands for. -/
def next? (s : NameScope) (name : String) : Option String := (s.bound? name).map rootName

/-- The name that comes up after so many steps, as long as every name before it is a local one. -/
def after (s : NameScope) : (steps : Nat) → String → Option String
  | 0, name => some name
  | steps + 1, name => (s.next? name).bind (after s steps)

variable {s : NameScope}

/-- A local name stands for the expression of its last binding. -/
theorem bound?_eq_some_iff {name expr : String} :
    s.bound? name = some expr ↔
      ∃ before after, s.bindings = before ++ ⟨name, expr⟩ :: after ∧
        ∀ b ∈ after, b.name ≠ name := by
  unfold bound?
  rw [Option.map_eq_some_iff]
  constructor
  · rintro ⟨b, hfind, rfl⟩
    obtain ⟨hname, later, earlier, hsplit, hlater⟩ := List.find?_eq_some_iff_append.mp hfind
    obtain rfl : b.name = name := of_decide_eq_true hname
    refine ⟨earlier.reverse, later.reverse, ?_, ?_⟩
    · rw [← List.reverse_reverse s.bindings, hsplit]
      simp
    · intro c hc
      simpa using hlater c (List.mem_reverse.mp hc)
  · rintro ⟨before, after, hsplit, hafter⟩
    refine ⟨⟨name, expr⟩, List.find?_eq_some_iff_append.mpr ⟨by simp, after.reverse,
      before.reverse, ?_, ?_⟩, rfl⟩
    · rw [hsplit]
      simp
    · intro c hc
      simpa using hafter c (List.mem_reverse.mp hc)

/-! ### Steps -/

/-- A step ends at a tenant context, at a name that was met before and at one that is not bound. In
every other case the name is met and the next one comes up. -/
theorem step_cases (t : Trail) :
    t.name ∈ s.tenantValues ∧ s.step t = .inl true ∨
      t.name ∉ s.tenantValues ∧ (t.name ∈ t.met ∨ s.next? t.name = none) ∧
        s.step t = .inl false ∨
      ∃ next, t.name ∉ s.tenantValues ∧ t.name ∉ t.met ∧ s.next? t.name = some next ∧
        s.step t = .inr ⟨t.name :: t.met, next⟩ := by
  unfold step next?
  by_cases htenant : t.name ∈ s.tenantValues
  · exact .inl ⟨htenant, by simp [htenant]⟩
  by_cases hmet : t.name ∈ t.met
  · exact .inr (.inl ⟨htenant, .inl hmet, by simp [htenant, hmet]⟩)
  cases hbound : s.bound? t.name with
  | none => exact .inr (.inl ⟨htenant, .inr rfl, by simp [htenant, hmet]⟩)
  | some expr =>
    exact .inr (.inr ⟨rootName expr, htenant, hmet, rfl, by simp [htenant, hmet]⟩)

/-- A trail goes on to another one in so many steps. -/
inductive Follows (s : NameScope) : Nat → Trail → Trail → Prop
  | here (t : Trail) : Follows s 0 t t
  | step {n : Nat} {t next last : Trail} : s.step t = .inr next → Follows s n next last →
      Follows s (n + 1) t last

/-- Every trail comes to an end with the answer that is given. It has no more steps than there are
bindings of names that have not come up. -/
theorem exists_follows_end (t : Trail) :
    ∃ n ≤ (s.unmet t).length, ∃ last, s.Follows n t last ∧
      s.step last = .inl (s.leadsToTenant t) := by
  fun_induction leadsToTenant s t with
  | case1 t answer hstep => exact ⟨0, Nat.zero_le _, t, .here t, hstep⟩
  | case2 t next hstep ih =>
    obtain ⟨n, hn, last, hfollows, hlast⟩ := ih
    refine ⟨n + 1, ?_, last, .step hstep hfollows, hlast⟩
    exact Nat.lt_of_le_of_lt hn (length_unmet_lt hstep)

/-! ### Ways to a tenant context -/

/-- A name leads to a tenant context, and no name on the way there is one of those that were met. -/
inductive LeadsPast (s : NameScope) (met : List String) : String → Prop
  | here {name : String} : name ∈ s.tenantValues → LeadsPast s met name
  | on {name next : String} : name ∉ met → s.next? name = some next → LeadsPast s met next →
      LeadsPast s met name

/-- A way past more names is a way past fewer. -/
theorem LeadsPast.anti {met fewer : List String} (hfewer : fewer ⊆ met) {name : String}
    (h : s.LeadsPast met name) : s.LeadsPast fewer name := by
  induction h with
  | here htenant => exact .here htenant
  | on hmet hnext _ ih => exact .on (fun hmem => hmet (hfewer hmem)) hnext ih

/-- A way either avoids a name altogether, or what comes behind its last visit there is a way that
does. -/
theorem LeadsPast.avoid {met : List String} {avoided next name : String}
    (hnext : s.next? avoided = some next) (h : s.LeadsPast met name) :
    s.LeadsPast (avoided :: met) name ∨ s.LeadsPast (avoided :: met) next := by
  induction h with
  | here htenant => exact .inl (.here htenant)
  | @on name other hmet hother _ ih =>
    by_cases hname : name = avoided
    · subst hname
      rw [hnext] at hother
      cases hother
      exact .inr (ih.elim id id)
    · refine ih.imp_left fun hleads => .on ?_ hother hleads
      exact fun hmem => (List.mem_cons.mp hmem).elim hname hmet

/-- A step neither opens nor closes a way: one that comes back to the name that is met now could
have gone on from there at once. -/
theorem leadsPast_step_iff {met : List String} {name next : String}
    (htenant : name ∉ s.tenantValues) (hmet : name ∉ met) (hnext : s.next? name = some next) :
    s.LeadsPast (name :: met) next ↔ s.LeadsPast met name := by
  constructor
  · intro h
    exact .on hmet hnext (h.anti (List.subset_cons_self name met))
  · intro h
    cases h with
    | here hmem => exact absurd hmem htenant
    | on _ hnext' h =>
      rw [hnext] at hnext'
      cases hnext'
      exact (h.avoid hnext).elim id id

/-- A walk finds a tenant context exactly when there is a way past the names that were met. -/
theorem leadsToTenant_iff_leadsPast (t : Trail) :
    s.leadsToTenant t = true ↔ s.LeadsPast t.met t.name := by
  fun_induction leadsToTenant s t with
  | case1 t answer hstep =>
    rcases step_cases (s := s) t with ⟨htenant, h⟩ | ⟨htenant, hend, h⟩ | ⟨next, -, -, -, h⟩
    · rw [h] at hstep
      cases hstep
      exact ⟨fun _ => .here htenant, fun _ => rfl⟩
    · rw [h] at hstep
      cases hstep
      constructor
      · nofun
      · intro hleads
        cases hleads with
        | here hmem => exact absurd hmem htenant
        | on hmet hnext _ =>
          rcases hend with hmem | hnone
          · exact absurd hmem hmet
          · rw [hnone] at hnext
            cases hnext
    · rw [h] at hstep
      cases hstep
  | case2 t next hstep ih =>
    rcases step_cases (s := s) t with ⟨-, h⟩ | ⟨-, -, h⟩ | ⟨name, htenant, hmet, hnext, h⟩
    · rw [h] at hstep
      cases hstep
    · rw [h] at hstep
      cases hstep
    · rw [h] at hstep
      cases hstep
      rw [ih]
      exact leadsPast_step_iff htenant hmet hnext

/-- Where nothing was met, a way is a tenant context among the names that come up. -/
theorem leadsPast_nil_iff {name : String} :
    s.LeadsPast [] name ↔ ∃ k, ∃ last ∈ s.tenantValues, s.after k name = some last := by
  constructor
  · intro h
    induction h with
    | @here name htenant => exact ⟨0, name, htenant, rfl⟩
    | on _ hnext _ ih =>
      obtain ⟨k, last, hlast, hafter⟩ := ih
      refine ⟨k + 1, last, hlast, ?_⟩
      rw [after, hnext]
      exact hafter
  · rintro ⟨k, last, hlast, hafter⟩
    induction k generalizing name with
    | zero =>
      cases hafter
      exact .here hlast
    | succ k ih =>
      rw [after] at hafter
      obtain ⟨next, hnext, hafter⟩ := Option.bind_eq_some_iff.mp hafter
      exact .on List.not_mem_nil hnext (ih hafter)

/-- A name leads to a tenant context exactly when one comes up after some number of steps. -/
theorem leadsToTenant_iff (name : String) :
    s.leadsToTenant (.startingAt name) = true ↔
      ∃ k, ∃ last ∈ s.tenantValues, s.after k name = some last :=
  (leadsToTenant_iff_leadsPast (.startingAt name)).trans leadsPast_nil_iff

/-! ### Operands -/

/-- An operand is a value of the tenant exactly when it is an expression whose names lead to a
tenant context. -/
theorem sourceOf_eq_tenantContext_iff {operand : Operand} :
    s.sourceOf operand = .tenantContext ↔
      ∃ expr, operand = .reference expr ∧
        ∃ k, ∃ last ∈ s.tenantValues, s.after k (rootName expr) = some last := by
  cases operand with
  | literal value => simp [sourceOf]
  | unknown => simp [sourceOf]
  | reference expr =>
    simp only [Operand.reference.injEq, exists_eq_left', ← leadsToTenant_iff]
    by_cases h : s.leadsToTenant (.startingAt (rootName expr)) = true
    · simp [sourceOf, h]
    · simp [sourceOf, h]

/-- **Tracing finds every tenant context, and always ends.** A local name stands for the expression
of its last binding. An expression is a value of the tenant exactly when a tenant context is among
the names that come up, however many steps away, and otherwise nothing is known about it. The walk
that decides this ends after at most one step for each binding, also where the names run in a
circle. What is no expression is never a value of the tenant. -/
theorem sourceOf_follows_bindings (s : NameScope) :
    (∀ name expr, s.bound? name = some expr ↔
      ∃ before after, s.bindings = before ++ ⟨name, expr⟩ :: after ∧
        ∀ b ∈ after, b.name ≠ name) ∧
    (∀ expr,
      (s.sourceOf (.reference expr) = .tenantContext ↔
        ∃ k, ∃ last ∈ s.tenantValues, s.after k (rootName expr) = some last) ∧
      (s.sourceOf (.reference expr) = .unknown ↔
        ∀ k, ∀ last ∈ s.tenantValues, s.after k (rootName expr) ≠ some last) ∧
      ∃ n ≤ s.bindings.length, ∃ last answer,
        s.Follows n (.startingAt (rootName expr)) last ∧ s.step last = .inl answer ∧
        s.sourceOf (.reference expr) = if answer then .tenantContext else .unknown) ∧
    (∀ value, s.sourceOf (.literal value) = .literal) ∧
    s.sourceOf .unknown = .unknown := by
  refine ⟨fun _ _ => bound?_eq_some_iff, fun expr => ⟨?_, ?_, ?_⟩, fun _ => rfl, rfl⟩
  · rw [sourceOf_eq_tenantContext_iff]
    simp only [Operand.reference.injEq, exists_eq_left']
  · have hunknown : s.sourceOf (.reference expr) = .unknown ↔
        ¬ s.leadsToTenant (.startingAt (rootName expr)) = true := by
      simp [sourceOf]
    rw [hunknown, leadsToTenant_iff]
    simp only [not_exists, not_and, ne_eq]
  · obtain ⟨n, hn, last, hfollows, hlast⟩ :=
      exists_follows_end (s := s) (.startingAt (rootName expr))
    exact ⟨n, Nat.le_trans hn (List.length_filter_le _ _), last, _, hfollows, hlast, rfl⟩

end Tenancy.NameScope

import Mathlib.Data.List.Forall2

/-!
# Two runs that end alike

`EndsAlike R` compares two runs that may fail: either both fail with the same error, or both succeed
and `R` relates their results. Runs that are put together from parts end alike if the parts do
(`EndsAlike.bind`, `EndsAlike.mapM`), so a change that only touches results is followed through a
pipeline one step at a time.
-/

set_option autoImplicit false

namespace Tenancy.Support

/-- Both runs fail with the same error, or both succeed with related results. -/
inductive EndsAlike {ε α : Type} (R : α → α → Prop) : Except ε α → Except ε α → Prop where
  | error (e : ε) : EndsAlike R (.error e) (.error e)
  | ok {a b : α} (h : R a b) : EndsAlike R (.ok a) (.ok b)

namespace EndsAlike

variable {ε ε' α β : Type} {R : α → α → Prop} {S : β → β → Prop}

/-- A run ends like itself. -/
theorem refl (hR : ∀ a, R a a) (x : Except ε α) : EndsAlike R x x := by
  cases x with
  | error e => exact .error e
  | ok a => exact .ok (hR a)

/-- Related results are passed on to runs that end alike. -/
theorem bind {x y : Except ε α} {f g : α → Except ε β} (h : EndsAlike R x y)
    (hfg : ∀ a b, R a b → EndsAlike S (f a) (g b)) : EndsAlike S (x >>= f) (y >>= g) := by
  cases h with
  | error e => exact .error e
  | ok hab => exact hfg _ _ hab

/-- The results for the elements of a list are related one by one. -/
theorem mapM {γ : Type} {f g : γ → Except ε α} (l : List γ)
    (hfg : ∀ c ∈ l, EndsAlike R (f c) (g c)) :
    EndsAlike (List.Forall₂ R) (l.mapM f) (l.mapM g) := by
  induction l with
  | nil => exact .ok .nil
  | cons c l ih =>
    rw [List.mapM_cons, List.mapM_cons]
    refine (hfg c List.mem_cons_self).bind fun a b hab => ?_
    refine (ih fun c' hc' => hfg c' (List.mem_cons_of_mem c hc')).bind fun as bs habs => ?_
    exact .ok (.cons hab habs)

/-- Each run fails with the errors of the other. -/
theorem eq_error_iff {x y : Except ε α} (h : EndsAlike R x y) (e : ε) :
    y = .error e ↔ x = .error e := by
  cases h with
  | error e' => exact Iff.rfl
  | ok hab => exact ⟨nofun, nofun⟩

/-- Results of both runs are related. -/
theorem of_eq_ok {x y : Except ε α} (h : EndsAlike R x y) {a b : α} (hx : x = .ok a)
    (hy : y = .ok b) : R a b := by
  subst hx hy
  cases h with
  | ok hab => exact hab

end EndsAlike

end Tenancy.Support

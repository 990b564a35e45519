import Tenancy.Activity

/-!
# Marks that are released in order

A mark saves all that was current before it, not only what it changes, and its release brings all of
that back. So a release out of order would also bring back what other marks have changed since then.
If only the innermost mark is released (`Tracker.IsNested`), nothing of this shows: each field is
what the innermost live mark about it says, or what it was at the start (`Activity.IsUnder`).

* `field_under`: what marks say that are set one after the other.
* `Tracker.Backs`: what each live mark has saved is what the marks outside of it say.
* `agrees_mark` and `agrees_release`: a step keeps the tracker in agreement with its live marks, and
  `agrees_run` says so of a whole run.
* `run_restores` puts these together for every moment of a run.
-/

set_option autoImplicit false

namespace Tenancy

namespace Activity

/-! ### What marks say -/

/-- The stage that a mark sets. -/
def Mark.phase? : Mark → Option Phase
  | .phase stage => some stage
  | _ => none

/-- The document that a mark sets. -/
def Mark.unit? : Mark → Option String
  | .unit path => some path
  | _ => none

/-- The handler that a mark sets. -/
def Mark.handler? : Mark → Option String
  | .handler name => some name
  | _ => none

/-- Each field is what the innermost mark about it says, or what it was before. Marks are listed
from the innermost to the outermost. -/
structure IsUnder (base : Activity) (marks : List Mark) (a : Activity) : Prop where
  phase : a.phase = (marks.findSome? Mark.phase?).or base.phase
  unit : a.unit = (marks.findSome? Mark.unit?).or base.unit
  handler : a.handler = (marks.findSome? Mark.handler?).or base.handler

/-- What is current after marks were set, the last of the list first. -/
def under (base : Activity) (marks : List Mark) : Activity :=
  marks.foldr (fun m a => a.set m) base

/-- A field under some marks, if setting a mark changes it to what the mark says. -/
theorem field_under {α : Type} {field : Activity → Option α} {said : Mark → Option α}
    (hset : ∀ a m, field (a.set m) = (said m).or (field a)) (base : Activity)
    (marks : List Mark) :
    field (base.under marks) = (marks.findSome? said).or (field base) := by
  induction marks with
  | nil => rfl
  | cons m marks ih =>
    show field ((base.under marks).set m) = _
    rw [hset, ih, List.findSome?_cons]
    cases said m with
    | none => rfl
    | some value => rfl

theorem isUnder_under (base : Activity) (marks : List Mark) :
    base.IsUnder marks (base.under marks) where
  phase := field_under (fun _ m => by cases m <;> rfl) base marks
  unit := field_under (fun _ m => by cases m <;> rfl) base marks
  handler := field_under (fun _ m => by cases m <;> rfl) base marks

end Activity

namespace Tracker

open Activity (Mark)

/-! ### Runs that are well nested -/

/-- A mark that is set, or one that is released by its number. -/
inductive Step where
  | mark (m : Mark)
  | release (index : Nat)
  deriving DecidableEq, Repr

/-- Takes a step. -/
def take (t : Tracker) : Step → Tracker
  | .mark m => t.mark m
  | .release index => t.release index

/-- Takes steps one after the other. -/
def run (t : Tracker) (steps : List Step) : Tracker := steps.foldl take t

/-- The marks that are live after some steps, each with its number and the innermost first; nothing
if a mark is released that is not the innermost. -/
def liveAfter (next : Nat) (live : List (Nat × Mark)) : List Step → Option (List (Nat × Mark))
  | [] => some live
  -- Marks are numbered in the order in which they are set, and no number is given twice.
  | .mark m :: rest => liveAfter (next + 1) ((next, m) :: live) rest
  | .release index :: rest =>
    match live with
    | [] => none
    | (innermost, _) :: outer => if index = innermost then liveAfter next outer rest else none

/-- The marks of a run that are live after some steps, the innermost first. -/
def live? (t : Tracker) (steps : List Step) : Option (List Mark) :=
  (liveAfter t.saved.length [] steps).map (List.map Prod.snd)

/-- Of the marks that a run sets, only the innermost is released. -/
def IsNested (t : Tracker) (steps : List Step) : Prop := (t.live? steps).isSome = true

instance (t : Tracker) (steps : List Step) : Decidable (t.IsNested steps) :=
  inferInstanceAs (Decidable ((t.live? steps).isSome = true))

/-- A run is well nested up to each of its moments. -/
theorem exists_liveAfter {next : Nat} {live final : List (Nat × Mark)} {before after : List Step}
    (h : liveAfter next live (before ++ after) = some final) :
    ∃ mid, liveAfter next live before = some mid := by
  fun_induction liveAfter next live before with
  | case1 next live => exact ⟨live, rfl⟩
  | case2 next live m rest ih => exact ih h
  | case3 => cases h
  | case4 next index rest m outer ih =>
    rw [List.cons_append, liveAfter, if_pos rfl] at h
    exact ih h
  | case5 next index rest innermost m outer hindex =>
    rw [List.cons_append, liveAfter, if_neg hindex] at h
    cases h

/-! ### What a run keeps -/

/-- Each live mark has saved what the marks outside of it say, under a number of its own. -/
inductive Backs (base : Activity) (saved : List (Option Activity)) : List (Nat × Mark) → Prop
  | nil : Backs base saved []
  | cons {index : Nat} {m : Mark} {outer : List (Nat × Mark)}
      (own : saved[index]? = some (some (base.under (outer.map Prod.snd))))
      (later : ∀ mark ∈ outer, mark.1 < index) (rest : Backs base saved outer) :
      Backs base saved ((index, m) :: outer)

variable {base : Activity} {saved saved' : List (Option Activity)} {live live' : List (Nat × Mark)}
  {t : Tracker}

/-- Live marks are backed by whatever agrees with what they have saved. -/
theorem Backs.congr (h : Backs base saved live)
    (hsaved : ∀ mark ∈ live, saved'[mark.1]? = saved[mark.1]?) : Backs base saved' live := by
  induction h with
  | nil => exact .nil
  | cons own later rest ih =>
    obtain ⟨hfirst, hrest⟩ := List.forall_mem_cons.mp hsaved
    exact .cons (hfirst.trans own) later (ih hrest)

/-- The numbers of live marks were given to them. -/
theorem Backs.lt_length (h : Backs base saved live) : ∀ mark ∈ live, mark.1 < saved.length := by
  induction h with
  | nil => simp
  | cons own later rest ih =>
    obtain ⟨hlt, -⟩ := List.getElem?_eq_some_iff.mp own
    exact List.forall_mem_cons.mpr ⟨hlt, ih⟩

/-- A tracker agrees with its live marks: they say what is current and are backed by what was
saved. -/
structure Agrees (base : Activity) (live : List (Nat × Mark)) (t : Tracker) : Prop where
  current : t.current = base.under (live.map Prod.snd)
  backed : Backs base t.saved live

/-- A new mark is live. -/
theorem agrees_mark (h : Agrees base live t) (m : Mark) :
    Agrees base ((t.saved.length, m) :: live) (t.mark m) where
  current := congrArg (·.set m) h.current
  backed := by
    have hlt := h.backed.lt_length
    refine .cons ?_ hlt (h.backed.congr fun mark hmark => ?_)
    · -- What was current before the mark is what the marks outside of it say.
      show (t.saved ++ [some t.current])[t.saved.length]? = _
      rw [List.getElem?_concat_length, h.current]
    · exact List.getElem?_append_left (hlt mark hmark)

/-- Once the innermost mark is released, the marks outside of it are live. -/
theorem agrees_release {index : Nat} {m : Mark} (h : Agrees base ((index, m) :: live) t) :
    Agrees base live (t.release index) := by
  cases h.backed with
  | cons own later rest =>
    have hrelease : t.release index =
        { t with current := base.under (live.map Prod.snd), saved := t.saved.set index none } := by
      unfold release
      rw [own]
    rw [hrelease]
    refine ⟨rfl, rest.congr fun mark hmark => ?_⟩
    -- Outer marks have smaller numbers, so what they have saved is not given up with this one.
    exact List.getElem?_set_ne (Nat.ne_of_gt (later mark hmark))

theorem length_saved_mark (t : Tracker) (m : Mark) :
    (t.mark m).saved.length = t.saved.length + 1 := by simp [mark]

theorem length_saved_release (t : Tracker) (index : Nat) :
    (t.release index).saved.length = t.saved.length := by
  unfold release
  split
  · exact List.length_set
  · rfl

/-- A run that is well nested keeps the tracker in agreement with its live marks. -/
theorem agrees_run {steps : List Step} (h : Agrees base live t)
    (hlive : liveAfter t.saved.length live steps = some live') :
    Agrees base live' (t.run steps) := by
  -- The number of the next mark is always the number of states that were saved.
  induction steps generalizing t live with
  | nil =>
    cases hlive
    exact h
  | cons step steps ih =>
    cases step with
    | mark m =>
      refine ih (agrees_mark h m) ?_
      rw [take, length_saved_mark]
      exact hlive
    | release index =>
      cases live with
      | nil => cases hlive
      | cons innermost outer =>
        rw [liveAfter] at hlive
        split at hlive
        · rename_i hindex
          subst hindex
          refine ih (agrees_release h) ?_
          rw [take, length_saved_release]
          exact hlive
        · cases hlive

/-- **Marks restore.** At each moment of a run that is well nested, each field is what the innermost
live mark about it says, or what it was at the start. If no mark is live, all is as it was. -/
theorem run_restores (start : Tracker) {steps moment : List Step} (h : start.IsNested steps)
    (hmoment : moment <+: steps) :
    ∃ live, start.live? moment = some live ∧
      start.current.IsUnder live (start.run moment).current ∧
      (live = [] → (start.run moment).current = start.current) := by
  obtain ⟨rest, rfl⟩ := hmoment
  obtain ⟨final, hfinal⟩ := Option.isSome_iff_exists.mp h
  obtain ⟨finalLive, hfinalLive, -⟩ := Option.map_eq_some_iff.mp hfinal
  obtain ⟨live, hlive⟩ := exists_liveAfter hfinalLive
  have hagrees : Agrees start.current live (start.run moment) := agrees_run ⟨rfl, .nil⟩ hlive
  refine ⟨live.map Prod.snd, by rw [live?, hlive]; rfl, ?_, ?_⟩
  · rw [hagrees.current]
    exact Activity.isUnder_under _ _
  · intro hnone
    rw [hagrees.current, hnone]
    rfl

/-- Marks of all three sorts, two of them for a handler, in a run that is in a stage already. While
the stage is set for the first handler, all fields are under marks; afterwards the document is, and
in the end nothing. -/
theorem run_restores_sample :
    let start := Tracker.start.mark (.phase .loading)
    let steps : List Step :=
      [.mark (.unit "facts/routes.json"), .mark (.handler "list_users"),
        .mark (.phase .handlerAnalysis), .release 3, .release 2, .mark (.handler "list_all"),
        .release 4, .release 1]
    start.IsNested steps ∧
      (start.run (steps.take 3)).current =
        ⟨some .handlerAnalysis, some "facts/routes.json", some "list_users"⟩ ∧
      (start.run (steps.take 5)).current = ⟨some .loading, some "facts/routes.json", none⟩ ∧
      (start.run steps).current = start.current := by
  intro start steps
  have hnested : start.IsNested steps := by decide
  have hmoment : ∀ n live, start.live? (steps.take n) = some live →
      start.current.IsUnder live (start.run (steps.take n)).current ∧
        (live = [] → (start.run (steps.take n)).current = start.current) := by
    intro n live hlive
    obtain ⟨live', hlive', hunder⟩ := run_restores start hnested (List.take_prefix n steps)
    rw [hlive, Option.some_inj] at hlive'
    rw [hlive']
    exact hunder
  obtain ⟨⟨hphase, hunit, hhandler⟩, -⟩ := hmoment 3 _ rfl
  obtain ⟨⟨hphase', hunit', hhandler'⟩, -⟩ := hmoment 5 _ rfl
  refine ⟨hnested, ?_, ?_, (hmoment 8 [] rfl).2 rfl⟩
  · rw [Activity.mk.injEq]
    exact ⟨hphase, hunit, hhandler⟩
  · rw [Activity.mk.injEq]
    exact ⟨hphase', hunit', hhandler'⟩

end Tracker

end Tenancy

import Mathlib.Logic.Function.Iterate
import Tenancy.Facts.Build
import Tenancy.Proofs.Schema.Plan

/-!
# Propagation is reachability

Tenancy is carried round by round along scoping edges. This module says what comes out without any
rounds: the names from which a chain of scoping edges leads to where tenancy starts.

* `mem_reach_iff`: `reach` gives what is anchored at first and the names that are left over from
  which such a chain leads through names that are left over (`Leads`).
* `reach_eq_iterate`: at most one round per name that is left over is needed until nothing more can
  be added, whatever the edges are.
* `choose?_least`: of the edges that can carry tenancy to an entity the least is chosen.
* `classify_relationship_iff`: in a classified schema, an unlabelled entity that is no root is
  tenant-scoped by a relationship exactly when such a chain leads from it to an anchor, and the
  relationship is the least of its scoping edges to anchors and to entities classified this way.
-/

set_option autoImplicit false

namespace Tenancy

open Tenancy.Support

namespace Propagation

/-! ### Chains of edges -/

/-- A chain of one or more edges leads from a name to a goal, and what lies between is passable. -/
inductive Leads (edges : List Relationship) (passable goal : String → Prop) : String → Prop
  /-- One edge leads to a goal. -/
  | arrive {r : Relationship} : r ∈ edges → goal r.toEntity →
      Leads edges passable goal r.fromEntity
  /-- An edge leads to a passable name from which the chain goes on. -/
  | pass {r : Relationship} : r ∈ edges → passable r.toEntity →
      Leads edges passable goal r.toEntity → Leads edges passable goal r.fromEntity

/-- A chain begins with an edge to a goal, or to a passable name that the chain goes on from. -/
theorem Leads.exists_edge {edges : List Relationship} {passable goal : String → Prop}
    {name : String} (h : Leads edges passable goal name) :
    ∃ r ∈ edges, r.fromEntity = name ∧
      (goal r.toEntity ∨ passable r.toEntity ∧ Leads edges passable goal r.toEntity) := by
  cases h with
  | arrive hr hto => exact ⟨_, hr, rfl, .inl hto⟩
  | pass hr hto hrest => exact ⟨_, hr, rfl, .inr ⟨hto, hrest⟩⟩

/-! ### Rounds -/

variable {edges : List Relationship}

/-- A name is ready when one of its edges leads to what is anchored. -/
theorem isReady_iff {anchored : List String} {name : String} :
    isReady edges anchored name = true ↔
      ∃ r ∈ edges, r.fromEntity = name ∧ r.toEntity ∈ anchored := by
  simp [isReady]

/-- A name that is left over stays so when it is not ready. -/
theorem mem_remaining_iff {anchored left : List String} {name : String} :
    name ∈ remaining edges anchored left ↔ name ∈ left ∧ ¬ isReady edges anchored name = true := by
  simp [remaining]

/-- One round: every name that is ready is anchored. -/
def round (edges : List Relationship) (state : List String × List String) :
    List String × List String :=
  (remaining edges state.2 state.1, state.2 ++ state.1.filter (isReady edges state.2))

/-- No name that is left over is ready. -/
def Settled (edges : List Relationship) (state : List String × List String) : Prop :=
  ∀ name ∈ state.1, ¬ isReady edges state.2 name = true

/-- A name is ready as long as the rounds are not settled. -/
theorem any_isReady_of_not_settled {state : List String × List String}
    (h : ¬ Settled edges state) : state.1.any (isReady edges state.2) = true := by
  simp only [Settled, not_forall, not_not, exists_prop] at h
  exact List.any_eq_true.mpr h

/-- When nothing is ready, nothing is added. -/
theorem reach_of_settled {state : List String × List String} (h : Settled edges state) :
    reach edges state.1 state.2 = state.2 := by
  rw [reach, if_neg]
  intro hany
  obtain ⟨name, hname, hready⟩ := List.any_eq_true.mp hany
  exact h name hname hready

/-- As long as something is ready, what is reached is reached after one more round. -/
theorem reach_round {state : List String × List String} (h : ¬ Settled edges state) :
    reach edges state.1 state.2 = reach edges (round edges state).1 (round edges state).2 := by
  rw [reach, if_pos (any_isReady_of_not_settled h)]
  rfl

/-- What holds when nothing is ready, and holds before a round if it holds after it, always holds:
every round takes a name from those that are left over. -/
theorem round_induction (edges : List Relationship)
    {motive : List String × List String → Prop}
    (settled : ∀ state, Settled edges state → motive state)
    (step : ∀ state, ¬ Settled edges state → motive (round edges state) → motive state)
    (state : List String × List String) : motive state := by
  by_cases h : Settled edges state
  · exact settled state h
  · have hlt : (round edges state).1.length < state.1.length :=
      length_remaining_lt (any_isReady_of_not_settled h)
    exact step state h (round_induction edges settled step (round edges state))
termination_by state.1.length

/-- A round anchors what is anchored and what is ready. -/
theorem mem_round_iff {state : List String × List String} {name : String} :
    name ∈ (round edges state).2 ↔
      name ∈ state.2 ∨ name ∈ state.1 ∧ isReady edges state.2 name = true := by
  simp [round]

/-- From the names that are left over in a state a chain leads to what is anchored in it. -/
def LeadsIn (edges : List Relationship) (state : List String × List String) (name : String) :
    Prop :=
  Leads edges (· ∈ state.1) (· ∈ state.2) name

/-- A name that is ready is one edge away from what is anchored. -/
theorem leadsIn_of_isReady {state : List String × List String} {name : String}
    (h : isReady edges state.2 name = true) : LeadsIn edges state name := by
  obtain ⟨r, hr, rfl, hto⟩ := isReady_iff.mp h
  exact .arrive hr hto

/-- A round neither opens nor closes a chain: names that it anchors had an edge to what was anchored
before, so a chain to them could go on. -/
theorem leadsIn_round_iff {state : List String × List String} {name : String} :
    LeadsIn edges (round edges state) name ↔ LeadsIn edges state name := by
  constructor
  · intro h
    induction h with
    | arrive hr hto =>
      rcases mem_round_iff.mp hto with hanchored | ⟨hleft, hready⟩
      · exact .arrive hr hanchored
      · exact .pass hr hleft (leadsIn_of_isReady hready)
    | pass hr hto _ ih => exact .pass hr (mem_remaining_iff.mp hto).1 ih
  · intro h
    induction h with
    | arrive hr hto => exact .arrive hr (mem_round_iff.mpr (.inl hto))
    | @pass r hr hto _ ih =>
      by_cases hready : isReady edges state.2 r.toEntity = true
      · exact .arrive hr (mem_round_iff.mpr (.inr ⟨hto, hready⟩))
      · exact .pass hr (mem_remaining_iff.mpr ⟨hto, hready⟩) ih

/-- When nothing is ready, no chain leads from a name that is left over. -/
theorem not_leadsIn_of_settled {state : List String × List String} (h : Settled edges state)
    {name : String} (hname : name ∈ state.1) : ¬ LeadsIn edges state name := by
  intro hleads
  -- The last edge of the chain would make the name before it ready.
  induction hleads with
  | arrive hr hto => exact h _ hname (isReady_iff.mpr ⟨_, hr, rfl, hto⟩)
  | pass _ hto _ ih => exact ih hto

/-- What is reached from a state: what is anchored in it, and the names that are left over from
which a chain leads to it. -/
theorem mem_reach_iff (edges : List Relationship) (state : List String × List String)
    (name : String) :
    name ∈ reach edges state.1 state.2 ↔
      name ∈ state.2 ∨ name ∈ state.1 ∧ LeadsIn edges state name := by
  induction state using round_induction edges with
  | settled state h =>
    rw [reach_of_settled h]
    constructor
    · exact .inl
    · rintro (hanchored | ⟨hleft, hleads⟩)
      · exact hanchored
      · exact absurd hleads (not_leadsIn_of_settled h hleft)
  | step state h ih =>
    rw [reach_round h, ih, leadsIn_round_iff, mem_round_iff]
    constructor
    · rintro ((hanchored | ⟨hleft, hready⟩) | ⟨hleft, hleads⟩)
      · exact .inl hanchored
      · exact .inr ⟨hleft, leadsIn_of_isReady hready⟩
      · exact .inr ⟨(mem_remaining_iff.mp hleft).1, hleads⟩
    · rintro (hanchored | ⟨hleft, hleads⟩)
      · exact .inl (.inl hanchored)
      · by_cases hready : isReady edges state.2 name = true
        · exact .inl (.inr ⟨hleft, hready⟩)
        · exact .inr ⟨mem_remaining_iff.mpr ⟨hleft, hready⟩, hleads⟩

/-- The rounds end on every graph: after at most one round per name that is left over nothing is
ready any more, and what is anchored then is what is reached. -/
theorem reach_eq_iterate (edges : List Relationship) (state : List String × List String) :
    ∃ n ≤ state.1.length, Settled edges ((round edges)^[n] state) ∧
      reach edges state.1 state.2 = ((round edges)^[n] state).2 := by
  induction state using round_induction edges with
  | settled state h => exact ⟨0, Nat.zero_le _, h, reach_of_settled h⟩
  | step state h ih =>
    obtain ⟨n, hn, hsettled, hreach⟩ := ih
    have hlt : (round edges state).1.length < state.1.length :=
      length_remaining_lt (any_isReady_of_not_settled h)
    refine ⟨n + 1, by omega, ?_, ?_⟩
    · rw [Function.iterate_succ_apply]
      exact hsettled
    · rw [Function.iterate_succ_apply, reach_round h]
      exact hreach

/-! ### The least edge -/

instance : Std.TransCmp Choice.order :=
  inferInstanceAs (Std.TransCmp (compareLex (compareOn Choice.priority)
    (compareLex (compareOn Choice.column) (compareOn Choice.target))))

/-- The edges that can carry tenancy to an entity lead to what is reached and have the priority of
their column. -/
theorem mem_choices_iff {c : Conventions} {reached : List String} {name : String}
    {choice : Choice} :
    choice ∈ choices c edges reached name ↔
      (⟨name, choice.target, choice.column⟩ : Relationship) ∈ edges ∧ choice.target ∈ reached ∧
        c.priority? choice.column = some choice.priority := by
  unfold choices
  rw [List.mem_filterMap]
  constructor
  · rintro ⟨r, hr, h⟩
    obtain ⟨hedge, hends⟩ := List.mem_filter.mp hr
    obtain ⟨priority, hpriority, rfl⟩ := Option.map_eq_some_iff.mp h
    simp only [Bool.and_eq_true, decide_eq_true_eq, List.contains_iff_mem] at hends
    obtain ⟨rfl, hto⟩ := hends
    exact ⟨hedge, hto, hpriority⟩
  · rintro ⟨hedge, hto, hpriority⟩
    refine ⟨_, List.mem_filter.mpr ⟨hedge, by simpa using hto⟩, ?_⟩
    rw [hpriority]
    rfl

/-- The chosen edge is one of those that can carry tenancy, and none of them is preferred to it. -/
theorem choose?_least {c : Conventions} {reached : List String} {name : String} {choice : Choice}
    (h : choose? c edges reached name = some choice) :
    choice ∈ choices c edges reached name ∧
      ∀ other ∈ choices c edges reached name, (choice.order other).isLE = true := by
  unfold choose? at h
  split at h
  · cases h
  · rename_i first rest hchoices
    cases h
    rw [hchoices]
    refine foldl_least (fun a b => (Choice.order a b).isLE = true)
      (fun a => Std.ReflCmp.isLE_rfl) (fun a b c => Std.TransCmp.isLE_trans) ?_ rest first
    intro a b
    unfold Choice.better
    split
    · rename_i hle
      exact .inl ⟨rfl, hle⟩
    · rename_i hle
      refine .inr ⟨rfl, ?_⟩
      have hlt := Std.OrientedCmp.lt_of_not_isLE hle
      rw [hlt]
      rfl

/-- An edge is chosen when there is one to choose. -/
theorem exists_choose? {c : Conventions} {reached : List String} {name : String} {choice : Choice}
    (h : choice ∈ choices c edges reached name) :
    ∃ chosen, choose? c edges reached name = some chosen := by
  unfold choose?
  split
  · rename_i hnone
    rw [hnone] at h
    cases h
  · exact ⟨_, rfl⟩

end Propagation

/-! ### Classified schemas -/

namespace Schema

open Propagation

/-- A labelled entity is a tenant root: it is labelled so, or roots are inferred, a scoping edge
leads to it, and it is labelled global or is unlabelled without a scoping edge of its own. -/
def Plan.IsRoot (p : Plan) (l : Labelled) : Prop :=
  (∃ origin, l.label = .root origin) ∨
    p.settings.inferRoots = true ∧ (∃ r ∈ p.edges, r.toEntity = l.name) ∧
      ((∃ origin, l.label = .global origin) ∨
        l.label = .unlabelled ∧ ∀ r ∈ p.edges, r.fromEntity ≠ l.name)

/-- Tenancy starts from a name: its entity is labelled tenant-scoped or is a tenant root. -/
def Plan.IsAnchor (p : Plan) (name : String) : Prop :=
  ∃ l ∈ p.labelled, l.name = name ∧
    ((∃ column origin, l.label = .tenant column origin) ∨ p.IsRoot l)

/-- Tenancy can be carried to a name: its entity is unlabelled and no tenant root. -/
def Plan.IsOpen (p : Plan) (name : String) : Prop :=
  ∃ l ∈ p.labelled, l.name = name ∧ l.label = .unlabelled ∧ ¬ p.IsRoot l

/-- A chain of one or more scoping edges leads from a name to an anchor, through unlabelled entities
that are no roots. -/
def Plan.Chain (p : Plan) (name : String) : Prop := Leads p.edges p.IsOpen p.IsAnchor name

/-- An entity is tenant-scoped by a relationship. -/
def IsCarried (e : Entity) : Prop :=
  e.scope = .tenantScoped ∧ ∃ viaColumn toEntity, e.origin = .relationship viaColumn toEntity

/-- A scoping edge leads from a name to an anchor or to an entity that is tenant-scoped by a
relationship; the choice lists the priority of its column, the column and the target. -/
def Plan.Offers (p : Plan) (schema : Schema) (name : String) (choice : Choice) : Prop :=
  (⟨name, choice.target, choice.column⟩ : Relationship) ∈ p.edges ∧
    p.conventions.priority? choice.column = some choice.priority ∧
    (p.IsAnchor choice.target ∨ ∃ e, schema.get? choice.target = some e ∧ IsCarried e)

/-- The code finds the tenant roots. -/
theorem isSome_rootOrigin?_iff {p : Plan} {l : Labelled} :
    (rootOrigin? p.settings.inferRoots p.edges l).isSome = true ↔ p.IsRoot l := by
  unfold Plan.IsRoot rootOrigin? becomesRoot
  cases hlabel : l.label with
  | tenant column origin => simp
  | global origin => simp
  | root origin => simp
  | unlabelled => simp [and_comm, and_left_comm]

/-- The names that tenancy starts from are those of the anchors. -/
theorem mem_anchors_iff {p : Plan} {name : String} :
    name ∈ anchors p.settings.inferRoots p.edges p.labelled ↔ p.IsAnchor name := by
  unfold anchors Plan.IsAnchor
  rw [List.mem_map]
  constructor
  · rintro ⟨l, hl, rfl⟩
    obtain ⟨hl, hstart⟩ := List.mem_filter.mp hl
    refine ⟨l, hl, rfl, ?_⟩
    split at hstart
    · exact .inl ⟨_, _, ‹_›⟩
    · exact .inr (isSome_rootOrigin?_iff.mp hstart)
  · rintro ⟨l, hl, rfl, hstart⟩
    refine ⟨l, List.mem_filter.mpr ⟨hl, ?_⟩, rfl⟩
    rcases hstart with ⟨column, origin, hlabel⟩ | hroot
    · simp [hlabel]
    · split
      · rfl
      · exact isSome_rootOrigin?_iff.mpr hroot

/-- The names that tenancy can be carried to are those of unlabelled entities that are no roots. -/
theorem mem_candidates_iff {p : Plan} {name : String} :
    name ∈ candidates p.settings.inferRoots p.edges p.labelled ↔ p.IsOpen name := by
  unfold candidates Plan.IsOpen
  rw [List.mem_map]
  simp only [List.mem_filter, Bool.and_eq_true, decide_eq_true_eq, ← isSome_rootOrigin?_iff,
    Option.not_isSome_iff_eq_none, Option.isNone_iff_eq_none, and_assoc]
  constructor
  · rintro ⟨l, hl, hlabel, hroot, rfl⟩
    exact ⟨l, hl, rfl, hlabel, hroot⟩
  · rintro ⟨l, hl, rfl, hlabel, hroot⟩
    exact ⟨l, hl, hlabel, hroot, rfl⟩

/-- What is reached in a plan: the anchors, and the open names from which a chain leads to one. -/
theorem mem_reached_iff {p : Plan} {name : String} :
    name ∈ p.reached ↔ p.IsAnchor name ∨ p.IsOpen name ∧ p.Chain name := by
  unfold Plan.reached anchored
  have hreach := mem_reach_iff p.edges (candidates p.settings.inferRoots p.edges p.labelled,
    anchors p.settings.inferRoots p.edges p.labelled) name
  simp only [LeadsIn, mem_anchors_iff, mem_candidates_iff] at hreach
  exact hreach

/-- An unlabelled entity that is no root is no anchor. -/
theorem not_isAnchor_of_open {s : SchemaSettings} {declarations : List Declaration} {p : Plan}
    (h : plan s declarations = .ok p) {l : Labelled} (hl : l ∈ p.labelled)
    (hlabel : l.label = .unlabelled) (hroot : ¬ p.IsRoot l) : ¬ p.IsAnchor l.name := by
  rintro ⟨l', hl', hname, hstart⟩
  cases eq_of_name h hl hl' hname
  rcases hstart with ⟨column, origin, htenant⟩ | hroot'
  · rw [hlabel] at htenant
    cases htenant
  · exact hroot hroot'

/-- What is left over is not tenant-scoped by a relationship. -/
theorem not_isCarried_leftover (p : Plan) (d : Declaration) : ¬ IsCarried (leftover p d) := by
  rintro ⟨-, viaColumn, toEntity, horigin⟩
  unfold leftover at horigin
  split at horigin
  · cases horigin
  · split at horigin
    · cases horigin
    · cases horigin

/-- What is made of an unlabelled entity that is no root: with a chain to an anchor it is
tenant-scoped by the edge that is chosen, without one it is left over. -/
theorem entityOf_open {s : SchemaSettings} {declarations : List Declaration} {p : Plan}
    (h : plan s declarations = .ok p) {l : Labelled} (hl : l ∈ p.labelled)
    (hlabel : l.label = .unlabelled) (hroot : ¬ p.IsRoot l) :
    (p.Chain l.name ∧ ∃ choice, choose? p.conventions p.edges p.reached l.name = some choice ∧
      entityOf p p.edges p.reached l = scopedEntity l.declaration choice.column
        (.relationship choice.column choice.target)) ∨
    (¬ p.Chain l.name ∧ entityOf p p.edges p.reached l = leftover p l.declaration) := by
  have hnone : rootOrigin? p.settings.inferRoots p.edges l = none := by
    rw [← isSome_rootOrigin?_iff, Option.not_isSome_iff_eq_none] at hroot
    exact hroot
  have hopen : p.IsOpen l.name := ⟨l, hl, rfl, hlabel, hroot⟩
  have hreached : l.name ∈ p.reached ↔ p.Chain l.name := by
    rw [mem_reached_iff]
    constructor
    · rintro (hanchor | ⟨-, hchain⟩)
      · exact absurd hanchor (not_isAnchor_of_open h hl hlabel hroot)
      · exact hchain
    · exact fun hchain => .inr ⟨hopen, hchain⟩
  by_cases hchain : p.Chain l.name
  · refine .inl ⟨hchain, ?_⟩
    -- The first edge of the chain is one that can be chosen.
    obtain ⟨r, hr, hfrom, hto⟩ := hchain.exists_edge
    have hto : r.toEntity ∈ p.reached := mem_reached_iff.mpr (by simpa only [Plan.Chain] using hto)
    obtain ⟨priority, hpriority⟩ := Option.isSome_iff_exists.mp (List.mem_filter.mp hr).2
    have hoffer : ⟨priority, r.viaColumn, r.toEntity⟩ ∈
        choices p.conventions p.edges p.reached l.name :=
      mem_choices_iff.mpr ⟨hfrom ▸ hr, hto, hpriority⟩
    obtain ⟨choice, hchoice⟩ := exists_choose? hoffer
    refine ⟨choice, hchoice, ?_⟩
    simp [entityOf, hlabel, hnone, hreached.mpr hchain, hchoice]
  · refine .inr ⟨hchain, ?_⟩
    simp [entityOf, hlabel, hnone, mt hreached.mp hchain]

/-- An unlabelled entity that is no root is tenant-scoped by a relationship exactly when a chain of
scoping edges leads from it to an anchor. -/
theorem isCarried_entityOf_iff {s : SchemaSettings} {declarations : List Declaration} {p : Plan}
    (h : plan s declarations = .ok p) {l : Labelled} (hl : l ∈ p.labelled)
    (hlabel : l.label = .unlabelled) (hroot : ¬ p.IsRoot l) :
    IsCarried (entityOf p p.edges p.reached l) ↔ p.Chain l.name := by
  rcases entityOf_open h hl hlabel hroot with ⟨hchain, choice, -, he⟩ | ⟨hchain, he⟩
  · rw [he]
    exact iff_of_true ⟨rfl, choice.column, choice.target, rfl⟩ hchain
  · rw [he]
    exact iff_of_false (not_isCarried_leftover p l.declaration) hchain

/-- Only an unlabelled entity that is no root can be tenant-scoped by a relationship. -/
theorem isOpen_of_isCarried {s : SchemaSettings} {declarations : List Declaration} {p : Plan}
    (h : plan s declarations = .ok p) {l : Labelled} (hl : l ∈ p.labelled)
    (hcarried : IsCarried (entityOf p p.edges p.reached l)) :
    l.label = .unlabelled ∧ ¬ p.IsRoot l := by
  obtain ⟨hscope, viaColumn, toEntity, horigin⟩ := hcarried
  cases hlabel : l.label with
  | tenant column origin =>
    -- The label says where it comes from, and that is never a relationship.
    have horigin' : origin = .relationship viaColumn toEntity := by
      simpa [entityOf, hlabel, scopedEntity] using horigin
    have hdeclared := ofDeclaration_of_mem h hl
    rw [hlabel, horigin'] at hdeclared
    rcases origin_of_tenant hdeclared with hmark | hconfiguration
    · cases hmark
    · cases hconfiguration
  | global origin => simp [entityOf, hlabel, globalEntity] at hscope
  | root origin => simp [entityOf, hlabel, globalEntity] at hscope
  | unlabelled =>
    refine ⟨rfl, ?_⟩
    intro hroot
    obtain ⟨origin, hsome⟩ := Option.isSome_iff_exists.mp (isSome_rootOrigin?_iff.mpr hroot)
    simp [entityOf, hlabel, hsome, globalEntity] at hscope

/-- The entities that are tenant-scoped by a relationship are those that tenancy is carried to. -/
theorem exists_isCarried_iff {s : SchemaSettings} {declarations : List Declaration} {p : Plan}
    (h : plan s declarations = .ok p) {name : String} :
    (∃ e, (ofPlan p).get? name = some e ∧ IsCarried e) ↔ p.IsOpen name ∧ p.Chain name := by
  constructor
  · rintro ⟨e, he, hcarried⟩
    obtain ⟨l, hl, rfl, rfl⟩ := exists_of_get?_ofPlan he
    obtain ⟨hlabel, hroot⟩ := isOpen_of_isCarried h hl hcarried
    exact ⟨⟨l, hl, rfl, hlabel, hroot⟩, (isCarried_entityOf_iff h hl hlabel hroot).mp hcarried⟩
  · rintro ⟨⟨l, hl, rfl, hlabel, hroot⟩, hchain⟩
    exact ⟨_, get?_ofPlan h hl, (isCarried_entityOf_iff h hl hlabel hroot).mpr hchain⟩

/-- The edges that the code chooses from are those to anchors and to entities that are tenant-scoped
by a relationship. -/
theorem mem_choices_reached_iff {s : SchemaSettings} {declarations : List Declaration} {p : Plan}
    (h : plan s declarations = .ok p) {name : String} {choice : Choice} :
    choice ∈ choices p.conventions p.edges p.reached name ↔ p.Offers (ofPlan p) name choice := by
  rw [mem_choices_iff, mem_reached_iff, ← exists_isCarried_iff h]
  unfold Plan.Offers
  rw [and_congr_right_iff]
  exact fun _ => and_comm

/-- **Propagation computes exactly reachability.** Take an unlabelled entity that is no tenant root.
It is tenant-scoped by a relationship exactly when a chain of one or more scoping edges leads from
it to an anchor through entities of the same sort. The relationship that is recorded is then the
least of its scoping edges to anchors and to entities classified this way, by the priority of the
column, the column and the target, and its column is the scoping column.

The last part says that the rounds end, for every graph and every state they start from: after at
most one round per name that is left over nothing can be added. -/
theorem classify_relationship_iff {s : SchemaSettings} {declarations : List Declaration}
    {schema : Schema} (h : classify s declarations = .ok schema) :
    ∃ p, plan s declarations = .ok p ∧
      schema.entities.map Entity.name = p.labelled.map Labelled.name ∧
      (∀ l ∈ p.labelled, l.label = .unlabelled → ¬ p.IsRoot l →
        ∃ e, schema.get? l.name = some e ∧ (IsCarried e ↔ p.Chain l.name) ∧
          (IsCarried e → ∃ choice, p.Offers schema l.name choice ∧
            (∀ other, p.Offers schema l.name other → (choice.order other).isLE = true) ∧
            e.origin = .relationship choice.column choice.target ∧
            e.scopingColumn = some choice.column)) ∧
      ∀ edges state, ∃ n ≤ state.1.length, Settled edges ((round edges)^[n] state) ∧
        reach edges state.1 state.2 = ((round edges)^[n] state).2 := by
  obtain ⟨p, hplan, rfl⟩ := classify_eq_ok h
  refine ⟨p, hplan, map_name_entities p, ?_, reach_eq_iterate⟩
  intro l hl hlabel hroot
  refine ⟨_, get?_ofPlan hplan hl, isCarried_entityOf_iff hplan hl hlabel hroot, ?_⟩
  intro hcarried
  rcases entityOf_open hplan hl hlabel hroot with ⟨-, choice, hchoice, he⟩ | ⟨-, he⟩
  · obtain ⟨hmem, hleast⟩ := choose?_least hchoice
    refine ⟨choice, (mem_choices_reached_iff hplan).mp hmem, ?_, ?_, ?_⟩
    · intro other hother
      exact hleast other ((mem_choices_reached_iff hplan).mpr hother)
    · rw [he]
      rfl
    · rw [he]
      rfl
  · rw [he] at hcarried
    exact absurd hcarried (not_isCarried_leftover p l.declaration)

/-- Comments and tasks refer to each other, and only a task leads on to the workspace: tenancy is
carried to a comment all the same. -/
theorem classify_relationship_of_cycle :
    ∃ (s : SchemaSettings) (declarations : List Declaration) (schema : Schema) (p : Plan)
      (e : Entity), classify s declarations = .ok schema ∧ plan s declarations = .ok p ∧
      schema.get? "Comment" = some e ∧ e.origin = .relationship "task_id" "Task" ∧
      p.Chain "Comment" := by
  let s := { SchemaSettings.default with
    scopingColumns := ["comment_id", "workspace_id", "task_id"] }
  let declarations := [
    (Declaration.named "Comment" "comments").addForeignKey "task_id" "tasks",
    ((Declaration.named "Task" "tasks").addForeignKey "comment_id" "comments").addForeignKey
      "workspace_id" "workspaces",
    Declaration.named "Workspace" "workspaces"]
  let schema := (classify s declarations).toOption.getD default
  have hclassify : classify s declarations = .ok schema := by decide +kernel
  have hopen : (plan s declarations).toOption.any (fun p => p.labelled.any fun l =>
      l.name = "Comment" && l.label = .unlabelled &&
        (rootOrigin? p.settings.inferRoots p.edges l).isNone) = true := by decide +kernel
  have horigin : (schema.get? "Comment").map (fun e => (e.scope, e.origin)) =
      some (.tenantScoped, .relationship "task_id" "Task") := by decide +kernel
  obtain ⟨p, hplan, -, hiff, -⟩ := classify_relationship_iff hclassify
  rw [hplan] at hopen
  obtain ⟨l, hl, htest⟩ := List.any_eq_true.mp hopen
  simp only [Bool.and_eq_true, decide_eq_true_eq, Option.isNone_iff_eq_none] at htest
  obtain ⟨⟨hname, hlabel⟩, hnone⟩ := htest
  have hroot : ¬ p.IsRoot l := by
    rw [← isSome_rootOrigin?_iff, hnone]
    simp
  obtain ⟨e, he, hcarried, -⟩ := hiff l hl hlabel hroot
  rw [hname] at he hcarried
  rw [he] at horigin
  obtain ⟨hscope, horigin⟩ := Prod.mk.inj (Option.some.inj horigin)
  exact ⟨s, declarations, schema, p, e, hclassify, hplan, he, horigin,
    hcarried.mp ⟨hscope, _, _, horigin⟩⟩

end Schema

end Tenancy

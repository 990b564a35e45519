import Tenancy.Schema.Label

/-!
# Propagation of tenancy

A scoping foreign key carries tenancy from the entity it leads to: to the roots and tenant-scoped
entities that are known at first, every unlabelled entity is added that has a scoping foreign key to
one of them, until nothing more can be added.

`reach` is the set that comes out; it ends because every round takes at least one entity from those
that are left.
-/

set_option autoImplicit false

namespace Tenancy

/-- An entity of merged declarations with its label. -/
structure Labelled where
  declaration : Declaration
  label : Label
  deriving DecidableEq, Repr, Inhabited

/-- The name of a labelled entity. -/
def Labelled.name (l : Labelled) : String := l.declaration.entity

namespace Propagation

/-- The entity that a foreign key leads to: by name or, if no entity has it, by storage key. -/
def target? (all : List Declaration) (references : String) : Option String :=
  match all.find? fun d => d.entity = references with
  | some d => some d.entity
  | none => (all.find? fun d => d.storageKey = references).map Declaration.entity

/-- The relationships of merged declarations. Foreign keys that lead nowhere are left out. -/
def relationships (all : List Declaration) : List Relationship :=
  all.flatMap fun d => d.foreignKeys.filterMap fun key =>
    (target? all key.references).map fun target => ⟨d.entity, target, key.column⟩

/-- The relationships whose column is named like a scoping column. -/
def scopingEdges (c : Conventions) (edges : List Relationship) : List Relationship :=
  edges.filter fun r => c.accepts r.viaColumn

/-- Whether a scoping foreign key makes its target a root: the target is labelled global, or it is
unlabelled and has no scoping foreign key of its own. -/
def becomesRoot (edges : List Relationship) (l : Labelled) : Bool :=
  match l.label with
  | .unlabelled => !edges.any fun r => r.fromEntity = l.name
  -- A global entity that scoping columns refer to holds the tenants themselves.
  | .global _ => true
  | _ => false

/-- Why an entity is a tenant root, if it is one. `edges` are the scoping edges. -/
def rootOrigin? (infer : Bool) (edges : List Relationship) (l : Labelled) : Option Origin :=
  match l.label with
  | .root origin => some origin
  | _ =>
    if infer && becomesRoot edges l && edges.any (fun r => r.toEntity = l.name) then
      some .inferredRoot
    else none

/-- Whether an edge leads from an entity to what is anchored. -/
def isReady (edges : List Relationship) (anchored : List String) (name : String) : Bool :=
  edges.any fun r => r.fromEntity = name && anchored.contains r.toEntity

/-- The names that no edge leads from to what is anchored. -/
def remaining (edges : List Relationship) (anchored left : List String) : List String :=
  left.filter fun name => !isReady edges anchored name

theorem length_remaining_lt {edges : List Relationship} {anchored left : List String}
    (h : left.any (isReady edges anchored)) :
    (remaining edges anchored left).length < left.length := by
  obtain ⟨name, mem, holds⟩ := List.any_eq_true.mp h
  exact List.length_filter_lt_length_iff_exists.mpr ⟨name, mem, by simp [holds]⟩

/-- Adds, round by round, the names of `left` that an edge leads from to what is anchored. -/
def reach (edges : List Relationship) (left anchored : List String) : List String :=
  if left.any (isReady edges anchored) then
    reach edges (remaining edges anchored left) (anchored ++ left.filter (isReady edges anchored))
  else anchored
termination_by left.length
decreasing_by exact length_remaining_lt ‹_›

/-- The names that tenancy starts from. -/
def anchors (infer : Bool) (edges : List Relationship) (all : List Labelled) : List String :=
  (all.filter fun l =>
    match l.label with
    | .tenant _ _ => true
    | _ => (rootOrigin? infer edges l).isSome).map Labelled.name

/-- The names that tenancy can be carried to. -/
def candidates (infer : Bool) (edges : List Relationship) (all : List Labelled) : List String :=
  (all.filter fun l =>
    l.label = .unlabelled && (rootOrigin? infer edges l).isNone).map Labelled.name

/-- All names that tenancy starts from or is carried to. -/
def anchored (infer : Bool) (edges : List Relationship) (all : List Labelled) : List String :=
  reach edges (candidates infer edges all) (anchors infer edges all)

/-- An edge with the priority of its column. -/
structure Choice where
  priority : Nat
  column : String
  target : String
  deriving DecidableEq, Repr, Inhabited

/-- Edges are preferred by the priority of the column, then its name, then the target. -/
def Choice.order : Choice → Choice → Ordering :=
  compareLex (compareOn Choice.priority)
    (compareLex (compareOn Choice.column) (compareOn Choice.target))

/-- The preferred of two edges. -/
def Choice.better (a b : Choice) : Choice := if (a.order b).isLE then a else b

/-- The edges by which tenancy can be carried to an entity. -/
def choices (c : Conventions) (edges : List Relationship) (reached : List String) (name : String) :
    List Choice :=
  (edges.filter fun r => r.fromEntity = name && reached.contains r.toEntity).filterMap fun r =>
    (c.priority? r.viaColumn).map fun p => ⟨p, r.viaColumn, r.toEntity⟩

/-- The edge by which tenancy is carried to an entity. -/
def choose? (c : Conventions) (edges : List Relationship) (reached : List String) (name : String) :
    Option Choice :=
  match choices c edges reached name with
  | [] => none
  | first :: rest => some (rest.foldl Choice.better first)

end Propagation

end Tenancy

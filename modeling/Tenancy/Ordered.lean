/-!
# Strictly increasing lists

Sets and tables whose order shows in the output are kept as strictly increasing lists, so that
two of them with the same members are the same list. `Ordered.ofList` sorts and drops
repetitions, `OrdSet` and `OrdMap` carry the order as part of the type.

Main statements: `Ordered.mem_ofList` (nothing is lost or invented) and `Ordered.increasing_ofList`
(the result is strictly increasing).
-/

set_option autoImplicit false

namespace Tenancy

namespace Ordered

variable {α : Type} [Ord α]

/-- Each element comes strictly before all later ones. -/
def Increasing (l : List α) : Prop := l.Pairwise fun a b => compare a b = .lt

instance (l : List α) : Decidable (Increasing l) :=
  inferInstanceAs (Decidable (l.Pairwise fun a b => compare a b = .lt))

/-- Puts an element where it belongs in an increasing list, unless it is there already. -/
def insert (a : α) : List α → List α
  | [] => [a]
  | b :: rest =>
    match compare a b with
    | .lt => a :: b :: rest
    | .eq => b :: rest
    | .gt => b :: insert a rest

/-- The elements of a list in increasing order, each once. -/
def ofList (l : List α) : List α := l.foldr insert []

theorem mem_of_mem_insert {a x : α} {l : List α} (h : x ∈ insert a l) : x = a ∨ x ∈ l := by
  induction l with
  | nil => simpa [insert] using h
  | cons b rest ih =>
    unfold insert at h
    split at h
    · simpa using h
    · exact .inr h
    · rcases List.mem_cons.mp h with rfl | h
      · exact .inr List.mem_cons_self
      · exact (ih h).imp_right (List.mem_cons_of_mem _)

theorem increasing_insert [Std.TransOrd α] (a : α) {l : List α} (h : Increasing l) :
    Increasing (insert a l) := by
  induction l with
  | nil => exact List.pairwise_singleton _ _
  | cons b rest ih =>
    obtain ⟨hb, hrest⟩ := List.pairwise_cons.mp h
    unfold insert
    split
    · next hab =>
      refine List.pairwise_cons.mpr ⟨?_, h⟩
      intro x hx
      rcases List.mem_cons.mp hx with rfl | hx
      · exact hab
      · exact Std.TransCmp.lt_trans hab (hb x hx)
    · exact h
    · next hab =>
      refine List.pairwise_cons.mpr ⟨?_, ih hrest⟩
      intro x hx
      rcases mem_of_mem_insert hx with rfl | hx
      · exact Std.OrientedCmp.lt_of_gt hab
      · exact hb x hx

theorem increasing_ofList [Std.TransOrd α] (l : List α) : Increasing (ofList l) := by
  induction l with
  | nil => exact List.Pairwise.nil
  | cons a rest ih => exact increasing_insert a ih

@[simp] theorem mem_insert [Std.LawfulEqOrd α] {a x : α} {l : List α} :
    x ∈ insert a l ↔ x = a ∨ x ∈ l := by
  induction l with
  | nil => simp [insert]
  | cons b rest ih =>
    unfold insert
    split
    · simp
    · next hab =>
      have : a = b := Std.LawfulEqCmp.eq_of_compare hab
      simp [this]
    · simp [ih, or_left_comm]

/-- Nothing is lost and nothing is invented. -/
@[simp] theorem mem_ofList [Std.LawfulEqOrd α] {x : α} {l : List α} :
    x ∈ ofList l ↔ x ∈ l := by
  induction l with
  | nil => simp [ofList]
  | cons a rest ih =>
    have : ofList (a :: rest) = insert a (ofList rest) := rfl
    simp [this, ih]

end Ordered

/-- A finite set, listed in increasing order. -/
structure OrdSet (α : Type) [Ord α] where
  toList : List α
  increasing : Ordered.Increasing toList

namespace OrdSet

variable {α : Type} [Ord α]

instance [DecidableEq α] : DecidableEq (OrdSet α) := fun s t =>
  decidable_of_iff (s.toList = t.toList)
    ⟨fun h => by cases s; cases t; cases h; rfl, fun h => h ▸ rfl⟩

instance : Membership α (OrdSet α) := ⟨fun s a => a ∈ s.toList⟩

instance [DecidableEq α] (a : α) (s : OrdSet α) : Decidable (a ∈ s) :=
  inferInstanceAs (Decidable (a ∈ s.toList))

/-- The set without members. -/
def empty : OrdSet α := ⟨[], List.Pairwise.nil⟩

instance : Inhabited (OrdSet α) := ⟨empty⟩

/-- The set of the members of a list. -/
def ofList [Std.TransOrd α] (l : List α) : OrdSet α :=
  ⟨Ordered.ofList l, Ordered.increasing_ofList l⟩

/-- Whether the set has no member. -/
def isEmpty (s : OrdSet α) : Bool := s.toList.isEmpty

@[simp] theorem mem_ofList [Std.TransOrd α] [Std.LawfulEqOrd α] {a : α} {l : List α} :
    a ∈ ofList l ↔ a ∈ l := Ordered.mem_ofList

end OrdSet

/-- A set of names in code point order. -/
abbrev NameSet := OrdSet String

/-- A table from names to values, in code point order of the names, each name once. -/
structure NameMap (α : Type) where
  entries : List (String × α)
  increasing : Ordered.Increasing (entries.map Prod.fst)

namespace NameMap

variable {α : Type}

instance [DecidableEq α] : DecidableEq (NameMap α) := fun s t =>
  decidable_of_iff (s.entries = t.entries)
    ⟨fun h => by cases s; cases t; cases h; rfl, fun h => h ▸ rfl⟩

/-- The table without entries. -/
def empty : NameMap α := ⟨[], List.Pairwise.nil⟩

instance : Inhabited (NameMap α) := ⟨empty⟩

/-- Sets the value of a name in an ordered list of entries. -/
def insertEntry (name : String) (value : α) : List (String × α) → List (String × α)
  | [] => [(name, value)]
  | (other, old) :: rest =>
    match compare name other with
    | .lt => (name, value) :: (other, old) :: rest
    | .eq => (name, value) :: rest
    | .gt => (other, old) :: insertEntry name value rest

theorem map_fst_insertEntry (name : String) (value : α) (l : List (String × α)) :
    (insertEntry name value l).map Prod.fst = Ordered.insert name (l.map Prod.fst) := by
  induction l with
  | nil => rfl
  | cons e rest ih =>
    obtain ⟨other, old⟩ := e
    unfold insertEntry Ordered.insert
    simp only [List.map_cons]
    split
    · simp_all
    · next h =>
      have : name = other := Std.LawfulEqCmp.eq_of_compare h
      simp_all
    · simp_all

/-- Sets the value of a name, replacing what it had. -/
def insert (m : NameMap α) (name : String) (value : α) : NameMap α where
  entries := insertEntry name value m.entries
  increasing := by
    rw [map_fst_insertEntry]
    exact Ordered.increasing_insert name m.increasing

/-- The table of a list of entries; of two entries for one name the later counts. -/
def ofList (l : List (String × α)) : NameMap α :=
  l.foldl (fun m e => m.insert e.1 e.2) empty

/-- The value of a name. -/
def get? (m : NameMap α) (name : String) : Option α :=
  (m.entries.find? fun e => e.1 == name).map Prod.snd

/-- The number of names. -/
def size (m : NameMap α) : Nat := m.entries.length

end NameMap

end Tenancy

import Tenancy.Proofs.Wire.RoundTrip
import Tenancy.Wire.Variant

/-!
# Reading back records and variants

A record is written field by field and read member by member. Each member finds its own field, since
no two fields are read under one name, and a field that was left out falls back to the value for
which it is left out (`Field.RoundTrips`). A strict record meets no name that it does not know.

A variant is written with its tag in front. What stands behind the tag is settled before it is read,
which changes nothing of what was written (`Value.settle_toNode`).
-/

set_option autoImplicit false

namespace Tenancy.Wire

/-! ### Fields -/

/-- A field reads a value from what it writes for it, also if that is nothing. -/
structure Field.RoundTrips {α : Type} (f : Field α) (depth : Nat) (a : α) : Prop where
  codec : f.codec.RoundTrips depth a
  omitted : f.omits a = true → f.fallback = some a

namespace Field.RoundTrips

variable {α : Type} {c : Codec α} {depth : Nat} {name : String}

theorem required {a : α} (h : c.RoundTrips depth a) :
    (Field.required name c).RoundTrips depth a where
  codec := h
  omitted hno := absurd hno Bool.false_ne_true

theorem fallingBack {a : α} (h : c.RoundTrips depth a) (value : α) :
    (Field.fallingBack name c value).RoundTrips depth a where
  codec := h
  omitted hno := absurd hno Bool.false_ne_true

theorem many {l : List α} (h : ∀ a ∈ l, c.RoundTrips depth a) :
    (Field.many name c).RoundTrips (depth + 1) l :=
  fallingBack (.list h) []

theorem alsoNamed {f : Field α} {a : α} (h : f.RoundTrips depth a) (other : String) :
    (f.alsoNamed other).RoundTrips depth a where
  codec := h.codec
  omitted := h.omitted

/-- What may be missing is read back, because what is there is not written as nothing. -/
theorem optional (h : ∀ a, c.RoundTrips depth a) (hnull : ∀ a, c.write a ≠ .null) (x : Option α) :
    (Field.optional name c).RoundTrips depth x := by
  cases x with
  | none => exact fallingBack (.optional_none c depth) none
  | some a => exact fallingBack (.optional_some (h a) (hnull a)) none

theorem sparse (h : ∀ a, c.RoundTrips depth a) (hnull : ∀ a, c.write a ≠ .null) (x : Option α) :
    (Field.sparse name c).RoundTrips depth x where
  codec := (optional h hnull x : (Field.optional name c).RoundTrips depth x).codec
  omitted hnone := by
    cases x with
    | none => rfl
    | some a => cases hnone

end Field.RoundTrips

/-! ### Records -/

/-- Fields read values from the members that they write for them, if no two are read under one
name. -/
structure Fields.RoundTrips {σ α : Type} (fs : Fields σ α) (depth : Nat) (a : α) : Prop where
  isExact : ∀ m ∈ fs.write a, m.2.IsExact depth
  expected : ∀ m ∈ fs.write a, m.1 ∈ fs.expected
  readRecord : fs.expected.Nodup → ∀ (strict : Bool) (d : Dialect), depth ≤ d.room →
    ∃ s, fs.readMembers strict d (Value.toMembers (fs.write a)) fs.start = .ok s
      ∧ fs.finish s = .ok a

namespace Fields

variable {σ α β : Type} {depth : Nat}

/-- Members that belong to later fields leave the first field alone. -/
theorem readMembers_cons {f : Field α} {rest : Fields σ β} {strict : Bool} {d : Dialect}
    {members : List (String × Value)} (hother : ∀ m ∈ members, m.1 ∉ f.name :: f.aliases)
    {s s' : σ} (hrest : rest.readMembers strict d (Value.toMembers members) s = .ok s')
    (x : Option α) :
    (cons f rest).readMembers strict d (Value.toMembers members) (x, s) = .ok (x, s') := by
  induction members generalizing s with
  | nil =>
    cases hrest
    rfl
  | cons member members ih =>
    rw [List.forall_mem_cons] at hother
    rw [Value.toMembers, readMembers] at hrest ⊢
    obtain ⟨put, hput, hrest⟩ := Support.bind_eq_ok_iff.mp hrest
    have hskip : (cons f rest).put d member.1 member.2.toNode (x, s)
        = .ok (put.map fun t => (x, t)) := by
      show (if member.1 ∈ f.name :: f.aliases then _ else _) = _
      rw [if_neg hother.1]
      show (rest.put d member.1 member.2.toNode s >>= _) = _
      rw [hput]
      rfl
    rw [hskip]
    cases put with
    | some t => exact ih hother.2 hrest
    | none =>
      -- A name that no later field has is passed over, or the record is strict and has failed.
      cases strict with
      | true => cases hrest
      | false =>
        simp only [Bool.false_eq_true, if_false] at hrest
        split at hrest
        · rename_i hwhole
          simp only [Option.map_none, Bool.false_eq_true, if_false, hwhole, if_true]
          exact ih hother.2 hrest
        · cases hrest

theorem RoundTrips.nil (depth : Nat) : Fields.nil.RoundTrips depth () where
  isExact _ hm := absurd hm List.not_mem_nil
  expected _ hm := absurd hm List.not_mem_nil
  readRecord _ _ _ _ := ⟨(), rfl, rfl⟩

/-- One more field in front reads its own member and leaves the others to the rest. -/
theorem RoundTrips.cons {f : Field α} {rest : Fields σ β} {a : α} {b : β}
    (hf : f.RoundTrips depth a) (hrest : rest.RoundTrips depth b) :
    (Fields.cons f rest).RoundTrips depth (a, b) := by
  have hwrite : (Fields.cons f rest).write (a, b)
      = if f.omits a then rest.write b else (f.name, f.codec.write a) :: rest.write b := rfl
  refine ⟨?_, ?_, ?_⟩
  · intro m hm
    rw [hwrite] at hm
    split at hm
    · exact hrest.isExact m hm
    · rcases List.mem_cons.mp hm with rfl | hm
      · exact hf.codec.isExact
      · exact hrest.isExact m hm
  · intro m hm
    rw [hwrite] at hm
    refine List.mem_append.mpr ?_
    split at hm
    · exact .inr (hrest.expected m hm)
    · rcases List.mem_cons.mp hm with rfl | hm
      · exact .inl (Ordered.mem_ofList.mpr List.mem_cons_self)
      · exact .inr (hrest.expected m hm)
  · intro hnodup strict d hd
    obtain ⟨-, hnodup', hdisjoint⟩ := List.nodup_append.mp hnodup
    obtain ⟨s, hs, hfinish⟩ := hrest.readRecord hnodup' strict d hd
    have hother : ∀ m ∈ rest.write b, m.1 ∉ f.name :: f.aliases := fun m hm hown =>
      hdisjoint m.1 (Ordered.mem_ofList.mpr hown) m.1 (hrest.expected m hm) rfl
    rw [hwrite]
    split
    · -- Nothing was written for the field, so it takes its fallback at the end.
      rename_i homitted
      refine ⟨(none, s), readMembers_cons hother hs none, ?_⟩
      simp only [Fields.cons, hf.omitted homitted, hfinish]
      rfl
    · -- The member of the field comes first.
      refine ⟨(some a, s), ?_, ?_⟩
      · have hput : (Fields.cons f rest).put d f.name (f.codec.write a).toNode (none, rest.start)
            = .ok (some (some a, rest.start)) := by
          simp only [Fields.cons, List.mem_cons_self, if_true, hf.codec.read_write d hd]
          rfl
        show (Fields.cons f rest).readMembers strict d
          ((some f.name, (f.codec.write a).toNode) :: Value.toMembers (rest.write b))
          (none, rest.start) = _
        rw [readMembers, hput]
        exact readMembers_cons hother hs (some a)
      · simp only [Fields.cons, hfinish]
        rfl

end Fields

/-- A record reads what its fields write, if no two of them are read under one name. -/
theorem Codec.RoundTrips.record {σ α : Type} {fs : Fields σ α} {depth : Nat} {a : α}
    (h : fs.RoundTrips depth a) (hnodup : fs.expected.Nodup) (strict : Bool) :
    (Codec.record strict fs).RoundTrips (depth + 1) a where
  isExact := .record h.isExact
  read_write d hd := by
    obtain ⟨d', hd', hroom⟩ := Dialect.exists_inner_eq_ok hd
    obtain ⟨s, hs, hfinish⟩ := h.readRecord hnodup strict d' hroom
    show (do
      let d ← d.inner
      fs.readRecord strict d (Value.toMembers (fs.write a))) = _
    rw [hd']
    show fs.readRecord strict d' (Value.toMembers (fs.write a)) = _
    rw [Fields.readRecord, hs]
    exact hfinish

/-! ### Variants -/

namespace Variant

variable {σ α β : Type} {depth : Nat}

/-- Members that are no tag are settled one by one. -/
theorem gather_toMembers {tag : String} {variants : List (Variant α)} {d : Dialect}
    {members : List (String × Value)} (htag : ∀ m ∈ members, m.1 ≠ tag)
    (hexact : ∀ m ∈ members, m.2.IsExact depth) (hroom : depth ≤ d.room)
    (found : Option (Variant α)) :
    gather tag variants d (Value.toMembers members) found
      = .ok (found, Value.toMembers members) := by
  induction members with
  | nil => rfl
  | cons member members ih =>
    rw [List.forall_mem_cons] at htag hexact
    rw [Value.toMembers, gather, if_neg htag.1, Value.settle_toNode hexact.1 hroom]
    simp only [ih htag.2 hexact.2]
    rfl

end Variant

namespace Codec.RoundTrips

variable {σ α β : Type} {tag name : String} {variants : List (Variant α)} {depth : Nat}

/-- A variant is read back if its tag names it and it reads the members that are written for it. -/
theorem tagged {v : Variant α} {a : α} {members : List (String × Value)}
    (hwrite : (Codec.tagged tag variants).write a = .record ((tag, .text v.name) :: members))
    (hfind : variants.find? (fun w => w.name == v.name) = some v)
    (htag : ∀ m ∈ members, m.1 ≠ tag) (hexact : ∀ m ∈ members, m.2.IsExact depth)
    (hread : ∀ d : Dialect, depth ≤ d.room →
      v.read d (.record (Value.toMembers members)) = .ok a) :
    (Codec.tagged tag variants).RoundTrips (depth + 1) a where
  isExact := by
    rw [hwrite]
    exact .record (List.forall_mem_cons.mpr ⟨.text v.name, hexact⟩)
  read_write d hd := by
    obtain ⟨d', hd', hroom⟩ := Dialect.exists_inner_eq_ok hd
    have hgather : Variant.gather tag variants d'
        ((some tag, .text (some v.name)) :: Value.toMembers members) none
        = .ok (some v, Value.toMembers members) := by
      rw [Variant.gather, if_pos rfl, Variant.ofTag]
      simp only [Codec.readText, bind, Except.bind, hfind, Option.isSome_none, Bool.false_eq_true,
        if_false]
      exact Variant.gather_toMembers htag hexact hroom (some v)
    rw [hwrite]
    simp only [Value.toNode, Value.toMembers, Codec.tagged, hd', hgather, bind, Except.bind]
    exact hread d' hroom

/-- A variant without fields is its tag. -/
theorem tagged_bare {a : α} {is : α → Bool}
    (hwrite : (Codec.tagged tag variants).write a = .record [(tag, .text name)])
    (hfind : variants.find? (fun w => w.name == name) = some (.bare name a is)) :
    (Codec.tagged tag variants).RoundTrips (depth + 1) a :=
  tagged (v := .bare name a is) hwrite hfind (fun _ hm => absurd hm List.not_mem_nil)
    (fun _ hm => absurd hm List.not_mem_nil) fun _ _ => rfl

/-- A variant with fields is read back if the tag is none of their names. -/
theorem tagged_fields {fs : Fields σ β} {a : α} {b : β} {make : β → α} {split : α → Option β}
    (h : fs.RoundTrips depth b) (hnodup : (tag :: fs.expected).Nodup)
    (hwrite : (Codec.tagged tag variants).write a = .record ((tag, .text name) :: fs.write b))
    (hfind : variants.find? (fun w => w.name == name) = some (.fields name fs make split))
    (hmake : make b = a) : (Codec.tagged tag variants).RoundTrips (depth + 1) a := by
  obtain ⟨htag, hnodup⟩ := List.nodup_cons.mp hnodup
  refine tagged (v := .fields name fs make split) hwrite hfind ?_ h.isExact fun d hd => ?_
  · rintro m hm rfl
    exact htag (h.expected m hm)
  · obtain ⟨s, hs, hfinish⟩ := h.readRecord hnodup false d hd
    show make <$> fs.readRecord false d (Value.toMembers (fs.write b)) = _
    rw [Fields.readRecord, hs]
    show make <$> fs.finish s = _
    rw [hfinish, ← hmake]
    rfl

end Codec.RoundTrips

end Tenancy.Wire

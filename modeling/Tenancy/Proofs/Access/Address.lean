import Tenancy.Proofs.Access.Identity

/-!
# What an address shows

An address is a position and the name of a handler with a colon between them, and a position is a
file, or a file and a line with a colon between them. The name of an access point is an address and
the place of its operation. The place can always be read again, the parts of the address not quite:
files and handlers may be called anything, so a colon in them can be taken for one of the dividers.

`address_eq_iff` says exactly when two addresses are the same: they are of one handler (`SameSpot`),
or one of them is misread as the other (`Misread`). Addresses that leave no such doubt are those of
`IsLegible` locations: there is no colon in the name of the handler, and a file without a line does
not end like one with a line.
-/

set_option autoImplicit false

namespace Tenancy

open Tenancy.Support

namespace Location

/-- The same file, line and handler; the route may be another. -/
structure SameSpot (l m : Location) : Prop where
  file : l.file = m.file
  line : l.line = m.line
  handler : l.handler = m.handler

/-- A location can be taken for another one by its address. -/
inductive Misread (l m : Location) : Prop where
  /-- The line of the other location is a part of the file. -/
  | line {n : UInt32} (hline : l.line = none) (hline' : m.line = some n)
      (hfile : l.file = s!"{m.file}:{n}") (hhandler : l.handler = m.handler)
  /-- What the position ends with is a part of the other handler. -/
  | handler {part : String} (hposition : l.position = s!"{m.position}:{part}")
      (hhandler : m.handler = s!"{part}:{l.handler}")

/-- A location whose address can be read in one way only. -/
structure IsLegible (l : Location) : Prop where
  handler : ':' ∉ l.handler.toList
  file : l.line = none → ∀ (file : String) (n : UInt32), l.file ≠ s!"{file}:{n}"

variable {l m : Location}

/-! ### Colons -/

/-- A colon between two texts. -/
theorem toList_colon (a b : String) : s!"{a}:{b}".toList = a.toList ++ ':' :: b.toList :=
  toList_divided rfl a b

/-- A colon between a text and a line. -/
theorem toList_colon_line (a : String) (n : UInt32) :
    s!"{a}:{n}".toList = a.toList ++ ':' :: (toString n.toNat).toList :=
  toList_divided rfl a (toString n.toNat)

/-- The line at the end of a position can be read again. -/
theorem colon_line_eq_iff {a b : String} {n k : UInt32} :
    s!"{a}:{n}" = s!"{b}:{k}" ↔ a = b ∧ n = k := by
  constructor
  · intro h
    have hlists := congrArg String.toList h
    rw [toList_colon_line, toList_colon_line] at hlists
    obtain ⟨ha, hn⟩ := eq_of_divider_append (not_mem_toString (by decide) n.toNat)
      (not_mem_toString (by decide) k.toNat) hlists
    exact ⟨String.toList_injective ha, UInt32.toNat_inj.mp (eq_of_toList_toString hn)⟩
  · rintro ⟨rfl, rfl⟩
    rfl

/-- Two texts with a colon are the same exactly if their parts are, or a part between two colons is
counted to the text before it in one of them and to the text behind it in the other. -/
theorem colon_eq_iff {a b c d : String} :
    s!"{a}:{b}" = s!"{c}:{d}" ↔ (a = c ∧ b = d) ∨
      (∃ part : String, a = s!"{c}:{part}" ∧ d = s!"{part}:{b}") ∨
        ∃ part : String, c = s!"{a}:{part}" ∧ b = s!"{part}:{d}" := by
  simp only [← String.toList_inj, toList_colon]
  rw [append_divider_eq_iff]
  -- Parts are the same in both, once as characters and once as a text.
  constructor
  · rintro (h | ⟨piece, ha, hb⟩ | ⟨piece, ha, hb⟩)
    · exact .inl h
    · exact .inr (.inl ⟨String.ofList piece, by simpa using ha, by simpa using hb⟩)
    · exact .inr (.inr ⟨String.ofList piece, by simpa using ha, by simpa using hb⟩)
  · rintro (h | ⟨part, ha, hb⟩ | ⟨part, ha, hb⟩)
    · exact .inl h
    · exact .inr (.inl ⟨part.toList, ha, hb⟩)
    · exact .inr (.inr ⟨part.toList, ha, hb⟩)

/-! ### Addresses -/

/-- Two positions are the same exactly if the file and the line are, or the line of one is a part of
the other file. -/
theorem position_eq_iff :
    l.position = m.position ↔ (l.file = m.file ∧ l.line = m.line) ∨
      (∃ n : UInt32, l.line = none ∧ m.line = some n ∧ l.file = s!"{m.file}:{n}") ∨
        ∃ n : UInt32, m.line = none ∧ l.line = some n ∧ m.file = s!"{l.file}:{n}" := by
  unfold position
  cases l.line with
  | none =>
    cases m.line with
    | none => simp
    | some n' => simp
  | some n =>
    cases m.line with
    | none => simp [eq_comm]
    | some n' =>
      simp only [colon_line_eq_iff]
      simp

/-- **Two handlers have the same address exactly if they have the same file, line and name, or one
of them is misread as the other.** -/
theorem address_eq_iff :
    l.address = m.address ↔ l.SameSpot m ∨ l.Misread m ∨ m.Misread l := by
  unfold address
  rw [colon_eq_iff, position_eq_iff]
  constructor
  · rintro (⟨(⟨hfile, hline⟩ | ⟨n, hline, hline', hfile⟩ | ⟨n, hline, hline', hfile⟩), hhandler⟩ |
      ⟨part, hposition, hhandler⟩ | ⟨part, hposition, hhandler⟩)
    · exact .inl ⟨hfile, hline, hhandler⟩
    · exact .inr (.inl (.line hline hline' hfile hhandler))
    · exact .inr (.inr (.line hline hline' hfile hhandler.symm))
    · exact .inr (.inl (.handler hposition hhandler))
    · exact .inr (.inr (.handler hposition hhandler))
  · rintro (⟨hfile, hline, hhandler⟩ | hmisread | hmisread)
    · exact .inl ⟨.inl ⟨hfile, hline⟩, hhandler⟩
    · cases hmisread with
      | line hline hline' hfile hhandler =>
        exact .inl ⟨.inr (.inl ⟨_, hline, hline', hfile⟩), hhandler⟩
      | handler hposition hhandler => exact .inr (.inl ⟨_, hposition, hhandler⟩)
    · cases hmisread with
      | line hline hline' hfile hhandler =>
        exact .inl ⟨.inr (.inr ⟨_, hline, hline', hfile⟩), hhandler.symm⟩
      | handler hposition hhandler => exact .inr (.inr ⟨_, hposition, hhandler⟩)

/-- A legible location is not misread as another legible one. -/
theorem IsLegible.not_misread (hl : l.IsLegible) (hm : m.IsLegible) : ¬ l.Misread m := by
  intro hmisread
  cases hmisread with
  | line hline _ hfile _ => exact hl.file hline _ _ hfile
  | @handler part _ hhandler =>
    apply hm.handler
    rw [hhandler, toList_colon]
    simp

end Location

end Tenancy

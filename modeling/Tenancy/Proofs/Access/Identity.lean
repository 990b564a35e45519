import Mathlib.Data.List.Nodup
import Tenancy.Proofs.Access.Extraction
import Tenancy.Proofs.Support.Texts

/-!
# The names of access points

An access point is named by the address of its handler and the place of its operation. The name
shows both again (`idOf_eq_iff`), so the operations of one handler have different names
(`nodup_idOf`), and so have those of handlers at different addresses. `map_id_of_extract` says that
the points of a handler have these names, one for each operation.
-/

set_option autoImplicit false

namespace Tenancy

open Tenancy.Support

/-- The position of a handler and what it is called. -/
def Location.address (l : Location) : String := s!"{l.position}:{l.handler}"

/-- The name of an access point shows the address of its handler and the place of its operation: a
place has no `#` in it. -/
theorem AccessPoint.idOf_eq_iff {l l' : Location} {index index' : Nat} :
    idOf l index = idOf l' index' ↔ l.address = l'.address ∧ index = index' := by
  have htext : ∀ (l : Location) (index : Nat),
      (idOf l index).toList = l.address.toList ++ '#' :: (toString index).toList := by
    intro l index
    exact toList_divided rfl l.address (toString index)
  constructor
  · intro h
    have hlists := congrArg String.toList h
    rw [htext, htext] at hlists
    obtain ⟨haddress, hindex⟩ := eq_of_divider_append (not_mem_toString (by decide) index)
      (not_mem_toString (by decide) index') hlists
    exact ⟨String.toList_injective haddress, eq_of_toList_toString hindex⟩
  · rintro ⟨haddress, rfl⟩
    rw [← String.toList_inj, htext, htext, haddress]

/-- The operations of a handler have different names. -/
theorem AccessPoint.nodup_idOf (l : Location) (count : Nat) :
    ((List.range count).map (idOf l)).Nodup := by
  refine List.nodup_range.map ?_
  intro index index' hsame
  exact (idOf_eq_iff.mp hsame).2

namespace Extractor

variable {x : Extractor} {h : Handler} {found : List AccessPoint}

/-- The points of a handler are named by its address and the places of its operations. -/
theorem map_id_of_extract (hok : x.extract h = .ok found) :
    found.map AccessPoint.id =
      (List.range h.operations.length).map (AccessPoint.idOf h.location) := by
  obtain ⟨hlength, hall⟩ := extract_eq_ok hok
  apply List.ext_getElem?
  intro place
  rw [List.getElem?_map, List.getElem?_map]
  cases ho : h.operations[place]? with
  | none =>
    have hle : h.operations.length ≤ place := List.getElem?_eq_none_iff.mp ho
    rw [List.getElem?_eq_none (hlength ▸ hle), List.getElem?_eq_none (by simpa using hle)]
    rfl
  | some o =>
    obtain ⟨p, hp, hpoint⟩ := hall place o ho
    obtain ⟨hlt, -⟩ := List.getElem?_eq_some_iff.mp ho
    obtain ⟨targets, filters, -, -, rfl⟩ := point_eq_ok hpoint
    rw [hp, List.getElem?_range hlt]
    rfl

end Extractor

end Tenancy

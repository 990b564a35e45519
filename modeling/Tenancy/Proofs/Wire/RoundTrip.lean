import Mathlib.Data.List.Nodup
import Tenancy.Proofs.Support.Lists
import Tenancy.Proofs.Wire.JsonText
import Tenancy.Wire.Record

/-!
# Reading back what was written

`Codec.RoundTrips c depth a` says that the codec `c` reads `a` from what it writes for `a`, in every
notation and wherever `depth` levels of nesting may still follow. There is one lemma for each
combinator, so that a codec which is put together from others gets its round trip from theirs.

Three things have to be given on the way:

* What may be missing is written as `null`, so nothing else may be (`RoundTrips.optional_some`).
* A choice is written as its label, so no two may have the same (`RoundTrips.choice`).
* A literal is read with its members in order, so it has to be written that way (`Value.IsOrdered`).

`RoundTrips.decode_json` ends at the text.
-/

set_option autoImplicit false

namespace Tenancy.Wire

/-! ### Values as nodes -/

namespace Value

@[simp] theorem toNodes_eq_map (items : List Value) : toNodes items = items.map toNode := by
  induction items with
  | nil => rfl
  | cons item items ih => rw [toNodes, ih, List.map_cons]

@[simp] theorem toMembers_eq_map (members : List (String × Value)) :
    toMembers members = members.map fun m => (some m.1, m.2.toNode) := by
  induction members with
  | nil => rfl
  | cons member members ih => rw [toMembers, ih, List.map_cons]

/-- In every record of the value the names of the members increase. -/
inductive IsOrdered : Value → Prop
  | null : IsOrdered .null
  | flag (b : Bool) : IsOrdered (.flag b)
  | number (n : Number) : IsOrdered (.number n)
  | text (s : String) : IsOrdered (.text s)
  | list {items : List Value} (ordered : ∀ v ∈ items, IsOrdered v) : IsOrdered (.list items)
  | record {members : List (String × Value)}
      (increasing : Ordered.Increasing (members.map Prod.fst))
      (ordered : ∀ m ∈ members, IsOrdered m.2) : IsOrdered (.record members)

theorem settleItems_map_toNode {room : Nat} {items : List Value}
    (h : ∀ v ∈ items, v.toNode.settle room = some v.toNode) :
    Node.settleItems room (items.map toNode) = some (items.map toNode) := by
  induction items with
  | nil => rfl
  | cons item items ih =>
    rw [List.forall_mem_cons] at h
    rw [List.map_cons, Node.settleItems, h.1, ih h.2]
    rfl

theorem settleMembers_map_toNode {room : Nat} {members : List (String × Value)}
    (h : ∀ m ∈ members, m.2.toNode.settle room = some m.2.toNode) :
    Node.settleMembers room (members.map fun m => (some m.1, m.2.toNode))
      = some (members.map fun m => (some m.1, m.2.toNode)) := by
  induction members with
  | nil => rfl
  | cons member members ih =>
    rw [List.forall_mem_cons] at h
    rw [List.map_cons, Node.settleMembers, h.1, ih h.2]
    rfl

/-- An exact value has nothing to settle. -/
theorem settle_toNode {depth room : Nat} {v : Value} (hv : v.IsExact depth) (hroom : depth ≤ room) :
    v.toNode.settle room = some v.toNode := by
  induction hv generalizing room with
  | null => rfl
  | flag b => rfl
  | number hfits => rfl
  | text s => rfl
  | list _ ih =>
    obtain ⟨room, rfl⟩ : ∃ k, room = k + 1 := ⟨room - 1, by omega⟩
    rw [toNode, toNodes_eq_map, Node.settle,
      settleItems_map_toNode fun v hv => ih v hv (by omega)]
    rfl
  | record _ ih =>
    obtain ⟨room, rfl⟩ : ∃ k, room = k + 1 := ⟨room - 1, by omega⟩
    rw [toNode, toMembers_eq_map, Node.settle,
      settleMembers_map_toNode fun m hm => ih m hm (by omega)]
    rfl

theorem toValues_map_toNode {items : List Value} (h : ∀ v ∈ items, v.toNode.toValue = some v) :
    Node.toValues (items.map toNode) = some items := by
  induction items with
  | nil => rfl
  | cons item items ih =>
    rw [List.forall_mem_cons] at h
    rw [List.map_cons, Node.toValues, h.1, ih h.2]
    rfl

/-- A member whose name comes before all others is put in front of them. -/
theorem insertMember_of_lt {name : String} {members : List (String × Value)}
    (h : ∀ other ∈ members.map Prod.fst, compare name other = .lt) (v : Value) :
    Node.insertMember name v members = (name, v) :: members := by
  cases members with
  | nil => rfl
  | cons member members =>
    have hlt : compare name member.1 = .lt := h member.1 (by simp)
    simp only [Node.insertMember, hlt]

theorem toValueMembers_map_toNode {members : List (String × Value)}
    (hincreasing : Ordered.Increasing (members.map Prod.fst))
    (h : ∀ m ∈ members, m.2.toNode.toValue = some m.2) :
    Node.toValueMembers (members.map fun m => (some m.1, m.2.toNode)) = some members := by
  induction members with
  | nil => rfl
  | cons member members ih =>
    obtain ⟨hfirst, hincreasing⟩ := List.pairwise_cons.mp hincreasing
    rw [List.forall_mem_cons] at h
    rw [List.map_cons, Node.toValueMembers, h.1, ih hincreasing h.2]
    exact congrArg some (insertMember_of_lt hfirst member.2)

/-- An ordered value is the value of its node. -/
theorem toValue_toNode {v : Value} (hv : v.IsOrdered) : v.toNode.toValue = some v := by
  induction hv with
  | null => rfl
  | flag b => rfl
  | number n => rfl
  | text s => rfl
  | list _ ih =>
    rw [toNode, toNodes_eq_map, Node.toValue, toValues_map_toNode ih]
    rfl
  | record hincreasing _ ih =>
    rw [toNode, toMembers_eq_map, Node.toValue, toValueMembers_map_toNode hincreasing ih]
    rfl

end Value

/-- There is room for the levels inside. -/
theorem Dialect.exists_inner_eq_ok {d : Dialect} {depth : Nat} (h : depth + 1 ≤ d.room) :
    ∃ d', d.inner = .ok d' ∧ depth ≤ d'.room := by
  obtain ⟨asRecords, asVariants, room⟩ := d
  obtain ⟨room, rfl⟩ : ∃ k, room = k + 1 := ⟨room - 1, by simp only at h; omega⟩
  exact ⟨_, rfl, Nat.le_of_succ_le_succ h⟩

namespace Codec

/-- A codec reads a value from what it writes for it, where `depth` more levels of nesting are
read. -/
structure RoundTrips {α : Type} (c : Codec α) (depth : Nat) (a : α) : Prop where
  isExact : (c.write a).IsExact depth
  read_write : ∀ d : Dialect, depth ≤ d.room → c.read d (c.write a).toNode = .ok a

namespace RoundTrips

variable {α β κ : Type} {c : Codec α} {depth : Nat}

theorem imap {forth : α → β} {back : β → α} {b : β} (h : c.RoundTrips depth (back b))
    (hinverse : forth (back b) = b) : (c.imap forth back).RoundTrips depth b where
  isExact := h.isExact
  read_write d hd := by
    show forth <$> c.read d (c.write (back b)).toNode = .ok b
    rw [h.read_write d hd]
    exact congrArg Except.ok hinverse

theorem text (depth : Nat) (s : String) : Codec.text.RoundTrips depth s where
  isExact := .text s
  read_write _ _ := rfl

theorem flag (depth : Nat) (b : Bool) : Codec.flag.RoundTrips depth b where
  isExact := .flag b
  read_write _ _ := rfl

theorem natBelow (depth : Nat) {limit n : Nat} (hlimit : limit ≤ UInt64.size) (hn : n < limit) :
    (Codec.natBelow limit).RoundTrips depth n where
  isExact := by
    refine .number ?_
    simp only [Number.fits, Bool.and_eq_true, decide_eq_true_eq]
    simp only [UInt64.size] at hlimit
    omega
  read_write _ _ := if_pos ⟨Int.natCast_nonneg n, Int.ofNat_lt.mpr hn⟩

theorem uint32 (depth : Nat) (n : UInt32) : Codec.uint32.RoundTrips depth n :=
  .imap (.natBelow depth (by decide) n.toNat_lt) UInt32.ofNat_toNat

theorem uint64 (depth : Nat) (n : UInt64) : Codec.uint64.RoundTrips depth n :=
  .imap (.natBelow depth (le_refl _) n.toNat_lt) UInt64.ofNat_toNat

/-- What is missing is written as nothing. -/
theorem optional_none (c : Codec α) (depth : Nat) : c.optional.RoundTrips depth none where
  isExact := .null
  read_write _ _ := rfl

/-- What is there is written as itself; that must not be nothing. -/
theorem optional_some {a : α} (h : c.RoundTrips depth a) (hnull : c.write a ≠ .null) :
    c.optional.RoundTrips depth (some a) where
  isExact := h.isExact
  read_write d hd := by
    have hpresent : c.optional.read d (c.write a).toNode
        = some <$> c.read d (c.write a).toNode := by
      cases hw : c.write a with
      | null => exact absurd hw hnull
      | _ => rfl
    show c.optional.read d (c.write a).toNode = _
    rw [hpresent, h.read_write d hd]
    rfl

theorem list {l : List α} (h : ∀ a ∈ l, c.RoundTrips depth a) :
    c.list.RoundTrips (depth + 1) l where
  isExact := by
    refine .list fun v hv => ?_
    obtain ⟨a, ha, rfl⟩ := List.mem_map.mp hv
    exact (h a ha).isExact
  read_write d hd := by
    obtain ⟨d', hd', hroom⟩ := Dialect.exists_inner_eq_ok hd
    have hitems : ((l.map c.write).map Value.toNode).mapM (c.read d') = .ok l := by
      rw [Support.mapM_eq_ok_iff, List.map_map, List.forall₂_map_left_iff]
      exact List.forall₂_same.mpr fun a ha => (h a ha).read_write d' hroom
    show (do
      let d ← d.inner
      (Value.toNodes (l.map c.write)).mapM (c.read d)) = _
    rw [hd', Value.toNodes_eq_map]
    exact hitems

/-- The label of a choice names it, if no other has the same. -/
theorem readChoice_label {all : List κ} {label : κ → String} (hlabels : (all.map label).Nodup)
    {key : κ} (hkey : key ∈ all) : readChoice all label (label key) = .ok key := by
  have hfind : all.find? (fun k => label k == label key) = some key := by
    refine Support.find?_of_unique hkey (beq_self_eq_true _) fun other hother hsame => ?_
    exact List.inj_on_of_nodup_map hlabels hother hkey (beq_iff_eq.mp hsame)
  unfold readChoice
  rw [hfind]

theorem choice (depth : Nat) {all : List κ} {label : κ → String} (hlabels : (all.map label).Nodup)
    {key : κ} (hkey : key ∈ all) : (Codec.choice all label).RoundTrips depth key where
  isExact := .text _
  read_write _ _ := readChoice_label hlabels hkey

/-! ### Tables -/

/-- An entry whose name comes after all others is put behind them. -/
theorem insertEntry_of_gt {name : String} {entries : List (String × α)}
    (h : ∀ other ∈ entries.map Prod.fst, compare other name = .lt) (a : α) :
    NameMap.insertEntry name a entries = entries ++ [(name, a)] := by
  induction entries with
  | nil => rfl
  | cons entry entries ih =>
    rw [List.map_cons, List.forall_mem_cons] at h
    have hgt : compare name entry.1 = .gt := Std.OrientedCmp.gt_of_lt h.1
    simp only [NameMap.insertEntry, hgt, List.cons_append, ih h.2]

/-- Entries in order are read behind those that were read before. -/
theorem exists_readEntries_eq_ok {d : Dialect} {entries : List (String × α)}
    (hread : ∀ e ∈ entries, c.read d (c.write e.2).toNode = .ok e.2) (m : NameMap α)
    (hincreasing : Ordered.Increasing ((m.entries ++ entries).map Prod.fst)) :
    ∃ m', readEntries c d m
        (entries.map fun e => (some e.1, (c.write e.2).toNode)) = .ok m'
      ∧ m'.entries = m.entries ++ entries := by
  induction entries generalizing m with
  | nil => exact ⟨m, rfl, (List.append_nil _).symm⟩
  | cons entry entries ih =>
    rw [List.forall_mem_cons] at hread
    have hbehind : (m.insert entry.1 entry.2).entries = m.entries ++ [entry] := by
      refine insertEntry_of_gt (fun other hother => ?_) entry.2
      rw [List.map_append, List.map_cons] at hincreasing
      exact (List.pairwise_append.mp hincreasing).2.2 other hother entry.1 List.mem_cons_self
    have happend : (m.insert entry.1 entry.2).entries ++ entries
        = m.entries ++ entry :: entries := by
      rw [hbehind, List.append_assoc, List.singleton_append]
    obtain ⟨m', hm', hentries⟩ := ih hread.2 (m.insert entry.1 entry.2) (happend ▸ hincreasing)
    refine ⟨m', ?_, hentries.trans happend⟩
    rw [List.map_cons, readEntries, hread.1]
    exact hm'

theorem table {m : NameMap α} (h : ∀ e ∈ m.entries, c.RoundTrips depth e.2) :
    (Codec.table c).RoundTrips (depth + 1) m where
  isExact := by
    refine .record fun v hv => ?_
    obtain ⟨e, he, rfl⟩ := List.mem_map.mp hv
    exact (h e he).isExact
  read_write d hd := by
    obtain ⟨d', hd', hroom⟩ := Dialect.exists_inner_eq_ok hd
    obtain ⟨m', hm', hentries⟩ := exists_readEntries_eq_ok
      (fun e he => (h e he).read_write d' hroom) .empty m.increasing
    obtain rfl : m = m' := by
      cases m
      cases m'
      cases hentries
      rfl
    show (do
      let d ← d.inner
      readEntries c d .empty
        (Value.toMembers (m.entries.map fun (e : String × α) => (e.1, c.write e.2)))) = _
    rw [hd', Value.toMembers_eq_map, List.map_map]
    exact hm'

/-- Counts are read as the table that they were written for, if each key has its count already or
has none and is still to come. -/
theorem readCounts_eq_ok [DecidableEq κ] {all : List κ} {label : κ → String}
    (hlabels : (all.map label).Nodup) {d : Dialect} {m : κ → Option α} {keys : List κ}
    (hkeys : keys ⊆ all)
    (hread : ∀ key ∈ keys, ∀ a ∈ m key, c.read d (c.write a).toNode = .ok a) {start : κ → Option α}
    (hstart : ∀ key, start key = m key ∨ start key = none ∧ key ∈ keys) :
    readCounts all label c d start
        ((keys.filterMap fun k => (m k).map fun a => (label k, c.write a)).map
          fun e => (some e.1, e.2.toNode))
      = .ok m := by
  induction keys generalizing start with
  | nil =>
    have hsame : start = m := by
      funext key
      rcases hstart key with hdone | ⟨-, hnil⟩
      · exact hdone
      · exact absurd hnil List.not_mem_nil
    rw [hsame]
    rfl
  | cons key keys ih =>
    obtain ⟨hkey, hkeys⟩ := List.cons_subset.mp hkeys
    rw [List.forall_mem_cons] at hread
    cases hm : m key with
    | none =>
      -- Nothing is written for the key, and nothing is what it has so far.
      rw [List.filterMap_cons, hm]
      refine ih hkeys hread.2 fun other => ?_
      rcases hstart other with hdone | ⟨hnone, hother⟩
      · exact .inl hdone
      · rcases List.mem_cons.mp hother with rfl | hother
        · exact .inl (hnone.trans hm.symm)
        · exact .inr ⟨hnone, hother⟩
    | some a =>
      rw [List.filterMap_cons, hm]
      simp only [Option.map_some, List.map_cons]
      rw [readCounts, readChoice_label hlabels hkey, hread.1 a hm]
      refine ih hkeys hread.2 fun other => ?_
      by_cases hother : other = key
      · subst hother
        exact .inl ((if_pos rfl).trans hm.symm)
      · simp only [if_neg hother]
        exact (hstart other).imp_right fun h => ⟨h.1, (List.mem_cons.mp h.2).resolve_left hother⟩

theorem tableOf [DecidableEq κ] {all : List κ} {label : κ → String}
    (hlabels : (all.map label).Nodup) (hall : ∀ key, key ∈ all) {m : κ → Option α}
    (h : ∀ key, ∀ a ∈ m key, c.RoundTrips depth a) :
    (Codec.tableOf all label c).RoundTrips (depth + 1) m where
  isExact := by
    refine .record fun v hv => ?_
    obtain ⟨key, -, hv⟩ := List.mem_filterMap.mp hv
    obtain ⟨a, ha, rfl⟩ := Option.map_eq_some_iff.mp hv
    exact (h key a ha).isExact
  read_write d hd := by
    obtain ⟨d', hd', hroom⟩ := Dialect.exists_inner_eq_ok hd
    show (do
      let d ← d.inner
      readCounts all label c d (fun _ => none) (Value.toMembers
        (all.filterMap fun k => (m k).map fun a => (label k, c.write a)))) = _
    rw [hd', Value.toMembers_eq_map]
    exact readCounts_eq_ok hlabels (List.Subset.refl all)
      (fun key _ a ha => (h key a ha).read_write d' hroom) fun key => .inr ⟨rfl, hall key⟩

/-! ### Literals -/

theorem literal {v : Value} (hexact : v.IsExact depth) (hordered : v.IsOrdered) :
    Codec.literal.RoundTrips depth v where
  isExact := hexact
  read_write d hd := by
    have hvalue : (v.toNode.settle d.room >>= Node.toValue) = some v := by
      rw [Value.settle_toNode hexact hd]
      exact Value.toValue_toNode hordered
    simp only [Codec.literal, hvalue]

/-! ### Texts -/

/-- What a codec writes is read back from its JSON text, with any blanks inside and after it. -/
theorem decode_json {a : α} (h : c.RoundTrips depth a) (hdepth : depth ≤ Dialect.json.room)
    (s : Spacing) {blanks : List Char} (hblanks : Json.AreBlanks blanks) :
    c.decode .json (Json.read (String.ofList ((c.write a).spaced s 0 ++ blanks))) = .ok a := by
  rw [Json.read_spaced s h.isExact hblanks]
  unfold decode
  rw [h.read_write .json hdepth]
  rfl

/-- What a codec writes is read back from its text over lines. -/
theorem decode_pretty {a : α} (h : c.RoundTrips depth a) (hdepth : depth ≤ Dialect.json.room) :
    c.decode .json (Json.read (c.write a).pretty) = .ok a := by
  have hread := h.decode_json hdepth .lines (List.forall_mem_nil _)
  rwa [List.append_nil, ← Value.pretty_eq_spaced] at hread

/-- What a codec writes is read back from its text in one line. -/
theorem decode_compact {a : α} (h : c.RoundTrips depth a) (hdepth : depth ≤ Dialect.json.room) :
    c.decode .json (Json.read (c.write a).compact) = .ok a := by
  have hread := h.decode_json hdepth .none (List.forall_mem_nil _)
  rwa [List.append_nil] at hread

end RoundTrips

end Codec

end Tenancy.Wire

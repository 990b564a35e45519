import Mathlib.Data.List.TakeWhile
import Tenancy.Proofs.Wire.Scalar

/-!
# Reading a written value

The JSON text of a value is read as that value again: `Json.read_spaced`. Two things can spoil that
for a value in general, and `Value.IsExact` excludes them: a number that is no whole number, because
its text does not say how it was written, and one that does not fit into 64 bits. How deep a value
is nested matters only to those who make sense of what was read.

Where the blanks of a text stand does not matter to its reader, so the statement is about any
`Spacing`. The values that are laid out over lines are the ones with `Spacing.lines`
(`Value.spaced_lines`).

The reader takes steps between two characters that it uses up, which its fuel counts. A value takes
at most two steps for each character of its text, whatever follows it.
-/

set_option autoImplicit false

namespace Tenancy.Wire

/-! ### Texts with any blanks -/

/-- Nothing but blanks. -/
def Json.AreBlanks (cs : List Char) : Prop := ∀ c ∈ cs, Json.isSpace c = true

/-- The blanks between the parts of a JSON text. -/
structure Spacing where
  /-- What stands in front of the parts of a container at a given depth. -/
  newLine : Nat → List Char
  /-- What stands between a colon and the value of a member. -/
  afterColon : List Char
  areBlanks_newLine : ∀ depth, Json.AreBlanks (newLine depth)
  areBlanks_afterColon : Json.AreBlanks afterColon

namespace Spacing

/-- Every part stands on a line of its own. -/
def lines : Spacing where
  newLine := Value.newLine
  afterColon := [' ']
  areBlanks_newLine depth c hc := by
    rcases List.mem_cons.mp hc with rfl | hc
    · rfl
    · rw [List.eq_of_mem_replicate hc]
      rfl
  areBlanks_afterColon c hc := by
    rw [List.mem_singleton.mp hc]
    rfl

/-- There are no blanks. -/
def none : Spacing where
  newLine _ := []
  afterColon := []
  areBlanks_newLine _ _ hc := absurd hc List.not_mem_nil
  areBlanks_afterColon _ hc := absurd hc List.not_mem_nil

end Spacing

namespace Value

mutual

/-- The JSON text of a value that stands at a given depth, with the blanks of a spacing. -/
def spaced (s : Spacing) (depth : Nat) : Value → List Char
  | .null => "null".toList
  | .flag true => "true".toList
  | .flag false => "false".toList
  | .number n => n.toText.toList
  | .text s => quote s
  | .list [] => ['[', ']']
  | .list (item :: items) =>
    '[' :: (s.newLine (depth + 1) ++ spaced s (depth + 1) item ++ spacedItems s (depth + 1) items
      ++ s.newLine depth ++ [']'])
  | .record [] => ['{', '}']
  | .record ((name, value) :: members) =>
    '{' :: (s.newLine (depth + 1) ++ quote name ++ ':' :: s.afterColon
      ++ spaced s (depth + 1) value ++ spacedMembers s (depth + 1) members ++ s.newLine depth
      ++ ['}'])

/-- The items after the first. -/
def spacedItems (s : Spacing) (depth : Nat) : List Value → List Char
  | [] => []
  | item :: items =>
    ',' :: (s.newLine depth ++ spaced s depth item ++ spacedItems s depth items)

/-- The members after the first. -/
def spacedMembers (s : Spacing) (depth : Nat) : List (String × Value) → List Char
  | [] => []
  | (name, value) :: members =>
    ',' :: (s.newLine depth ++ quote name ++ ':' :: s.afterColon ++ spaced s depth value
      ++ spacedMembers s depth members)

end

/-- The JSON text of a value in one line. -/
def compact (v : Value) : String := String.ofList (v.spaced .none 0)

mutual

/-- A value that is laid out over lines is one with a certain spacing. -/
theorem spaced_lines (depth : Nat) : ∀ v : Value, v.spaced .lines depth = v.layout depth
  | .null => rfl
  | .flag true => rfl
  | .flag false => rfl
  | .number _ => rfl
  | .text _ => rfl
  | .list [] => rfl
  | .list (item :: items) => by
    rw [spaced, layout, spaced_lines, spacedItems_lines]
    rfl
  | .record [] => rfl
  | .record ((name, value) :: members) => by
    rw [spaced, layout, spaced_lines, spacedMembers_lines]
    rfl

theorem spacedItems_lines (depth : Nat) :
    ∀ items : List Value, spacedItems .lines depth items = layoutItems depth items
  | [] => rfl
  | item :: items => by
    rw [spacedItems, layoutItems, spaced_lines, spacedItems_lines]
    rfl

theorem spacedMembers_lines (depth : Nat) :
    ∀ members : List (String × Value),
      spacedMembers .lines depth members = layoutMembers depth members
  | [] => rfl
  | (name, value) :: members => by
    rw [spacedMembers, layoutMembers, spaced_lines, spacedMembers_lines]
    rfl

end

theorem pretty_eq_spaced (v : Value) : v.pretty = String.ofList (v.spaced .lines 0) := by
  rw [spaced_lines]
  rfl

/-- Every number of the value is whole and fits into 64 bits, and its lists and records are nested
at most `depth` levels deep. -/
inductive IsExact : (depth : Nat) → Value → Prop
  | null {depth : Nat} : IsExact depth .null
  | flag {depth : Nat} (b : Bool) : IsExact depth (.flag b)
  | number {depth : Nat} {n : Int} (fits : Number.fits n = true) :
      IsExact depth (.number (.whole n))
  | text {depth : Nat} (s : String) : IsExact depth (.text s)
  | list {depth : Nat} {items : List Value} (exact : ∀ v ∈ items, IsExact depth v) :
      IsExact (depth + 1) (.list items)
  | record {depth : Nat} {members : List (String × Value)}
      (exact : ∀ m ∈ members, IsExact depth m.2) : IsExact (depth + 1) (.record members)

end Value

namespace Json

open Value

/-! ### Blanks -/

variable {blanks : List Char}

theorem skipSpace_append (h : AreBlanks blanks) (cs : List Char) :
    skipSpace (blanks ++ cs) = skipSpace cs :=
  List.dropWhile_append_of_pos h

theorem skipSpace_cons {c : Char} (h : isSpace c = false) (cs : List Char) :
    skipSpace (c :: cs) = c :: cs :=
  List.dropWhile_cons_of_neg (by simp [h])

theorem readValue_blanks (h : AreBlanks blanks) (fuel : Nat) (cs : List Char) :
    readValue fuel (blanks ++ cs) = readValue fuel cs := by
  cases fuel with
  | zero => rfl
  | succ fuel => rw [readValue.eq_2, readValue.eq_2, skipSpace_append h]

theorem readItems_blanks (h : AreBlanks blanks) (fuel : Nat) (cs : List Char) :
    readItems fuel (blanks ++ cs) = readItems fuel cs := by
  cases fuel with
  | zero => rfl
  | succ fuel => rw [readItems.eq_2, readItems.eq_2, readValue_blanks h]

theorem readMembers_blanks (h : AreBlanks blanks) (fuel : Nat) (cs : List Char) :
    readMembers fuel (blanks ++ cs) = readMembers fuel cs := by
  cases fuel with
  | zero => rfl
  | succ fuel => rw [readMembers.eq_2, readMembers.eq_2, skipSpace_append h]

theorem EndsNumber.of_cons {c : Char} {rest : List Char}
    (h : c.isDigit = false ∧ c ≠ '.' ∧ c ≠ 'e' ∧ c ≠ 'E') : EndsNumber (c :: rest) := by
  intro d hd
  cases Option.mem_some.mp hd
  exact h

/-- Neither a blank nor what follows a value inside a container goes on with a number. -/
theorem EndsNumber.of_blanks {rest : List Char} (hrest : EndsNumber rest)
    (h : AreBlanks blanks) : EndsNumber (blanks ++ rest) := by
  cases blanks with
  | nil => exact hrest
  | cons b blanks =>
    intro c hc
    cases Option.mem_some.mp hc
    have hb := h b List.mem_cons_self
    simp only [isSpace, Bool.or_eq_true, beq_iff_eq] at hb
    rcases hb with ((rfl | rfl) | rfl) | rfl <;> decide

/-! ### The steps of the reader -/

/-- What is no container is a scalar. -/
theorem readValue_scalar {c : Char} (hspace : isSpace c = false) (hlist : c ≠ '[')
    (hrecord : c ≠ '{') (fuel : Nat) (cs : List Char) :
    readValue (fuel + 1) (c :: cs) = readScalar (c :: cs) := by
  rw [readValue.eq_2, skipSpace_cons hspace]
  split
  · rename_i hcs
    exact absurd (List.cons.inj hcs).1 hlist
  · rename_i hcs
    exact absurd (List.cons.inj hcs).1 hrecord
  · rfl

/-- A list that has something inside is read item by item. -/
theorem readValue_list {c : Char} (hspace : isSpace c = false) (hclose : c ≠ ']')
    (hblanks : AreBlanks blanks) (fuel : Nat) (cs : List Char) :
    readValue (fuel + 1) ('[' :: (blanks ++ c :: cs))
      = (.list (readItems fuel (c :: cs)).1, (readItems fuel (c :: cs)).2) := by
  rw [readValue.eq_2, skipSpace_cons rfl]
  simp only [skipSpace_append hblanks, skipSpace_cons hspace]
  split
  · rename_i hcs
    exact absurd (List.cons.inj hcs).1 hclose
  · rfl

/-- A record that has something inside is read member by member. -/
theorem readValue_record {c : Char} (hspace : isSpace c = false) (hclose : c ≠ '}')
    (hblanks : AreBlanks blanks) (fuel : Nat) (cs : List Char) :
    readValue (fuel + 1) ('{' :: (blanks ++ c :: cs))
      = (.record (readMembers fuel (c :: cs)).1, (readMembers fuel (c :: cs)).2) := by
  rw [readValue.eq_2, skipSpace_cons rfl]
  simp only [skipSpace_append hblanks, skipSpace_cons hspace]
  split
  · rename_i hcs
    exact absurd (List.cons.inj hcs).1 hclose
  · rfl

section Parts

variable {fuel : Nat} {cs rest rest' : List Char} {value : Node} {name : String}

/-- After the last item comes the closing bracket. -/
theorem readItems_last (hvalue : readValue fuel cs = (value, some rest))
    (hclose : skipSpace rest = ']' :: rest') :
    readItems (fuel + 1) cs = ([value], some rest') := by
  rw [readItems.eq_2, hvalue]
  simp only [hclose]

/-- After any other item comes a comma. -/
theorem readItems_more (hvalue : readValue fuel cs = (value, some rest))
    (hcomma : skipSpace rest = ',' :: rest') :
    readItems (fuel + 1) cs = (value :: (readItems fuel rest').1, (readItems fuel rest').2) := by
  rw [readItems.eq_2, hvalue]
  simp only [hcomma]

/-- After the last member comes the closing brace. -/
theorem readMembers_last (hvalue : readValue fuel cs = (value, some rest))
    (hclose : skipSpace rest = '}' :: rest') :
    readMembers (fuel + 1) (quote name ++ ':' :: cs) = ([(some name, value)], some rest') := by
  have hcolon : skipSpace (':' :: cs) = ':' :: cs := skipSpace_cons rfl cs
  rw [quote, List.cons_append, List.append_assoc, readMembers.eq_2, skipSpace_cons rfl]
  simp only [List.cons_append, List.nil_append, readText_escaped, hcolon, hvalue, hclose]

/-- After any other member comes a comma. -/
theorem readMembers_more (hvalue : readValue fuel cs = (value, some rest))
    (hcomma : skipSpace rest = ',' :: rest') :
    readMembers (fuel + 1) (quote name ++ ':' :: cs)
      = ((some name, value) :: (readMembers fuel rest').1, (readMembers fuel rest').2) := by
  have hcolon : skipSpace (':' :: cs) = ':' :: cs := skipSpace_cons rfl cs
  rw [quote, List.cons_append, List.append_assoc, readMembers.eq_2, skipSpace_cons rfl]
  simp only [List.cons_append, List.nil_append, readText_escaped, hcolon, hvalue, hcomma]

end Parts

/-! ### Values -/

variable {s : Spacing}

/-- Two steps for each character of its text are enough to read a value. -/
def Reads (s : Spacing) (v : Value) : Prop :=
  ∀ (depth fuel : Nat) (rest : List Char), EndsNumber rest →
    2 * (v.spaced s depth).length ≤ fuel →
      readValue fuel (v.spaced s depth ++ rest) = (v.toNode, some rest)

/-- The text of a whole number opens with a sign or a digit. -/
theorem exists_toText_eq_cons (n : Int) :
    ∃ c cs, (Number.whole n).toText.toList = c :: cs ∧ isSpace c = false ∧ c ≠ ']' ∧ c ≠ '['
      ∧ c ≠ '{' := by
  rw [toList_toText_whole]
  split
  · obtain ⟨d, ds, hcons, -⟩ := exists_toDigits_eq_cons n.natAbs
    have hd : d.isDigit = true :=
      Nat.isDigit_of_mem_toDigits (by decide) (by decide) (hcons ▸ List.mem_cons_self)
    refine ⟨d, ds, hcons, ?_, ?_, ?_, ?_⟩
    · refine Bool.eq_false_iff.mpr fun hspace => ?_
      simp only [isSpace, Bool.or_eq_true, beq_iff_eq] at hspace
      rcases hspace with ((rfl | rfl) | rfl) | rfl <;> exact absurd hd (by decide)
    all_goals
      rintro rfl
      exact absurd hd (by decide)
  · exact ⟨'-', _, rfl, by decide⟩

/-- The text of a value opens with a character that closes nothing. -/
theorem exists_spaced_eq_cons {k : Nat} {v : Value} (hv : v.IsExact k) (depth : Nat) :
    ∃ c cs, v.spaced s depth = c :: cs ∧ isSpace c = false ∧ c ≠ ']' := by
  cases hv with
  | null => exact ⟨'n', ['u', 'l', 'l'], rfl, by decide⟩
  | flag b =>
    cases b with
    | false => exact ⟨'f', ['a', 'l', 's', 'e'], rfl, by decide⟩
    | true => exact ⟨'t', ['r', 'u', 'e'], rfl, by decide⟩
  | number hfits =>
    obtain ⟨c, cs, htext, hfree, hlist, -⟩ := exists_toText_eq_cons _
    exact ⟨c, cs, htext, hfree, hlist⟩
  | text t => exact ⟨'"', _, rfl, by decide⟩
  | @list _ items _ =>
    cases items with
    | nil => exact ⟨'[', _, rfl, by decide⟩
    | cons item items => exact ⟨'[', _, by rw [spaced], by decide⟩
  | @record _ members _ =>
    cases members with
    | nil => exact ⟨'{', _, rfl, by decide⟩
    | cons member members => exact ⟨'{', _, by rw [spaced], by decide⟩

/-- The items of a list are read up to its closing bracket. -/
theorem readItems_spaced {item : Value} {items : List Value}
    (hread : ∀ v ∈ item :: items, Reads s v) {close : List Char}
    (hclose : AreBlanks close) (depth fuel : Nat) (rest : List Char)
    (hfuel : 2 * ((item.spaced s depth).length + (spacedItems s depth items).length + 1) ≤ fuel) :
    readItems fuel
        (item.spaced s depth ++ (spacedItems s depth items ++ (close ++ ']' :: rest)))
      = (toNodes (item :: items), some rest) := by
  -- The induction is on the items after the first; fuel is left for each because a comma stands
  -- in front of it.
  induction items generalizing item fuel with
  | nil =>
    obtain ⟨fuel, rfl⟩ : ∃ k, fuel = k + 1 := ⟨fuel - 1, by omega⟩
    have hends : EndsNumber (close ++ ']' :: rest) :=
      (EndsNumber.of_cons (by decide)).of_blanks hclose
    rw [spacedItems, List.nil_append]
    refine readItems_last (hread item List.mem_cons_self depth fuel _ hends (by omega)) ?_
    rw [skipSpace_append hclose, skipSpace_cons rfl]
  | cons next items ih =>
    obtain ⟨fuel, rfl⟩ : ∃ k, fuel = k + 1 := ⟨fuel - 1, by omega⟩
    rw [List.forall_mem_cons] at hread
    rw [spacedItems, List.length_cons, List.length_append, List.length_append] at hfuel
    rw [spacedItems, List.cons_append, List.append_assoc, List.append_assoc,
      readItems_more (hread.1 depth fuel _ (EndsNumber.of_cons (by decide)) (by omega))
        (skipSpace_cons rfl _),
      readItems_blanks (s.areBlanks_newLine depth), ih hread.2 fuel (by omega)]
    rfl

/-- The members of a record are read up to its closing brace. -/
theorem readMembers_spaced {name : String} {value : Value} {members : List (String × Value)}
    (hread : ∀ m ∈ (name, value) :: members, Reads s m.2) {close : List Char}
    (hclose : AreBlanks close) (depth fuel : Nat) (rest : List Char)
    (hfuel : 2 * ((value.spaced s depth).length + (spacedMembers s depth members).length + 1)
      ≤ fuel) :
    readMembers fuel
        (quote name ++ ':' :: (s.afterColon ++ (value.spaced s depth
          ++ (spacedMembers s depth members ++ (close ++ '}' :: rest)))))
      = (toMembers ((name, value) :: members), some rest) := by
  induction members generalizing name value fuel with
  | nil =>
    obtain ⟨fuel, rfl⟩ : ∃ k, fuel = k + 1 := ⟨fuel - 1, by omega⟩
    have hends : EndsNumber (close ++ '}' :: rest) :=
      (EndsNumber.of_cons (by decide)).of_blanks hclose
    have hvalue : Reads s value := hread _ List.mem_cons_self
    rw [spacedMembers, List.nil_append]
    refine readMembers_last ((readValue_blanks s.areBlanks_afterColon _ _).trans
      (hvalue depth fuel _ hends (by omega))) ?_
    rw [skipSpace_append hclose, skipSpace_cons rfl]
  | cons next members ih =>
    obtain ⟨name', value'⟩ := next
    obtain ⟨fuel, rfl⟩ : ∃ k, fuel = k + 1 := ⟨fuel - 1, by omega⟩
    rw [List.forall_mem_cons] at hread
    simp only [spacedMembers, List.length_cons, List.length_append] at hfuel
    have hvalue : Reads s value := hread.1
    simp only [spacedMembers, List.append_assoc, List.cons_append]
    rw [readMembers_more ((readValue_blanks s.areBlanks_afterColon _ _).trans
        (hvalue depth fuel _ (EndsNumber.of_cons (by decide)) (by omega))) (skipSpace_cons rfl _),
      readMembers_blanks (s.areBlanks_newLine depth), ih hread.2 fuel (by omega)]
    rfl

/-- What is no container is read by the reader of scalars. -/
theorem Reads.of_scalar {v : Value}
    (hopens : ∀ depth, ∃ c cs, v.spaced s depth = c :: cs ∧ isSpace c = false ∧ c ≠ '[' ∧ c ≠ '{')
    (hread : ∀ depth rest, EndsNumber rest →
      readScalar (v.spaced s depth ++ rest) = (v.toNode, some rest)) : Reads s v := by
  intro depth fuel rest hrest hfuel
  obtain ⟨c, cs, htext, hspace, hlist, hrecord⟩ := hopens depth
  rw [← hread depth rest hrest]
  rw [htext, List.length_cons] at hfuel
  obtain ⟨fuel, rfl⟩ : ∃ k, fuel = k + 1 := ⟨fuel - 1, by omega⟩
  rw [htext]
  exact readValue_scalar hspace hlist hrecord fuel _

theorem Reads.list {k : Nat} {items : List Value} (hexact : ∀ v ∈ items, v.IsExact k)
    (hread : ∀ v ∈ items, Reads s v) : Reads s (.list items) := by
  intro depth fuel rest hrest hfuel
  cases items with
  | nil =>
    have hfuel : 4 ≤ fuel := hfuel
    obtain ⟨fuel, rfl⟩ : ∃ k, fuel = k + 1 := ⟨fuel - 1, by omega⟩
    rfl
  | cons item items =>
    rw [spaced] at hfuel ⊢
    simp only [List.length_cons, List.length_append, List.length_nil] at hfuel
    obtain ⟨fuel, rfl⟩ : ∃ k, fuel = k + 1 := ⟨fuel - 1, by omega⟩
    simp only [List.cons_append, List.append_assoc, List.nil_append]
    -- The first item does not close the list, so the list is not read as an empty one.
    obtain ⟨c, cs, htext, hspace, hclose⟩ :=
      exists_spaced_eq_cons (s := s) (hexact item List.mem_cons_self) (depth + 1)
    have hitems := readItems_spaced hread (s.areBlanks_newLine depth) (depth + 1) fuel rest
      (by omega)
    rw [htext, List.cons_append] at hitems ⊢
    rw [readValue_list hspace hclose (s.areBlanks_newLine (depth + 1)), hitems]
    rfl

theorem Reads.record {members : List (String × Value)} (hread : ∀ m ∈ members, Reads s m.2) :
    Reads s (.record members) := by
  intro depth fuel rest hrest hfuel
  cases members with
  | nil =>
    have hfuel : 4 ≤ fuel := hfuel
    obtain ⟨fuel, rfl⟩ : ∃ k, fuel = k + 1 := ⟨fuel - 1, by omega⟩
    rfl
  | cons member members =>
    obtain ⟨name, value⟩ := member
    rw [spaced] at hfuel ⊢
    simp only [List.length_cons, List.length_append, List.length_nil] at hfuel
    obtain ⟨fuel, rfl⟩ : ∃ k, fuel = k + 1 := ⟨fuel - 1, by omega⟩
    simp only [List.cons_append, List.append_assoc, List.nil_append]
    have hmembers := readMembers_spaced hread (s.areBlanks_newLine depth) (depth + 1) fuel rest
      (by omega)
    rw [quote, List.cons_append] at hmembers ⊢
    rw [readValue_record rfl (by decide) (s.areBlanks_newLine (depth + 1)), hmembers]
    rfl

/-- A value that was written is read again, whatever follows it. -/
theorem reads_of_isExact (s : Spacing) {k : Nat} {v : Value} (hv : v.IsExact k) : Reads s v := by
  induction hv with
  | null => exact .of_scalar (fun _ => ⟨'n', _, rfl, by decide⟩) fun _ _ _ => rfl
  | flag b =>
    cases b with
    | false => exact .of_scalar (fun _ => ⟨'f', _, rfl, by decide⟩) fun _ _ _ => rfl
    | true => exact .of_scalar (fun _ => ⟨'t', _, rfl, by decide⟩) fun _ _ _ => rfl
  | number hfits =>
    refine .of_scalar (fun _ => ?_) fun _ _ hrest => readScalar_whole hfits hrest
    obtain ⟨c, cs, htext, hspace, -, hscalar⟩ := exists_toText_eq_cons _
    exact ⟨c, cs, htext, hspace, hscalar⟩
  | text t =>
    refine .of_scalar (fun _ => ⟨'"', _, rfl, by decide⟩) fun _ rest _ => ?_
    rw [spaced, quote, List.cons_append, List.append_assoc, readScalar.eq_4]
    simp only [List.cons_append, List.nil_append, readText_escaped]
    rfl
  | list hexact ih => exact .list hexact ih
  | record _ ih => exact .record ih

/-- The text of a value is read as that value, with any blanks inside and after it. -/
theorem read_spaced (s : Spacing) {k : Nat} {v : Value} (hv : v.IsExact k)
    (hblanks : AreBlanks blanks) :
    read (String.ofList (v.spaced s 0 ++ blanks)) = ⟨v.toNode, true⟩ := by
  have hends : EndsNumber blanks := by
    have hnil : EndsNumber [] := fun c hc => absurd hc (by simp)
    rw [← List.append_nil blanks]
    exact hnil.of_blanks hblanks
  have hskip : skipSpace blanks = [] := List.dropWhile_eq_nil_iff.mpr hblanks
  have hvalue := reads_of_isExact s hv 0 (2 * (v.spaced s 0 ++ blanks).length + 2) blanks hends
    (by rw [List.length_append]; omega)
  unfold read
  simp only [String.toList_ofList, hvalue, hskip, List.isEmpty_nil]

end Json

end Tenancy.Wire

import Mathlib.Data.List.Forall2

/-!
# Lists of results, folds and stable sorts

Facts about lists that several parts of the analysis rest on:

* `mapM_eq_ok_iff`: in `Except`, mapping a list succeeds exactly when every element does, and the
  results stand in the order of the elements.
* `mapM_eq_error_iff`: it fails with the error of the first element that has one.
* `find?_of_unique`: the only element that passes a test is the one that is found.
* `findIdx?_eq_length_iff`: the place that is found is that of an element which passes the test, and
  none before it does.
* `foldl_least`: a fold that keeps the better of two elements ends with one that is at least as good
  as all.
* `filter_mergeSort`: sorting is stable, so it does not matter whether elements are left out before
  or after.
* `mergeSort_eq_of_perm`: sorting forgets the order, if elements that compare as equal are equal.
* `mergeSort_eq_of_filter_eq`: sorting forgets the order but for that of elements with one key, if
  elements that compare as equal have one.
* `eraseDups_perm`: dropping repetitions from a permutation gives a permutation.
* `filter_eraseDups`: repetitions may be dropped before or after elements are left out.
* `mergeSort_replace`: replacing an element by one that compares alike replaces it in the sorted
  list.
-/

set_option autoImplicit false

namespace Tenancy.Support

/-- A result that is passed on was there. -/
theorem bind_eq_ok_iff {ε α β : Type} {x : Except ε α} {f : α → Except ε β} {b : β} :
    (x >>= f) = .ok b ↔ ∃ a, x = .ok a ∧ f a = .ok b := by
  cases x with
  | error e =>
    constructor
    · intro h
      cases h
    · rintro ⟨a, h, -⟩
      cases h
  | ok a =>
    constructor
    · intro h
      exact ⟨a, rfl, h⟩
    · rintro ⟨a', h, hf⟩
      cases h
      exact hf

/-- An error that comes out was there, or comes from what a result was passed on to. -/
theorem bind_eq_error_iff {ε α β : Type} {x : Except ε α} {f : α → Except ε β} {e : ε} :
    (x >>= f) = .error e ↔ x = .error e ∨ ∃ a, x = .ok a ∧ f a = .error e := by
  cases x with
  | error e' =>
    constructor
    · intro h
      cases h
      exact .inl rfl
    · rintro (h | ⟨a, h, -⟩)
      · cases h
        rfl
      · cases h
  | ok a =>
    constructor
    · intro h
      exact .inr ⟨a, rfl, h⟩
    · rintro (h | ⟨a', h, hf⟩)
      · cases h
      · cases h
        exact hf

/-- A result that is changed was there before. -/
theorem map_eq_ok_iff {ε α β : Type} {x : Except ε α} {f : α → β} {b : β} :
    x.map f = .ok b ↔ ∃ a, x = .ok a ∧ f a = b := by
  cases x <;> simp [Except.map]

/-- An error does not change with the result. -/
theorem map_eq_error_iff {ε α β : Type} {x : Except ε α} {f : α → β} {e : ε} :
    x.map f = .error e ↔ x = .error e := by
  cases x <;> simp [Except.map]

/-- Mapping a list succeeds with results that belong to the elements one by one. -/
theorem mapM_eq_ok_iff {ε α β : Type} {f : α → Except ε β} {l : List α} {r : List β} :
    l.mapM f = .ok r ↔ List.Forall₂ (fun a b => f a = .ok b) l r := by
  induction l generalizing r with
  | nil =>
    rw [List.mapM_nil]
    constructor
    · intro h
      cases h
      exact .nil
    · intro h
      cases h
      rfl
  | cons a l ih =>
    rw [List.mapM_cons, bind_eq_ok_iff]
    constructor
    · rintro ⟨b, hb, h⟩
      obtain ⟨bs, hbs, h⟩ := bind_eq_ok_iff.mp h
      cases h
      exact .cons hb (ih.mp hbs)
    · intro h
      cases h with
      | cons hb hbs => exact ⟨_, hb, bind_eq_ok_iff.mpr ⟨_, ih.mpr hbs, rfl⟩⟩

/-- Mapping a list succeeds if every element has a result. -/
theorem exists_mapM_eq_ok {ε α β : Type} {f : α → Except ε β} {l : List α}
    (h : ∀ a ∈ l, ∃ b, f a = .ok b) : ∃ r, l.mapM f = .ok r := by
  induction l with
  | nil => exact ⟨[], rfl⟩
  | cons a l ih =>
    obtain ⟨b, hb⟩ := h a List.mem_cons_self
    obtain ⟨r, hr⟩ := ih fun x hx => h x (List.mem_cons_of_mem a hx)
    exact ⟨b :: r, mapM_eq_ok_iff.mpr (.cons hb (mapM_eq_ok_iff.mp hr))⟩

/-- Mapping a list fails with the error of the first element that has one. -/
theorem mapM_eq_error_iff {ε α β : Type} {f : α → Except ε β} {l : List α} {e : ε} :
    l.mapM f = .error e ↔ ∃ before a after, l = before ++ a :: after ∧
      (∀ b ∈ before, ∃ r, f b = .ok r) ∧ f a = .error e := by
  constructor
  · intro h
    induction l with
    | nil => cases h
    | cons a l ih =>
      rw [List.mapM_cons, bind_eq_error_iff] at h
      rcases h with hfa | ⟨b, hb, h⟩
      · exact ⟨[], a, l, rfl, by simp, hfa⟩
      · rcases bind_eq_error_iff.mp h with hl | ⟨r, -, h⟩
        · obtain ⟨before, c, after, rfl, hbefore, hc⟩ := ih hl
          exact ⟨a :: before, c, after, rfl, List.forall_mem_cons.mpr ⟨⟨b, hb⟩, hbefore⟩, hc⟩
        · cases h
  · rintro ⟨before, a, after, rfl, hbefore, ha⟩
    obtain ⟨r, hr⟩ := exists_mapM_eq_ok hbefore
    rw [List.mapM_append, hr, List.mapM_cons, ha]
    rfl

/-- Mapping a list fails with the error of one of its elements. -/
theorem exists_of_mapM_eq_error {ε α β : Type} {f : α → Except ε β} {l : List α} {e : ε}
    (h : l.mapM f = .error e) : ∃ a ∈ l, f a = .error e := by
  obtain ⟨before, a, after, rfl, -, ha⟩ := mapM_eq_error_iff.mp h
  exact ⟨a, by simp, ha⟩

/-- Every element of a mapped list has a result. -/
theorem exists_of_forall₂_left {α β : Type} {R : α → β → Prop} {l : List α} {r : List β}
    (h : List.Forall₂ R l r) {a : α} (ha : a ∈ l) : ∃ b ∈ r, R a b := by
  induction h with
  | nil => cases ha
  | cons hab _ ih =>
    rcases List.mem_cons.mp ha with rfl | ha
    · exact ⟨_, List.mem_cons_self, hab⟩
    · obtain ⟨b, hb, hR⟩ := ih ha
      exact ⟨b, List.mem_cons_of_mem _ hb, hR⟩

/-- Every result of a mapped list has an element. -/
theorem exists_of_forall₂_right {α β : Type} {R : α → β → Prop} {l : List α} {r : List β}
    (h : List.Forall₂ R l r) {b : β} (hb : b ∈ r) : ∃ a ∈ l, R a b := by
  induction h with
  | nil => cases hb
  | cons hab _ ih =>
    rcases List.mem_cons.mp hb with rfl | hb
    · exact ⟨_, List.mem_cons_self, hab⟩
    · obtain ⟨a, ha, hR⟩ := ih hb
      exact ⟨a, List.mem_cons_of_mem _ ha, hR⟩

/-- The results that belong to the elements one by one are all that there are. -/
theorem forall₂_eq_some_iff {α β : Type} {f : α → Option β} {l : List α} {r : List β} :
    List.Forall₂ (fun a b => f a = some b) l r ↔
      (∀ a ∈ l, ∃ b, f a = some b) ∧ l.filterMap f = r := by
  constructor
  · intro h
    induction h with
    | nil => simp
    | cons hab _ ih =>
      obtain ⟨hall, rfl⟩ := ih
      exact ⟨List.forall_mem_cons.mpr ⟨⟨_, hab⟩, hall⟩, List.filterMap_cons_some hab⟩
  · rintro ⟨hall, rfl⟩
    induction l with
    | nil => exact .nil
    | cons a l ih =>
      obtain ⟨⟨b, hb⟩, hall⟩ := List.forall_mem_cons.mp hall
      rw [List.filterMap_cons_some hb]
      exact .cons hb (ih hall)

/-- Lists that stand in an order are determined by their members. -/
theorem eq_of_pairwise_of_mem_iff {α : Type} {r : α → α → Prop} (asymm : ∀ a b, r a b → ¬ r b a)
    {l l' : List α} (h : l.Pairwise r) (h' : l'.Pairwise r) (hmem : ∀ a, a ∈ l ↔ a ∈ l') :
    l = l' := by
  have hnodup : ∀ {l : List α}, l.Pairwise r → l.Nodup := by
    intro l hl
    refine List.Pairwise.imp ?_ hl
    rintro a b hab rfl
    exact asymm a a hab hab
  have hperm : l.Perm l' := (List.perm_ext_iff_of_nodup (hnodup h) (hnodup h')).mpr hmem
  exact List.Perm.eq_of_pairwise (fun a b _ _ hab hba => absurd hba (asymm a b hab)) h h' hperm

/-- The first elements that pass a test are related in related lists, if the test respects the
relation. -/
theorem find?_forall₂ {α β : Type} {R : α → β → Prop} {p : α → Bool} {q : β → Bool}
    (hpq : ∀ a b, R a b → p a = q b) {l : List α} {r : List β} (h : List.Forall₂ R l r) :
    Option.Rel R (l.find? p) (r.find? q) := by
  induction h with
  | nil => exact .none
  | cons hab _ ih =>
    rw [List.find?_cons, List.find?_cons, hpq _ _ hab]
    split
    · exact .some hab
    · exact ih

/-- Mapping related lists gives the same error, or results that look the same through `view`. -/
theorem mapM_congr_forall₂ {ε α β γ : Type} {R : α → α → Prop} {f : α → Except ε β} (view : β → γ)
    (hf : ∀ a b, R a b → (f a).map view = (f b).map view) {l r : List α}
    (h : List.Forall₂ R l r) :
    (l.mapM f).map (List.map view) = (r.mapM f).map (List.map view) := by
  induction h with
  | nil => rfl
  | @cons a b l r hab _ ih =>
    have hhead := hf a b hab
    rw [List.mapM_cons, List.mapM_cons]
    cases hfa : f a with
    | error e =>
      cases hfb : f b with
      | error e' =>
        rw [hfa, hfb] at hhead
        cases hhead
        rfl
      | ok y =>
        rw [hfa, hfb] at hhead
        cases hhead
    | ok x =>
      cases hfb : f b with
      | error e' =>
        rw [hfa, hfb] at hhead
        cases hhead
      | ok y =>
        rw [hfa, hfb] at hhead
        have hview : view x = view y := Except.ok.inj hhead
        cases hl : l.mapM f with
        | error e =>
          cases hr : r.mapM f with
          | error e' =>
            rw [hl, hr] at ih
            cases ih
            rfl
          | ok ys =>
            rw [hl, hr] at ih
            cases ih
        | ok xs =>
          cases hr : r.mapM f with
          | error e' =>
            rw [hl, hr] at ih
            cases ih
          | ok ys =>
            rw [hl, hr] at ih
            have hviews : xs.map view = ys.map view := Except.ok.inj ih
            show Except.ok ((x :: xs).map view) = Except.ok ((y :: ys).map view)
            rw [List.map_cons, List.map_cons, hview, hviews]

/-- The only element that passes a test is the one that is found. -/
theorem find?_of_unique {α : Type} {p : α → Bool} {l : List α} {a : α} (ha : a ∈ l)
    (hp : p a = true) (hunique : ∀ b ∈ l, p b = true → b = a) : l.find? p = some a := by
  cases hfind : l.find? p with
  | none => exact absurd hp (List.find?_eq_none.mp hfind a ha)
  | some b => rw [hunique b (List.mem_of_find?_eq_some hfind) (List.find?_some hfind)]

/-- An element at a place of a list has as many elements before it. -/
theorem exists_append_of_getElem? {α : Type} {l : List α} {i : Nat} {a : α} (h : l[i]? = some a) :
    ∃ before after, l = before ++ a :: after ∧ before.length = i := by
  obtain ⟨hi, rfl⟩ := List.getElem?_eq_some_iff.mp h
  refine ⟨l.take i, l.drop (i + 1), ?_, List.length_take_of_le (Nat.le_of_lt hi)⟩
  rw [← List.drop_eq_getElem_cons hi, List.take_append_drop]

/-- An element is the first that passes a test exactly if it does, and none before it. -/
theorem findIdx?_eq_length_iff {α : Type} {p : α → Bool} {before after : List α} {a : α} :
    (before ++ a :: after).findIdx? p = some before.length ↔
      p a = true ∧ ∀ b ∈ before, p b = false := by
  induction before with
  | nil => simp [List.findIdx?_cons]
  | cons b before ih =>
    rw [List.cons_append, List.findIdx?_cons, List.forall_mem_cons]
    cases hb : p b with
    | true => simp
    | false =>
      simp only [Bool.false_eq_true, if_false, List.length_cons, Option.map_eq_some_iff,
        Nat.add_right_cancel_iff, exists_eq_right, true_and]
      exact ih

/-- A fold that keeps the better of two elements ends with an element that is at least as good as
every other. -/
theorem foldl_least {α : Type} (le : α → α → Prop) {pick : α → α → α}
    (refl : ∀ a, le a a) (trans : ∀ a b c, le a b → le b c → le a c)
    (hpick : ∀ a b, pick a b = a ∧ le a b ∨ pick a b = b ∧ le b a) (l : List α) (a : α) :
    l.foldl pick a ∈ a :: l ∧ ∀ b ∈ a :: l, le (l.foldl pick a) b := by
  induction l generalizing a with
  | nil => simpa using refl a
  | cons c l ih =>
    rw [List.foldl_cons]
    obtain ⟨hmem, hleast⟩ := ih (pick a c)
    have hhead := hleast _ List.mem_cons_self
    -- Whichever of the first two is kept, it is at least as good as the other.
    have hboth : le (l.foldl pick (pick a c)) a ∧ le (l.foldl pick (pick a c)) c := by
      rcases hpick a c with ⟨h, hle⟩ | ⟨h, hle⟩ <;> rw [h] at hhead ⊢
      · exact ⟨hhead, trans _ _ _ hhead hle⟩
      · exact ⟨trans _ _ _ hhead hle, hhead⟩
    refine ⟨?_, ?_⟩
    · rcases List.mem_cons.mp hmem with h | h
      · rcases hpick a c with ⟨hp, -⟩ | ⟨hp, -⟩ <;> rw [hp] at h <;> simp [h, hp]
      · simp [h]
    · intro b hb
      rcases List.mem_cons.mp hb with rfl | hb
      · exact hboth.1
      · rcases List.mem_cons.mp hb with rfl | hb
        · exact hboth.2
        · exact hleast b (List.mem_cons_of_mem _ hb)

/-- A list that is cut where a test first fails is cut after the elements that pass it. -/
theorem takeWhile_append_eq {α : Type} (test : α → Bool) {l₁ l₂ : List α}
    (h₁ : ∀ b ∈ l₁, test b = true) (h₂ : ∀ b ∈ l₂, test b = false) :
    (l₁ ++ l₂).takeWhile test = l₁ := by
  rw [List.takeWhile_append_of_pos h₁]
  cases l₂ with
  | nil => simp
  | cons b l₂ => simp [h₂ b List.mem_cons_self]

/-- Leaving elements out of a sorted list gives the same list as sorting what is left. -/
theorem filter_mergeSort {α : Type} {le : α → α → Bool}
    (trans : ∀ a b c, le a b → le b c → le a c) (total : ∀ a b, le a b || le b a)
    (keep : α → Bool) (l : List α) :
    (l.mergeSort le).filter keep = (l.filter keep).mergeSort le := by
  induction l with
  | nil => simp
  | cons a l ih =>
    obtain ⟨l₁, l₂, hsort, hrest, hbefore⟩ := List.mergeSort_cons trans total a l
    rw [hrest, List.filter_append] at ih
    rw [hsort, List.filter_append, List.filter_cons, List.filter_cons]
    by_cases ha : keep a = true
    · rw [if_pos ha, if_pos ha]
      obtain ⟨m₁, m₂, hsort', hrest', hbefore'⟩ :=
        List.mergeSort_cons trans total a (l.filter keep)
      have hsorted := List.pairwise_mergeSort trans total (a :: l)
      have hsorted' := List.pairwise_mergeSort trans total (a :: l.filter keep)
      rw [hsort] at hsorted
      rw [hsort'] at hsorted'
      -- In both lists `a` stands right behind the elements that it does not come before.
      have hcut : l₁.filter keep = m₁ := by
        have hbehind : ∀ b ∈ l₂.filter keep, (!le a b) = false := by
          intro b hb
          have := (List.pairwise_cons.mp (List.pairwise_append.mp hsorted).2.1).1 b
            (List.mem_of_mem_filter hb)
          simp [this]
        have hbehind' : ∀ b ∈ m₂, (!le a b) = false := by
          intro b hb
          have := (List.pairwise_cons.mp (List.pairwise_append.mp hsorted').2.1).1 b hb
          simp [this]
        calc l₁.filter keep
            = (l₁.filter keep ++ l₂.filter keep).takeWhile fun b => !le a b :=
              (takeWhile_append_eq _ (fun b hb => hbefore b (List.mem_of_mem_filter hb))
                hbehind).symm
          _ = (m₁ ++ m₂).takeWhile fun b => !le a b := by rw [ih, hrest']
          _ = m₁ := takeWhile_append_eq _ hbefore' hbehind'
      rw [hsort', hcut]
      rw [hrest', hcut] at ih
      rw [List.append_cancel_left ih]
    · rw [if_neg ha, if_neg ha]
      exact ih

/-- Of two elements one is at most the other. -/
theorem isLE_or_isLE {α : Type} (cmp : α → α → Ordering) [Std.OrientedCmp cmp] (a b : α) :
    ((cmp a b).isLE || (cmp b a).isLE) = true := by
  rw [Bool.or_eq_true]
  by_cases hle : (cmp a b).isLE = true
  · exact .inl hle
  · refine .inr ?_
    rw [Std.OrientedCmp.lt_of_not_isLE hle]
    rfl

/-- Sorting a permutation gives the same list, if elements that compare as equal are equal. -/
theorem mergeSort_eq_of_perm {α : Type} (cmp : α → α → Ordering) [Std.TransCmp cmp]
    {l l' : List α} (h : l.Perm l') (hties : ∀ a ∈ l, ∀ b ∈ l, cmp a b = .eq → a = b) :
    l.mergeSort (fun a b => (cmp a b).isLE) = l'.mergeSort fun a b => (cmp a b).isLE := by
  have hsorted : ∀ l : List α, (l.mergeSort fun a b => (cmp a b).isLE).Pairwise
      fun a b => (cmp a b).isLE = true := by
    intro l
    exact List.pairwise_mergeSort (fun a b c => Std.TransCmp.isLE_trans) (isLE_or_isLE cmp) l
  have hperm : (l.mergeSort fun a b => (cmp a b).isLE).Perm
      (l'.mergeSort fun a b => (cmp a b).isLE) :=
    (List.mergeSort_perm l _).trans (h.trans (List.mergeSort_perm l' _).symm)
  refine List.Perm.eq_of_pairwise ?_ (hsorted l) (hsorted l') hperm
  intro a b ha hb hab hba
  rw [List.mem_mergeSort] at ha hb
  exact hties a ha b (h.mem_iff.mpr hb) (Std.OrientedCmp.isLE_antisymm hab hba)

/-- Lists that agree on the elements of each key have the same members. -/
theorem mem_iff_of_filter_eq {α β : Type} [DecidableEq β] {key : α → β} {l l' : List α}
    (h : ∀ k, l.filter (fun a => key a = k) = l'.filter fun a => key a = k) (a : α) :
    a ∈ l ↔ a ∈ l' := by
  have hfilter : a ∈ l.filter (fun b => key b = key a) ↔ a ∈ l'.filter fun b => key b = key a := by
    rw [h]
  simpa using hfilter

/-- Sorted lists that agree on the elements of each key are equal, if elements that compare as equal
have one key. -/
theorem eq_of_filter_eq_of_sorted {α β : Type} [DecidableEq β] {cmp : α → α → Ordering}
    [Std.TransCmp cmp] {key : α → β} (hkey : ∀ a b, cmp a b = .eq → key a = key b) {l l' : List α}
    (hl : l.Pairwise fun a b => (cmp a b).isLE) (hl' : l'.Pairwise fun a b => (cmp a b).isLE)
    (h : ∀ k, l.filter (fun a => key a = k) = l'.filter fun a => key a = k) : l = l' := by
  induction l generalizing l' with
  | nil =>
    cases l' with
    | nil => rfl
    | cons b l' => exact absurd ((mem_iff_of_filter_eq h b).mpr List.mem_cons_self) List.not_mem_nil
  | cons a l ih =>
    have hmem := mem_iff_of_filter_eq h
    cases l' with
    | nil => exact absurd ((hmem a).mp List.mem_cons_self) List.not_mem_nil
    | cons b l' =>
      obtain ⟨ha, htail⟩ := List.pairwise_cons.mp hl
      obtain ⟨hb, htail'⟩ := List.pairwise_cons.mp hl'
      -- Each of the two first elements is in the other list as well, so neither is less.
      have hle : (cmp a b).isLE := by
        rcases List.mem_cons.mp ((hmem b).mpr List.mem_cons_self) with rfl | hb
        · exact Std.ReflCmp.isLE_rfl
        · exact ha b hb
      have hge : (cmp b a).isLE := by
        rcases List.mem_cons.mp ((hmem a).mp List.mem_cons_self) with rfl | ha
        · exact Std.ReflCmp.isLE_rfl
        · exact hb a ha
      have hsame : key a = key b := hkey a b (Std.OrientedCmp.isLE_antisymm hle hge)
      obtain rfl : a = b := by
        have hfirst := h (key a)
        rw [List.filter_cons_of_pos (by simp), List.filter_cons_of_pos (by simp [hsame])] at hfirst
        exact (List.cons.inj hfirst).1
      have hrest : ∀ k, l.filter (fun c => key c = k) = l'.filter fun c => key c = k := by
        intro k
        have hk := h k
        rw [List.filter_cons, List.filter_cons] at hk
        split at hk
        · exact (List.cons.inj hk).2
        · exact hk
      rw [ih htail htail' hrest]

/-- Sorting lists that agree on the elements of each key gives the same list, if elements that
compare as equal have one key. -/
theorem mergeSort_eq_of_filter_eq {α β : Type} [DecidableEq β] (cmp : α → α → Ordering)
    [Std.TransCmp cmp] {key : α → β} (hkey : ∀ a b, cmp a b = .eq → key a = key b) {l l' : List α}
    (h : ∀ k, l.filter (fun a => key a = k) = l'.filter fun a => key a = k) :
    l.mergeSort (fun a b => (cmp a b).isLE) = l'.mergeSort fun a b => (cmp a b).isLE := by
  have htrans : ∀ a b c, (cmp a b).isLE → (cmp b c).isLE → (cmp a c).isLE :=
    fun a b c => Std.TransCmp.isLE_trans
  refine eq_of_filter_eq_of_sorted hkey (List.pairwise_mergeSort htrans (isLE_or_isLE cmp) l)
    (List.pairwise_mergeSort htrans (isLE_or_isLE cmp) l') fun k => ?_
  rw [filter_mergeSort htrans (isLE_or_isLE cmp), filter_mergeSort htrans (isLE_or_isLE cmp), h]

/-- Dropping repetitions leaves each element once. -/
theorem nodup_eraseDups {α : Type} [BEq α] [LawfulBEq α] (l : List α) : l.eraseDups.Nodup := by
  cases l with
  | nil => exact List.nodup_nil
  | cons a l =>
    rw [List.eraseDups_cons, List.nodup_cons]
    constructor
    · intro ha
      have hne := (List.mem_filter.mp (List.mem_eraseDups.mp ha)).2
      simp at hne
    · exact nodup_eraseDups (l.filter fun b => !b == a)
termination_by l.length
decreasing_by exact Nat.lt_succ_of_le (List.length_filter_le _ _)

/-- Dropping repetitions from a permutation gives a permutation. -/
theorem eraseDups_perm {α : Type} [BEq α] [LawfulBEq α] {l l' : List α} (h : l.Perm l') :
    l.eraseDups.Perm l'.eraseDups := by
  rw [List.perm_ext_iff_of_nodup (nodup_eraseDups l) (nodup_eraseDups l')]
  intro a
  rw [List.mem_eraseDups, List.mem_eraseDups, h.mem_iff]

/-- Repetitions may be dropped before or after elements are left out. -/
theorem filter_eraseDups {α : Type} [BEq α] [LawfulBEq α] (keep : α → Bool) (l : List α) :
    l.eraseDups.filter keep = (l.filter keep).eraseDups := by
  cases l with
  | nil => rfl
  | cons a l =>
    have ih := filter_eraseDups keep (l.filter fun b => !b == a)
    rw [List.eraseDups_cons, List.filter_cons, List.filter_cons, ih, List.filter_comm]
    by_cases ha : keep a = true
    · rw [if_pos ha, if_pos ha, List.eraseDups_cons]
    · rw [if_neg ha, if_neg ha]
      -- The repetitions of `a` are left out together with it, so none of them is there to drop.
      congr 1
      refine List.filter_eq_self.mpr fun b hb => ?_
      rw [Bool.not_eq_true', beq_eq_false_iff_ne]
      rintro rfl
      exact ha (List.mem_filter.mp hb).2
termination_by l.length
decreasing_by exact Nat.lt_succ_of_le (List.length_filter_le _ _)

/-- Replacing an element by one that compares alike replaces it in the sorted list. -/
theorem mergeSort_replace {α : Type} (le : α → α → Bool) (a a' : α)
    (hleft : ∀ b, le a b = le a' b) (hright : ∀ b, le b a = le b a') (before after : List α) :
    ∃ l₁ l₂, (before ++ a :: after).mergeSort le = l₁ ++ a :: l₂ ∧
      (before ++ a' :: after).mergeSort le = l₁ ++ a' :: l₂ := by
  -- Both lists are sorted at once, as a list of pairs that are equal but for one.
  let pairs := before.map (fun b => (b, b)) ++ (a, a') :: after.map fun b => (b, b)
  let sorted := pairs.mergeSort fun b c => le b.1 c.1
  have halike : ∀ b ∈ pairs, ∀ c ∈ pairs, le b.1 c.1 = le b.2 c.2 := by
    have hpair : ∀ b ∈ pairs, (∀ c, le b.1 c = le b.2 c) ∧ ∀ c, le c b.1 = le c b.2 := by
      intro b hb
      simp only [pairs, List.mem_append, List.mem_map, List.mem_cons] at hb
      rcases hb with ⟨c, -, rfl⟩ | rfl | ⟨c, -, rfl⟩
      · exact ⟨fun _ => rfl, fun _ => rfl⟩
      · exact ⟨hleft, hright⟩
      · exact ⟨fun _ => rfl, fun _ => rfl⟩
    intro b hb c hc
    rw [(hpair b hb).1, (hpair c hc).2]
  have hfirst : sorted.map Prod.fst = (before ++ a :: after).mergeSort le := by
    have hpairs : pairs.map Prod.fst = before ++ a :: after := by simp [pairs, Function.comp_def]
    rw [← hpairs]
    exact List.map_mergeSort fun _ _ _ _ => rfl
  have hsecond : sorted.map Prod.snd = (before ++ a' :: after).mergeSort le := by
    have hpairs : pairs.map Prod.snd = before ++ a' :: after := by simp [pairs, Function.comp_def]
    rw [← hpairs]
    exact List.map_mergeSort halike
  obtain ⟨s₁, s₂, hsorted⟩ : ∃ s₁ s₂, sorted = s₁ ++ (a, a') :: s₂ :=
    List.append_of_mem (List.mem_mergeSort.mpr (by simp [pairs]))
  have hothers : (s₁ ++ s₂).Perm ((before ++ after).map fun b => (b, b)) := by
    have hperm : (s₁ ++ (a, a') :: s₂).Perm pairs := hsorted ▸ List.mergeSort_perm pairs _
    rw [List.map_append]
    exact ((List.perm_middle.symm.trans hperm).trans List.perm_middle).cons_inv
  have hsame : ∀ s : List (α × α), s ⊆ s₁ ++ s₂ → s.map Prod.fst = s.map Prod.snd := by
    intro s hs
    refine List.map_congr_left fun b hb => ?_
    obtain ⟨c, -, rfl⟩ := List.mem_map.mp (hothers.mem_iff.mp (hs hb))
    rfl
  refine ⟨s₁.map Prod.fst, s₂.map Prod.fst, ?_, ?_⟩
  · rw [← hfirst, hsorted, List.map_append, List.map_cons]
  · rw [← hsecond, hsorted, List.map_append, List.map_cons,
      hsame s₁ (List.subset_append_left s₁ s₂), hsame s₂ (List.subset_append_right s₁ s₂)]

/-- Lists of at most one element are permutations of each other only if they are equal. -/
theorem eq_of_perm_of_length_le_one {α : Type} {l l' : List α} (h : l.Perm l')
    (hl : l.length ≤ 1) : l = l' := by
  match l, hl with
  | [], _ => exact h.nil_eq
  | [a], _ => exact h.singleton_eq

end Tenancy.Support

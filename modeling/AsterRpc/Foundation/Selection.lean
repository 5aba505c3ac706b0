import Mathlib

/-!
# Selections

Choosing a few elements of a list.  `combinations` enumerates the choices of a
given size in the order of the list; `bestOf` keeps the first choice that no other
beats, `maxByKey` the last with the greatest key; `sortOn` is a stable sort by a
key; and filling up a set from a list takes the first elements that are not in it,
so that filling up again what was partly taken away finds the same elements.
-/

namespace AsterRpc.Foundation

open List

universe u v

/-! ### Combinations -/

section

variable {α : Type u} {xs : List α} {held : Option α} {best : α}

/-- The sublists of a given length, in the order of the list. -/
def combinations : ℕ → List α → List (List α)
  | 0, _ => [[]]
  | _ + 1, [] => []
  | k + 1, x :: xs => (combinations k xs).map (x :: ·) ++ combinations (k + 1) xs

/-- The same choices as `List.sublistsLen`, from the other end. -/
theorem combinations_eq (k : ℕ) (xs : List α) :
    combinations k xs = (xs.sublistsLen k).reverse := by
  induction xs generalizing k with
  | nil => cases k <;> rfl
  | cons x xs ih =>
    cases k with
    | zero => simp [combinations]
    | succ => rw [combinations, ih, ih, sublistsLen_succ_cons, reverse_append,
        map_reverse]

theorem mem_combinations {k : ℕ} {ys : List α} :
    ys ∈ combinations k xs ↔ List.Sublist ys xs ∧ ys.length = k := by
  rw [combinations_eq, mem_reverse, mem_sublistsLen]

/-! ### The best of a list -/

/-- One turn: a candidate that beats the one held takes its place. -/
def keepBest (beats : α → α → Bool) (held : Option α) (x : α) : Option α :=
  match held with
  | none => some x
  | some best => if beats x best then some x else some best

/-- The candidate that is held at the end. -/
def bestOf (beats : α → α → Bool) (xs : List α) : Option α := xs.foldl (keepBest beats) none

variable {beats : α → α → Bool}

theorem foldl_keepBest_mem (h : xs.foldl (keepBest beats) held = some best) :
    best ∈ xs ∨ held = some best := by
  induction xs generalizing held with
  | nil => exact .inr h
  | cons x xs ih =>
    rcases ih h with hmem | hturn
    · exact .inl (mem_cons_of_mem x hmem)
    · unfold keepBest at hturn
      split at hturn
      · cases hturn
        exact .inl mem_cons_self
      · split_ifs at hturn
        · cases hturn
          exact .inl mem_cons_self
        · exact .inr hturn

theorem bestOf_mem (h : bestOf beats xs = some best) : best ∈ xs :=
  (foldl_keepBest_mem h).resolve_right (by simp)

theorem bestOf_eq_none : bestOf beats xs = none ↔ xs = [] := by
  have hsome : ∀ (ys : List α) (y : α), ys.foldl (keepBest beats) (some y) ≠ none := by
    intro ys
    induction ys with
    | nil => simp
    | cons x ys ih =>
      intro y
      rw [foldl_cons, keepBest]
      split_ifs
      · exact ih x
      · exact ih y
  cases xs with
  | nil => simp [bestOf]
  | cons x xs => simpa [bestOf, keepBest] using hsome xs x

/-- What does not exceed a candidate does not exceed what is held at the end, when a turn never
takes a lesser candidate than it drops. -/
theorem foldl_keepBest_above {Q : α → α → Prop} (hrefl : ∀ x, Q x x)
    (hraise : ∀ x b, beats x b = true → ∀ y, Q y b → Q y x)
    (hkeep : ∀ x b, beats x b = false → Q x b)
    (h : xs.foldl (keepBest beats) held = some best) :
    (∀ x ∈ xs, Q x best) ∧ ∀ first, held = some first → ∀ x, Q x first → Q x best := by
  induction xs generalizing held with
  | nil =>
    refine ⟨by simp, ?_⟩
    rintro first rfl x hx
    rwa [← Option.some.inj h]
  | cons x xs ih =>
    obtain ⟨habove, hkept⟩ := ih h
    cases held with
    | none => exact ⟨forall_mem_cons.mpr ⟨hkept x rfl x (hrefl x), habove⟩, by simp⟩
    | some first =>
      cases hbeats : beats x first with
      | true =>
        have hturn := hkept x (by simp [keepBest, hbeats])
        refine ⟨forall_mem_cons.mpr ⟨hturn x (hrefl x), habove⟩, ?_⟩
        rintro _ ⟨⟩ y hy
        exact hturn y (hraise x first hbeats y hy)
      | false =>
        have hturn := hkept first (by simp [keepBest, hbeats])
        refine ⟨forall_mem_cons.mpr ⟨hturn x (hkeep x first hbeats), habove⟩, ?_⟩
        rintro _ ⟨⟩ y hy
        exact hturn y hy

/-- **The best of a list is one of it, and none of it beats it**, for a relation that is
irreflexive and transitive. -/
theorem bestOf_eq_some (hirrefl : ∀ x, beats x x = false)
    (htrans : ∀ x y z, beats x y = true → beats y z = true → beats x z = true)
    (h : bestOf beats xs = some best) : best ∈ xs ∧ ∀ x ∈ xs, beats x best = false := by
  refine ⟨bestOf_mem h, (foldl_keepBest_above (Q := fun x b => beats x b = false) hirrefl ?_
    (fun _ _ hno => hno) h).1⟩
  intro x b hbeats y hy
  by_contra hyx
  have hyb := htrans y x b (by simpa using hyx) hbeats
  rw [hy] at hyb
  cases hyb

/-! ### The last maximum of a list -/

variable {κ : Type*}

/-- `Iterator::max_by_key`: of equal maxima, the last. -/
def maxByKey [Ord κ] (key : α → κ) (xs : List α) : Option α :=
  bestOf (fun x best => compare (key x) (key best) != .lt) xs

variable [LinearOrder κ] {key : α → κ}

theorem maxByKey_le (h : maxByKey key xs = some best) : ∀ x ∈ xs, key x ≤ key best := by
  refine (foldl_keepBest_above (Q := fun x b => key x ≤ key b) (fun _ => le_rfl) ?_ ?_ h).1
  · intro x b hle y hy
    exact hy.trans (compare_ge_iff_ge.mp (bne_iff_ne.mp hle))
  · intro x b hlt
    exact (compare_lt_iff_lt.mp (by simpa using hlt)).le

/-- An element above every other one is the maximum. -/
theorem maxByKey_eq_of_lt (hmem : best ∈ xs) (hlt : ∀ x ∈ xs, x = best ∨ key x < key best) :
    maxByKey key xs = some best := by
  cases hmax : maxByKey key xs with
  | none =>
    rw [bestOf_eq_none.mp hmax] at hmem
    cases hmem
  | some top =>
    rcases hlt top (bestOf_mem hmax) with heq | hbelow
    · rw [heq]
    · exact absurd (maxByKey_le hmax best hmem) (not_le.mpr hbelow)

end

/-! ### A stable sort by a key -/

section

variable {α : Type u} {κ : Type v} [Ord κ] {key : α → κ} {xs : List α} {r : α → α → Prop}

/-- Sort by a key; equal keys stay in their order. -/
def sortOn (key : α → κ) (xs : List α) : List α :=
  xs.insertionSort fun a b => compare (key a) (key b) ≠ .gt

theorem sortOn_perm (key : α → κ) (xs : List α) : (sortOn key xs).Perm xs :=
  perm_insertionSort _ xs

/-- Sorting looks at the keys alone. -/
theorem sortOn_map {β : Type u} (key : β → κ) (f : α → β) (xs : List α) :
    sortOn key (xs.map f) = (sortOn (fun a => key (f a)) xs).map f :=
  (map_insertionSort _ _ f xs fun _ _ _ _ => Iff.rfl).symm

/-- What is in order stays as it is. -/
theorem sortOn_eq_self (h : xs.Pairwise fun a b => compare (key a) (key b) ≠ .gt) :
    sortOn key xs = xs :=
  List.Pairwise.insertionSort_eq h

variable [Std.TransOrd κ]

theorem not_gt_trans (key : α → κ) : IsTrans α fun a b : α => compare (key a) (key b) ≠ .gt := by
  refine ⟨fun a b c hab hbc => ?_⟩
  exact Ordering.isLE_iff_ne_gt.mp (Std.TransOrd.isLE_trans (Ordering.isLE_iff_ne_gt.mpr hab)
    (Ordering.isLE_iff_ne_gt.mpr hbc))

theorem sortOn_pairwise (key : α → κ) (xs : List α) :
    (sortOn key xs).Pairwise fun a b => compare (key a) (key b) ≠ .gt := by
  have htotal : Std.Total fun a b : α => compare (key a) (key b) ≠ .gt := by
    refine ⟨fun a b => ?_⟩
    rw [Std.OrientedOrd.eq_swap (a := key b)]
    cases compare (key a) (key b) <;> simp
  have htrans := not_gt_trans key
  exact pairwise_insertionSort _ xs

/-- **Distinct keys have one order**: the same elements in any arrangement sort alike. -/
theorem sortOn_eq_of_perm [Std.LawfulEqOrd κ] {ys : List α} (h : xs.Perm ys)
    (hkey : ∀ a ∈ xs, ∀ b ∈ xs, key a = key b → a = b) : sortOn key xs = sortOn key ys := by
  have hperm : (sortOn key xs).Perm (sortOn key ys) :=
    (sortOn_perm key xs).trans (h.trans (sortOn_perm key ys).symm)
  refine List.Perm.eq_of_pairwise ?_ (sortOn_pairwise key xs) (sortOn_pairwise key ys) hperm
  intro a b ha hb hab hba
  have ha' : a ∈ xs := (sortOn_perm key xs).mem_iff.mp ha
  have hb' : b ∈ xs := h.mem_iff.mpr ((sortOn_perm key ys).mem_iff.mp hb)
  refine hkey a ha' b hb' (Std.LawfulEqOrd.eq_of_compare ?_)
  rw [Std.OrientedOrd.eq_swap (a := key b)] at hba
  cases hcompare : compare (key a) (key b) with
  | lt => simp [hcompare] at hba
  | eq => rfl
  | gt => exact absurd hcompare hab

/-- An element that may stand before a whole list is inserted before it. -/
theorem orderedInsert_of_forall [DecidableRel r] {a : α} (h : ∀ x ∈ xs, r a x) :
    xs.orderedInsert r a = a :: xs := by
  cases xs with
  | nil => rfl
  | cons x => simp [orderedInsert, h x mem_cons_self]

theorem filter_orderedInsert [DecidableRel r] [IsTrans α r] (p : α → Bool) (a : α)
    (h : xs.Pairwise r) :
    (xs.orderedInsert r a).filter p =
      if p a then (xs.filter p).orderedInsert r a else xs.filter p := by
  induction xs with
  | nil => cases hp : p a <;> simp [hp]
  | cons x xs ih =>
    obtain ⟨hx, hxs⟩ := pairwise_cons.mp h
    by_cases hax : r a x
    · have hall : ∀ y ∈ (x :: xs).filter p, r a y := by
        intro y hy
        rcases mem_cons.mp (mem_filter.mp hy).1 with rfl | hy
        · exact hax
        · exact IsTrans.trans a x y hax (hx y hy)
      rw [orderedInsert_of_forall hall, orderedInsert, if_pos hax, filter_cons]
    · rw [orderedInsert, if_neg hax, filter_cons, filter_cons, ih hxs]
      cases hpa : p a <;> cases hpx : p x <;> simp [hax]

/-- **A stable sort commutes with a filter.** -/
theorem filter_sortOn (key : α → κ) (p : α → Bool) (xs : List α) :
    (sortOn key xs).filter p = sortOn key (xs.filter p) := by
  have htrans := not_gt_trans key
  induction xs with
  | nil => rfl
  | cons x xs ih =>
    have hcons : sortOn key (x :: xs) =
        (sortOn key xs).orderedInsert (fun a b => compare (key a) (key b) ≠ .gt) x := rfl
    rw [hcons, filter_orderedInsert p x (sortOn_pairwise key xs), ih, filter_cons]
    cases p x <;> rfl

end

/-! ### Filling up -/

section

variable {α : Type u} [DecidableEq α] {size : ℕ} {s : Finset α} {xs : List α}

/-- Put elements of the list into the set until it has the size that is asked for. -/
def fillUp (size : ℕ) (s : Finset α) (xs : List α) : Finset α :=
  xs.foldl (fun s x => if s.card ≥ size then s else insert x s) s

/-- Filling up takes the first elements of the list, as many as there are places. -/
theorem fillUp_eq (hnodup : xs.Nodup) (hnew : ∀ x ∈ xs, x ∉ s) :
    fillUp size s xs = s ∪ (xs.take (size - s.card)).toFinset := by
  unfold fillUp
  induction xs generalizing s with
  | nil => simp
  | cons x xs ih =>
    obtain ⟨hx, hxs⟩ := nodup_cons.mp hnodup
    rw [foldl_cons]
    split_ifs with hfull
    · have hzero : size - s.card = 0 := by omega
      rw [ih hxs fun y hy => hnew y (mem_cons_of_mem x hy), hzero]
      simp
    · have hcard : (insert x s).card = s.card + 1 :=
        Finset.card_insert_of_notMem (hnew x mem_cons_self)
      have hplaces : size - s.card = (size - (insert x s).card) + 1 := by omega
      have hfresh : ∀ y ∈ xs, y ∉ insert x s := by
        intro y hy hmem
        rcases Finset.mem_insert.mp hmem with rfl | hmem
        · exact hx hy
        · exact hnew y (mem_cons_of_mem x hy) hmem
      rw [ih hxs hfresh, hplaces, take_succ_cons, toFinset_cons, Finset.insert_union,
        Finset.union_insert]

/-- **Filling up again.**  Fill a set up from what a list has and the set has not, take some of the
elements that were put in away again, and fill up anew: the same set comes out. -/
theorem fillUp_again (hnodup : xs.Nodup) (p : α → Bool)
    (hfull : (fillUp size s (xs.filter fun x => decide (x ∉ s))).card = size)
    (hkept : ∀ x ∈ s, p x = true) :
    let filled := fillUp size s (xs.filter fun x => decide (x ∉ s))
    let kept := filled.filter fun x => p x = true
    fillUp size kept (xs.filter fun x => decide (x ∉ kept)) = filled := by
  intro filled kept
  have hrest : (xs.filter fun x => decide (x ∉ s)).Nodup := hnodup.filter _
  have hfilled : filled = s ∪ ((xs.filter fun x => decide (x ∉ s)).take (size - s.card)).toFinset :=
    fillUp_eq hrest (by simp)
  set rest := xs.filter fun x => decide (x ∉ s) with hrestdef
  set front := rest.take (size - s.card) with hfront
  have hsplit : rest = front ++ rest.drop (size - s.card) := (take_append_drop _ _).symm
  have hdisjoint : ∀ x ∈ front, x ∉ s := by
    intro x hx
    simpa using (mem_filter.mp (mem_of_mem_take hx)).2
  have hfrontNodup : front.Nodup := hrest.sublist (take_sublist _ _)
  -- what is kept: the set, and the elements of the front that satisfy the predicate
  have hkeptEq : kept = s ∪ (front.filter p).toFinset := by
    ext x
    simp only [kept, hfilled, Finset.mem_filter, Finset.mem_union, mem_toFinset,
      mem_filter]
    constructor
    · rintro ⟨hs | hx, hp⟩
      · exact .inl hs
      · exact .inr ⟨hx, hp⟩
    · rintro (hs | ⟨hx, hp⟩)
      · exact ⟨.inl hs, hkept x hs⟩
      · exact ⟨.inr hx, hp⟩
  -- what is left to choose from: the front without them, then the others
  have hagain : (xs.filter fun x => decide (x ∉ kept)) =
      front.filter (fun x => !p x) ++ rest.drop (size - s.card) := by
    have hsame : (xs.filter fun x => decide (x ∉ kept)) =
        rest.filter fun x => decide (x ∉ (front.filter p).toFinset) := by
      rw [hrestdef, filter_filter]
      refine filter_congr fun x _ => ?_
      simp only [hkeptEq, Finset.mem_union, not_or, Bool.decide_and]
      exact Bool.and_comm _ _
    rw [hsame]
    nth_rewrite 1 [hsplit]
    rw [filter_append]
    congr 1
    · refine filter_congr fun x hx => ?_
      simp [hx]
    · refine filter_eq_self.mpr fun x hx => ?_
      have hnot : x ∉ front := fun hin =>
        disjoint_left.mp (disjoint_of_nodup_append (hsplit ▸ hrest)) hin hx
      simp [hnot]
  have hcard : s.card + front.length = size := by
    rw [← hfull]
    have hunion : (s ∪ front.toFinset).card = s.card + front.toFinset.card :=
      Finset.card_union_of_disjoint (Finset.disjoint_left.mpr fun x hs hx =>
        hdisjoint x (mem_toFinset.mp hx) hs)
    have hfilledCard : filled.card = s.card + front.length := by
      rw [hfilled, hunion, toFinset_card_of_nodup hfrontNodup]
    exact hfilledCard.symm
  have hkeptCard : kept.card = s.card + (front.filter p).length := by
    rw [hkeptEq, Finset.card_union_of_disjoint, toFinset_card_of_nodup (hfrontNodup.filter _)]
    exact Finset.disjoint_left.mpr fun x hs hx =>
      hdisjoint x (mem_filter.mp (mem_toFinset.mp hx)).1 hs
  have hplaces : size - kept.card = (front.filter fun x => !p x).length := by
    have hparts := length_eq_length_filter_add (l := front) p
    omega
  rw [fillUp_eq (hnodup.filter _) (by simp), hplaces, hagain, take_left, hkeptEq, hfilled,
    Finset.union_assoc, ← toFinset_append]
  congr 1
  ext x
  simp only [mem_toFinset, mem_append, mem_filter, Bool.not_eq_true']
  cases p x <;> simp

end

end AsterRpc.Foundation

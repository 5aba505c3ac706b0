import AsterRpc.Foundation.Selection

/-!
# Sorting by a key

A list kept in key order is cut by any bound into what lies at or below it and
what lies above.  A stable sort of such a list and one more element puts the
element between the two parts.
-/

namespace AsterRpc.Foundation

open List

universe u

variable {α : Type u}

/-- In key order. -/
def Ordered (key : α → ℕ) (xs : List α) : Prop := xs.Pairwise fun a b => key a ≤ key b

/-- The elements at or below a bound. -/
def upTo (key : α → ℕ) (bound : ℕ) (xs : List α) : List α := xs.filter fun a => key a ≤ bound

/-- The elements above a bound. -/
def beyond (key : α → ℕ) (bound : ℕ) (xs : List α) : List α := xs.filter fun a => bound < key a

variable {key : α → ℕ} {xs ys : List α} {a x : α} {bound : ℕ}

theorem mem_upTo : a ∈ upTo key bound xs ↔ a ∈ xs ∧ key a ≤ bound := by simp [upTo]

theorem mem_beyond : a ∈ beyond key bound xs ↔ a ∈ xs ∧ bound < key a := by simp [beyond]

theorem beyond_append : beyond key bound (xs ++ ys) = beyond key bound xs ++ beyond key bound ys :=
  filter_append _ _

theorem upTo_cons_of_le (h : key a ≤ bound) :
    upTo key bound (a :: xs) = a :: upTo key bound xs := by
  simp [upTo, h]

theorem beyond_cons_of_le (h : key a ≤ bound) :
    beyond key bound (a :: xs) = beyond key bound xs := by
  simp [beyond, h]

theorem upTo_eq_nil (h : ∀ a ∈ xs, bound < key a) : upTo key bound xs = [] :=
  filter_eq_nil_iff.mpr fun a ha => by simpa using h a ha

theorem beyond_eq_self (h : ∀ a ∈ xs, bound < key a) : beyond key bound xs = xs :=
  filter_eq_self.mpr fun a ha => by simpa using h a ha

theorem beyond_eq_nil (h : ∀ a ∈ xs, key a ≤ bound) : beyond key bound xs = [] :=
  filter_eq_nil_iff.mpr fun a ha => by simpa using h a ha

theorem upTo_eq_self (h : ∀ a ∈ xs, key a ≤ bound) : upTo key bound xs = xs :=
  filter_eq_self.mpr fun a ha => by simpa using h a ha

namespace Ordered

theorem above_of_head (h : Ordered key (a :: xs)) (ha : bound < key a) :
    ∀ b ∈ a :: xs, bound < key b := by
  exact forall_mem_cons.mpr ⟨ha, fun b hb => ha.trans_le ((pairwise_cons.mp h).1 b hb)⟩

theorem tail (h : Ordered key (a :: xs)) : Ordered key xs := (pairwise_cons.mp h).2

/-- A list in order is what lies at or below a bound, then what lies above it. -/
theorem cut (h : Ordered key xs) (bound : ℕ) : xs = upTo key bound xs ++ beyond key bound xs := by
  induction xs with
  | nil => rfl
  | cons a rest ih =>
    by_cases ha : key a ≤ bound
    · rw [upTo_cons_of_le ha, beyond_cons_of_le ha, cons_append, ← ih h.tail]
    · have hall := h.above_of_head (Nat.lt_of_not_le ha)
      rw [upTo_eq_nil hall, beyond_eq_self hall, nil_append]

end Ordered

theorem sortOn_ordered (key : α → ℕ) (xs : List α) : Ordered key (sortOn key xs) :=
  (sortOn_pairwise key xs).imp Nat.compare_ne_gt.mp

/-- An element added at the end goes behind every key that is not above its own. -/
theorem sortOn_concat (h : Ordered key xs) :
    sortOn key (xs ++ [x]) = upTo key (key x) xs ++ x :: beyond key (key x) xs := by
  induction xs with
  | nil => rfl
  | cons a rest ih =>
    have hsort : sortOn key (a :: rest ++ [x]) = (sortOn key (rest ++ [x])).orderedInsert
        (fun a b => compare (key a) (key b) ≠ .gt) a := rfl
    rw [hsort]
    by_cases hax : key a ≤ key x
    · rw [ih h.tail, upTo_cons_of_le hax, beyond_cons_of_le hax, cons_append]
      cases hlow : upTo key (key x) rest with
      | nil => simp [Nat.compare_ne_gt.mpr hax]
      | cons b =>
        have hb : b ∈ rest := (mem_upTo.mp (hlow ▸ mem_cons_self)).1
        have hab : key a ≤ key b := (pairwise_cons.mp h).1 b hb
        simp [Nat.compare_ne_gt.mpr hab]
    · -- everything from here on is above the new key
      have hall := h.above_of_head (Nat.lt_of_not_le hax)
      have hrest : ∀ b ∈ rest, key x < key b := fun b hb => hall b (mem_cons_of_mem a hb)
      rw [ih h.tail, upTo_eq_nil hall, beyond_eq_self hall, upTo_eq_nil hrest, beyond_eq_self hrest,
        nil_append, nil_append, orderedInsert, if_neg (mt Nat.compare_ne_gt.mp hax)]
      rw [orderedInsert_of_forall fun b hb =>
        Nat.compare_ne_gt.mpr ((pairwise_cons.mp h).1 b hb)]

end AsterRpc.Foundation

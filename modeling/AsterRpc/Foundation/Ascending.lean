import AsterRpc.Foundation.Selection
import AsterRpc.Foundation.Table

/-!
# Going through keys in order

An ordered set is walked from its least element to its greatest.  The walk is a
function of the set, because the order decides equality: two listings of one set
sort to the same list.
-/

namespace AsterRpc.Foundation

open Std

universe u

variable {κ : Type u} [Ord κ]

omit [Ord κ] in
theorem nodup_of_subperm {xs ys : List κ} (h : List.Subperm xs ys) (hys : ys.Nodup) :
    xs.Nodup := by
  obtain ⟨zs, hperm, hsub⟩ := h
  exact hperm.nodup_iff.mp (hys.sublist hsub)

/-- Sort ascending, by insertion: `sortOn` with the element itself as its key. -/
def sortAscending (xs : List κ) : List κ := xs.insertionSort fun a b => compare a b ≠ .gt

theorem sortAscending_perm (xs : List κ) : (sortAscending xs).Perm xs := sortOn_perm id xs

variable [TransOrd κ]

theorem sortAscending_pairwise (xs : List κ) :
    (sortAscending xs).Pairwise fun a b => compare a b ≠ .gt := sortOn_pairwise id xs

/-- What is taken from the front is not above what is left. -/
theorem sortAscending_take {xs : List κ} {k : ℕ} {a b : κ} (ha : a ∈ (sortAscending xs).take k)
    (hb : b ∈ xs) (hleft : b ∉ (sortAscending xs).take k) : compare a b ≠ .gt := by
  have hsort := sortAscending_pairwise xs
  rw [← List.take_append_drop k (sortAscending xs), List.pairwise_append] at hsort
  have hmem := (sortAscending_perm xs).mem_iff.mpr hb
  rw [← List.take_append_drop k (sortAscending xs), List.mem_append] at hmem
  exact hsort.2.2 a ha b (hmem.resolve_left hleft)

variable [LawfulEqOrd κ]

theorem sortAscending_eq_of_perm {xs ys : List κ} (h : xs.Perm ys) :
    sortAscending xs = sortAscending ys :=
  sortOn_eq_of_perm h fun _ _ _ _ hkey => hkey

/-- The elements of a set, least first. -/
def ascending (s : Finset κ) : List κ :=
  Quot.liftOn s.val sortAscending fun _ _ h => sortAscending_eq_of_perm h

@[simp] theorem mem_ascending {s : Finset κ} {k : κ} : k ∈ ascending s ↔ k ∈ s := by
  obtain ⟨⟨xs⟩, hs⟩ := s
  exact (sortAscending_perm xs).mem_iff

theorem ascending_nodup (s : Finset κ) : (ascending s).Nodup := by
  obtain ⟨⟨xs⟩, hs⟩ := s
  exact (sortAscending_perm xs).nodup_iff.mpr hs

theorem length_ascending (s : Finset κ) : (ascending s).length = s.card := by
  obtain ⟨⟨xs⟩, hs⟩ := s
  exact (sortAscending_perm xs).length_eq

omit [TransOrd κ] in
/-- A list in order without repetitions goes strictly up. -/
theorem pairwise_lt_of_nodup {xs : List κ} (h : xs.Pairwise fun a b => compare a b ≠ .gt)
    (hnodup : xs.Nodup) : xs.Pairwise fun a b => compare a b = .lt := by
  refine (h.and hnodup).imp ?_
  intro a b hab
  obtain ⟨hle, hne⟩ := hab
  cases hcmp : compare a b with
  | lt => rfl
  | eq => exact absurd (LawfulEqOrd.eq_of_compare hcmp) hne
  | gt => exact absurd hcmp hle

theorem ascending_pairwise (s : Finset κ) :
    (ascending s).Pairwise fun a b => compare a b = .lt := by
  refine pairwise_lt_of_nodup ?_ (ascending_nodup s)
  obtain ⟨⟨xs⟩, hs⟩ := s
  exact sortAscending_pairwise xs

@[simp] theorem toFinset_ascending [DecidableEq κ] (s : Finset κ) : (ascending s).toFinset = s := by
  ext k
  simp

end AsterRpc.Foundation

import Mathlib

/-!
# Index sets without a hole

The indices a log retains: with any two of them everything between, and, once a
prefix was purged, nothing at or below the floor and everything from there on.
Cutting either end off keeps such a set, and so does writing a stretch that leaves
no hole on either side.
-/

namespace AsterRpc.Foundation

open List

/-- **No hole**, above an optional floor. -/
structure Gapless (floor : Option ℕ) (D : Set ℕ) : Prop where
  between : ∀ i ∈ D, ∀ k ∈ D, ∀ j, i ≤ j → j ≤ k → j ∈ D
  above : ∀ m, floor = some m → ∀ k ∈ D, m < k
  continues : ∀ m, floor = some m → ∀ k ∈ D, ∀ j, m < j → j ≤ k → j ∈ D

namespace Gapless

variable {floor : Option ℕ} {D : Set ℕ}

theorem empty (floor : Option ℕ) : Gapless floor ∅ :=
  ⟨fun _ h => h.elim, fun _ _ _ h => h.elim, fun _ _ _ h => h.elim⟩

/-- A suffix is cut off. -/
theorem below (h : Gapless floor D) (bound : ℕ) : Gapless floor {i ∈ D | i < bound} := by
  refine ⟨?_, ?_, ?_⟩
  · rintro i ⟨hi, -⟩ k ⟨hk, hbound⟩ j hij hjk
    exact ⟨h.between i hi k hk j hij hjk, by omega⟩
  · rintro m hm k ⟨hk, -⟩
    exact h.above m hm k hk
  · rintro m hm k ⟨hk, hbound⟩ j hmj hjk
    exact ⟨h.continues m hm k hk j hmj hjk, by omega⟩

/-- A prefix is cut off, and its end is the new floor: it may not be below the old one, and without
one it must reach what is there. -/
theorem beyond (h : Gapless floor D) {point : ℕ} (hfloor : ∀ m, floor = some m → m ≤ point)
    (hreach : floor = none → ∀ k ∈ D, ∃ i ∈ D, i ≤ point + 1) :
    Gapless (some point) {i ∈ D | point < i} := by
  refine ⟨?_, ?_, ?_⟩
  · rintro i ⟨hi, hpoint⟩ k ⟨hk, -⟩ j hij hjk
    exact ⟨h.between i hi k hk j hij hjk, by omega⟩
  · rintro m ⟨⟩ k ⟨-, hk⟩
    exact hk
  · rintro m ⟨⟩ k ⟨hk, -⟩ j hpoint hjk
    refine ⟨?_, hpoint⟩
    cases floor with
    | none =>
      obtain ⟨i, hi, hle⟩ := hreach rfl k hk
      exact h.between i hi k hk j (by omega) hjk
    | some m =>
      have hm := hfloor m rfl
      exact h.continues m rfl k hk j (by omega) hjk

/-- A stretch is written: it lies above the floor, it starts no further than one past the floor or
past something that is there, and what is above it continues it. -/
theorem write (h : Gapless floor D) {first last : ℕ}
    (habove : ∀ m, floor = some m → m < first)
    (hfloor : ∀ m, floor = some m → first ≤ m + 1 ∨ ∃ t ∈ D, first ≤ t + 1)
    (hlower : ∀ k ∈ D, ∃ t ∈ D, first ≤ t + 1) (hupper : ∀ k ∈ D, last < k → last + 1 ∈ D) :
    Gapless floor {i | i ∈ D ∨ first ≤ i ∧ i ≤ last} := by
  refine ⟨?_, ?_, ?_⟩
  · rintro i (hi | hi) k (hk | hk) j hij hjk
    · exact .inl (h.between i hi k hk j hij hjk)
    · -- from below into the stretch
      by_cases hj : first ≤ j
      · exact .inr ⟨hj, by omega⟩
      · obtain ⟨t, ht, hle⟩ := hlower i hi
        exact .inl (h.between i hi t ht j hij (by omega))
    · -- from the stretch upwards
      by_cases hj : j ≤ last
      · exact .inr ⟨by omega, hj⟩
      · have hnext := hupper k hk (by omega)
        exact .inl (h.between (last + 1) hnext k hk j (by omega) hjk)
    · exact .inr ⟨by omega, by omega⟩
  · rintro m hm k (hk | hk)
    · exact h.above m hm k hk
    · have hfirst := habove m hm
      omega
  · rintro m hm k (hk | hk) j hmj hjk
    · exact .inl (h.continues m hm k hk j hmj hjk)
    · by_cases hj : first ≤ j
      · exact .inr ⟨hj, by omega⟩
      · rcases hfloor m hm with hstart | ⟨t, ht, hle⟩
        · omega
        · exact .inl (h.continues m hm t ht j hmj (by omega))

end Gapless

/-! ### Walking through the indices -/

/-- Each index is one past the one before, and the first one past the given one. -/
def Consecutive : Option ℕ → List ℕ → Prop
  | _, [] => True
  | none, k :: ks => Consecutive (some k) ks
  | some p, k :: ks => k = p + 1 ∧ Consecutive (some k) ks

variable {floor : Option ℕ} {ks : List ℕ}

/-- **An ascending walk through a set without a hole finds no hole.** -/
theorem Gapless.consecutive (hsort : ks.Pairwise (· < ·))
    (h : Gapless floor {k | k ∈ ks}) : Consecutive floor ks := by
  induction ks generalizing floor with
  | nil => cases floor <;> trivial
  | cons k ks ih =>
    obtain ⟨hk, hks⟩ := pairwise_cons.mp hsort
    -- the rest continues the first index
    have hrest : Gapless (some k) {j | j ∈ ks} := by
      refine ⟨?_, ?_, ?_⟩
      · intro i hi j hj x hix hxj
        have hx := h.between i (mem_cons_of_mem k hi) j (mem_cons_of_mem k hj) x hix hxj
        have hki := hk i hi
        exact (mem_cons.mp hx).resolve_left (by omega)
      · rintro m ⟨⟩ j hj
        exact hk j hj
      · rintro m ⟨⟩ j hj x hkx hxj
        have hx := h.between k mem_cons_self j (mem_cons_of_mem k hj) x (by omega) hxj
        exact (mem_cons.mp hx).resolve_left (by omega)
    cases floor with
    | none => exact ih hks hrest
    | some p =>
      refine ⟨?_, ih hks hrest⟩
      have habove := h.above p rfl k mem_cons_self
      have hnext := h.continues p rfl k mem_cons_self (p + 1) (by omega) (by omega)
      rcases mem_cons.mp hnext with heq | hmem
      · exact heq.symm
      · have hlt := hk _ hmem
        omega

/-- A walk that finds no hole goes up. -/
theorem Consecutive.pairwise (h : Consecutive floor ks) :
    ks.Pairwise (· < ·) ∧ ∀ m, floor = some m → ∀ k ∈ ks, m < k := by
  induction ks generalizing floor with
  | nil => exact ⟨List.Pairwise.nil, by simp⟩
  | cons k ks ih =>
    have hrest : Consecutive (some k) ks := by
      cases floor with
      | none => exact h
      | some => exact h.2
    obtain ⟨hpairwise, habove⟩ := ih hrest
    refine ⟨pairwise_cons.mpr ⟨habove k rfl, hpairwise⟩, ?_⟩
    rintro m rfl j hj
    have hk : k = m + 1 := h.1
    rcases mem_cons.mp hj with rfl | hj
    · omega
    · have hlt := habove k rfl j hj
      omega

/-- **What such a walk goes through has no hole.** -/
theorem Consecutive.gapless (h : Consecutive floor ks) :
    Gapless floor {k | k ∈ ks} := by
  induction ks generalizing floor with
  | nil =>
    have hempty : {k | k ∈ ([] : List ℕ)} = ∅ := by ext; simp
    rw [hempty]
    exact .empty floor
  | cons k ks ih =>
    have hrest : Consecutive (some k) ks := by
      cases floor with
      | none => exact h
      | some => exact h.2
    have hgapless := ih hrest
    -- everything from the first index up to a later one
    have hfrom : ∀ j ∈ ks, ∀ x, k ≤ x → x ≤ j → x ∈ k :: ks := by
      intro j hj x hkx hxj
      rcases Nat.eq_or_lt_of_le hkx with rfl | hlt
      · exact mem_cons_self
      · exact mem_cons_of_mem k (hgapless.continues k rfl j hj x hlt hxj)
    refine ⟨?_, h.pairwise.2, ?_⟩
    · intro i hi j hj x hix hxj
      have hki : k ≤ i := by
        rcases mem_cons.mp hi with rfl | hi
        · exact Nat.le_refl _
        · exact Nat.le_of_lt (hgapless.above k rfl i hi)
      rcases mem_cons.mp hj with rfl | hj
      · have hx : x = j := by omega
        rw [hx]
        exact mem_cons_self
      · exact hfrom j hj x (by omega) hxj
    · rintro m rfl j hj x hmx hxj
      have hk : k = m + 1 := h.1
      rcases mem_cons.mp hj with rfl | hj
      · have hx : x = j := by omega
        rw [hx]
        exact mem_cons_self
      · exact hfrom j hj x (by omega) hxj

/-- An ascending list without a hole is what lies between its ends. -/
theorem Gapless.mem_iff (hsort : ks.Pairwise (· < ·))
    (h : Gapless floor {k | k ∈ ks}) {first last : ℕ} (hfirst : ks.head? = some first)
    (hlast : ks.getLast? = some last) {k : ℕ} : k ∈ ks ↔ first ≤ k ∧ k ≤ last := by
  have hends : ∀ j ∈ ks, first ≤ j ∧ j ≤ last := by
    intro j hj
    constructor
    · obtain ⟨rest, rfl⟩ := head?_eq_some_iff.mp hfirst
      rcases mem_cons.mp hj with rfl | hj
      · exact Nat.le_refl _
      · exact Nat.le_of_lt ((pairwise_cons.mp hsort).1 j hj)
    · obtain ⟨front, rfl⟩ := getLast?_eq_some_iff.mp hlast
      rcases mem_append.mp hj with hj | hj
      · exact Nat.le_of_lt ((pairwise_append.mp hsort).2.2 j hj last mem_cons_self)
      · exact Nat.le_of_eq (mem_singleton.mp hj)
  refine ⟨hends k, ?_⟩
  rintro ⟨hle, hge⟩
  exact h.between first (mem_of_head? hfirst) last (mem_of_getLast? hlast) k hle hge

end AsterRpc.Foundation

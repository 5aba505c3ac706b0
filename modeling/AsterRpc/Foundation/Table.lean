import AsterRpc.Foundation.Checks

/-!
# Ordered tables

A table is an extensional ordered map.  Besides the lookup laws, which are the
library's with the comparison replaced by equality of keys, this file has the
one thing an accounting argument needs: the total of a weight over all rows,
and how an insertion or an erasure moves it.  Counting the rows that satisfy a
predicate is the total of its indicator.

Composite keys are compared lexicographically, and a type whose values are
told apart by an ordered key inherits the order of that key.
-/

namespace AsterRpc.Foundation

open Std List

universe u v w

/-! ### Composite keys -/

instance instOrdProd {α : Type u} {β : Type v} [Ord α] [Ord β] : Ord (α × β) := lexOrd

/-- An injective projection into a lawful order decides equality by comparison. -/
theorem lawfulEqCmp_compareOn {α : Type u} {β : Type v} [Ord β] [LawfulEqOrd β] {f : α → β}
    (hf : Function.Injective f) : LawfulEqCmp (compareOn f) where
  compare_self := by
    intro a
    exact ReflOrd.compare_self (α := β)
  eq_of_compare := by
    intro a b h
    exact hf (LawfulEqOrd.eq_of_compare h)

/-- A finite map with rows kept in key order. -/
abbrev Table (κ : Type u) (β : Type v) [Ord κ] := ExtTreeMap κ β compare

namespace Table

variable {κ : Type u} {β : Type v} [Ord κ] [TransOrd κ] {t t' : Table κ β} {k a : κ} {x : β}
  {f : κ → β → ℕ} {ks : List κ} {γ : Type w} {key : γ → κ} {xs : List γ} {row : γ → β}
  {p : κ → β → Bool} {n : ℕ}

theorem contains_eq_isSome (t : Table κ β) (k : κ) : t.contains k = t[k]?.isSome :=
  ExtTreeMap.contains_eq_isSome_getElem?

theorem get?_insert_self (t : Table κ β) (k : κ) (x : β) : (t.insert k x)[k]? = some x :=
  ExtTreeMap.getElem?_insert_self

theorem mem_toList [LawfulEqOrd κ] : (k, x) ∈ t.toList ↔ t[k]? = some x :=
  ExtTreeMap.mem_toList_iff_getElem?_eq_some

theorem size_erase_le (t : Table κ β) (k : κ) : (t.erase k).size ≤ t.size := by
  rw [ExtTreeMap.size_erase]
  split <;> omega

theorem size_insert_of_some (y : β) (h : t[k]? = some x) : (t.insert k y).size = t.size := by
  simp [ExtTreeMap.size_insert, contains_eq_isSome, h]

theorem size_insert_of_none (y : β) (h : t[k]? = none) : (t.insert k y).size = t.size + 1 := by
  simp [ExtTreeMap.size_insert, contains_eq_isSome, h]

/-- The sum of the weight `f` over the rows of a table. -/
def total (f : κ → β → ℕ) (t : Table κ β) : ℕ :=
  (t.toList.map fun e => f e.1 e.2).sum

/-- How many rows satisfy `p`. -/
def countWhere (p : κ → β → Bool) (t : Table κ β) : ℕ :=
  (t.toList.filter fun e => p e.1 e.2).length

/-- The weight of the row under `k`, nothing when there is none. -/
def weightAt (f : κ → β → ℕ) (t : Table κ β) (k : κ) : ℕ := (t[k]?.map (f k)).getD 0

theorem total_add (f g : κ → β → ℕ) (t : Table κ β) :
    total (fun k x => f k x + g k x) t = total f t + total g t := by
  unfold total
  induction t.toList with
  | nil => rfl
  | cons e rest ih =>
    simp only [map_cons, sum_cons, ih]
    omega

theorem countWhere_eq_total (p : κ → β → Bool) (t : Table κ β) :
    countWhere p t = total (fun k x => if p k x then 1 else 0) t := by
  unfold countWhere total
  induction t.toList with
  | nil => rfl
  | cons e rest ih =>
    by_cases he : p e.1 e.2 = true
    · simp [he, ih, Nat.add_comm]
    · simp [he, ih]

theorem toList_pairwise_lt (t : Table κ β) :
    t.toList.Pairwise fun a b => compare a.1 b.1 = .lt :=
  ExtTreeMap.ordered_keys_toList

variable [LawfulEqOrd κ]

/-! ### Lookup -/

theorem get?_insert [DecidableEq κ] (t : Table κ β) (k a : κ) (x : β) :
    (t.insert k x)[a]? = if k = a then some x else t[a]? := by
  simp [ExtTreeMap.getElem?_insert]

theorem get?_erase [DecidableEq κ] (t : Table κ β) (k a : κ) :
    (t.erase k)[a]? = if k = a then none else t[a]? := by
  simp [ExtTreeMap.getElem?_erase]

theorem get?_filter (t : Table κ β) (p : κ → Bool) (k : κ) :
    (t.filter fun a _ => p a)[k]? = if p k then t[k]? else none := by
  rw [ExtTreeMap.getElem?_filter]
  simp only [ExtTreeMap.getKey_eq, Option.pfilter_eq_filter]
  cases t[k]? <;> cases p k <;> simp

theorem get?_insert_of_ne (t : Table κ β) (x : β) (h : k ≠ a) : (t.insert k x)[a]? = t[a]? := by
  simp [ExtTreeMap.getElem?_insert, h]

theorem get?_erase_of_ne (t : Table κ β) (h : k ≠ a) : (t.erase k)[a]? = t[a]? := by
  simp [ExtTreeMap.getElem?_erase, h]

theorem insert_eq_self (h : t[k]? = some x) : t.insert k x = t := by
  refine ExtTreeMap.ext_getElem? fun a => ?_
  by_cases hka : k = a
  · subst hka
    simp [h]
  · exact get?_insert_of_ne t x hka

theorem erase_eq_self (h : t[k]? = none) : t.erase k = t := by
  refine ExtTreeMap.ext_getElem? fun a => ?_
  by_cases hka : k = a
  · subst hka
    simp [h]
  · exact get?_erase_of_ne t hka

theorem insert_erase_self (h : t[k]? = some x) : (t.erase k).insert k x = t := by
  refine ExtTreeMap.ext_getElem? fun a => ?_
  by_cases hka : k = a
  · subst hka
    simp [h]
  · rw [get?_insert_of_ne _ _ hka, get?_erase_of_ne _ hka]

theorem size_erase_of_some (h : t[k]? = some x) : (t.erase k).size + 1 = t.size := by
  have hnone : (t.erase k)[k]? = none := ExtTreeMap.getElem?_erase_self
  have hsize := size_insert_of_none x hnone
  rw [insert_erase_self h] at hsize
  exact hsize.symm

/-! ### Totals over all rows -/

theorem toList_nodup (t : Table κ β) : t.toList.Nodup := by
  refine (ExtTreeMap.distinct_keys_toList (t := t)).imp ?_
  intro a b hab heq
  exact hab (by simp [heq])

omit [TransOrd κ] in
theorem nodup_of_pairwise_lt {es : List (κ × β)}
    (h : es.Pairwise fun a b => compare a.1 b.1 = .lt) :
    (es.map Prod.fst).Nodup := by
  rw [List.Nodup, pairwise_map]
  refine h.imp fun {a b} hlt heq => ?_
  rw [heq] at hlt
  simp at hlt

theorem keys_nodup (t : Table κ β) : (t.toList.map Prod.fst).Nodup :=
  nodup_of_pairwise_lt (toList_pairwise_lt t)

/-- Inserting a row enumerates that row and the rows under the other keys. -/
theorem toList_insert_perm (t : Table κ β) (k : κ) (x : β) :
    (t.insert k x).toList.Perm ((k, x) :: (t.erase k).toList) := by
  refine (perm_ext_iff_of_nodup (toList_nodup _) ?_).mpr ?_
  · refine nodup_cons.mpr ⟨?_, toList_nodup _⟩
    simp
  · rintro ⟨a, y⟩
    rw [mem_cons, mem_toList,
      mem_toList, Prod.mk.injEq]
    by_cases hka : k = a
    · subst hka
      simp [eq_comm]
    · have hak : a ≠ k := fun h => hka h.symm
      rw [get?_insert_of_ne _ _ hka, get?_erase_of_ne _ hka]
      simp [hak]

section

variable (f : κ → β → ℕ) (t : Table κ β) (k : κ)

theorem total_insert_erase (x : β) : total f (t.insert k x) = f k x + total f (t.erase k) := by
  unfold total
  rw [((toList_insert_perm t k x).map _).sum_eq, map_cons, sum_cons]

/-- Erasing a row takes exactly its weight off the total. -/
theorem total_erase : total f (t.erase k) + weightAt f t k = total f t := by
  cases h : t[k]? with
  | none => simp [weightAt, h, erase_eq_self h]
  | some x =>
    have hins := total_insert_erase f (t.erase k) k x
    rw [insert_erase_self h, erase_eq_self (t := t.erase k) ExtTreeMap.getElem?_erase_self] at hins
    simp [weightAt, h, hins, Nat.add_comm]

/-- Writing a row trades the weight it had for the weight it has. -/
theorem total_insert (x : β) : total f (t.insert k x) + weightAt f t k = total f t + f k x := by
  have hins := total_insert_erase f t k x
  have hera := total_erase f t k
  omega

theorem weightAt_le_total : weightAt f t k ≤ total f t := by
  have hera := total_erase f t k
  omega

end

theorem total_erase_of_some (f : κ → β → ℕ) (h : t[k]? = some x) :
    total f (t.erase k) + f k x = total f t := by
  have hera := total_erase f t k
  rwa [weightAt, h] at hera

theorem total_insert_of_some (f : κ → β → ℕ) (h : t[k]? = some x) (y : β) :
    total f (t.insert k y) + f k x = total f t + f k y := by
  have hins := total_insert f t k y
  rwa [weightAt, h] at hins

theorem total_insert_of_none (f : κ → β → ℕ) (h : t[k]? = none) (y : β) :
    total f (t.insert k y) = total f t + f k y := by
  have hins := total_insert f t k y
  rwa [weightAt, h] at hins

theorem total_le_mul_size {b : ℕ} (h : ∀ k x, t[k]? = some x → f k x ≤ b) :
    total f t ≤ t.size * b := by
  have hbound : ∀ y ∈ t.toList.map (fun e => f e.1 e.2), y ≤ b := by
    intro y hy
    obtain ⟨⟨k, x⟩, hmem, rfl⟩ := mem_map.mp hy
    exact h k x (mem_toList.mp hmem)
  have hsum := sum_le_card_nsmul _ _ hbound
  rwa [length_map, ExtTreeMap.length_toList, smul_eq_mul] at hsum

/-- Two tables with the same keys and, key by key, the same weights weigh the same. -/
theorem total_eq_of_weightAt (hkeys : ∀ k : κ, t'[k]?.isSome = t[k]?.isSome)
    (h : ∀ k, weightAt f t' k = weightAt f t k) : total f t' = total f t := by
  have hsum : ∀ t : Table κ β, total f t = ((t.toList.map Prod.fst).map (weightAt f t)).sum := by
    intro t
    rw [total, map_map]
    congr 1
    refine map_congr_left fun e he => ?_
    have hrow := mem_toList.mp he
    simp [Function.comp_apply, weightAt, hrow]
  have hmem : ∀ (t : Table κ β) (k : κ), k ∈ t.toList.map Prod.fst ↔ t[k]?.isSome = true := by
    intro t k
    rw [mem_map, Option.isSome_iff_exists]
    constructor
    · rintro ⟨e, he, rfl⟩
      exact ⟨e.2, mem_toList.mp he⟩
    · rintro ⟨x, hx⟩
      exact ⟨(k, x), mem_toList.mpr hx, rfl⟩
  have hperm : (t'.toList.map Prod.fst).Perm (t.toList.map Prod.fst) := by
    refine (perm_ext_iff_of_nodup (keys_nodup t') (keys_nodup t)).mpr fun k => ?_
    rw [hmem, hmem, hkeys]
  rw [hsum, hsum, (hperm.map (weightAt f t')).sum_eq]
  exact congrArg sum (map_congr_left fun k _ => h k)

/-- Two tables with the same keys have the same size. -/
theorem size_eq_of_keys (hkeys : ∀ k : κ, t'[k]?.isSome = t[k]?.isSome) : t'.size = t.size := by
  have hone : ∀ t : Table κ β, t.size = total (fun _ _ => 1) t := by
    intro t
    rw [total, map_const', sum_replicate, smul_eq_mul, Nat.mul_one,
      ExtTreeMap.length_toList]
  rw [hone, hone]
  refine total_eq_of_weightAt hkeys fun k => ?_
  have hk := hkeys k
  cases h : t[k]? <;> cases h' : t'[k]? <;> simp_all [weightAt]

/-! ### Totals over many writes -/

theorem get?_foldl_erase_of_notMem (t : Table κ β) (h : a ∉ ks) :
    (ks.foldl (fun t k => t.erase k) t)[a]? = t[a]? := by
  induction ks generalizing t with
  | nil => rfl
  | cons k rest ih =>
    rw [mem_cons, not_or] at h
    rw [foldl_cons, ih _ h.2, get?_erase_of_ne _ (Ne.symm h.1)]

theorem get?_foldl_erase_of_mem (t : Table κ β) (h : a ∈ ks) :
    (ks.foldl (fun t k => t.erase k) t)[a]? = none := by
  induction ks generalizing t with
  | nil => cases h
  | cons k rest ih =>
    rw [foldl_cons]
    by_cases hrest : a ∈ rest
    · exact ih (t.erase k) hrest
    · rcases mem_cons.mp h with rfl | hmem
      · rw [get?_foldl_erase_of_notMem _ hrest]
        exact ExtTreeMap.getElem?_erase_self
      · exact absurd hmem hrest

omit [LawfulEqOrd κ] in
theorem weightAt_congr (h : t[k]? = t'[k]?) : weightAt f t k = weightAt f t' k := by
  rw [weightAt, weightAt, h]

/-- Erasing different keys takes exactly the weights of their rows off the total. -/
theorem total_foldl_erase (f : κ → β → ℕ) (h : ks.Nodup) (t : Table κ β) :
    total f (ks.foldl (fun t k => t.erase k) t) + (ks.map (weightAt f t)).sum = total f t := by
  induction ks generalizing t with
  | nil => simp
  | cons k rest ih =>
    obtain ⟨hk, hrest⟩ := nodup_cons.mp h
    have htail := ih hrest (t.erase k)
    have hsame : rest.map (weightAt f (t.erase k)) = rest.map (weightAt f t) := by
      refine map_congr_left fun a ha => weightAt_congr (get?_erase_of_ne t ?_)
      rintro rfl
      exact hk ha
    have hfirst := total_erase f t k
    rw [hsame] at htail
    rw [foldl_cons, map_cons, sum_cons]
    omega

/-- Writing rows under different keys trades the weights they had for the weights they have. -/
theorem total_foldl_insert (f : κ → β → ℕ) (row : γ → β) (h : (xs.map key).Nodup) (t : Table κ β) :
    total f (xs.foldl (fun t x => t.insert (key x) (row x)) t) +
        (xs.map fun x => weightAt f t (key x)).sum =
      total f t + (xs.map fun x => f (key x) (row x)).sum := by
  induction xs generalizing t with
  | nil => simp
  | cons x rest ih =>
    rw [map_cons, nodup_cons] at h
    have htail := ih h.2 (t.insert (key x) (row x))
    have hsame : (rest.map fun y => weightAt f (t.insert (key x) (row x)) (key y)) =
        rest.map fun y => weightAt f t (key y) := by
      refine map_congr_left fun y hy => weightAt_congr (get?_insert_of_ne t _ ?_)
      intro heq
      exact h.1 (heq ▸ mem_map_of_mem hy)
    have hfirst := total_insert f t (key x) (row x)
    rw [hsame] at htail
    simp only [foldl_cons, map_cons, sum_cons]
    omega

theorem get?_foldl_insert_of_notMem (t : Table κ β) (h : a ∉ xs.map key) :
    (xs.foldl (fun t x => t.insert (key x) (row x)) t)[a]? = t[a]? := by
  induction xs generalizing t with
  | nil => rfl
  | cons x rest ih =>
    rw [map_cons, mem_cons, not_or] at h
    rw [foldl_cons, ih _ h.2, get?_insert_of_ne _ _ (Ne.symm h.1)]

theorem get?_foldl_insert_of_mem {x : γ} (t : Table κ β) (h : (xs.map key).Nodup) (hx : x ∈ xs) :
    (xs.foldl (fun t x => t.insert (key x) (row x)) t)[key x]? = some (row x) := by
  induction xs generalizing t with
  | nil => cases hx
  | cons y rest ih =>
    rw [map_cons, nodup_cons] at h
    rw [foldl_cons]
    rcases mem_cons.mp hx with rfl | hx
    · rw [get?_foldl_insert_of_notMem _ h.1, get?_insert_self]
    · exact ih _ h.2 hx

/-- Writing rows under different keys into an empty table. -/
theorem get?_foldl_insert_iff {es : List (κ × β)} (h : (es.map Prod.fst).Nodup) (k : κ) (x : β) :
    (es.foldl (fun t e => t.insert e.1 e.2) (∅ : Table κ β))[k]? = some x ↔ (k, x) ∈ es := by
  refine ⟨fun hx => ?_, fun hmem => get?_foldl_insert_of_mem _ h hmem⟩
  by_cases hk : k ∈ es.map Prod.fst
  · obtain ⟨e, he, rfl⟩ := mem_map.mp hk
    rw [get?_foldl_insert_of_mem _ h he] at hx
    cases hx
    exact he
  · rw [get?_foldl_insert_of_notMem _ hk] at hx
    simp at hx

/-- Writing the rows of a table into an empty one, each of them changed, changes every row. -/
theorem get?_foldl_insert_toList (f : β → γ) (t : Table κ β) (k : κ) :
    (t.toList.foldl (fun t e => t.insert e.1 (f e.2)) (∅ : Table κ γ))[k]? = t[k]?.map f := by
  cases hk : t[k]? with
  | none =>
    rw [get?_foldl_insert_of_notMem]
    · simp
    · rintro hmem
      obtain ⟨e, he, rfl⟩ := mem_map.mp hmem
      rw [mem_toList.mp he] at hk
      cases hk
  | some x =>
    have hmem : (k, x) ∈ t.toList := mem_toList.mpr hk
    exact get?_foldl_insert_of_mem (x := (k, x)) ∅ (keys_nodup t) hmem

/-! ### Counting rows -/

/-- Writing a row trades the old row's place in the count for the new one's. -/
theorem countWhere_insert (p : κ → β → Bool) (t : Table κ β) (k : κ) (x : β) :
    countWhere p (t.insert k x) + (if t[k]?.any (p k) then 1 else 0) =
      countWhere p t + if p k x then 1 else 0 := by
  rw [countWhere_eq_total, countWhere_eq_total, ← total_insert _ t k x]
  cases hold : t[k]? <;> simp [weightAt, hold]

theorem countWhere_erase_le (p : κ → β → Bool) (t : Table κ β) (k : κ) :
    countWhere p (t.erase k) ≤ countWhere p t := by
  rw [countWhere_eq_total, countWhere_eq_total]
  have hera := total_erase (fun k x => if p k x then 1 else 0) t k
  omega

theorem countWhere_erase_le_of (k : κ) (h : countWhere p t ≤ n) : countWhere p (t.erase k) ≤ n :=
  Nat.le_trans (countWhere_erase_le p t k) h

/-- A bounded count stays bounded when a new row that counts had room. -/
theorem countWhere_insert_le (h : countWhere p t ≤ n)
    (hroom : p k x = true → (∀ old, t[k]? = some old → p k old = false) → countWhere p t < n) :
    countWhere p (t.insert k x) ≤ n := by
  have hcount := countWhere_insert p t k x
  split_ifs at hcount with hold hnew hnew
  · omega
  · omega
  · have hlt := hroom hnew fun old hsome => by simpa [hsome] using hold
    omega
  · omega

/-- A write that does not turn a counted row into an uncounted one loses nothing of the count. -/
theorem countWhere_le_insert (h : ∀ old, t[k]? = some old → p k old = true → p k x = true) :
    countWhere p t ≤ countWhere p (t.insert k x) := by
  have hcount := countWhere_insert p t k x
  split_ifs at hcount with hold hnew
  · omega
  · obtain ⟨old, hsome, hcounted⟩ := (Option.any_eq_true _ _).mp hold
    exact absurd (h old hsome hcounted) hnew
  · omega
  · omega

theorem countWhere_pos_iff : 0 < countWhere p t ↔ ∃ k x, t[k]? = some x ∧ p k x = true := by
  unfold countWhere
  rw [length_pos_iff_exists_mem]
  constructor
  · rintro ⟨e, he⟩
    obtain ⟨hmem, hp⟩ := mem_filter.mp he
    exact ⟨e.1, e.2, mem_toList.mp hmem, hp⟩
  · rintro ⟨k, x, hx, hp⟩
    exact ⟨(k, x), mem_filter.mpr ⟨mem_toList.mpr hx, hp⟩⟩

/-- Erasing different keys of counted rows takes as many off the count. -/
theorem countWhere_foldl_erase (h : ks.Nodup) (hks : ∀ k ∈ ks, ∃ x, t[k]? = some x ∧ p k x = true) :
    countWhere p (ks.foldl (fun t k => t.erase k) t) + ks.length = countWhere p t := by
  have htotal := total_foldl_erase (fun k x => if p k x then 1 else 0) h t
  have hones : (ks.map (weightAt (fun k x => if p k x then 1 else 0) t)).sum = ks.length := by
    have hmap : ks.map (weightAt (fun k x => if p k x then 1 else 0) t) = ks.map fun _ => 1 := by
      refine map_congr_left fun k hk => ?_
      obtain ⟨x, hx, hp⟩ := hks k hk
      simp [weightAt, hx, hp]
    rw [hmap, map_const', sum_replicate, smul_eq_mul, Nat.mul_one]
  rw [← countWhere_eq_total, ← countWhere_eq_total, hones] at htotal
  exact htotal

theorem countWhere_foldl_erase_le (p : κ → β → Bool) (t : Table κ β) (ks : List κ) :
    countWhere p (ks.foldl (fun t k => t.erase k) t) ≤ countWhere p t := by
  induction ks generalizing t with
  | nil => exact Nat.le_refl _
  | cons k rest ih => exact Nat.le_trans (ih _) (countWhere_erase_le p t k)

omit [LawfulEqOrd κ] in
theorem size_eq_countWhere (t : Table κ β) : t.size = countWhere (fun _ _ => true) t := by
  simp [countWhere]

omit [LawfulEqOrd κ] in
/-- The rows that count and the rows that do not are all rows. -/
theorem countWhere_add_countWhere_not (p : κ → β → Bool) (t : Table κ β) :
    countWhere p t + countWhere (fun k x => !p k x) t = t.size := by
  rw [← ExtTreeMap.length_toList]
  exact (length_eq_length_filter_add fun e : κ × β => p e.1 e.2).symm

omit [LawfulEqOrd κ] in
/-- A bounded table stays bounded when a new row had room. -/
theorem size_insert_le (x : β) (h : t.size ≤ n) (hroom : t[k]? = none → t.size < n) :
    (t.insert k x).size ≤ n := by
  cases hold : t[k]? with
  | none =>
    rw [size_insert_of_none x hold]
    exact hroom hold
  | some =>
    rw [size_insert_of_some x hold]
    exact h

/-- Writing rows under different keys adds one row for each key that was not there. -/
theorem size_foldl_insert (row : γ → β) (h : (xs.map key).Nodup) (t : Table κ β) :
    (xs.foldl (fun t x => t.insert (key x) (row x)) t : Table κ β).size =
      t.size + (xs.filter fun x => !t.contains (key x)).length := by
  induction xs generalizing t with
  | nil => simp
  | cons x rest ih =>
    rw [map_cons, nodup_cons] at h
    have hsame : (rest.filter fun y => !(t.insert (key x) (row x)).contains (key y)) =
        rest.filter fun y => !t.contains (key y) := by
      refine filter_congr fun y hy => ?_
      have hne : key x ≠ key y := fun heq => h.1 (heq ▸ mem_map_of_mem hy)
      rw [contains_eq_isSome, contains_eq_isSome, get?_insert_of_ne t _ hne]
    rw [foldl_cons, ih h.2, hsame, filter_cons, contains_eq_isSome]
    cases hold : t[key x]? with
    | none =>
      rw [size_insert_of_none _ hold]
      simp only [Option.isSome_none, Bool.not_false, if_true, length_cons]
      omega
    | some =>
      rw [size_insert_of_some _ hold]
      simp

/-! ### Dropping the first rows -/

/-- Without the row of the least key. -/
def eraseFirst (t : Table κ β) : Table κ β :=
  match t.toList.head? with
  | some e => t.erase e.1
  | none => t

/-- Without the `n` rows of the least keys. -/
def dropFirst : ℕ → Table κ β → Table κ β
  | 0, t => t
  | n + 1, t => dropFirst n t.eraseFirst

theorem get?_of_head? {e : κ × β} (h : t.toList.head? = some e) : t[e.1]? = some e.2 := by
  have hmem : (e.1, e.2) ∈ t.toList := mem_of_head? h
  exact mem_toList.mp hmem

theorem toList_eraseFirst (t : Table κ β) : t.eraseFirst.toList = t.toList.tail := by
  unfold eraseFirst
  cases hlist : t.toList with
  | nil => simp [hlist]
  | cons e =>
    have hget : t[e.1]? = some e.2 := get?_of_head? (by rw [hlist]; rfl)
    have hperm := toList_insert_perm (t.erase e.1) e.1 e.2
    rw [insert_erase_self hget, erase_eq_self (t := t.erase e.1) ExtTreeMap.getElem?_erase_self,
      hlist] at hperm
    have hlt := toList_pairwise_lt t
    rw [hlist] at hlt
    -- both lists are strictly increasing in the key, so a permutation is an equality
    refine ((perm_cons e).mp hperm).symm.eq_of_pairwise ?_ (toList_pairwise_lt _)
      (pairwise_cons.mp hlt).2
    intro a b _ _ hab hba
    have hcontra := Std.TransCmp.lt_trans hab hba
    simp at hcontra

theorem toList_dropFirst (n : ℕ) (t : Table κ β) : (t.dropFirst n).toList = t.toList.drop n := by
  induction n generalizing t with
  | zero => rfl
  | succ n ih => rw [dropFirst, ih, toList_eraseFirst, drop_tail]

theorem size_dropFirst (n : ℕ) (t : Table κ β) : (t.dropFirst n).size = t.size - n := by
  rw [← ExtTreeMap.length_toList, toList_dropFirst, length_drop, ExtTreeMap.length_toList]

/-- Dropping rows invents none. -/
theorem get?_of_dropFirst (h : (t.dropFirst n)[k]? = some x) : t[k]? = some x := by
  rw [← mem_toList] at h ⊢
  rw [toList_dropFirst] at h
  exact mem_of_mem_drop h

/-- A permutation that keeps the order of the keys changes nothing. -/
theorem eq_of_perm_of_pairwise_lt {es es' : List (κ × β)} (hperm : es.Perm es')
    (h : es.Pairwise fun a b => compare a.1 b.1 = .lt)
    (h' : es'.Pairwise fun a b => compare a.1 b.1 = .lt) : es = es' := by
  refine hperm.eq_of_pairwise (fun a b _ _ hab hba => ?_) h h'
  have hcontra := Std.TransCmp.lt_trans hab hba
  simp at hcontra

/-- Rows that are written in the order of their keys come out in this order. -/
theorem toList_foldl_insert {es : List (κ × β)} (h : es.Pairwise fun a b => compare a.1 b.1 = .lt) :
    (es.foldl (fun t e => t.insert e.1 e.2) (∅ : Table κ β)).toList = es := by
  have hnodup := nodup_of_pairwise_lt h
  refine eq_of_perm_of_pairwise_lt ?_ (toList_pairwise_lt _) h
  refine (perm_ext_iff_of_nodup (toList_nodup _) (Nodup.of_map _ hnodup)).mpr fun e => ?_
  rw [mem_toList, get?_foldl_insert_iff hnodup]

/-- A row whose key is above all others comes last. -/
theorem toList_insert_last (x : β) (h : ∀ a y, t[a]? = some y → compare a k = .lt) :
    (t.insert k x).toList = t.toList ++ [(k, x)] := by
  have hnone : t[k]? = none := by
    cases hk : t[k]? with
    | none => rfl
    | some y =>
      have hlt := h k y hk
      simp at hlt
  have hperm := toList_insert_perm t k x
  rw [erase_eq_self hnone] at hperm
  refine eq_of_perm_of_pairwise_lt (hperm.trans (perm_append_singleton _ _).symm)
    (toList_pairwise_lt _) (pairwise_append.mpr ⟨toList_pairwise_lt t, pairwise_singleton _ _, ?_⟩)
  rintro ⟨a, y⟩ ha b hb
  rw [mem_singleton.mp hb]
  exact h a y (mem_toList.mp ha)

/-- How many rows stand before a key. -/
def rank (t : Table κ β) (k : κ) : ℕ := t.countWhere fun a _ => compare a k == .lt

theorem rank_insert_self (t : Table κ β) (k : κ) (x : β) : rank (t.insert k x) k = t.rank k := by
  have hcount := countWhere_insert (fun a _ => compare a k == .lt) t k x
  -- no key is below itself, so neither the old row under `k` nor the new one counts
  cases hold : t[k]? <;> simpa [rank, hold] using hcount

/-- A row survives the dropping exactly when enough rows stand before it. -/
theorem get?_dropFirst (n : ℕ) (h : t[k]? = some x) :
    (t.dropFirst n)[k]? = some x ↔ n ≤ t.rank k := by
  obtain ⟨before, after, hlist⟩ :=
    append_of_mem (mem_toList.mpr h)
  have hsort := toList_pairwise_lt t
  rw [hlist, pairwise_append, pairwise_cons] at hsort
  obtain ⟨-, ⟨hafter, -⟩, hpre⟩ := hsort
  have hnotAfter : after.countP (fun e => compare e.1 k == .lt) = 0 := by
    refine countP_eq_zero.mpr fun e he => ?_
    have hgt := Std.OrientedCmp.gt_of_lt (hafter e he)
    simp [hgt]
  have hallBefore : before.countP (fun e => compare e.1 k == .lt) = before.length := by
    refine countP_eq_length.mpr fun e he => ?_
    have hlt := hpre e he (k, x) mem_cons_self
    simpa using hlt
  have hrank : t.rank k = before.length := by
    rw [rank, countWhere, hlist, ← countP_eq_length_filter, countP_append, countP_cons, hallBefore,
      hnotAfter]
    simp
  rw [hrank, ← mem_toList, toList_dropFirst, hlist]
  constructor
  · intro hmem
    by_contra hlt
    -- past the row only later keys are left
    obtain ⟨m, rfl⟩ : ∃ m, n = before.length + (m + 1) := ⟨n - before.length - 1, by omega⟩
    rw [drop_length_add_append, drop_succ_cons] at hmem
    have hself := hafter _ (mem_of_mem_drop hmem)
    simp at hself
  · intro hle
    rw [drop_append_of_le_length hle]
    exact mem_append_right _ mem_cons_self

/-! ### Properties of every row -/

/-- Every row of the table satisfies `P`. -/
def AllRows (P : κ → β → Prop) (t : Table κ β) : Prop := ∀ k x, t[k]? = some x → P k x

variable {P : κ → β → Prop}

section

variable (h : AllRows P t)

include h

theorem AllRows.insert (hx : P k x) : AllRows P (t.insert k x) := by
  intro a y hy
  by_cases hka : k = a
  · subst hka
    rw [get?_insert_self] at hy
    cases hy
    exact hx
  · rw [get?_insert_of_ne _ _ hka] at hy
    exact h a y hy

theorem AllRows.erase (k : κ) : AllRows P (t.erase k) := by
  intro a y hy
  by_cases hka : k = a
  · subst hka
    rw [ExtTreeMap.getElem?_erase_self] at hy
    cases hy
  · rw [get?_erase_of_ne _ hka] at hy
    exact h a y hy

theorem AllRows.foldl_erase (ks : List κ) : AllRows P (ks.foldl (fun t k => t.erase k) t) := by
  induction ks generalizing t with
  | nil => exact h
  | cons k rest ih => exact ih (h.erase k)

theorem AllRows.foldl_insert (hxs : ∀ x ∈ xs, P (key x) (row x)) :
    AllRows P (xs.foldl (fun t x => t.insert (key x) (row x)) t) := by
  induction xs generalizing t with
  | nil => exact h
  | cons x rest ih =>
    exact ih (h.insert (hxs x mem_cons_self)) fun y hy => hxs y (mem_cons_of_mem _ hy)

theorem AllRows.dropFirst (n : ℕ) :
    AllRows P (t.dropFirst n) := fun k x hx => h k x (get?_of_dropFirst hx)

omit [LawfulEqOrd κ] in
theorem AllRows.mono {Q : κ → β → Prop} (himp : ∀ k x, P k x → Q k x) :
    AllRows Q t := fun k x hx => himp k x (h k x hx)

end

theorem allRows_iff : AllRows P t ↔ ∀ e ∈ t.toList, P e.1 e.2 :=
  ⟨fun h e he => h e.1 e.2 (mem_toList.mp he), fun h k x hx => h (k, x) (mem_toList.mpr hx)⟩

/-- Run a check on every row, in key order, up to the first refusal. -/
def checkRows {ε : Type} (check : κ → β → Except ε Unit) (t : Table κ β) : Except ε Unit :=
  checkAll (fun e => check e.1 e.2) t.toList

theorem checkRows_eq_ok {α γ ε : Type} [Ord α] [TransOrd α] [LawfulEqOrd α]
    {check : α → γ → Except ε Unit} {t : Table α γ} :
    checkRows check t = .ok () ↔ AllRows (fun k x => check k x = .ok ()) t := by
  rw [checkRows, checkAll_eq_ok, allRows_iff]

theorem any_toList_eq_false :
    (t.toList.any fun e => p e.1 e.2) = false ↔ AllRows (fun k x => p k x = false) t := by
  simp [allRows_iff]

end Table

end AsterRpc.Foundation

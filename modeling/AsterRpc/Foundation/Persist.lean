import AsterRpc.Foundation.Ascending

/-!
# Tables kept as bytes

A table in memory is kept on disk under translated keys and encoded rows.  A
commit goes through the keys that were touched and writes each one as it now
stands; a load goes through what is stored and decodes it.  `Mirrors` says that
the stored table decodes to a given lookup, nothing more and nothing less: a
load recovers exactly what is mirrored.
-/

namespace AsterRpc.Foundation

open Std List

variable {κ κ' β γ ε σ α : Type} [Ord κ] [TransOrd κ] {f : σ → α → Except ε σ} {s s' : σ}

theorem foldlM_cons_eq_ok {a : α} {as : List α} :
    (a :: as).foldlM f s = .ok s' ↔ ∃ t, f s a = .ok t ∧ as.foldlM f t = .ok s' := by
  rw [foldlM_cons]
  exact bind_accepts

theorem foldlM_nil_eq_ok :
    ([] : List α).foldlM f s = .ok s' ↔ s = s' := by
  rw [foldlM_nil]
  exact Except.ok.injEq s s' ▸ Iff.rfl

/-- If one step is accepted exactly under a condition on its input, then so is the whole fold. -/
theorem foldlM_eq_ok {g : σ → α → σ} {P : α → Prop}
    {as : List α} (hstep : ∀ a ∈ as, ∀ s s', f s a = .ok s' ↔ P a ∧ g s a = s') {s s' : σ} :
    as.foldlM f s = .ok s' ↔ (∀ a ∈ as, P a) ∧ as.foldl g s = s' := by
  induction as generalizing s with
  | nil =>
    rw [foldlM_nil_eq_ok]
    simp
  | cons a rest ih =>
    have hrest := fun t => @ih (fun b hb => hstep b (mem_cons_of_mem a hb)) t
    simp only [foldlM_cons_eq_ok, hstep a mem_cons_self, hrest, forall_mem_cons,
      foldl_cons]
    constructor
    · rintro ⟨t, ⟨ha, rfl⟩, hall, hfold⟩
      exact ⟨⟨ha, hall⟩, hfold⟩
    · rintro ⟨⟨ha, hall⟩, hfold⟩
      exact ⟨_, ⟨ha, rfl⟩, hall, hfold⟩

/-! ### Writing and reading -/

/-- Read one stored row. -/
def readRow (decode : κ' → γ → Except ε (κ × β)) (rows : Table κ β) (e : κ' × γ) :
    Except ε (Table κ β) := do
  let row ← decode e.1 e.2
  .ok (rows.insert row.1 row.2)

theorem readRow_eq_ok {decode : κ' → γ → Except ε (κ × β)} {rows rows' : Table κ β} {e : κ' × γ} :
    readRow decode rows e = .ok rows' ↔
      ∃ k row, decode e.1 e.2 = .ok (k, row) ∧ rows.insert k row = rows' := by
  simp only [readRow, accepts_iff]

section Reading

variable {decode : κ' → γ → Except ε (κ × β)} {es : List (κ' × γ)} {read : List (κ × β)}

/-- A load decodes every stored row and writes the rows one after the other. -/
theorem foldlM_readRow_eq_ok {acc rows : Table κ β} :
    es.foldlM (readRow decode) acc = .ok rows ↔
      ∃ read, Forall₂ (fun e row => decode e.1 e.2 = .ok row) es read ∧
        read.foldl (fun rows row => rows.insert row.1 row.2) acc = rows := by
  induction es generalizing acc with
  | nil =>
    rw [foldlM_nil_eq_ok]
    refine ⟨fun h => ⟨[], .nil, h⟩, ?_⟩
    rintro ⟨_, ⟨⟩, h⟩
    exact h
  | cons e rest ih =>
    rw [foldlM_cons_eq_ok]
    constructor
    · rintro ⟨acc', hrow, hrest⟩
      obtain ⟨k, row, hdecode, rfl⟩ := readRow_eq_ok.mp hrow
      obtain ⟨read, hread, hrows⟩ := ih.mp hrest
      exact ⟨(k, row) :: read, .cons hdecode hread, hrows⟩
    · rintro ⟨_, ⟨⟩ | ⟨hdecode, hread⟩, hrows⟩
      exact ⟨_, readRow_eq_ok.mpr ⟨_, _, hdecode, rfl⟩, ih.mpr ⟨_, hread, hrows⟩⟩

omit [Ord κ] [TransOrd κ] in
/-- The keys that are read are those that are stored. -/
theorem keys_of_read {key : κ → κ'}
    (hkey : ∀ k' bytes k row, decode k' bytes = .ok (k, row) → key k = k')
    (h : Forall₂ (fun e row => decode e.1 e.2 = .ok row) es read) :
    (read.map Prod.fst).map key = es.map Prod.fst := by
  induction h with
  | nil => rfl
  | cons hdecode _ ih => rw [map_cons, map_cons, map_cons, ih, hkey _ _ _ _ hdecode]

end Reading

variable [Ord κ'] [TransOrd κ']

/-- Read a whole stored table. -/
def readRows (decode : κ' → γ → Except ε (κ × β)) (t : Table κ' γ) : Except ε (Table κ β) :=
  t.toList.foldlM (readRow decode) ∅

/-- Write one key as it stands: insert its row, or delete what is stored. -/
def writeKey (key : κ → κ') (encode : κ → β → Except ε γ) (rows : Table κ β) (t : Table κ' γ)
    (k : κ) : Except ε (Table κ' γ) :=
  match rows[k]? with
  | some row => do
    let bytes ← encode k row
    .ok (t.insert (key k) bytes)
  | none => .ok (t.erase (key k))

/-- Write every touched key. -/
def writeKeys (key : κ → κ') (encode : κ → β → Except ε γ) (rows : Table κ β) (keys : List κ)
    (t : Table κ' γ) : Except ε (Table κ' γ) :=
  keys.foldlM (writeKey key encode rows) t

/-- The stored table holds exactly the rows of a lookup. -/
structure Mirrors (key : κ → κ') (decode : κ' → γ → Except ε (κ × β)) (look : κ → Option β)
    (t : Table κ' γ) : Prop where
  stored : ∀ k row, look k = some row → ∃ bytes, t[key k]? = some bytes
  read : ∀ k' bytes, t[k']? = some bytes →
    ∃ k row, key k = k' ∧ look k = some row ∧ decode k' bytes = .ok (k, row)

/-! ### A load recovers what is mirrored -/

variable [LawfulEqOrd κ'] {decode : κ' → γ → Except ε (κ × β)}

/-- **A load succeeds with exactly the mirrored rows.** -/
theorem readRows_eq_ok [LawfulEqOrd κ] {key : κ → κ'} (hinjective : Function.Injective key)
    (hkey : ∀ k' bytes k row, decode k' bytes = .ok (k, row) → key k = k') {t : Table κ' γ}
    {rows : Table κ β} :
    readRows decode t = .ok rows ↔ Mirrors key decode (fun k => rows[k]?) t := by
  have hmem : ∀ {e : κ' × γ}, e ∈ t.toList ↔ t[e.1]? = some e.2 :=
    Table.mem_toList
  -- every key is read once, so that what is read is what the table has
  have hread : ∀ {read : List (κ × β)},
      Forall₂ (fun e row => decode e.1 e.2 = .ok row) t.toList read → ∀ k row,
        (read.foldl (fun rows row => rows.insert row.1 row.2) (∅ : Table κ β))[k]? = some row ↔
          (k, row) ∈ read := by
    intro read h
    refine Table.get?_foldl_insert_iff (Nodup.of_map key ?_)
    rw [keys_of_read hkey h]
    exact Table.keys_nodup t
  rw [readRows, foldlM_readRow_eq_ok]
  constructor
  · rintro ⟨read, h, rfl⟩
    refine ⟨fun k row hrow => ?_, fun k' bytes hbytes => ?_⟩
    · obtain ⟨e, he, hdecode⟩ := (forall₂_mem h).2 _ ((hread h k row).mp hrow)
      exact ⟨e.2, by rw [hkey _ _ _ _ hdecode]; exact hmem.mp he⟩
    · obtain ⟨⟨k, row⟩, hrow, hdecode⟩ := (forall₂_mem h).1 (k', bytes) (hmem.mpr hbytes)
      exact ⟨k, row, hkey _ _ _ _ hdecode, (hread h k row).mpr hrow, hdecode⟩
  · intro h
    obtain ⟨read, hall⟩ : ∃ read,
      Forall₂ (fun e row => decode e.1 e.2 = .ok row) t.toList read := by
      refine exists_forall₂ fun e he => ?_
      obtain ⟨k, row, -, -, hdecode⟩ := h.read e.1 e.2 (hmem.mp he)
      exact ⟨(k, row), hdecode⟩
    refine ⟨read, hall, ExtTreeMap.ext_getElem? fun k => Option.ext fun row => ?_⟩
    rw [hread hall]
    constructor
    · intro hrow
      obtain ⟨e, he, hdecode⟩ := (forall₂_mem hall).2 _ hrow
      obtain ⟨k₂, row₂, -, hlook, hdecode₂⟩ := h.read e.1 e.2 (hmem.mp he)
      cases hdecode.symm.trans hdecode₂
      exact hlook
    · intro hrow
      obtain ⟨bytes, hbytes⟩ := h.stored k row hrow
      obtain ⟨k₂, row₂, hk₂, hlook, hdecode⟩ := h.read (key k) bytes hbytes
      cases hinjective hk₂
      cases hlook.symm.trans hrow
      obtain ⟨found, hfound, hdecoded⟩ :=
        (forall₂_mem hall).1 (key k, bytes) (hmem.mpr hbytes)
      cases hdecode.symm.trans hdecoded
      exact hfound

/-! ### Rows are read in order -/

/-- **A load reads the rows in the order of their keys**, if the stored keys are in that order. -/
theorem Mirrors.toList [LawfulEqOrd κ] {key : κ → κ'}
    (horder : ∀ a b : κ, compare (key a) (key b) = compare a b)
    (hkey : ∀ k' bytes k row, decode k' bytes = .ok (k, row) → key k = k') {t : Table κ' γ}
    {rows : Table κ β} (h : Mirrors key decode (fun k => rows[k]?) t) :
    List.Forall₂ (fun e row => decode e.1 e.2 = .ok row) t.toList rows.toList := by
  have hinjective : Function.Injective key := by
    intro a b hab
    rwa [← Std.compare_eq_iff_eq, horder, Std.compare_eq_iff_eq] at hab
  obtain ⟨read, hread, rfl⟩ := foldlM_readRow_eq_ok.mp ((readRows_eq_ok hinjective hkey).mpr h)
  have hsort : (read.map Prod.fst).Pairwise fun a b => compare a b = .lt := by
    have hkeys : ((read.map Prod.fst).map key).Pairwise fun a b => compare a b = .lt := by
      rw [keys_of_read hkey hread, pairwise_map]
      exact Table.toList_pairwise_lt t
    simpa only [pairwise_map, horder] using hkeys
  rw [Table.toList_foldl_insert (pairwise_map.mp hsort)]
  exact hread

end AsterRpc.Foundation

import AsterRpc.Foundation.FixedWidth

/-!
# Entries of two bits

A table of two-bit entries packed four to a byte, the first in the high bits.
The writer ors each entry into a table of zeroes; what it leaves is described by
what each entry reads as, and two tables of one length whose entries read alike
are the same bytes.
-/

namespace AsterRpc.Foundation

open List UInt8

variable {bits : UInt8} {r : ℕ} {table entries : List UInt8}

/-- Entry `i` of a packed table. -/
def entry (table : List UInt8) (i : ℕ) : UInt8 :=
  (table.getD (i * 2 / 8) 0 >>> ofNat (6 - i * 2 % 8)) &&& 0b11

/-- Or `bits` into entry `i`. -/
def orEntry (table : List UInt8) (i : ℕ) (bits : UInt8) : List UInt8 :=
  table.modify (i * 2 / 8) (· ||| bits <<< ofNat (6 - i * 2 % 8))

/-- The bytes that `count` entries take, `(count * 2).div_ceil(8)`. -/
def tableBytes (count : ℕ) : ℕ := (count * 2 + 7) / 8

/-- The packed table of some entries. -/
def packEntries (entries : List UInt8) : List UInt8 :=
  entries.zipIdx.foldl (fun table e => orEntry table e.2 e.1)
    (replicate (tableBytes entries.length) 0)

/-- The bits of a byte that hold its first `count` entries. -/
def entryMask : ℕ → UInt8
  | 0 => 0
  | 1 => 0xC0
  | 2 => 0xF0
  | 3 => 0xFC
  | _ => 0xFF

/-- A table with all but the first `count` entries cleared. -/
def clearEntries (count : ℕ) (table : List UInt8) : List UInt8 :=
  table.mapIdx fun k byte => byte &&& entryMask (count - 4 * k)

/-! ### One byte -/

/-- Entry `r` of the four in a byte. -/
def quarter (byte : UInt8) (r : ℕ) : UInt8 := (byte >>> ofNat (6 - 2 * r)) &&& 0b11

theorem entry_eq_quarter (table : List UInt8) (i : ℕ) :
    entry table i = quarter (table.getD (i / 4) 0) (i % 4) := by
  have hbyte : i * 2 / 8 = i / 4 := by omega
  have hoffset : 6 - i * 2 % 8 = 6 - 2 * (i % 4) := by omega
  rw [entry, quarter, hbyte, hoffset]

theorem or_and_right (a b c : UInt8) : (a ||| b) &&& c = (a &&& c) ||| (b &&& c) := by
  apply UInt8.eq_of_toBitVec_eq
  ext i hi
  simp [Bool.and_or_distrib_right]

/-- Oring two bits into one entry of a byte leaves the other three. -/
theorem quarter_or (hbits : bits.toNat < 4) (byte : UInt8) {r' : ℕ} (hr : r < 4) (hr' : r' < 4) :
    quarter (byte ||| bits <<< ofNat (6 - 2 * r)) r' =
      if r' = r then quarter byte r ||| bits else quarter byte r' := by
  have htable : ∀ (b r r' : Fin 4),
      (ofNat b.val <<< ofNat (6 - 2 * r.val)) >>> ofNat (6 - 2 * r'.val) &&&
        0b11 = if r'.val = r.val then ofNat b.val else 0 := by decide +kernel
  have hcell : (bits <<< ofNat (6 - 2 * r)) >>> ofNat (6 - 2 * r') &&& 0b11 =
      if r' = r then bits else 0 := by
    have h := htable ⟨bits.toNat, hbits⟩ ⟨r, hr⟩ ⟨r', hr'⟩
    rwa [UInt8.ofNat_toNat] at h
  rw [quarter, shiftRight_or, or_and_right, hcell]
  split_ifs with h
  · rw [h]
    rfl
  · exact UInt8.or_zero

theorem quarter_zero (r : ℕ) : quarter 0 r = 0 := by
  rw [quarter, UInt8.zero_shiftRight, UInt8.zero_and]

theorem quarter_lt (byte : UInt8) (r : ℕ) : (quarter byte r).toNat < 4 := by
  rw [quarter, UInt8.toNat_and]
  exact Nat.lt_of_le_of_lt Nat.and_le_right (by decide)

theorem byte_eq_quarters (byte : UInt8) :
    byte = quarter byte 0 <<< 6 ||| quarter byte 1 <<< 4 ||| quarter byte 2 <<< 2 |||
      quarter byte 3 :=
  forall_byte (P := fun byte => byte = quarter byte 0 <<< 6 ||| quarter byte 1 <<< 4 |||
    quarter byte 2 <<< 2 ||| quarter byte 3) (by decide +kernel) byte

/-- A byte is its four entries. -/
theorem byte_ext {a b : UInt8} (h : ∀ r < 4, quarter a r = quarter b r) : a = b := by
  rw [byte_eq_quarters a, byte_eq_quarters b, h 0 (by decide), h 1 (by decide), h 2 (by decide),
    h 3 (by decide)]

theorem quarter_mask (byte : UInt8) (count : ℕ) (hr : r < 4) :
    quarter (byte &&& entryMask count) r = if r < count then quarter byte r else 0 := by
  have htable : ∀ (k : Fin 5) (r : Fin 4), quarter (entryMask k.val) r.val =
      if r.val < k.val then 0b11 else 0 := by decide +kernel
  have hmask : entryMask count = entryMask (min count 4) := by
    match count with
    | 0 | 1 | 2 | 3 => rfl
    | n + 4 => rw [Nat.min_eq_right (Nat.le_add_left 4 n)]; rfl
  have hcell : quarter (entryMask count) r = if r < min count 4 then 0b11 else 0 := by
    rw [hmask]
    exact htable ⟨min count 4, by omega⟩ ⟨r, hr⟩
  have hiff : r < min count 4 ↔ r < count := by omega
  -- the mask's own entry is all ones or all zeroes
  rw [quarter, UInt8.shiftRight_and, UInt8.and_assoc]
  show (byte >>> ofNat (6 - 2 * r)) &&& quarter (entryMask count) r = _
  rw [hcell]
  simp only [hiff]
  split_ifs
  · rfl
  · exact UInt8.and_zero

/-! ### Tables -/

theorem entry_lt (table : List UInt8) (i : ℕ) : (entry table i).toNat < 4 := by
  rw [entry_eq_quarter]
  exact quarter_lt _ _

@[simp] theorem length_orEntry (table : List UInt8) (i : ℕ) (bits : UInt8) :
    (orEntry table i bits).length = table.length := length_modify ..

/-- What one write does to every entry. -/
theorem entry_orEntry {i : ℕ} (hbits : bits.toNat < 4) (hi : i / 4 < table.length) (j : ℕ) :
    entry (orEntry table i bits) j =
      if j = i then entry table i ||| bits else entry table j := by
  have hbyte : i * 2 / 8 = i / 4 := by omega
  have hoffset : 6 - i * 2 % 8 = 6 - 2 * (i % 4) := by omega
  rw [entry_eq_quarter, entry_eq_quarter, entry_eq_quarter, orEntry, hbyte, hoffset,
    getD_eq_getElem?_getD, getD_eq_getElem?_getD, getD_eq_getElem?_getD,
    getElem?_modify]
  by_cases hsame : i / 4 = j / 4
  · simp only [← hsame, getElem?_eq_getElem hi, if_true, Option.map_eq_map, Option.map_some,
      Option.getD_some]
    rw [quarter_or hbits _ (Nat.mod_lt i (by decide)) (Nat.mod_lt j (by decide))]
    have hiff : j % 4 = i % 4 ↔ j = i := by omega
    simp [hiff]
  · have hne : j ≠ i := fun h => hsame (by rw [h])
    simp [hsame, hne]

theorem length_foldl_orEntry (entries : List (UInt8 × ℕ)) (table : List UInt8) :
    (entries.foldl (fun table e => orEntry table e.2 e.1) table).length = table.length := by
  induction entries generalizing table with
  | nil => rfl
  | cons e rest ih => rw [foldl_cons, ih, length_orEntry]

@[simp] theorem length_packEntries (entries : List UInt8) :
    (packEntries entries).length = tableBytes entries.length := by
  rw [packEntries, length_foldl_orEntry, length_replicate]

/-- Entries written from position `start` on, over a table that is zero there. -/
theorem entry_foldl_orEntry (hentries : ∀ e ∈ entries, e.toNat < 4) {start : ℕ}
    (hroom : start + entries.length ≤ 4 * table.length)
    (hzero : ∀ j, start ≤ j → entry table j = 0) (j : ℕ) :
    entry ((entries.zipIdx start).foldl (fun table e => orEntry table e.2 e.1) table) j =
      if j < start then entry table j else entries.getD (j - start) 0 := by
  induction entries generalizing start table with
  | nil =>
    split_ifs with hj
    · rfl
    · exact hzero j (Nat.not_lt.mp hj)
  | cons e rest ih =>
    rw [length_cons] at hroom
    have he := hentries e mem_cons_self
    have hbyte : start / 4 < table.length := by omega
    have hnext : ∀ j, start + 1 ≤ j → entry (orEntry table start e) j = 0 := by
      intro j hj
      rw [entry_orEntry he hbyte, if_neg (by omega)]
      exact hzero j (by omega)
    rw [zipIdx_cons, foldl_cons,
      ih (fun e' he' => hentries e' (mem_cons_of_mem e he'))
        (by rw [length_orEntry]; omega) hnext]
    rcases Nat.lt_trichotomy j start with hj | rfl | hj
    · rw [if_pos (by omega), if_pos hj, entry_orEntry he hbyte, if_neg (by omega)]
    · rw [if_pos (by omega), if_neg (by omega), entry_orEntry he hbyte, if_pos rfl,
        hzero j (le_refl j), Nat.sub_self, getD_cons_zero, UInt8.zero_or]
    · have hsub : j - start = j - (start + 1) + 1 := by omega
      rw [if_neg (by omega), if_neg (by omega), hsub, getD_cons_succ]

/-- A packed table reads as the entries that were packed. -/
theorem entry_packEntries (hentries : ∀ e ∈ entries, e.toNat < 4) (j : ℕ) :
    entry (packEntries entries) j = entries.getD j 0 := by
  have hroom : 0 + entries.length ≤
      4 * (replicate (tableBytes entries.length) (0 : UInt8)).length := by
    rw [length_replicate, tableBytes]
    omega
  have hzero : ∀ j, 0 ≤ j →
      entry (replicate (tableBytes entries.length) (0 : UInt8)) j = 0 := by
    intro j _
    rw [entry_eq_quarter, getD_eq_getElem?_getD, getElem?_replicate]
    split_ifs <;> exact quarter_zero _
  have h := entry_foldl_orEntry hentries hroom hzero j
  rwa [if_neg (by omega), Nat.sub_zero] at h

theorem entry_clearEntries (count : ℕ) (table : List UInt8) (j : ℕ) :
    entry (clearEntries count table) j = if j < count then entry table j else 0 := by
  have hr : j % 4 < 4 := Nat.mod_lt j (by decide)
  rw [entry_eq_quarter, entry_eq_quarter, clearEntries, getD_eq_getElem?_getD,
    getD_eq_getElem?_getD, getElem?_mapIdx]
  cases table[j / 4]? with
  | none => simp [quarter_zero]
  | some byte =>
    simp only [Option.map_some, Option.getD_some]
    rw [quarter_mask byte _ hr]
    have hiff : j % 4 < count - 4 * (j / 4) ↔ j < count := by omega
    simp [hiff]

@[simp] theorem length_clearEntries (count : ℕ) (table : List UInt8) :
    (clearEntries count table).length = table.length := length_mapIdx

/-- Tables of one length whose entries read alike are the same bytes. -/
theorem table_ext {a b : List UInt8} (hlen : a.length = b.length)
    (h : ∀ j, entry a j = entry b j) : a = b := by
  apply ext_getElem hlen
  intro k hka hkb
  apply byte_ext
  intro r hr
  have hentry := h (4 * k + r)
  have hbyte : (4 * k + r) / 4 = k := by omega
  have hoffset : (4 * k + r) % 4 = r := by omega
  rw [entry_eq_quarter, entry_eq_quarter, hbyte, hoffset, getD_eq_getElem _ _ hka,
    getD_eq_getElem _ _ hkb] at hentry
  exact hentry

/-- Packing what was read gives the table back, with what is beyond the entries cleared. -/
theorem packEntries_entries {count : ℕ} (hlen : table.length = tableBytes count) :
    packEntries ((range count).map (entry table)) = clearEntries count table := by
  apply table_ext
  · rw [length_packEntries, length_map, length_range, length_clearEntries, hlen]
  · intro j
    have hentries : ∀ e ∈ (range count).map (entry table), e.toNat < 4 := by
      intro e he
      obtain ⟨i, -, rfl⟩ := mem_map.mp he
      exact entry_lt table i
    rw [entry_packEntries hentries, entry_clearEntries, getD_eq_getElem?_getD,
      getElem?_map]
    split_ifs with hj
    · simp [getElem?_range hj]
    · rw [getElem?_eq_none (by rw [length_range]; omega)]
      rfl

end AsterRpc.Foundation

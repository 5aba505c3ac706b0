import Mathlib

/-!
# Minimal LEB128

A 64-bit number as bytes of seven bits each, lowest first, the high bit of every
byte but the last set.  The reader refuses a value of more than 64 bits and a
number that is written longer than need be, so that every number has exactly one
encoding: what the reader accepts is what the writer writes, and nothing else.
-/

namespace AsterRpc.Foundation

variable {n result shift v digit : ℕ} {byte : UInt8} {r rest bytes : List UInt8}

inductive VarintError where
  | nonMinimal
  | overflow
  | truncated

/-- The bytes of a number. -/
def writeVarint (v : ℕ) : List UInt8 :=
  let byte := UInt8.ofNat (v &&& 0x7f)
  if v >>> 7 = 0 then [byte] else (byte ||| 0x80) :: writeVarint (v >>> 7)
termination_by v
decreasing_by
  rename_i h
  rw [Nat.shiftRight_eq_div_pow] at h ⊢
  omega

/-- Read on from a first byte: `result` is what the bytes before it gave, `shift` bits of it. -/
def continueVarint (result shift : ℕ) (byte : UInt8) (r : List UInt8) :
    Except VarintError (ℕ × List UInt8) :=
  if (shift = 63 ∧ byte > 1) ∨ shift > 63 then .error .overflow
  else
    let result := result ||| ((byte &&& 0x7f).toNat <<< shift)
    if byte &&& 0x80 = 0 then
      if byte = 0 ∧ shift > 0 then .error .nonMinimal else .ok (result, r)
    else
      match r with
      | [] => .error .truncated
      | next :: r => continueVarint result (shift + 7) next r

/-- Read one number. -/
def readVarint : List UInt8 → Except VarintError (ℕ × List UInt8)
  | [] => .error .truncated
  | first :: r => continueVarint 0 0 first r

/-- Read one number where the input may as well end. -/
def readVarintBoundary : List UInt8 → Except VarintError (Option (ℕ × List UInt8))
  | [] => .ok none
  | first :: r => (continueVarint 0 0 first r).map some

/-! ### Bytes as digits -/

theorem toNat_and_low (byte : UInt8) : (byte &&& 0x7f).toNat = byte.toNat % 128 := by
  rw [UInt8.toNat_and]
  exact Nat.and_two_pow_sub_one_eq_mod byte.toNat 7

theorem and_high_eq_zero (byte : UInt8) : byte &&& 0x80 = 0 ↔ byte.toNat < 128 := by
  have htable : ∀ b : Fin 256, (b.val &&& 128 = 0) ↔ b.val < 128 := by decide +kernel
  rw [← UInt8.toNat_inj, UInt8.toNat_and]
  exact htable ⟨byte.toNat, byte.toNat_lt⟩

theorem toNat_low (hn : n < 128) : (UInt8.ofNat n).toNat = n :=
  UInt8.toNat_ofNat_of_lt' (Nat.lt_trans hn (by decide))

theorem toNat_or_high (hn : n < 128) : (UInt8.ofNat n ||| 0x80).toNat = n + 128 := by
  have htable : ∀ b : Fin 128, (UInt8.ofNat b.val ||| 0x80).toNat = b.val + 128 := by
    decide +kernel
  exact htable ⟨n, hn⟩

/-- The bits of one digit above those already there. -/
theorem or_digit (h : result < 2 ^ shift) (digit : ℕ) :
    result ||| (digit <<< shift) = result + digit * 2 ^ shift := by
  rw [Nat.shiftLeft_eq, Nat.or_comm, Nat.mul_comm digit, ← Nat.two_pow_add_eq_or_of_lt h]
  omega

theorem writeVarint_small (h : v < 128) : writeVarint v = [UInt8.ofNat v] := by
  have hshift : v >>> 7 = 0 := by
    rw [Nat.shiftRight_eq_div_pow]
    omega
  have hlow : v &&& 0x7f = v := by
    rw [Nat.and_two_pow_sub_one_eq_mod v 7]
    omega
  rw [writeVarint, if_pos hshift, hlow]

theorem writeVarint_large (hdigit : digit < 128) (hv : v ≠ 0) :
    writeVarint (digit + v * 128) = (UInt8.ofNat digit ||| 0x80) :: writeVarint v := by
  have hshift : (digit + v * 128) >>> 7 = v := by
    rw [Nat.shiftRight_eq_div_pow]
    omega
  have hlow : (digit + v * 128) &&& 0x7f = digit := by
    rw [Nat.and_two_pow_sub_one_eq_mod _ 7]
    omega
  rw [writeVarint, hshift, if_neg hv, hlow]

/-- A number as its lowest digit and the rest. -/
theorem writeVarint_cases (v : ℕ) :
    (v < 128 ∧ writeVarint v = [UInt8.ofNat v]) ∨
      ∃ digit rest, v = digit + rest * 128 ∧ digit < 128 ∧ rest ≠ 0 ∧
        writeVarint v = (UInt8.ofNat digit ||| 0x80) :: writeVarint rest := by
  by_cases hv : v < 128
  · exact .inl ⟨hv, writeVarint_small hv⟩
  · have hsplit : v = v % 128 + v / 128 * 128 := by omega
    have hrest : v / 128 ≠ 0 := by omega
    have hdigit : v % 128 < 128 := Nat.mod_lt v (by decide)
    refine .inr ⟨v % 128, v / 128, hsplit, hdigit, hrest, ?_⟩
    rw [← writeVarint_large hdigit hrest, ← hsplit]

theorem writeVarint_ne_nil (v : ℕ) : writeVarint v ≠ [] := by
  rcases writeVarint_cases v with ⟨-, h⟩ | ⟨_, _, -, -, -, h⟩ <;> simp [h]

/-- A low first byte is the whole number. -/
theorem cons_eq_last_iff (hlast : byte.toNat < 128) :
    byte :: r = writeVarint v ++ rest ↔ v = byte.toNat ∧ r = rest := by
  constructor
  · intro h
    rcases writeVarint_cases v with ⟨hv, hwrite⟩ | ⟨_, _, -, hdigit, -, hwrite⟩
    · rw [hwrite] at h
      obtain ⟨rfl, rfl⟩ := List.cons.inj h
      exact ⟨(toNat_low hv).symm, rfl⟩
    · rw [hwrite] at h
      obtain ⟨rfl, -⟩ := List.cons.inj h
      rw [toNat_or_high hdigit] at hlast
      omega
  · rintro ⟨rfl, rfl⟩
    rw [writeVarint_small hlast, UInt8.ofNat_toNat]
    rfl

/-- A high first byte is the lowest digit, with the rest of the number after it. -/
theorem cons_eq_more_iff (hmore : 128 ≤ byte.toNat) :
    byte :: r = writeVarint v ++ rest ↔
      ∃ more, more ≠ 0 ∧ v = byte.toNat - 128 + more * 128 ∧ r = writeVarint more ++ rest := by
  have hlt := byte.toNat_lt
  constructor
  · intro h
    rcases writeVarint_cases v with ⟨hv, hwrite⟩ | ⟨_, more, hsplit, hdigit, hne, hwrite⟩
    · rw [hwrite] at h
      obtain ⟨rfl, -⟩ := List.cons.inj h
      rw [toNat_low hv] at hmore
      omega
    · rw [hwrite] at h
      obtain ⟨rfl, rfl⟩ := List.cons.inj h
      refine ⟨more, hne, ?_, rfl⟩
      rw [toNat_or_high hdigit]
      omega
  · rintro ⟨_, hne, rfl, rfl⟩
    have hbyte : UInt8.ofNat (byte.toNat - 128) ||| 0x80 = byte := by
      rw [← UInt8.toNat_inj, toNat_or_high (by omega)]
      omega
    rw [writeVarint_large (by omega) hne, hbyte]
    rfl

/-! ### One encoding -/

/-- A digit with more digits after it needs a shift that leaves room for the next. -/
theorem shift_lt_of_fits {rest : ℕ} (hshift : 7 ∣ shift) (hrest : rest ≠ 0)
    (h : result + rest * 2 ^ (shift + 7) < 2 ^ 64) : shift < 63 := by
  have hpos : 1 * 2 ^ (shift + 7) ≤ rest * 2 ^ (shift + 7) :=
    Nat.mul_le_mul_right _ (Nat.one_le_iff_ne_zero.mpr hrest)
  have hpow : 2 ^ (shift + 7) < 2 ^ 64 := by omega
  have hlt := (Nat.pow_lt_pow_iff_right (by decide)).mp hpow
  omega

section

variable (hres : result < 2 ^ shift)

include hres

/-- A last digit fits in 64 bits exactly when the reader does not call it an overflow. -/
theorem digit_fits (hshift : 7 ∣ shift) (hdigit : digit < 128) (hmin : 0 < shift → digit ≠ 0) :
    ¬ ((shift = 63 ∧ 1 < digit) ∨ 63 < shift) ↔ result + digit * 2 ^ shift < 2 ^ 64 := by
  obtain ⟨k, rfl⟩ := hshift
  have hdigits : digit * 2 ^ (7 * k) ≤ 127 * 2 ^ (7 * k) := Nat.mul_le_mul_right _ (by omega)
  rcases Nat.lt_trichotomy k 9 with hk | rfl | hk
  · have hpow : 2 ^ (7 * k) ≤ 2 ^ 56 := Nat.pow_le_pow_right (by decide) (by omega)
    omega
  · have hfits : 1 < digit ↔ ¬ (result + digit * 2 ^ 63 < 2 ^ 64) := by omega
    simp [Nat.reduceMul, lt_self_iff_false, hfits]
  · have hpow : 2 ^ 64 ≤ 2 ^ (7 * k) := Nat.pow_le_pow_right (by decide) (by omega)
    have hpos : 1 * 2 ^ (7 * k) ≤ digit * 2 ^ (7 * k) :=
      Nat.mul_le_mul_right _ (Nat.one_le_iff_ne_zero.mpr (hmin (by omega)))
    omega

/-- The last byte of a number. -/
theorem continueVarint_last (hshift : 7 ∣ shift) (hlast : byte.toNat < 128) :
    continueVarint result shift byte r = .ok (n, rest) ↔
      ∃ v, n = result + v * 2 ^ shift ∧ byte :: r = writeVarint v ++ rest ∧
        (0 < shift → v ≠ 0) ∧ n < 2 ^ 64 := by
  have hbyte : byte > 1 ↔ 1 < byte.toNat := UInt8.lt_iff_toNat_lt
  have hzero : byte = 0 ↔ byte.toNat = 0 := UInt8.toNat_inj.symm
  rw [continueVarint.eq_def, toNat_and_low, or_digit hres, Nat.mod_eq_of_lt hlast]
  simp only [and_high_eq_zero, hbyte, hzero, hlast, if_true, gt_iff_lt, cons_eq_last_iff hlast]
  by_cases hmin : 0 < shift → byte.toNat ≠ 0
  · have hfits := digit_fits hres hshift hlast hmin
    have hnot : ¬ (byte.toNat = 0 ∧ 0 < shift) := fun h => hmin h.2 h.1
    rw [if_neg hnot]
    split_ifs with hover
    · have hbig : ¬ (result + byte.toNat * 2 ^ shift < 2 ^ 64) := fun h => hfits.mpr h hover
      refine ⟨fun h => (by cases h), ?_⟩
      rintro ⟨v, rfl, ⟨rfl, -⟩, -, hn⟩
      exact absurd hn hbig
    · have hsmall := hfits.mp hover
      simp only [Except.ok.injEq, Prod.mk.injEq]
      constructor
      · rintro ⟨rfl, rfl⟩
        exact ⟨byte.toNat, rfl, ⟨rfl, rfl⟩, hmin, hsmall⟩
      · rintro ⟨v, rfl, ⟨rfl, rfl⟩, -, -⟩
        exact ⟨rfl, rfl⟩
  · have hbad : byte.toNat = 0 ∧ 0 < shift := by omega
    rw [if_pos hbad]
    constructor
    · intro h
      split_ifs at h
    · rintro ⟨v, -, ⟨rfl, -⟩, h, -⟩
      exact absurd h hmin

/-- A byte with more to come. -/
theorem continueVarint_more (hmore : 128 ≤ byte.toNat) :
    continueVarint result shift byte r = .ok (n, rest) ↔
      shift < 63 ∧ ∃ next r', r = next :: r' ∧
        continueVarint (result + (byte.toNat - 128) * 2 ^ shift) (shift + 7) next r' =
          .ok (n, rest) := by
  have hbyte : byte > 1 ↔ 1 < byte.toNat := UInt8.lt_iff_toNat_lt
  have hlt := byte.toNat_lt
  have hlow : byte.toNat % 128 = byte.toNat - 128 := by omega
  have hhigh : ¬ byte.toNat < 128 := by omega
  have hover : (shift = 63 ∧ 1 < byte.toNat) ∨ 63 < shift ↔ ¬ shift < 63 := by omega
  rw [continueVarint.eq_def, toNat_and_low, or_digit hres, hlow]
  simp only [and_high_eq_zero, hbyte, hhigh, if_false, gt_iff_lt, hover]
  split_ifs with hshift
  · cases r with
    | nil => simp
    | cons => simp [hshift]
  · simp [hshift]

/-- **Reading on is undoing the writer**: from a byte on, the reader accepts exactly the bytes of
one number, not zero unless it is the whole of the input, and short enough to fit. -/
theorem continueVarint_eq_ok (hshift : 7 ∣ shift) :
    continueVarint result shift byte r = .ok (n, rest) ↔
      ∃ v, n = result + v * 2 ^ shift ∧ byte :: r = writeVarint v ++ rest ∧
        (0 < shift → v ≠ 0) ∧ n < 2 ^ 64 := by
  induction r generalizing result shift byte with
  | nil =>
    by_cases hlast : byte.toNat < 128
    · exact continueVarint_last hres hshift hlast
    · have hmore : 128 ≤ byte.toNat := Nat.not_lt.mp hlast
      simp only [continueVarint_more hres hmore, cons_eq_more_iff hmore]
      simp [writeVarint_ne_nil]
  | cons next r ih =>
    by_cases hlast : byte.toNat < 128
    · exact continueVarint_last hres hshift hlast
    · have hmore : 128 ≤ byte.toNat := Nat.not_lt.mp hlast
      have hlt := byte.toNat_lt
      have hpow : 2 ^ (shift + 7) = 2 ^ shift * 128 := Nat.pow_add 2 shift 7
      have hdigit : (byte.toNat - 128) * 2 ^ shift ≤ 127 * 2 ^ shift :=
        Nat.mul_le_mul_right _ (by omega)
      have hres' : result + (byte.toNat - 128) * 2 ^ shift < 2 ^ (shift + 7) := by omega
      have hvalue : ∀ more, result + (byte.toNat - 128) * 2 ^ shift + more * 2 ^ (shift + 7) =
          result + (byte.toNat - 128 + more * 128) * 2 ^ shift := by
        intro more
        rw [hpow]
        ring
      rw [continueVarint_more hres hmore]
      simp only [List.cons.injEq, cons_eq_more_iff hmore]
      constructor
      · rintro ⟨hroom, _, _, ⟨rfl, rfl⟩, hnext⟩
        obtain ⟨more, rfl, hbytes, hne, hfits⟩ :=
          (ih hres' (Dvd.dvd.add hshift (by decide))).mp hnext
        have hpos : more ≠ 0 := hne (by omega)
        exact ⟨_, hvalue more, ⟨more, hpos, rfl, hbytes⟩, fun _ => by omega, hfits⟩
      · rintro ⟨v, rfl, ⟨more, hne, rfl, hbytes⟩, -, hfits⟩
        have hfits' : result + (byte.toNat - 128) * 2 ^ shift +
          more * 2 ^ (shift + 7) < 2 ^ 64 := by
          rw [hvalue more]
          exact hfits
        refine ⟨shift_lt_of_fits hshift hne hfits', next, r, ⟨rfl, rfl⟩, ?_⟩
        exact (ih hres' (Dvd.dvd.add hshift (by decide))).mpr
          ⟨more, (hvalue more).symm, hbytes, fun _ => hne, hfits⟩

end

theorem readVarint_eq_ok :
    readVarint bytes = .ok (v, rest) ↔ v < 2 ^ 64 ∧ bytes = writeVarint v ++ rest := by
  cases bytes with
  | nil => simp [readVarint, writeVarint_ne_nil]
  | cons =>
    rw [readVarint, continueVarint_eq_ok (by decide) (by decide)]
    constructor
    · rintro ⟨v, rfl, hbytes, -, hfits⟩
      simp only [zero_add, pow_zero, mul_one] at hfits ⊢
      exact ⟨hfits, hbytes⟩
    · rintro ⟨hfits, hbytes⟩
      exact ⟨v, by simp, hbytes, fun h => absurd h (lt_irrefl 0), hfits⟩

/-- At a boundary the input ends, or another number starts. -/
theorem readVarintBoundary_eq_ok {o : Option (ℕ × List UInt8)} :
    readVarintBoundary bytes = .ok o ↔
      (bytes = [] ∧ o = none) ∨ ∃ v rest, o = some (v, rest) ∧ v < 2 ^ 64 ∧
        bytes = writeVarint v ++ rest := by
  cases bytes with
  | nil =>
    constructor
    · intro h
      cases h
      exact .inl ⟨rfl, rfl⟩
    · rintro (⟨-, rfl⟩ | ⟨v, rest, -, -, hbytes⟩)
      · rfl
      · exact absurd (List.append_eq_nil_iff.mp hbytes.symm).1 (writeVarint_ne_nil v)
  | cons first r =>
    have hread : readVarintBoundary (first :: r) = .ok o ↔
        ∃ p, readVarint (first :: r) = .ok p ∧ some p = o := by
      rw [readVarintBoundary, ← readVarint]
      cases readVarint (first :: r) <;> simp [Except.map]
    rw [hread]
    constructor
    · rintro ⟨⟨v, rest⟩, hok, rfl⟩
      obtain ⟨hfits, hbytes⟩ := readVarint_eq_ok.mp hok
      exact .inr ⟨v, rest, rfl, hfits, hbytes⟩
    · rintro (⟨hnil, -⟩ | ⟨v, _, rfl, hfits, hbytes⟩)
      · cases hnil
      · exact ⟨_, readVarint_eq_ok.mpr ⟨hfits, hbytes⟩, rfl⟩

end AsterRpc.Foundation

import Mathlib

/-!
# Numbers of a fixed width

An unsigned number written in a fixed number of bytes, in little- or big-endian
order.  Below `256 ^ width` writing and reading are inverse to each other; above
it the number that comes back is what was left after truncation.
-/

namespace AsterRpc.Foundation

/-- A property of bytes is checked on the 256 of them. -/
theorem forall_byte {P : UInt8 → Prop} (h : ∀ b : Fin 256, P (UInt8.ofNat b.val)) (byte : UInt8) :
    P byte := by
  have hbyte := h ⟨byte.toNat, byte.toNat_lt⟩
  rwa [UInt8.ofNat_toNat] at hbyte

/-- `uN::to_le_bytes` of a number truncated to the width. -/
def toLittleEndian : ℕ → ℕ → List UInt8
  | 0, _ => []
  | width + 1, n => UInt8.ofNat n :: toLittleEndian width (n / 256)

/-- `uN::from_le_bytes`. -/
def ofLittleEndian : List UInt8 → ℕ
  | [] => 0
  | byte :: rest => byte.toNat + 256 * ofLittleEndian rest

/-- `uN::to_be_bytes`. -/
def toBigEndian (width n : ℕ) : List UInt8 := (toLittleEndian width n).reverse

/-- `uN::from_be_bytes`. -/
def ofBigEndian (bytes : List UInt8) : ℕ := ofLittleEndian bytes.reverse

@[simp] theorem length_toLittleEndian (width n : ℕ) : (toLittleEndian width n).length = width := by
  induction width generalizing n with
  | zero => rfl
  | succ width ih => rw [toLittleEndian, List.length_cons, ih]

theorem ofLittleEndian_toLittleEndian {width n : ℕ} (h : n < 256 ^ width) :
    ofLittleEndian (toLittleEndian width n) = n := by
  induction width generalizing n with
  | zero =>
    have hn : n = 0 := by
      rw [pow_zero] at h
      omega
    rw [hn]
    rfl
  | succ width ih =>
    have hrest : n / 256 < 256 ^ width := by
      rw [pow_succ] at h
      exact Nat.div_lt_of_lt_mul (by rw [Nat.mul_comm]; exact h)
    rw [toLittleEndian, ofLittleEndian, ih hrest, UInt8.toNat_ofNat']
    omega

theorem ofLittleEndian_lt (bytes : List UInt8) : ofLittleEndian bytes < 256 ^ bytes.length := by
  induction bytes with
  | nil => exact Nat.one_pos
  | cons byte =>
    have hbyte := byte.toNat_lt
    rw [ofLittleEndian, List.length_cons, pow_succ]
    omega

theorem toLittleEndian_ofLittleEndian (bytes : List UInt8) :
    toLittleEndian bytes.length (ofLittleEndian bytes) = bytes := by
  induction bytes with
  | nil => rfl
  | cons byte rest ih =>
    have hbyte := byte.toNat_lt
    have hlow : UInt8.ofNat (byte.toNat + 256 * ofLittleEndian rest) = byte := by
      rw [← UInt8.toNat_inj, UInt8.toNat_ofNat']
      omega
    have hhigh : (byte.toNat + 256 * ofLittleEndian rest) / 256 = ofLittleEndian rest := by omega
    rw [List.length_cons, ofLittleEndian, toLittleEndian, hlow, hhigh, ih]

@[simp] theorem length_toBigEndian (width n : ℕ) : (toBigEndian width n).length = width := by
  rw [toBigEndian, List.length_reverse, length_toLittleEndian]

theorem ofBigEndian_toBigEndian {width n : ℕ} (h : n < 256 ^ width) :
    ofBigEndian (toBigEndian width n) = n := by
  rw [ofBigEndian, toBigEndian, List.reverse_reverse, ofLittleEndian_toLittleEndian h]

theorem ofBigEndian_lt (bytes : List UInt8) : ofBigEndian bytes < 256 ^ bytes.length := by
  rw [ofBigEndian, ← List.length_reverse]
  exact ofLittleEndian_lt bytes.reverse

theorem toBigEndian_ofBigEndian (bytes : List UInt8) :
    toBigEndian bytes.length (ofBigEndian bytes) = bytes := by
  rw [toBigEndian, ofBigEndian, ← List.length_reverse, toLittleEndian_ofLittleEndian,
    List.reverse_reverse]

end AsterRpc.Foundation

import Mathlib

/-!
# ZigZag

Signed 32-bit numbers as unsigned ones, small magnitudes first: the sign goes to
the lowest bit and is xored into the others.  Both directions are written with
the shifts of the machine, and they are inverse to each other bit by bit.
-/

namespace AsterRpc.Foundation

open BitVec

/-- `((value << 1) ^ (value >> 31)) as u32`. -/
def zigzag (value : Int32) : UInt32 := ((value <<< 1) ^^^ (value >>> 31)).toUInt32

/-- `((raw >> 1) as i32) ^ -((raw & 1) as i32)`. -/
def unzigzag (raw : UInt32) : Int32 := (raw >>> 1).toInt32 ^^^ -(raw &&& 1).toInt32

/-- The negated lowest bit is that bit everywhere. -/
theorem neg_low_bit (b : BitVec 32) : -(b &&& 1#32) = fill 32 b[0] := by
  have hlow : b &&& 1#32 = if b[0] then 1#32 else 0#32 := by
    ext i hi
    by_cases h0 : i = 0
    · subst h0
      cases hb : b[0] <;> simp_all
    · cases hb : b[0] <;> simp [h0, getElem_one]
  rw [hlow]
  cases b[0] <;> decide

/-- The sign shifted all the way is the sign everywhere. -/
theorem sshiftRight_sign (b : BitVec 32) : b.sshiftRight 31 = fill 32 b[31] := by
  ext i hi
  rw [getElem_sshiftRight, getElem_fill]
  split_ifs with h
  · have h0 : i = 0 := by omega
    subst h0
    rfl
  · rw [msb_eq_getLsbD_last]
    rfl

theorem toBitVec_zigzag (v : Int32) :
    (zigzag v).toBitVec = v.toBitVec <<< 1 ^^^ fill 32 v.toBitVec[31] := by
  rw [← sshiftRight_sign]
  simp [zigzag]

theorem toBitVec_unzigzag (raw : UInt32) :
    (unzigzag raw).toBitVec = raw.toBitVec >>> 1 ^^^ fill 32 raw.toBitVec[0] := by
  rw [← neg_low_bit]
  simp [unzigzag]

theorem unzigzag_zigzag (v : Int32) : unzigzag (zigzag v) = v := by
  apply Int32.toBitVec_inj.mp
  rw [toBitVec_unzigzag, toBitVec_zigzag]
  generalize v.toBitVec = b
  ext i hi
  simp only [getElem_xor, getElem_fill, getElem_ushiftRight,
    getLsbD_xor, getLsbD_fill, getLsbD_shiftLeft, getElem_shiftLeft]
  by_cases hlast : i = 31
  · subst hlast
    simp
  · have hnext : 1 + i < 32 := by omega
    have hback : 1 + i - 1 = i := by omega
    simp [hnext, hback, getLsbD_eq_getElem hi]

theorem zigzag_unzigzag (raw : UInt32) : zigzag (unzigzag raw) = raw := by
  apply UInt32.toBitVec_inj.mp
  rw [toBitVec_zigzag, toBitVec_unzigzag]
  generalize raw.toBitVec = b
  ext i hi
  simp only [getElem_xor, getElem_fill, getElem_ushiftRight,
    getElem_shiftLeft]
  by_cases hfirst : i = 0
  · subst hfirst
    simp
  · have hback : 1 + (i - 1) = i := by omega
    simp [hfirst, hback, getLsbD_eq_getElem hi]

end AsterRpc.Foundation

import AsterRpc.Coordination.Ids
import AsterRpc.Foundation.FixedWidth
import AsterRpc.Foundation.Reading
import AsterRpc.Foundation.Varint
import AsterRpc.Foundation.Zigzag

/-!
# Canonical bytes: the primitives

`core/src/canonical.rs`: numbers, strings, byte fields, booleans, list headers
and optional markers of the canonical encoding, each with its writer and its
reader.

A reader works on the bytes still to be read; the offset in an error is the
length of the whole buffer less what was left.  Every reader takes the reader of
varints as a parameter.  With the source's own `readVarint` it is the source's
reader; with `minimalVarint`, which refuses what no writer writes, it is exact,
and the source's reader extends it.
-/

namespace AsterRpc.Schema

open AsterRpc.Foundation List
open AsterRpc.Coordination (Bytes)

variable {value shift n : ℕ} {rest bytes : Bytes} {α : Type} {write : α → Bytes} {valid : α → Prop}

def nullFlag : UInt8 := 0xFD
def listElementHeader : UInt8 := 0x0C

inductive CanonicalError where
  | unexpectedEof (need left : ℕ)
  | varintTooLong
  | zigzagOutOfRange (raw : ℕ)
  | stringHeader (header : ℕ)
  | invalidUtf8
  | invalidBool (byte : UInt8)
  | listHeader (marker : UInt8)
  | optionalMarker (byte : UInt8)
  | trailing (left : ℕ)
  | unknownDiscriminant (name : String) (value : ℕ)
deriving DecidableEq

/-- The UTF-8 bytes of a string. -/
def utf8 (s : String) : Bytes := s.toByteArray.data.toList

/-- `String::from_utf8`. -/
def fromUtf8 (bytes : Bytes) : Option String := String.fromUTF8? ⟨bytes.toArray⟩

/-! ### Writing -/

/-- `write_zigzag_i32`. -/
def writeZigzagI32 (value : Int32) : Bytes := writeVarint (zigzag value).toNat

/-- `write_string`. -/
def writeString (s : String) : Bytes :=
  let encoded := utf8 s
  writeVarint ((encoded.length <<< 2) % 2 ^ 64 ||| 2) ++ encoded

/-- `write_bytes_field`. -/
def writeBytesField (data : Bytes) : Bytes := writeVarint data.length ++ data

/-- `write_bool`. -/
def writeBool (value : Bool) : Bytes := [if value then 0x01 else 0x00]

/-- `write_float64`, of the bit pattern. -/
def writeFloat64 (bits : UInt64) : Bytes := toLittleEndian 8 bits.toNat

/-- `write_list_header`. -/
def writeListHeader (length : ℕ) : Bytes := writeVarint length ++ [listElementHeader]

/-- A list: its header and its elements. -/
def writeList {α : Type} (write : α → Bytes) (xs : List α) : Bytes :=
  writeListHeader xs.length ++ (xs.map write).flatten

/-- `write_optional_absent`, or `write_optional_present_prefix` and the value. -/
def writeOptional {α : Type} (write : α → Bytes) : Option α → Bytes
  | none => [nullFlag]
  | some a => 0x00 :: write a

/-! ### Reading -/

/-- One byte, after `need(1)`. -/
def readByte : Reader CanonicalError UInt8
  | [] => .error (.unexpectedEof 1 0)
  | byte :: rest => .ok (byte, rest)

/-- `n` bytes, after `need(n)`. -/
def readBytes (n : ℕ) : Reader CanonicalError Bytes := fun bytes => do
  refuseIf (bytes.length < n) (.unexpectedEof n bytes.length)
  return (bytes.take n, bytes.drop n)

/-- The loop of `read_varint`, by the rounds still allowed; a bit shifted out of 64 is lost. -/
def readVarintLoop : ℕ → ℕ → ℕ → Reader CanonicalError ℕ
  | 0, _, _, _ => .error .varintTooLong
  | rounds + 1, shift, value, bytes => do
    let (byte, bytes) ← readByte bytes
    let value := value ||| ((byte &&& 0x7F).toNat <<< shift) % 2 ^ 64
    if byte &&& 0x80 = 0 then return (value, bytes)
    else readVarintLoop rounds (shift + 7) value bytes

/-- `read_varint`. -/
def readVarint : Reader CanonicalError ℕ := readVarintLoop 10 0 0

/-- A reader of varints that refuses what no writer writes. -/
def minimalVarint : Reader CanonicalError ℕ := fun bytes =>
  (Foundation.readVarint bytes).mapError fun _ => .varintTooLong

section Readers

variable (varint : Reader CanonicalError ℕ)

/-- `read_zigzag_i32`. -/
def readZigzagI32 : Reader CanonicalError Int32 := fun bytes => do
  let (raw, bytes) ← varint bytes
  refuseIf (raw > 2 ^ 32 - 1) (.zigzagOutOfRange raw)
  return (unzigzag (UInt32.ofNat raw), bytes)

/-- `read_string`. -/
def readString : Reader CanonicalError String := fun bytes => do
  let (header, bytes) ← varint bytes
  refuseIf (header &&& 0b11 != 0b10) (.stringHeader header)
  let (encoded, bytes) ← readBytes (header >>> 2) bytes
  let s ← requireSome (fromUtf8 encoded) .invalidUtf8
  return (s, bytes)

/-- `read_bytes_field`. -/
def readBytesField : Reader CanonicalError Bytes := fun bytes => do
  let (len, bytes) ← varint bytes
  readBytes len bytes

/-- `read_bool`. -/
def readBool : Reader CanonicalError Bool := fun bytes => do
  let (byte, bytes) ← readByte bytes
  if byte = 0x00 then return (false, bytes)
  else if byte = 0x01 then return (true, bytes)
  else .error (.invalidBool byte)

/-- `read_float64`, as a bit pattern. -/
def readFloat64 : Reader CanonicalError UInt64 := fun bytes => do
  let (arr, bytes) ← readBytes 8 bytes
  return (UInt64.ofNat (ofLittleEndian arr), bytes)

/-- `read_list_header`. -/
def readListHeader : Reader CanonicalError ℕ := fun bytes => do
  let (len, bytes) ← varint bytes
  let (marker, bytes) ← readByte bytes
  refuseIf (marker != listElementHeader) (.listHeader marker)
  return (len, bytes)

/-- The header of a list and then its elements. -/
def readList {α : Type} (read : Reader CanonicalError α) : Reader CanonicalError (List α) :=
  fun bytes => do
    let (len, bytes) ← readListHeader varint bytes
    readMany read len bytes

/-- `read_optional_present`. -/
def readOptionalPresent : Reader CanonicalError Bool := fun bytes => do
  let (byte, bytes) ← readByte bytes
  if byte = 0x00 then return (true, bytes)
  else if byte = nullFlag then return (false, bytes)
  else .error (.optionalMarker byte)

/-- The marker of an optional value and, when it is present, the value. -/
def readOptional {α : Type} (read : Reader CanonicalError α) : Reader CanonicalError (Option α) :=
  fun bytes => do
    let (present, bytes) ← readOptionalPresent bytes
    if present then
      let (a, bytes) ← read bytes
      return (some a, bytes)
    else return (none, bytes)

/-- `expect_eof`. -/
def expectEof (bytes : Bytes) : Except CanonicalError Unit :=
  refuseIf (bytes.length != 0) (.trailing bytes.length)

/-- A value with nothing behind it. -/
def decodeWhole {α : Type} (read : Reader CanonicalError α) (bytes : Bytes) :
    Except CanonicalError α := do
  let (a, rest) ← read bytes
  expectEof rest
  return a

end Readers

/-! ### Varints -/

theorem minimalVarint_exact : Exact minimalVarint writeVarint (· < 2 ^ 64) := by
  intro bytes v rest
  rw [minimalVarint, ← readVarint_eq_ok]
  cases Foundation.readVarint bytes with
  | error => simp [Except.mapError]
  | ok => simp [Except.mapError]

/-- The source's loop goes along with the minimal reader: while that does not overflow, no bit is
lost. -/
theorem readVarintLoop_extends {rounds : ℕ} {byte : UInt8} {r : Bytes} {x : ℕ × Bytes}
    (hrounds : shift + 7 * rounds = 70) (h : continueVarint value shift byte r = .ok x) :
    readVarintLoop rounds shift value (byte :: r) = .ok x := by
  induction rounds generalizing shift value byte r with
  | zero =>
    rw [continueVarint.eq_def, if_pos (by omega)] at h
    cases h
  | succ rounds ih =>
    rw [continueVarint.eq_def] at h
    split_ifs at h with hover hlast
    all_goals
      have hfits : (byte &&& 0x7F).toNat <<< shift < 2 ^ 64 := by
        rw [Nat.shiftLeft_eq, toNat_and_low]
        rcases Nat.eq_zero_or_pos rounds with rfl | hpos
        · have hshift : shift = 63 := by omega
          have hbyte : ¬ 1 < byte.toNat := fun hlt =>
            hover (.inl ⟨hshift, UInt8.lt_iff_toNat_lt.mpr hlt⟩)
          rw [hshift]
          omega
        · have hpow : 2 ^ shift ≤ 2 ^ 56 := Nat.pow_le_pow_right (by decide) (by omega)
          have hle := Nat.mul_le_mul (show byte.toNat % 128 ≤ 127 by omega) hpow
          omega
      simp only [readVarintLoop, readByte, ok_bind, Nat.mod_eq_of_lt hfits, hlast, if_true,
        if_false]
    · cases h
      rfl
    · cases r with
      | nil => cases h
      | cons => exact ih (by omega) h

/-- The source's reader of varints accepts what the writer writes. -/
theorem readVarint_extends : Extends minimalVarint readVarint := by
  intro bytes x h
  cases bytes with
  | nil => cases h
  | cons byte r =>
    rw [readVarint]
    refine readVarintLoop_extends rfl ?_
    rw [minimalVarint, Foundation.readVarint] at h
    cases hread : continueVarint 0 0 byte r with
    | error =>
      rw [hread] at h
      cases h
    | ok =>
      rw [hread] at h
      cases h
      rfl

/-! ### What the readers accept -/

theorem readByte_eq_ok {byte : UInt8} :
    readByte bytes = .ok (byte, rest) ↔ bytes = byte :: rest := by
  cases bytes with
  | nil => simp [readByte]
  | cons => simp [readByte]

theorem readBytes_eq_ok {data : Bytes} :
    readBytes n bytes = .ok (data, rest) ↔ data.length = n ∧ bytes = data ++ rest := by
  simp only [readBytes, accepts_iff]
  constructor
  · rintro ⟨hn, hok⟩
    cases hok
    exact ⟨length_take_of_le hn, (take_append_drop n bytes).symm⟩
  · rintro ⟨rfl, rfl⟩
    refine ⟨by rw [length_append]; omega, ?_⟩
    rw [take_left, drop_left]

theorem fromUtf8_utf8 (s : String) : fromUtf8 (utf8 s) = some s := by
  have harray : (⟨(utf8 s).toArray⟩ : ByteArray) = s.toByteArray := by
    rw [utf8, Array.toArray_toList]
  rw [fromUtf8, harray, String.fromUTF8?, dif_pos s.isValidUTF8]
  rfl

theorem fromUtf8_eq_some {s : String} : fromUtf8 bytes = some s ↔ bytes = utf8 s := by
  constructor
  · intro h
    rw [fromUtf8, String.fromUTF8?] at h
    split_ifs at h with hvalid
    rw [← Option.some.inj h]
    rfl
  · rintro rfl
    exact fromUtf8_utf8 s

/-- A string that fits in an address space. -/
def ShortString (s : String) : Prop := (utf8 s).length < 2 ^ 62

instance (s : String) : Decidable (ShortString s) := inferInstanceAs (Decidable (_ < _))

theorem stringHeader_eq (h : n < 2 ^ 62) : (n <<< 2) % 2 ^ 64 ||| 2 = 4 * n + 2 := by
  have hfits : n <<< 2 < 2 ^ 64 := by
    rw [Nat.shiftLeft_eq]
    omega
  rw [Nat.mod_eq_of_lt hfits, ← Nat.shiftLeft_add_eq_or_of_lt (by decide), Nat.shiftLeft_eq]
  omega

theorem readZigzagI32_exact :
    Exact (readZigzagI32 minimalVarint) writeZigzagI32 fun _ => True := by
  intro bytes value rest
  simp only [readZigzagI32, accepts_iff, minimalVarint_exact _ _ _, true_and]
  constructor
  · rintro ⟨raw, _, ⟨-, rfl⟩, hraw, hok⟩
    cases hok
    have hlt : raw < 2 ^ 32 := by omega
    rw [writeZigzagI32, zigzag_unzigzag, UInt32.toNat_ofNat_of_lt' hlt]
  · rintro rfl
    have hlt := (zigzag value).toNat_lt
    refine ⟨(zigzag value).toNat, rest, ⟨by omega, rfl⟩, by omega, ?_⟩
    rw [UInt32.ofNat_toNat, unzigzag_zigzag]

theorem readString_exact : Exact (readString minimalVarint) writeString ShortString := by
  intro bytes s rest
  simp only [readString, accepts_iff, minimalVarint_exact _ _ _, readBytes_eq_ok, fromUtf8_eq_some,
    Nat.shiftRight_eq_div_pow]
  constructor
  · rintro ⟨header, _, ⟨hhead, rfl⟩, hbits, _, _, ⟨hlen, rfl⟩, _, rfl, hok⟩
    cases hok
    have hlow : header % 4 = 2 := by
      rw [← Nat.and_two_pow_sub_one_eq_mod header 2]
      exact hbits
    have hshort : (utf8 s).length < 2 ^ 62 := by omega
    refine ⟨hshort, ?_⟩
    have hwrite : 4 * (utf8 s).length + 2 = header := by omega
    simp only [writeString, stringHeader_eq hshort, hwrite, append_assoc]
  · rintro ⟨hshort, rfl⟩
    have hshort' : (utf8 s).length < 2 ^ 62 := hshort
    refine ⟨4 * (utf8 s).length + 2, utf8 s ++ rest, ⟨by omega, ?_⟩, ?_, utf8 s, rest,
      ⟨by omega, rfl⟩, s, rfl, rfl⟩
    · simp only [writeString, stringHeader_eq hshort', append_assoc]
    · rw [show (0b11 : ℕ) = 2 ^ 2 - 1 from rfl, Nat.and_two_pow_sub_one_eq_mod]
      omega

theorem readBytesField_exact :
    Exact (readBytesField minimalVarint) writeBytesField fun data => data.length < 2 ^ 64 := by
  intro bytes data rest
  simp only [readBytesField, accepts_iff, minimalVarint_exact _ _ _, readBytes_eq_ok]
  constructor
  · rintro ⟨_, _, ⟨hlen, rfl⟩, rfl, rfl⟩
    exact ⟨hlen, (append_assoc _ _ _).symm⟩
  · rintro ⟨hlen, rfl⟩
    exact ⟨data.length, data ++ rest, ⟨hlen, append_assoc _ _ _⟩, rfl, rfl⟩

theorem readBool_exact : Exact readBool writeBool fun _ => True := by
  intro bytes value rest
  simp only [readBool, accepts_iff, readByte_eq_ok, true_and]
  constructor
  · rintro ⟨_, _, rfl, hok⟩
    split_ifs at hok with hfalse htrue
    · cases hok
      rw [hfalse]
      rfl
    · cases hok
      rw [htrue]
      rfl
  · rintro rfl
    cases value with
    | false => exact ⟨0x00, rest, rfl, rfl⟩
    | true => exact ⟨0x01, rest, rfl, rfl⟩

theorem readFloat64_exact : Exact readFloat64 writeFloat64 fun _ => True := by
  intro bytes bits rest
  simp only [readFloat64, accepts_iff, readBytes_eq_ok, true_and]
  constructor
  · rintro ⟨arr, _, ⟨hlen, rfl⟩, hok⟩
    cases hok
    have hlt : ofLittleEndian arr < 2 ^ 64 := by
      have h := ofLittleEndian_lt arr
      rw [hlen] at h
      exact h
    have hwrite := toLittleEndian_ofLittleEndian arr
    rw [hlen] at hwrite
    rw [writeFloat64, UInt64.toNat_ofNat_of_lt' hlt, hwrite]
  · rintro rfl
    refine ⟨writeFloat64 bits, rest, ⟨length_toLittleEndian _ _, rfl⟩, ?_⟩
    have hlt : bits.toNat < 256 ^ 8 := bits.toNat_lt
    rw [writeFloat64, ofLittleEndian_toLittleEndian hlt, UInt64.ofNat_toNat]

theorem readListHeader_exact :
    Exact (readListHeader minimalVarint) writeListHeader (· < 2 ^ 64) := by
  intro bytes len rest
  simp only [readListHeader, accepts_iff, minimalVarint_exact _ _ _, readByte_eq_ok]
  constructor
  · rintro ⟨_, _, ⟨hlen, rfl⟩, _, _, rfl, rfl, hok⟩
    cases hok
    exact ⟨hlen, by rw [writeListHeader, append_assoc]; rfl⟩
  · rintro ⟨hlen, rfl⟩
    refine ⟨len, listElementHeader :: rest, ⟨hlen, ?_⟩, listElementHeader, rest, rfl, rfl, rfl⟩
    rw [writeListHeader, append_assoc]
    rfl

variable {read : Reader CanonicalError α}

theorem readList_exact (h : Exact read write valid) :
    Exact (readList minimalVarint read) (writeList write) fun xs =>
      xs.length < 2 ^ 64 ∧ ∀ x ∈ xs, valid x := by
  intro bytes xs rest
  simp only [readList, accepts_iff, readListHeader_exact _ _ _, readMany_eq_ok h]
  constructor
  · rintro ⟨_, _, ⟨hlen, rfl⟩, rfl, hvalid, rfl⟩
    exact ⟨⟨hlen, hvalid⟩, (append_assoc _ _ _).symm⟩
  · rintro ⟨⟨hlen, hvalid⟩, rfl⟩
    exact ⟨xs.length, _, ⟨hlen, append_assoc _ _ _⟩, rfl, hvalid, rfl⟩

theorem readOptional_exact (h : Exact read write valid) :
    Exact (readOptional read) (writeOptional write) fun o => ∀ a, o = some a → valid a := by
  intro bytes o rest
  simp only [readOptional, readOptionalPresent, accepts_iff, readByte_eq_ok]
  constructor
  · rintro ⟨_, mid, ⟨_, _, rfl, hmarker⟩, hok⟩
    split_ifs at hmarker with hpresent habsent
    · cases hmarker
      simp only [if_true, accepts_iff, h _ _ _] at hok
      obtain ⟨a, _, ⟨ha, rfl⟩, hok⟩ := hok
      cases hok
      refine ⟨fun a' ha' => Option.some.inj ha' ▸ ha, ?_⟩
      rw [hpresent]
      rfl
    · cases hmarker
      cases hok
      refine ⟨fun a' ha' => (by cases ha'), ?_⟩
      rw [habsent]
      rfl
  · rintro ⟨hvalid, rfl⟩
    cases o with
    | none => exact ⟨false, rest, ⟨nullFlag, rest, rfl, rfl⟩, rfl⟩
    | some a =>
      refine ⟨true, write a ++ rest, ⟨0x00, _, rfl, rfl⟩, ?_⟩
      simp only [if_true, accepts_iff, h _ _ _]
      exact ⟨a, rest, ⟨hvalid a rfl, rfl⟩, rfl⟩

theorem decodeWhole_eq_ok {a : α} : decodeWhole read bytes = .ok a ↔ read bytes = .ok (a, []) := by
  simp only [decodeWhole, expectEof, accepts_iff, length_eq_zero_iff]
  constructor
  · rintro ⟨_, _, hread, rfl, rfl⟩
    exact hread
  · intro hread
    exact ⟨a, [], hread, rfl, rfl⟩

/-! ### More varints, more accepted -/

section Extends

variable {varint varint' : Reader CanonicalError ℕ} {α : Type}
  {read read' : Reader CanonicalError α}

section

variable (h : Extends varint varint')

include h

theorem readZigzagI32_extends : Extends (readZigzagI32 varint) (readZigzagI32 varint') :=
  fun bytes => extends_bind (h bytes) fun _ _ hok => hok

theorem readString_extends : Extends (readString varint) (readString varint') :=
  fun bytes => extends_bind (h bytes) fun _ _ hok => hok

theorem readBytesField_extends : Extends (readBytesField varint) (readBytesField varint') :=
  fun bytes => extends_bind (h bytes) fun _ _ hok => hok

theorem readList_extends (hread : Extends read read') :
    Extends (readList varint read) (readList varint' read') := by
  intro bytes
  refine extends_bind ?_ fun (len, r) => readMany_extends hread len r
  exact extends_bind (h bytes) fun _ _ hok => hok

end

theorem readOptional_extends (hread : Extends read read') :
    Extends (readOptional read) (readOptional read') := by
  intro bytes
  refine extends_bind (fun _ hok => hok) fun (present, r) => ?_
  cases present with
  | false => exact fun _ hok => hok
  | true => exact extends_bind (hread r) fun _ _ hok => hok

end Extends

end AsterRpc.Schema

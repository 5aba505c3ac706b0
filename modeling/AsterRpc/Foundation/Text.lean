import AsterRpc.Foundation.FixedWidth

/-!
# Text and hexadecimal

A text as its UTF-8 bytes, and bytes in lowercase hexadecimal, as ASCII bytes or as
a text.  Decoding takes digits of both cases, so only one direction is an identity:
what was encoded decodes to itself.
-/

namespace AsterRpc.Foundation

/-- `as_bytes`; a `str` is the list of its characters. -/
def asBytes (text : List Char) : List UInt8 := text.flatMap String.utf8EncodeChar

/-- `char::is_control`. -/
def isControl (c : Char) : Bool := c.val < 32 || 127 ≤ c.val && c.val < 160

def hexDigit (n : UInt8) : UInt8 := if n < 10 then 48 + n else 87 + n

/-- `hex::encode`. -/
def hexEncode (bytes : List UInt8) : List UInt8 :=
  bytes.flatMap fun b => [hexDigit (b / 16), hexDigit (b % 16)]

def hexValue (c : UInt8) : Option UInt8 :=
  if 48 ≤ c && c ≤ 57 then some (c - 48)
  else if 97 ≤ c && c ≤ 102 then some (c - 87)
  else if 65 ≤ c && c ≤ 70 then some (c - 55)
  else none

/-- `hex::decode`: both cases, an even number of digits. -/
def hexDecode : List UInt8 → Option (List UInt8)
  | [] => some []
  | [_] => none
  | hi :: lo :: rest => do
    let h ← hexValue hi
    let l ← hexValue lo
    let bytes ← hexDecode rest
    some ((h * 16 + l) :: bytes)

theorem hexDecode_hexEncode (bytes : List UInt8) : hexDecode (hexEncode bytes) = some bytes := by
  induction bytes with
  | nil => rfl
  | cons b rest ih =>
    have hdigits : hexValue (hexDigit (b / 16)) = some (b / 16) ∧
        hexValue (hexDigit (b % 16)) = some (b % 16) ∧ b / 16 * 16 + b % 16 = b := by
      revert b
      exact forall_byte (by decide +kernel)
    obtain ⟨hhi, hlo, hsum⟩ := hdigits
    show hexDecode (hexDigit (b / 16) :: hexDigit (b % 16) :: hexEncode rest) = some (b :: rest)
    rw [hexDecode, hhi, hlo, ih]
    show some ((b / 16 * 16 + b % 16) :: rest) = some (b :: rest)
    rw [hsum]

/-- `hex::encode`, as a text. -/
def hexText (bytes : List UInt8) : String :=
  String.ofList ((hexEncode bytes).map fun digit => Char.ofNat digit.toNat)

theorem asBytes_hexText (bytes : List UInt8) :
    asBytes (hexText bytes).toList = hexEncode bytes := by
  rw [hexText, String.toList_ofList]
  induction bytes with
  | nil => rfl
  | cons b rest ih =>
    -- each digit is ASCII, so that its character is one byte
    have hdigits : asBytes [Char.ofNat (hexDigit (b / 16)).toNat,
        Char.ofNat (hexDigit (b % 16)).toNat] = [hexDigit (b / 16), hexDigit (b % 16)] := by
      revert b
      exact forall_byte (by decide +kernel)
    calc asBytes ((hexEncode (b :: rest)).map fun digit => Char.ofNat digit.toNat)
        = asBytes [Char.ofNat (hexDigit (b / 16)).toNat, Char.ofNat (hexDigit (b % 16)).toNat] ++
          asBytes ((hexEncode rest).map fun digit => Char.ofNat digit.toNat) := by
          simp [asBytes, hexEncode]
      _ = hexEncode (b :: rest) := by rw [hdigits, ih]; rfl

end AsterRpc.Foundation

import AsterRpc.Delegation.Wire
import AsterRpc.Foundation.FixedWidth

/-!
# Audit events and their identifiers

`audit_outbox/types.rs` and `wire.rs`: what a producer may submit, the envelope an
event is stored in, and the identifier that binds the envelope to its place in
one outbox.  JSON and SHA-256 are libraries.
-/

namespace AsterRpc.Audit

open AsterRpc.Foundation List
open AsterRpc.Coordination (Bytes FixedBytes)
open AsterRpc.Delegation (ascii)

/-! ### Limits and errors -/

def maxEventBytes : ℕ := 1024 * 1024
def maxBatchEvents : ℕ := 64
def maxBatchBytes : ℕ := 1024 * 1024
def maxAckLogEntries : ℕ := 1000000
def maxReceiptBytes : ℕ := 32 * 1024

/-- `AuditErrorKind`. -/
inductive AuditErrorKind where
  | invalidConfig | invalidEvent | eventTooLarge | storageFull | storage | commitUncertain
  | queueOverloaded | maintenance | closed | workerFailed | timeout | deliveryStalled
  | disposition | notFound | destinationMismatch | integrityConflict | staleDelivery

structure AuditError where
  code : AuditErrorKind
  message : String

namespace AuditError

/-- `AuditError::storage`. -/
def storage : AuditError := ⟨.storage, "local audit storage operation failed"⟩

/-- `AuditError::worker`. -/
def worker : AuditError := ⟨.workerFailed, "audit worker stopped before completing the operation"⟩

/-- `integrity`. -/
def integrity (message : String) : AuditError := ⟨.integrityConflict, message⟩

/-- What a failed `commit` reports. -/
def commitUncertain : AuditError :=
  ⟨.commitUncertain, "durable commit failed; acceptance outcome may be uncertain; " ++
    "reopen storage before retrying"⟩

end AuditError

/-! ### Events -/

/-- `serde_json::Value`. -/
inductive Json where
  | null
  | bool (value : Bool)
  | number (text : String)
  | string (text : String)
  | array (items : List Json)
  | object (members : List (String × Json))

namespace Json

def isObject : Json → Bool
  | object _ => true
  | _ => false

mutual

/-- `depth` of `validate_event`. -/
def depth (level : ℕ) : Json → Bool
  | array items => level ≤ 64 && depthItems (level + 1) items
  | object members => level ≤ 64 && depthMembers (level + 1) members
  | _ => level ≤ 64

def depthItems (level : ℕ) : List Json → Bool
  | [] => true
  | value :: rest => depth level value && depthItems level rest

def depthMembers (level : ℕ) : List (String × Json) → Bool
  | [] => true
  | (_, value) :: rest => depth level value && depthMembers level rest

end

end Json

structure AuditEvent where
  timestampMs : ℕ
  kind : String
  payload : Json

/-- An identifier as the bytes of its text. -/
abbrev EventId := Bytes

structure EnvelopeV1 where
  version : ℕ
  outboxId : Bytes
  sequence : ℕ
  timestampMs : ℕ
  kind : String
  payload : Json

/-- `DeliveryErrorKind`. -/
inductive DeliveryErrorKind where
  | transport | protocol | credentials | rejected | integrity | configuration
deriving DecidableEq

structure DeliveryError where
  kind : DeliveryErrorKind
  httpStatus : Option ℕ
  sequence : ℕ
  immediateFlushFailure : Bool
  message : String

structure Destination where
  endpoint : String
  receiverIdentity : Option String
  authorization : Option String

structure DispositionReceipt where
  eventId : EventId
  action : String
  timestampMs : ℕ
  reason : String
  operatorReference : String
  destinationFingerprint : String
  rejection : Option DeliveryError

/-- `State`, the accounting record of a store. -/
structure State where
  version : ℕ
  identity : Bytes
  lastSequence : ℕ
  fingerprint : String
  pendingRecords : ℕ
  pendingBytes : ℕ
  deadRecords : ℕ
  deadBytes : ℕ
  receiptRecords : ℕ
  receiptBytes : ℕ
  isolationUntil : ℕ
  stall : Option DeliveryError

/-- What the outbox takes from its libraries.  Reading back an envelope may round the numbers of
the payload, and is only sure within the nesting that is admitted. -/
structure Libraries where
  sha256 : Bytes → FixedBytes 32
  /-- `Destination::fingerprint`. -/
  fingerprint : Destination → Except AuditError String
  eventJson : AuditEvent → Bytes
  envelopeJson : EnvelopeV1 → Bytes
  parseEnvelope : Bytes → Option EnvelopeV1
  /-- The time alone, as `reload_oldest` reads it. -/
  parseTimestamp : Bytes → Option ℕ
  receiptsJson : List DispositionReceipt → Bytes
  parseReceipts : Bytes → Option (List DispositionReceipt)
  stateJson : State → Bytes
  parseState : Bytes → Option State
  parseEnvelope_envelopeJson : ∀ e, e.payload.depth 0 = true →
    ∃ payload, parseEnvelope (envelopeJson e) = some { e with payload := payload }
  parseTimestamp_envelopeJson : ∀ e, e.payload.depth 0 = true →
    parseTimestamp (envelopeJson e) = some e.timestampMs
  parseReceipts_receiptsJson : ∀ receipts, parseReceipts (receiptsJson receipts) = some receipts
  parseState_stateJson : ∀ state, parseState (stateJson state) = some state

/-! ### What is asked of the libraries can be had -/

instance countableChar : Countable Char :=
  Function.Injective.countable (f := Char.toNat) fun _ _ h => Char.toNat_inj.mp h

instance countableString : Countable String :=
  Function.Injective.countable (f := String.toList) fun _ _ h => String.toList_inj.mp h

deriving instance Countable for DeliveryErrorKind, DeliveryError, DispositionReceipt, State

theorem exists_encoding (α : Type) [Countable α] :
    ∃ (encode : α → Bytes) (decode : Bytes → Option α), ∀ a, decode (encode a) = some a := by
  obtain ⟨f, hf⟩ := exists_injective_nat α
  have hinjective : Function.Injective fun a => replicate (f a) (0 : UInt8) := by
    intro a b h
    have hlen := congrArg length h
    rw [length_replicate, length_replicate] at hlen
    exact hf hlen
  exact ⟨_, Function.partialInv _, fun a => Function.partialInv_left hinjective a⟩

theorem Libraries.nonempty : Nonempty Libraries := by
  obtain ⟨header, readHeader, hhead⟩ := exists_encoding (ℕ × Bytes × ℕ × ℕ × String)
  obtain ⟨receipts, readReceipts, hrecs⟩ := exists_encoding (List DispositionReceipt)
  obtain ⟨state, readState, hstate⟩ := exists_encoding State
  exact ⟨{
    sha256 := fun _ => FixedBytes.fill 32 0
    fingerprint := fun destination => .ok destination.endpoint
    eventJson := fun _ => []
    envelopeJson := fun e => header (e.version, e.outboxId, e.sequence, e.timestampMs, e.kind)
    parseEnvelope := fun bytes => (readHeader bytes).map fun h =>
      ⟨h.1, h.2.1, h.2.2.1, h.2.2.2.1, h.2.2.2.2, .null⟩
    parseTimestamp := fun bytes => (readHeader bytes).map fun h => h.2.2.2.1
    receiptsJson := receipts
    parseReceipts := readReceipts
    stateJson := state
    parseState := readState
    parseEnvelope_envelopeJson := fun e _ => ⟨.null, by rw [hhead]; rfl⟩
    parseTimestamp_envelopeJson := fun e _ => by rw [hhead]; rfl
    parseReceipts_receiptsJson := hrecs
    parseState_stateJson := hstate }⟩

/-! ### Validation -/

/-- `bounded_json`, on the whole text: the writer refuses exactly what would exceed the limit. -/
def boundedJson (text : Bytes) (max : ℕ) : Except AuditError Bytes := do
  refuseIf (decide (max < text.length)) ⟨.eventTooLarge, "serialized event exceeds limit"⟩
  return text

/-- `validate_event`; the size that is reserved in the queue. -/
def validateEvent (lib : Libraries) (event : AuditEvent) (max : ℕ) : Except AuditError ℕ := do
  refuseIf (event.kind.utf8ByteSize == 0 || decide (128 < event.kind.utf8ByteSize) ||
      event.kind.toList.any isControl || !event.payload.isObject)
    ⟨.invalidEvent, "kind must be 1..128 printable bytes and payload must be an object"⟩
  refuseIf (!event.payload.depth 0) ⟨.invalidEvent, "payload nesting exceeds 64 levels"⟩
  let text ← boundedJson (lib.eventJson event) max
  refuseIf (decide (max < text.length + 128)) ⟨.eventTooLarge, "envelope exceeds event limit"⟩
  return text.length + 128

/-! ### Numbers in text -/

/-- `u64::to_string`. -/
def decimal (n : ℕ) : Bytes :=
  if n = 0 then [48] else (Nat.digits 10 n).reverse.map fun d => UInt8.ofNat (48 + d)

def digitValue (c : UInt8) : Option ℕ := if 48 ≤ c && c ≤ 57 then some (c.toNat - 48) else none

/-- The text after a sign. -/
def unsigned : Bytes → Bytes
  | 43 :: rest => rest
  | text => text

/-- `str::parse::<u64>`. -/
def parseU64 (text : Bytes) : Option ℕ := do
  let values ← (unsigned text).mapM digitValue
  let n := values.foldl (fun n d => 10 * n + d) 0
  if values.isEmpty || decide (2 ^ 64 ≤ n) then none else some n

/-! ### Identifiers -/

/-- `:`. -/
def colon : UInt8 := 58

def idTag : Bytes := ascii "aster-audit-v1"

/-- `id_for`. -/
def idFor (lib : Libraries) (identity : Bytes) (sequence : ℕ) (bytes : Bytes) : EventId :=
  [colon].intercalate [idTag, identity, decimal sequence, hexEncode (lib.sha256 bytes).bytes]

def isLowerHex (c : UInt8) : Bool := (48 ≤ c && c ≤ 57) || (97 ≤ c && c ≤ 102)

/-- `parse_id`: the outbox, the sequence and the digest. -/
def parseId (id : Bytes) : Except AuditError (Bytes × ℕ × Bytes) := do
  refuseIf (decide (133 < id.length)) (.integrity "invalid full event ID")
  match id.splitOn colon with
  | [tag, identity, number, digest] => do
    refuseIf (tag != idTag || identity.length != 32 || digest.length != 64 ||
      !(identity ++ digest).all isLowerHex) (.integrity "invalid full event ID")
    let sequence ← requireSome (parseU64 number) (.integrity "invalid full event ID")
    refuseIf (sequence == 0 || decimal sequence != number) (.integrity "noncanonical sequence")
    return (identity, sequence, digest)
  | _ => .error (.integrity "invalid full event ID")

def batchIdDomain : Bytes := ascii "aster-audit-batch-v1" ++ [0]

/-- `batch_id`. -/
def batchId (lib : Libraries) (ids : List EventId) : Bytes :=
  hexEncode (lib.sha256 (batchIdDomain ++
    ids.flatMap fun id => toBigEndian 4 (id.length % 2 ^ 32) ++ id)).bytes

/-- The random name of an outbox: 16 bytes in hexadecimal. -/
def IsIdentity (identity : Bytes) : Prop :=
  ∃ random : FixedBytes 16, identity = hexEncode random.bytes

theorem length_hexEncode (bytes : Bytes) : (hexEncode bytes).length = 2 * bytes.length := by
  induction bytes with
  | nil => rfl
  | cons b rest =>
    show (hexEncode rest).length + 1 + 1 = 2 * (rest.length + 1)
    omega

theorem isLowerHex_of_mem_hexEncode {bytes : Bytes} {c : UInt8} (h : c ∈ hexEncode bytes) :
    isLowerHex c = true := by
  obtain ⟨b, -, hb⟩ := mem_flatMap.mp h
  have hdigits : isLowerHex (hexDigit (b / 16)) = true ∧ isLowerHex (hexDigit (b % 16)) = true := by
    revert b
    exact fun b _ => forall_byte (P := fun b => isLowerHex (hexDigit (b / 16)) = true ∧
      isLowerHex (hexDigit (b % 16)) = true) (by decide +kernel) b
  rcases mem_cons.mp hb with rfl | hb
  · exact hdigits.1
  · rw [mem_singleton.mp hb]
    exact hdigits.2

theorem decimal_eq {n : ℕ} (h : n ≠ 0) :
    decimal n = (Nat.digits 10 n).reverse.map fun d => UInt8.ofNat (48 + d) := if_neg h

/-- A digit of a decimal text is read as itself. -/
theorem digitValue_ofNat {d : ℕ} (h : d < 10) : digitValue (UInt8.ofNat (48 + d)) = some d := by
  interval_cases d <;> rfl

theorem unsigned_decimal {n : ℕ} (h : n ≠ 0) : unsigned (decimal n) = decimal n := by
  rw [decimal_eq h]
  cases hdigits : (Nat.digits 10 n).reverse with
  | nil => rfl
  | cons d =>
    have hlt : d < 10 := by
      refine Nat.digits_lt_base (by norm_num) (m := n) (mem_reverse.mp ?_)
      rw [hdigits]
      exact mem_cons_self
    interval_cases d <;> rfl

/-- **A sequence number is read back from its text.** -/
theorem parseU64_decimal {n : ℕ} (hpos : n ≠ 0) (hlt : n < 2 ^ 64) :
    parseU64 (decimal n) = some n := by
  have hvalues : (decimal n).mapM digitValue = some (Nat.digits 10 n).reverse := by
    rw [decimal_eq hpos, mapM_map]
    have hall : ∀ d ∈ (Nat.digits 10 n).reverse, d < 10 := fun d hd =>
      Nat.digits_lt_base (by norm_num) (mem_reverse.mp hd)
    generalize (Nat.digits 10 n).reverse = digits at hall
    induction digits with
    | nil => rfl
    | cons d rest ih =>
      have hrest := ih fun x hx => hall x (mem_cons_of_mem d hx)
      rw [mapM_cons, hrest]
      show (digitValue (UInt8.ofNat (48 + d))).bind _ = _
      rw [digitValue_ofNat (hall d mem_cons_self)]
      rfl
  have hsum : (Nat.digits 10 n).reverse.foldl (fun n d => 10 * n + d) 0 = n := by
    rw [foldl_reverse]
    have hdigits := Nat.ofDigits_digits 10 n
    rw [Nat.ofDigits_eq_foldr] at hdigits
    simpa [Nat.add_comm] using hdigits
  have hnonempty : (Nat.digits 10 n).reverse.isEmpty = false := by
    simpa using Nat.digits_ne_nil_iff_ne_zero.mpr hpos
  have hfits : decide (2 ^ 64 ≤ n) = false := decide_eq_false (Nat.not_le_of_gt hlt)
  rw [parseU64, unsigned_decimal hpos, hvalues]
  show (if (Nat.digits 10 n).reverse.isEmpty || decide (2 ^ 64 ≤ _) then none else _) = _
  rw [hsum, hnonempty, hfits]
  rfl

theorem colon_notMem_decimal {n : ℕ} (h : n ≠ 0) : colon ∉ decimal n := by
  rw [decimal_eq h]
  intro hmem
  obtain ⟨d, hd, heq⟩ := mem_map.mp hmem
  have hlt : d < 10 := Nat.digits_lt_base (by norm_num) (mem_reverse.mp hd)
  interval_cases d <;> cases heq

theorem colon_notMem_hexEncode (bytes : Bytes) : colon ∉ hexEncode bytes := by
  intro hmem
  exact absurd (isLowerHex_of_mem_hexEncode hmem) (by decide)

/-- **An identifier is read back**: the outbox, the sequence and the digest of the envelope. -/
theorem parseId_idFor (lib : Libraries) {identity : Bytes} {sequence : ℕ} (bytes : Bytes)
    (hident : IsIdentity identity) (hpos : sequence ≠ 0) (hlt : sequence < 2 ^ 64) :
    parseId (idFor lib identity sequence bytes) =
      .ok (identity, sequence, hexEncode (lib.sha256 bytes).bytes) := by
  obtain ⟨random, rfl⟩ := hident
  have hidentityLength : (hexEncode random.bytes).length = 32 := by
    rw [length_hexEncode, random.length_eq]
  have hdigestLength : (hexEncode (lib.sha256 bytes).bytes).length = 64 := by
    rw [length_hexEncode, (lib.sha256 bytes).length_eq]
  have hnumber : (decimal sequence).length ≤ 20 := by
    rw [decimal_eq hpos, length_map, length_reverse]
    exact (Nat.digits_length_le_iff (by norm_num) sequence).mpr (hlt.trans (by norm_num))
  have htag : idTag.length = 14 ∧ colon ∉ idTag := by decide +kernel
  have hlen : (idFor lib (hexEncode random.bytes) sequence bytes).length ≤ 133 := by
    simp only [idFor, intercalate, intersperse, flatten_cons, flatten_nil,
      length_append, length_cons, length_nil]
    omega
  have hsplit : (idFor lib (hexEncode random.bytes) sequence bytes).splitOn colon =
      [idTag, hexEncode random.bytes, decimal sequence, hexEncode (lib.sha256 bytes).bytes] := by
    refine splitOn_intercalate colon ?_ (by simp)
    simp only [forall_mem_cons]
    exact ⟨htag.2, colon_notMem_hexEncode _, colon_notMem_decimal hpos, colon_notMem_hexEncode _,
      by simp⟩
  have hhex : (hexEncode random.bytes ++ hexEncode (lib.sha256 bytes).bytes).all isLowerHex =
      true := by
    rw [all_append, Bool.and_eq_true, all_eq_true, all_eq_true]
    exact ⟨fun _ => isLowerHex_of_mem_hexEncode, fun _ => isLowerHex_of_mem_hexEncode⟩
  rw [parseId, hsplit]
  have hshort : decide (133 < (idFor lib (hexEncode random.bytes) sequence bytes).length) =
      false := by simpa using hlen
  simp only [hshort, refuseIf_false, ok_bind, hidentityLength, hdigestLength, hhex,
    bne_self_eq_false, Bool.not_true, Bool.or_self, parseU64_decimal hpos hlt, requireSome_some]
  simp [refuseIf, hpos]

end AsterRpc.Audit

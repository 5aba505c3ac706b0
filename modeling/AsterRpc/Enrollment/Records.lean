import AsterRpc.Delegation.Chain
import AsterRpc.Foundation.FixedWidth

/-!
# Policy records and admission evidence

`enrollment/records.rs` and the parts of `enrollment/jwt.rs` the policy stores
use: the records a root writes into a policy namespace, the keys they are found
under, and the evidence an accepted registration is turned into.  A text is its
UTF-8 bytes.

JSON and URL parsing are parameters, gathered in `PolicyLibraries`.
-/

namespace AsterRpc.Enrollment

open AsterRpc.Foundation AsterRpc.Coordination AsterRpc.Delegation Std

def policyRecordVersion : ℕ := 1
def maxPolicyRecordBytes : ℕ := 64 * 1024
def maxPolicyRecords : ℕ := 4096
def maxRegistrationReasonBytes : ℕ := 256
def defaultActivationLeewaySeconds : ℕ := 60
def maxActivationLeewaySeconds : ℕ := maxLeewaySeconds

/-! ### Records -/

inductive NodeRegistrationStatus where
  | active
  | revoked
  | superseded
deriving DecidableEq

/-- `NodeRegistrationV1`: what the root says about one node. -/
structure NodeRegistrationV1 where
  version : ℕ
  issuer : Bytes
  subject : Bytes
  audience : Audience
  revision : ℕ
  issuedAt : ℕ
  notBefore : Option ℕ
  expiresAt : Option ℕ
  status : NodeRegistrationStatus
  claims : AdmissionClaims
  mandatory : List Bytes
  reauthorizesRevision : Option ℕ
  reason : Option Bytes
deriving DecidableEq

/-- `CredentialStatusV1`: what the root says about one credential. -/
structure CredentialStatusV1 where
  version : ℕ
  issuer : Bytes
  credentialId : Bytes
  revision : ℕ
  issuedAt : ℕ
  revoked : Bool
  reauthorizesRevision : Option ℕ

inductive IssuerStatus where
  | active
  | revoked
deriving DecidableEq

/-- `IssuerStatusV1`: what the root says about one delegate key. -/
structure IssuerStatusV1 where
  version : ℕ
  issuer : Bytes
  subject : Bytes
  audience : Audience
  revision : ℕ
  issuedAt : ℕ
  status : IssuerStatus
  reauthorizesRevision : Option ℕ

inductive NamespacePurpose where
  | membership
  | execGrants
  | observations
deriving DecidableEq

inductive BindingStatus where
  | active
  | retired

/-- `NamespaceBindingV1`: a namespace the root binds to its fleet. -/
structure NamespaceBindingV1 where
  version : ℕ
  issuer : Bytes
  namespaceHex : Bytes
  purpose : NamespacePurpose
  readScopes : Finset Bytes
  writeScopes : Finset Bytes
  revision : ℕ
  status : BindingStatus

/-- `==` on floats takes the two zeros for one; no stored attribute is a NaN. -/
def foldZero : TypedAttribute → TypedAttribute
  | .float bits => .float (if bits = BitVec.ofNat 64 (2 ^ 63) then 0 else bits)
  | other => other

/-- `==` on `AdmissionClaims`. -/
def sameClaims (a b : AdmissionClaims) : Bool :=
  let folded (claims : AdmissionClaims) :=
    claims.attributes.map fun attributes => attributes.toList.map fun e => (e.1, foldZero e.2)
  decide (a.scopes = b.scopes ∧ a.tags = b.tags ∧ folded a = folded b)

/-- `==` on `NodeRegistrationV1`. -/
def NodeRegistrationV1.same (a b : NodeRegistrationV1) : Bool :=
  sameClaims a.claims b.claims && decide ({ a with claims := b.claims } = b)

theorem sameClaims_refl (claims : AdmissionClaims) : sameClaims claims claims = true := by
  simp [sameClaims]

/-! ### Errors -/

/-- `DenialReason`, as far as the stores and a root rotation give one. -/
inductive DenialReason where
  | nodeRevoked
  | registrationSuperseded
  | registrationRejected
  | policyStateUnavailable
  | credentialRevoked
  | issuerRevoked
  | invalidValidity
  | rootRotated
  | clockSkew (offsetSeconds : ℕ)
  | missingEvidence
deriving DecidableEq

/-- `RecordError`. -/
inductive RecordError where
  | invalidConfiguration
  | wrongNamespace
  | wrongAudience
  | invalidRecord
  | unsupportedVersion
  | unsupportedMandatoryRestriction
  | staleRevision
  | conflictingRevision
  | reauthorizationRequired
  | missingEvidence
  | denied (reason : DenialReason)
  | tooManyRecords
  | storage (detail : String)
deriving DecidableEq

/-- `EnrollmentError`, as far as registrations meet it. -/
inductive EnrollmentError where
  | invalidConfiguration
  | invalidJwt
  | invalidIdentity
  | invalidClaims
  | invalidValidity
deriving DecidableEq

/-- Why a call of the service fails. -/
inductive ServiceError where
  | notConfigured
  | notHistory
  | rejected (error : ChainError)
  | record (error : RecordError)
  | enrollment (error : EnrollmentError)
deriving DecidableEq

/-- How `write_atomic` ends: it replaced the file, or it reported an error and left the file as it
was, or it reported an error after it replaced it. -/
inductive WriteOutcome where
  | written
  | kept (detail : String)
  | replaced (detail : String)

/-! ### Libraries -/

/-- The fields `rejection_watermark` reads of a record that did not decode. -/
structure Watermark where
  issuer : Bytes
  subject : Bytes
  audience : Audience
  revision : ℕ

/-- The libraries the policy code calls, beside those of the delegation code. -/
structure PolicyLibraries extends Libraries where
  /-- `url::Url::parse` succeeds. -/
  urlParses : Bytes → Bool
  /-- `serde_json::from_slice::<ScopedEnvelope>`: the `audience` of any record. -/
  parseScope : Bytes → Option Audience
  parseNode : Bytes → Option NodeRegistrationV1
  parseCredential : Bytes → Option CredentialStatusV1
  parseIssuer : Bytes → Option IssuerStatusV1
  parseBinding : Bytes → Option NamespaceBindingV1
  parseWatermark : Bytes → Option Watermark
  /-- `serde_json::to_vec(record)?.len()`. -/
  nodeLen : NodeRegistrationV1 → ℕ

variable (lib : PolicyLibraries)

/-! ### Identities and keys -/

/-- `identity`: a key in canonical hexadecimal. -/
def identity (value : Bytes) : Except RecordError Key :=
  requireSome (parseKey lib.toLibraries value) .invalidRecord

/-- `namespace_id`: 32 bytes in canonical hexadecimal. -/
def namespaceId (value : Bytes) : Except RecordError (FixedBytes 32) :=
  requireSome (parseHex32 value) .invalidRecord

/-- The key of a node, a delegate or a namespace in the texts of the records. -/
def hexKey (key : FixedBytes 32) : Bytes := hexEncode key.bytes

omit lib in
theorem hexKey_injective : Function.Injective hexKey := by
  intro a b h
  have hbytes : some a.bytes = some b.bytes := by
    rw [← hexDecode_hexEncode, ← hexDecode_hexEncode]
    exact congrArg hexDecode h
  exact FixedBytes.bytes_injective (Option.some.inj hbytes)

/-- A text that is an identity is the hexadecimal form of that key. -/
theorem identity_eq_ok {value : Bytes} {key : Key} (h : identity lib value = .ok key) :
    value = hexKey key ∧ validKey lib.toLibraries key = true := by
  rw [identity, requireSome_eq_ok, parseKey, Option.filter_eq_some_iff] at h
  obtain ⟨hparse, hvalid⟩ := h
  refine ⟨?_, hvalid⟩
  simp only [parseHex32, Option.bind_eq_bind, Option.bind_eq_some_iff] at hparse
  obtain ⟨decoded, -, bytes, -, hbytes⟩ := hparse
  split at hbytes
  · rename_i hsame
    cases hbytes
    exact hsame.symm
  · cases hbytes

/-! ### Audiences -/

def isAsciiHexdigit (b : UInt8) : Bool := (hexValue b).isSome

/-- The bytes a URI may hold unescaped beside letters and digits. -/
def uriMarks : Bytes := ascii "-._~:/?#[]@!$&'()*+,;="

/-- The scan of `valid_audience` over an audience with a colon. -/
def uriBytes : Bytes → Bool
  | [] => true
  | b :: rest =>
    if b = 37 then
      match rest with
      | hi :: lo :: more => isAsciiHexdigit hi && isAsciiHexdigit lo && uriBytes more
      | _ => false
    else (isAsciiAlphanumeric b || decide (b ∈ uriMarks)) && uriBytes rest

/-- `valid_audience`. -/
def validAudience (value : Bytes) : Bool :=
  !value.isEmpty && !hasControl value &&
    (decide (58 ∉ value) || (uriBytes value && lib.urlParses value))

/-! ### Validity -/

/-- `Activation`. -/
inductive Activation where
  | active
  | early (offsetSeconds : ℕ)
  | expired
deriving DecidableEq

/-- `activation`; the offset is capped to what an `i64` holds. -/
def activation (issuedAt : ℕ) (notBefore expiresAt : Option ℕ) (now leeway : ℕ) : Activation :=
  if expiresAt.any fun exp => decide (exp ≤ now) then .expired
  else
    let starts := notBefore.elim issuedAt fun nbf => max nbf issuedAt
    if starts > saturatingAdd now leeway then .early (min (starts - now) (2 ^ 63 - 1))
    else .active

/-! ### Evidence -/

/-- `AdmissionEvidenceSource`. -/
inductive AdmissionEvidenceSource where
  | presentedChain (anchor : Key) (issuers : List Key) (digest : Hash)
  | rootAuthoredRecord (documentId : FixedBytes 32) (revision : ℕ)
deriving DecidableEq

/-- `RegistrationEvidenceData`. -/
structure RegistrationEvidenceData where
  issuer : Key
  subject : Key
  audience : Audience
  issuedAt : ℕ
  notBefore : Option ℕ
  expiresAt : Option ℕ
  claims : AdmissionClaims
  documentId : FixedBytes 32
  revision : ℕ

/-- `VerifiedAdmissionEvidence`. -/
structure VerifiedAdmissionEvidence where
  issuer : Key
  subject : Key
  claims : AdmissionClaims
  audience : Audience
  issuedAt : ℕ
  notBefore : Option ℕ
  expiresAt : Option ℕ
  credentialId : Option Bytes
  presentedChain : Option Bytes
  registration : Option Registration
  source : AdmissionEvidenceSource
  activationLeeway : ℕ
deriving DecidableEq

/-- `activation_at`. -/
def VerifiedAdmissionEvidence.activationAt (evidence : VerifiedAdmissionEvidence) (now : ℕ) :
    Activation :=
  activation evidence.issuedAt evidence.notBefore evidence.expiresAt now evidence.activationLeeway

/-- `validate_evidence_shape`. -/
def validateEvidenceShape (audience : Audience) (issuedAt : ℕ) (notBefore expiresAt : Option ℕ)
    (claims : AdmissionClaims) : Except EnrollmentError Unit := do
  let validAudiences : Bool := match audience with
    | .one value => validAudience lib value
    | .many values => !values.isEmpty && values.all (validAudience lib)
  let infinite : Bool := claims.attributes.any fun attributes =>
    attributes.toList.any fun e => match e.2 with
      | .float bits => !isFinite bits
      | _ => false
  refuseIf (!validAudiences || infinite) .invalidClaims
  refuseIf ((expiresAt.any fun exp => decide (exp ≤ issuedAt)) ||
    (notBefore.any fun nbf => expiresAt.any fun exp => decide (exp ≤ nbf))) .invalidValidity

/-- `from_registration`. -/
def fromRegistration (data : RegistrationEvidenceData) (activationLeeway : ℕ) :
    Except EnrollmentError VerifiedAdmissionEvidence := do
  refuseIf (!validKey lib.toLibraries data.issuer) .invalidIdentity
  refuseIf (!validKey lib.toLibraries data.subject) .invalidIdentity
  validateEvidenceShape lib data.audience data.issuedAt data.notBefore data.expiresAt data.claims
  return {
    issuer := data.issuer, subject := data.subject, claims := data.claims,
    audience := data.audience, issuedAt := data.issuedAt, notBefore := data.notBefore,
    expiresAt := data.expiresAt, credentialId := none, presentedChain := none,
    registration := none, source := .rootAuthoredRecord data.documentId data.revision,
    activationLeeway }

end AsterRpc.Enrollment

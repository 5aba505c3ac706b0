import AsterRpc.Delegation.Wire

/-!
# Delegation links

`delegation/links.rs`: what decoding one link checks before any other link is
looked at.  A `DecodedLink` is well formed and within its own limits; it is not
yet trusted.
-/

namespace AsterRpc.Delegation

open AsterRpc.Foundation AsterRpc.Coordination Std

/-! ### Limits -/

def maxLinkBytes : ℕ := 8 * 1024
def maxListEntries : ℕ := 64
def maxStringBytes : ℕ := 128
def maxAudiences : ℕ := 16
def maxLocalityValueLen : ℕ := 64

/-! ### Kinds -/

def delegationJwtType : Bytes := ascii "aster-delegation-v1+jwt"
def actionJwtType : Bytes := ascii "aster-action-v1+jwt"
def localityJwtType : Bytes := ascii "aster-locality-v1+jwt"
def enrollmentLinkType : Bytes := ascii "aster-enrollment-v1+jwt"

def LinkKind.jwtType : LinkKind → Bytes
  | .delegation => delegationJwtType
  | .enrollment => enrollmentLinkType
  | .action => actionJwtType
  | .locality => localityJwtType

def LinkKind.fromJwtType (typ : Bytes) : Option LinkKind :=
  [LinkKind.delegation, .enrollment, .action, .locality].find? fun kind => kind.jwtType == typ

/-- The `may_issue` entry a parent delegation needs to sign this kind. -/
def LinkKind.authorizedBy : LinkKind → LinkKind
  | .locality => .enrollment
  | kind => kind

/-! ### Texts -/

/-- Some character is a control character: U+0000 to U+001F, U+007F, or U+0080 to U+009F, which
UTF-8 writes as `0xC2` and one continuation byte. -/
def hasControl : Bytes → Bool
  | [] => false
  | a :: rest =>
    a < 0x20 || a == 0x7F ||
      (a == 0xC2 && match rest with
        | [] => false
        | b :: _ => 0x80 ≤ b && b ≤ 0x9F) ||
      hasControl rest

/-- `valid_string`. -/
def validString (value : Bytes) : Bool :=
  !value.isEmpty && decide (value.length ≤ maxStringBytes) && !hasControl value

def isAsciiAlphanumeric (b : UInt8) : Bool :=
  isAsciiLowercase b || isAsciiDigit b || (65 ≤ b && b ≤ 90)

/-- `valid_jti`: 16 to 64 letters, digits, `-` and `_`. -/
def validJti (value : Bytes) : Bool :=
  decide (16 ≤ value.length ∧ value.length ≤ 64) &&
    value.all fun b => isAsciiAlphanumeric b || b == 45 || b == 95

/-- `valid_digest`: 64 lowercase hexadecimal digits. -/
def validDigest (value : Bytes) : Bool :=
  decide (value.length = 64) && value.all fun b => isAsciiDigit b || (97 ≤ b && b ≤ 102)

/-- `is_valid_locality_value`. -/
def isValidLocalityValue (value : Bytes) : Bool :=
  !value.isEmpty && decide (value.length ≤ maxLocalityValueLen) && value.all namespaceTail

/-- `LocalityClaims::declared` yields a declaration. -/
def LocalityClaims.isDeclared (claims : LocalityClaims) : Bool :=
  isValidLocalityValue claims.region && claims.zone.all isValidLocalityValue

def regionAttribute : Bytes := ascii "aster.locality.region"
def zoneAttribute : Bytes := ascii "aster.locality.zone"

/-! ### Decoded links -/

/-- The kind-specific part of a link. -/
inductive LinkBody where
  | delegation (grant : DelegationGrant)
  | enrollment (ext : EnrollmentExtension)
  | action (grant : ActionGrant)
  | locality (claims : LocalityClaims)

/-- A link that decoded. -/
structure DecodedLink where
  kind : LinkKind
  iss : Key
  sub : Key
  cnf : Option Key
  aud : Audience
  jti : Bytes
  iat : ℕ
  nbf : Option ℕ
  exp : ℕ
  body : LinkBody
  localityStatement : Option Bytes

/-- What a link claims, whichever kind it is. -/
structure Claimed where
  scopes : Finset Bytes
  tags : Finset Bytes
  attributeKeys : Finset Bytes
  operations : Finset Bytes

namespace DecodedLink

def delegation (link : DecodedLink) : Option DelegationGrant :=
  match link.body with
  | .delegation grant => some grant
  | _ => none

def mandatory (link : DecodedLink) : Finset Bytes :=
  match link.body with
  | .delegation grant => grant.mandatory
  | .action grant => grant.mandatory
  | .enrollment ext => ext.mandatory.toFinset
  | .locality _ => ∅

/-- The link asks for persistent registration, or grants it. -/
def registers (link : DecodedLink) : Bool :=
  match link.body with
  | .delegation grant => grant.mayRegister
  | .enrollment ext => ext.registration == .persistent
  | .action _ | .locality _ => false

/-- `claimed`; a set the link leaves unknown claims nothing. -/
def claimed (link : DecodedLink) : Claimed :=
  match link.body with
  | .delegation grant => ⟨grant.scopes, grant.tags, grant.attributeKeys, grant.operations⟩
  | .enrollment ext =>
    ⟨ext.claims.scopes.getD ∅, ext.claims.tags.getD ∅,
      (ext.claims.attributes.map fun a => a.keys.toFinset).getD ∅, ∅⟩
  | .action grant => ⟨∅, ∅, ∅, grant.operations⟩
  | .locality claims =>
    ⟨∅, ∅, if claims.zone.isSome then {regionAttribute, zoneAttribute} else {regionAttribute}, ∅⟩

end DecodedLink

section Decoding

variable (lib : Libraries)

/-- `Confirmation::key`: the key of a canonical OKP/Ed25519 JWK. -/
def Confirmation.key (cnf : Confirmation) : Option Key :=
  if cnf.kty ≠ ascii "OKP" ∨ cnf.crv ≠ ascii "Ed25519" then none
  else do
    let decoded ← lib.base64Decode cnf.x
    let bytes ← FixedBytes.fromSlice 32 decoded
    if lib.base64Encode bytes.bytes = cnf.x then some bytes else none

/-- An `f64` that is neither infinite nor a NaN: not every exponent bit is set. -/
def isFinite (bits : BitVec 64) : Bool := bits.extractLsb' 52 11 != 0x7FF

/-- Each list is short and holds valid texts only: the closure `lists_ok`. -/
def listsOk (lists : List (Finset Bytes)) : Bool :=
  lists.all fun list => decide (list.card ≤ maxListEntries) && decide (∀ v ∈ list, validString v)

/-- The test of `check_body_limits`. -/
def bodyWithinLimits : LinkBody → Bool
  | .delegation grant =>
    listsOk [grant.audiences, grant.scopes, grant.tags, grant.attributeKeys, grant.operations,
        grant.mandatory] &&
      decide (.locality ∉ grant.mayIssue) &&
      grant.subjects.all fun subjects =>
        decide (subjects.card ≤ maxListEntries) &&
          decide (∀ key ∈ subjects, (parseKey lib key).isSome)
  | .action grant =>
    listsOk [grant.operations, grant.resources, grant.mandatory] && grant.request.all validDigest
  | .locality claims => claims.isDeclared
  | .enrollment ext =>
    listsOk [ext.claims.scopes.getD ∅, ext.claims.tags.getD ∅] &&
      decide (ext.mandatory.length ≤ maxListEntries) && ext.mandatory.all validString &&
      ext.claims.attributes.all fun attributes =>
        decide (attributes.size ≤ maxListEntries) &&
          attributes.toList.all fun e =>
            validString e.1 && match e.2 with
              | .float bits => isFinite bits
              | .string value => validString value
              | _ => true

def checkBodyLimits (body : LinkBody) : Except ChainError Unit :=
  refuseIf (!bodyWithinLimits lib body) .malformed

/-- The one extension a payload carries, if it is the one its kind asks for. -/
def LinkPayload.body (payload : LinkPayload) (kind : LinkKind) : Option LinkBody :=
  match kind, payload.delegation, payload.enrollment, payload.action, payload.locality with
  | .delegation, some grant, none, none, none => some (.delegation grant)
  | .enrollment, none, some ext, none, none => some (.enrollment ext)
  | .action, none, none, some grant, none => some (.action grant)
  | .locality, none, none, none, some claims => some (.locality claims)
  | _, _, _, _, _ => none

/-- `decode_link`. -/
def decodeLink (typ payload : Bytes) : Except ChainError DecodedLink := do
  let kind ← requireSome (LinkKind.fromJwtType typ) .header
  let payload ← requireSome (lib.parsePayload payload) .malformed
  refuseIf (kind != .enrollment && payload.localityStatement.isSome) .malformed
  let body ← requireSome (payload.body kind) .malformed
  let iss ← requireSome (parseKey lib payload.iss) .malformed
  let sub ← requireSome (parseKey lib payload.sub) .malformed
  refuseIf (payload.aud.values.isEmpty || decide (payload.aud.values.length > maxAudiences) ||
    !payload.aud.values.all validString || !validJti payload.jti) .malformed
  let link : DecodedLink :=
    { kind, iss, sub, cnf := payload.cnf.key lib, aud := payload.aud, jti := payload.jti,
      iat := payload.iat, nbf := payload.nbf, exp := payload.exp, body,
      localityStatement := payload.localityStatement }
  checkBodyLimits lib link.body
  -- `~` separates the links of a chain, so an embedded link may not hold one
  refuseIf (link.localityStatement.any fun text =>
    text.isEmpty || decide (text.length > maxLinkBytes) || decide ((126 : UInt8) ∈ text)) .malformed
  return link

end Decoding

end AsterRpc.Delegation

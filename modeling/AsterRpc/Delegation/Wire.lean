import AsterRpc.Coordination.State
import AsterRpc.Foundation.Text

/-!
# Signed statements and their claims

`delegation/links.rs`, `delegation/jws.rs` and `delegation/rotation.rs`: the
claim sets a delegation link or a root rotation carries before anything about
it is trusted, and the compact JWS they travel in.  A text is its UTF-8 bytes; a
`BTreeSet` is a `Finset`.

The base64, JSON, Ed25519 and BLAKE3 libraries are parameters, gathered in
`Libraries`: nothing below depends on how they work.
-/

namespace AsterRpc.Delegation

open AsterRpc.Foundation AsterRpc.Coordination Std

/-- An Ed25519 public key. -/
abbrev Key := FixedBytes 32

/-- An ASCII text as the bytes it is stored in. -/
def ascii (text : String) : Bytes := text.toUTF8.toList

/-! ### Errors -/

/-- `ChainError`. -/
inductive ChainError where
  | configuration
  | size
  | malformed
  | header
  | grammar
  | notYetValid
  | expired
  | lifetime
  | bridge
  | leafMismatch
  | untrustedAnchor
  | audience
  | attenuation
  | revoked
  | unsupportedRestriction
  | signature
  | sequence
  | issuance
deriving DecidableEq

/-- `JwsError`. -/
inductive JwsError where
  | malformed
  | header
  | signature

/-! ### Claims -/

/-- `LinkKind`. -/
inductive LinkKind where
  | delegation
  | enrollment
  | action
  | locality
deriving DecidableEq

/-- `Audience`: one value, or the array form. -/
inductive Audience where
  | one (value : Bytes)
  | many (values : List Bytes)
deriving DecidableEq

def Audience.values : Audience → List Bytes
  | .one value => [value]
  | .many values => values

def Audience.contains (a : Audience) (expected : Bytes) : Bool := decide (expected ∈ a.values)

/-- `TypedAttribute`; a float is its IEEE 754 bits. -/
inductive TypedAttribute where
  | bool (value : Bool)
  | int (value : Int)
  | float (bits : BitVec 64)
  | string (value : Bytes)
deriving DecidableEq

structure AdmissionClaims where
  scopes : Option (Finset Bytes)
  tags : Option (Finset Bytes)
  attributes : Option (Table Bytes TypedAttribute)
deriving DecidableEq

inductive Registration where
  | ephemeral
  | persistent
deriving DecidableEq

/-- `EnrollmentExtensionV1`. -/
structure EnrollmentExtension where
  claims : AdmissionClaims
  mandatory : List Bytes
  registration : Registration

/-- `DelegationGrant`: the bounds a delegate's subtree must stay within. -/
structure DelegationGrant where
  mayIssue : Finset LinkKind
  audiences : Finset Bytes
  scopes : Finset Bytes
  tags : Finset Bytes
  attributeKeys : Finset Bytes
  maxChildLifetime : ℕ
  maxDepth : ℕ
  subjects : Option (Finset Bytes)
  operations : Finset Bytes
  mandatory : Finset Bytes
  mayRegister : Bool

structure ActionGrant where
  operations : Finset Bytes
  resources : Finset Bytes
  request : Option Bytes
  mandatory : Finset Bytes

structure LocalityClaims where
  region : Bytes
  zone : Option Bytes

/-- The JWK of a `Confirmation`. -/
structure Confirmation where
  kty : Bytes
  crv : Bytes
  x : Bytes

/-- `LinkPayload`: the complete payload of a link. -/
structure LinkPayload where
  iss : Bytes
  sub : Bytes
  cnf : Confirmation
  aud : Audience
  jti : Bytes
  iat : ℕ
  nbf : Option ℕ
  exp : ℕ
  delegation : Option DelegationGrant
  enrollment : Option EnrollmentExtension
  action : Option ActionGrant
  locality : Option LocalityClaims
  localityStatement : Option Bytes

inductive RotationReason where
  | routine
  | compromise

/-- `RotationClaims`: the payload of a root rotation statement. -/
structure RotationClaims where
  iss : Bytes
  prev : Bytes
  seq : ℕ
  next : Bytes
  namespaces : List Bytes
  iat : ℕ
  reason : RotationReason

/-! ### Libraries -/

/-- What `ed25519_dalek::VerifyingKey` says of a point it decoded. -/
structure VerifyingKey where
  weak : Bool
  compressed : Key

/-- The libraries the delegation code calls. -/
structure Libraries where
  /-- `URL_SAFE_NO_PAD.decode`. -/
  base64Decode : Bytes → Option Bytes
  /-- `URL_SAFE_NO_PAD.encode`. -/
  base64Encode : Bytes → Bytes
  /-- `serde_json::from_slice::<UniqueJson>` succeeds. -/
  uniqueJson : Bytes → Bool
  /-- `serde_json::from_slice::<ProtectedHeader>`: the `alg` and the `typ`. -/
  parseHeader : Bytes → Option (Bytes × Bytes)
  /-- `serde_json::from_slice::<LinkPayload>`. -/
  parsePayload : Bytes → Option LinkPayload
  /-- `serde_json::from_slice::<RotationClaims>`. -/
  parseRotation : Bytes → Option RotationClaims
  /-- `VerifyingKey::from_bytes`. -/
  verifyingKey : Key → Option VerifyingKey
  /-- `UnparsedPublicKey::new(&ED25519, key).verify(message, signature)` succeeds. -/
  ed25519 : Key → Bytes → FixedBytes 64 → Bool
  blake3 : Bytes → Hash

/-! ### Hexadecimal -/

/-- 32 bytes in canonical (lowercase) hexadecimal. -/
def parseHex32 (value : Bytes) : Option (FixedBytes 32) := do
  let decoded ← hexDecode value
  let bytes ← FixedBytes.fromSlice 32 decoded
  if hexEncode bytes.bytes = value then some bytes else none

section Jws

variable (lib : Libraries)

/-- `valid_key`: a point that is not weak, in its canonical encoding. -/
def validKey (value : Key) : Bool :=
  match lib.verifyingKey value with
  | none => false
  | some key => !key.weak && decide (key.compressed = value)

/-- `parse_key`. -/
def parseKey (value : Bytes) : Option Key := (parseHex32 value).filter (validKey lib)

/-! ### Compact JWS -/

/-- `.`, the separator of a compact JWS. -/
def dot : UInt8 := 46

/-- `ALG`. -/
def alg : Bytes := ascii "EdDSA"

/-- A decoded compact JWS whose signature has not been checked yet. -/
structure Compact where
  typ : Bytes
  payload : Bytes
  signingInput : Bytes
  signature : FixedBytes 64

/-- `canonical_segment`. -/
def canonicalSegment (segment : Bytes) : Except JwsError Bytes := do
  refuseIf segment.isEmpty .malformed
  let decoded ← requireSome (lib.base64Decode segment) .malformed
  refuseIf (lib.base64Encode decoded != segment) .malformed
  return decoded

/-- `&text[..text.rfind(b)?]`. -/
def beforeLast (b : UInt8) (text : Bytes) : Option Bytes :=
  if b ∈ text then some ((text.reverse.dropWhile (· != b)).drop 1).reverse else none

/-- `jws::decode`. -/
def decode (token : Bytes) : Except JwsError Compact :=
  match token.splitOn dot with
  | [header, payload, signature] => do
    let header ← canonicalSegment lib header
    let payload ← canonicalSegment lib payload
    let signature ← canonicalSegment lib signature
    let signature ← requireSome (FixedBytes.fromSlice 64 signature) .malformed
    refuseIf (!lib.uniqueJson header) .header
    let parsed ← requireSome (lib.parseHeader header) .header
    refuseIf (parsed.1 != alg) .header
    refuseIf (!lib.uniqueJson payload) .malformed
    let signingInput ← requireSome (beforeLast dot token) .malformed
    return ⟨parsed.2, payload, signingInput, signature⟩
  | _ => .error .malformed

/-- `Compact::verify`. -/
def Compact.verify (c : Compact) (key : Key) : Except JwsError Unit :=
  refuseIf (!lib.ed25519 key c.signingInput c.signature) .signature

/-- How a chain or a rotation reports a JWS that does not decode. -/
def ChainError.ofJws : JwsError → ChainError
  | .header => .header
  | _ => .malformed

end Jws

/-! ### A small instance -/

namespace Sample

/-- The key whose bytes are all `n`. -/
def key (n : UInt8) : Key := FixedBytes.fill 32 n

def keyText (n : UInt8) : Bytes := hexEncode (key n).bytes

/-- A grant for leaves and `depth` more delegations, each link living at most `lifetime`. -/
def grant (lifetime depth : ℕ) : DelegationGrant where
  mayIssue := {.delegation, .enrollment}
  audiences := {ascii "aud"}
  scopes := {ascii "read"}
  tags := ∅
  attributeKeys := ∅
  maxChildLifetime := lifetime
  maxDepth := depth
  subjects := none
  operations := ∅
  mandatory := {ascii "audit"}
  mayRegister := true

/-- A persistent enrollment with one scope. -/
def enrollment : EnrollmentExtension := ⟨⟨some {ascii "read"}, none, none⟩, [], .persistent⟩

/-- The link for key `n` that key `n + 1` issued: key 1 is enrolled, every other one delegated. -/
def payload (n : UInt8) : LinkPayload where
  iss := keyText (n + 1)
  sub := keyText n
  cnf := ⟨ascii "OKP", ascii "Ed25519", (key n).bytes⟩
  aud := .one (ascii "aud")
  jti := ascii "0123456789abcdef"
  iat := 100
  nbf := none
  exp := 100 + 10 * n.toNat
  delegation := if n = 1 then none else some (grant (10 * n.toNat) (n.toNat - 2))
  enrollment := if n = 1 then some enrollment else none
  action := none
  locality := none
  localityStatement := none

/-- The rotation from root `prev` to root `signer` that commits to `next`. -/
def rotation (signer prev seq next : UInt8) : RotationClaims where
  iss := keyText signer
  prev := keyText prev
  seq := seq.toNat
  next := keyText next
  namespaces := [keyText seq]
  iat := 1
  reason := .routine

/-- Every segment is its own base64 form, a payload is written as the numbers it is made of, a
signature is valid when it repeats the first byte of the key, and a digest is the last 32 bytes. -/
def libraries : Libraries where
  base64Decode := some
  base64Encode := id
  uniqueJson := fun _ => true
  parseHeader := fun typ => some (alg, typ)
  parsePayload := fun bytes => match bytes with
    | [n] => some (payload n)
    | _ => none
  parseRotation := fun bytes => match bytes with
    | [signer, prev, seq, next] => some (rotation signer prev seq next)
    | _ => none
  verifyingKey := fun key => some ⟨false, key⟩
  ed25519 := fun key _ signature => key.bytes.head? == signature.bytes.head?
  blake3 := fun bytes =>
    (FixedBytes.fromSlice 32 (bytes.drop (bytes.length - 32))).getD (FixedBytes.fill 32 0)

/-- The compact form of a payload signed by the key `signer`. -/
def compact (typ payload : Bytes) (signer : UInt8) : Bytes :=
  typ ++ dot :: payload ++ dot :: List.replicate 64 signer

end Sample

end AsterRpc.Delegation

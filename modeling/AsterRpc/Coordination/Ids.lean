import AsterRpc.Foundation.Table

/-!
# Identifiers of the coordination service

`ids.rs`: fixed-width identifiers and validated resource keys.  A byte string is
a list of bytes; a Rust `String` is modelled by its UTF-8 bytes.  The width of
an identifier and the shape of a resource key are fields of the value, so an
identifier of another width or an unvalidated key cannot be built.
-/

namespace AsterRpc.Coordination

open AsterRpc.Foundation Std

/-- A byte string. -/
abbrev Bytes := List UInt8

instance Bytes.lawfulBEq : LawfulBEq Bytes := inferInstance

/-! ### Fixed-width identifiers -/

/-- `[u8; n]`. -/
structure FixedBytes (n : ℕ) where
  bytes : Bytes
  length_eq : bytes.length = n
deriving DecidableEq

namespace FixedBytes

variable {n : ℕ}

theorem bytes_injective : Function.Injective (bytes : FixedBytes n → Bytes) := by
  rintro ⟨a, ha⟩ ⟨b, hb⟩ h
  cases h
  rfl

instance : Ord (FixedBytes n) := ⟨compareOn bytes⟩

instance : TransOrd (FixedBytes n) := inferInstanceAs (TransCmp (compareOn bytes))

instance : LawfulEqOrd (FixedBytes n) := lawfulEqCmp_compareOn bytes_injective

/-- `[b; n]`, every byte the same. -/
def fill (n : ℕ) (b : UInt8) : FixedBytes n := ⟨List.replicate n b, List.length_replicate⟩

/-- `from_slice`, and the `try_from` of a byte slice: refuses any other width. -/
def fromSlice (n : ℕ) (bytes : Bytes) : Option (FixedBytes n) :=
  if h : bytes.length = n then some ⟨bytes, h⟩ else none

@[simp] theorem fromSlice_bytes (x : FixedBytes n) : fromSlice n x.bytes = some x := by
  simp [fromSlice, x.length_eq]

theorem bytes_of_fromSlice {bytes : Bytes} {x : FixedBytes n} (h : fromSlice n bytes = some x) :
    x.bytes = bytes := by
  unfold fromSlice at h
  split at h
  · cases h
    rfl
  · cases h

end FixedBytes

/-- A node, by its 32-byte Ed25519 public key. -/
abbrev NodeId := FixedBytes 32
/-- One client journal of an actor. -/
abbrev ClientId := FixedBytes 16
/-- One membership operation. -/
abbrev OperationId := FixedBytes 16
/-- A coordination group. -/
abbrev GroupId := FixedBytes 32
/-- A 32-byte digest. -/
abbrev Hash := FixedBytes 32

instance NodeId.transOrd : TransOrd NodeId := inferInstance
instance NodeId.lawfulEqOrd : LawfulEqOrd NodeId := inferInstance
instance ClientId.transOrd : TransOrd ClientId := inferInstance
instance ClientId.lawfulEqOrd : LawfulEqOrd ClientId := inferInstance

/-! ### Resource keys -/

def maxNamespaceBytes : ℕ := 64
def maxKeyBytes : ℕ := 512

/-- Why a resource key was refused. -/
inductive IdError where
  | namespaceLength (actual : ℕ)
  | namespaceCharset
  | keyLength (actual : ℕ)

def isAsciiLowercase (b : UInt8) : Bool := 97 ≤ b && b ≤ 122
def isAsciiDigit (b : UInt8) : Bool := 48 ≤ b && b ≤ 57

/-- First byte of `[a-z0-9][a-z0-9._-]{0,63}`. -/
def namespaceHead (b : UInt8) : Bool := isAsciiLowercase b || isAsciiDigit b

/-- Any later byte: a letter, a digit, `.`, `_` or `-`. -/
def namespaceTail (b : UInt8) : Bool :=
  isAsciiLowercase b || isAsciiDigit b || b == 46 || b == 95 || b == 45

/-- The checks of `ResourceKey::new`, in its order. -/
def checkResourceKey (ns key : Bytes) : Except IdError Unit := do
  refuseIf (ns.isEmpty || ns.length > maxNamespaceBytes) (.namespaceLength ns.length)
  refuseIf (!(ns.take 1).all namespaceHead) .namespaceCharset
  refuseIf (!(ns.drop 1).all namespaceTail) .namespaceCharset
  refuseIf (key.isEmpty || key.length > maxKeyBytes) (.keyLength key.length)

/-- A resource key that `ResourceKey::new` accepted. -/
structure ResourceKey where
  ns : Bytes
  key : Bytes
  valid : checkResourceKey ns key = .ok ()

namespace ResourceKey

/-- The pair a key is compared by, namespace first. -/
def parts (k : ResourceKey) : Bytes × Bytes := (k.ns, k.key)

theorem parts_injective : Function.Injective parts := by
  rintro ⟨_, _, _⟩ ⟨_, _, _⟩ h
  obtain ⟨rfl, rfl⟩ := Prod.mk.inj h
  rfl

instance : DecidableEq ResourceKey := fun a b =>
  decidable_of_iff (a.parts = b.parts) parts_injective.eq_iff

instance : Ord ResourceKey := ⟨compareOn parts⟩

instance : TransOrd ResourceKey := inferInstanceAs (TransCmp (compareOn parts))

instance : LawfulEqOrd ResourceKey := lawfulEqCmp_compareOn parts_injective

/-- `ResourceKey::new`. -/
def new (ns key : Bytes) : Except IdError ResourceKey :=
  match h : checkResourceKey ns key with
  | .ok () => .ok ⟨ns, key, h⟩
  | .error e => .error e

@[simp] theorem new_parts (k : ResourceKey) : new k.ns k.key = .ok k := by
  obtain ⟨_, _, _⟩ := k
  unfold new
  split <;> simp_all

theorem parts_of_new {ns key : Bytes} {k : ResourceKey} (h : new ns key = .ok k) :
    k.ns = ns ∧ k.key = key := by
  unfold new at h
  split at h
  · cases h
    exact ⟨rfl, rfl⟩
  · cases h

/-- `charge_len`: the bytes a key is charged for. -/
def chargeLen (k : ResourceKey) : ℕ := k.ns.length + k.key.length

theorem chargeLen_le (k : ResourceKey) : k.chargeLen ≤ maxNamespaceBytes + maxKeyBytes := by
  have hvalid := k.valid
  simp only [checkResourceKey, accepts_iff, Bool.or_eq_false_iff] at hvalid
  exact Nat.add_le_add hvalid.1.2 hvalid.2.2.2.2

end ResourceKey

end AsterRpc.Coordination

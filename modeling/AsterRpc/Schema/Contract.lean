import AsterRpc.Foundation.Selection
import AsterRpc.Foundation.Text
import AsterRpc.Schema.Primitives

/-!
# Contract definitions and their canonical bytes

`core/src/contract.rs`: type, method and service definitions, the writer of
their canonical bytes and the reader.  The writer puts fields, enum values,
variants, methods and roles in an order of their own and numbers the fields by
it; the reader takes what it finds.  What the writer writes is therefore the
plain bytes (`TypeDef.bytes` and so on) of a normal form, and the reader is
described by the plain bytes it accepts.
-/

namespace AsterRpc.Schema

open AsterRpc.Foundation List
open AsterRpc.Coordination (Bytes)

/-! ### Definitions -/

inductive TypeKind where
  | primitive
  | ref
  | selfRef
  | any
deriving DecidableEq

inductive ContainerKind where
  | none
  | list
  | set
  | map
deriving DecidableEq

inductive TypeDefKind where
  | message
  | enum
  | union
deriving DecidableEq

inductive MethodPattern where
  | unary
  | serverStream
  | clientStream
  | bidiStream

inductive CapabilityKind where
  | role
  | anyOf
  | allOf

inductive ScopeKind where
  | shared
  | session

structure FieldDef where
  id : Int32
  name : String
  typeKind : TypeKind
  typePrimitive : String
  typeRef : String
  selfRefName : String
  optional : Bool
  refTracked : Bool
  container : ContainerKind
  containerKeyKind : TypeKind
  containerKeyPrimitive : String
  containerKeyRef : String
  required : Bool
  defaultValue : String
deriving DecidableEq

structure EnumValueDef where
  name : String
  value : Int32
deriving DecidableEq

structure UnionVariantDef where
  name : String
  id : Int32
  typeRef : String
deriving DecidableEq

structure TypeDef where
  kind : TypeDefKind
  package : String
  name : String
  fields : List FieldDef
  enumValues : List EnumValueDef
  unionVariants : List UnionVariantDef
deriving DecidableEq

structure CapabilityRequirement where
  kind : CapabilityKind
  roles : List String

/-- `MethodDef`; the timeout is the bit pattern of an `f64`. -/
structure MethodDef where
  name : String
  pattern : MethodPattern
  requestType : String
  responseType : String
  idempotent : Bool
  defaultTimeout : UInt64
  requires : Option CapabilityRequirement

structure ServiceContract where
  name : String
  version : Int32
  methods : List MethodDef
  serializationModes : List String
  scope : ScopeKind
  requires : Option CapabilityRequirement
  producerLanguage : String

/-! ### Discriminants -/

def TypeKind.code : TypeKind → ℕ
  | primitive => 0
  | ref => 1
  | selfRef => 2
  | any => 3

def ContainerKind.code : ContainerKind → ℕ
  | none => 0
  | list => 1
  | set => 2
  | map => 3

def TypeDefKind.code : TypeDefKind → ℕ
  | message => 0
  | enum => 1
  | union => 2

def MethodPattern.code : MethodPattern → ℕ
  | unary => 0
  | serverStream => 1
  | clientStream => 2
  | bidiStream => 3

def CapabilityKind.code : CapabilityKind → ℕ
  | role => 0
  | anyOf => 1
  | allOf => 2

def ScopeKind.code : ScopeKind → ℕ
  | shared => 0
  | session => 1

/-- `type_kind_from_u64`. -/
def typeKindFromU64 : ℕ → Except CanonicalError TypeKind
  | 0 => .ok .primitive
  | 1 => .ok .ref
  | 2 => .ok .selfRef
  | 3 => .ok .any
  | other => .error (.unknownDiscriminant "TypeKind" other)

/-- `container_kind_from_u64`. -/
def containerKindFromU64 : ℕ → Except CanonicalError ContainerKind
  | 0 => .ok .none
  | 1 => .ok .list
  | 2 => .ok .set
  | 3 => .ok .map
  | other => .error (.unknownDiscriminant "ContainerKind" other)

/-- `type_def_kind_from_u64`. -/
def typeDefKindFromU64 : ℕ → Except CanonicalError TypeDefKind
  | 0 => .ok .message
  | 1 => .ok .enum
  | 2 => .ok .union
  | other => .error (.unknownDiscriminant "TypeDefKind" other)

/-- `method_pattern_from_u64`. -/
def methodPatternFromU64 : ℕ → Except CanonicalError MethodPattern
  | 0 => .ok .unary
  | 1 => .ok .serverStream
  | 2 => .ok .clientStream
  | 3 => .ok .bidiStream
  | other => .error (.unknownDiscriminant "MethodPattern" other)

/-- `capability_kind_from_u64`. -/
def capabilityKindFromU64 : ℕ → Except CanonicalError CapabilityKind
  | 0 => .ok .role
  | 1 => .ok .anyOf
  | 2 => .ok .allOf
  | other => .error (.unknownDiscriminant "CapabilityKind" other)

/-- `scope_kind_from_u64`. -/
def scopeKindFromU64 : ℕ → Except CanonicalError ScopeKind
  | 0 => .ok .shared
  | 1 => .ok .session
  | other => .error (.unknownDiscriminant "ScopeKind" other)

/-- A discriminant read by its table. -/
def readKind {κ : Type} (varint : Reader CanonicalError ℕ) (fromU64 : ℕ → Except CanonicalError κ) :
    Reader CanonicalError κ := fun bytes => do
  let (v, bytes) ← varint bytes
  let kind ← fromU64 v
  return (kind, bytes)

section

variable {κ : Type} {fromU64 : ℕ → Except CanonicalError κ}

/-- A discriminant is read by its table exactly where its code was written. -/
abbrev KindExact (fromU64 : ℕ → Except CanonicalError κ) (code : κ → ℕ) : Prop :=
  Exact (readKind minimalVarint fromU64) (fun kind => writeVarint (code kind)) fun _ => True

theorem readKind_exact {code : κ → ℕ} (hcode : ∀ v kind, fromU64 v = .ok kind ↔ v = code kind)
    (hlt : ∀ kind, code kind < 2 ^ 64) : KindExact fromU64 code := by
  intro bytes kind rest
  simp only [readKind, accepts_iff, minimalVarint_exact _ _ _, hcode, true_and]
  constructor
  · rintro ⟨v, mid, ⟨-, rfl⟩, kind', rfl, hok⟩
    cases hok
    rfl
  · rintro rfl
    exact ⟨code kind, rest, ⟨hlt kind, rfl⟩, kind, rfl, rfl⟩

theorem readKind_extends {varint varint' : Reader CanonicalError ℕ} (h : Extends varint varint') :
    Extends (readKind varint fromU64) (readKind varint' fromU64) :=
  fun bytes => extends_bind (h bytes) fun _ _ hok => hok

end

/-! ### Hexadecimal text -/

/-- `hex_to_bytes`: what is no hexadecimal text is nothing. -/
def hexToBytes (s : String) : Bytes := (hexDecode (asBytes s.toList)).getD []

/-- Lowercase hexadecimal text, two digits for each byte. -/
def LowerHex (s : String) : Prop := hexText (hexToBytes s) = s

theorem hexToBytes_hexText (bytes : Bytes) : hexToBytes (hexText bytes) = bytes := by
  rw [hexToBytes, asBytes_hexText, hexDecode_hexEncode]
  rfl

theorem lowerHex_hexText (bytes : Bytes) : LowerHex (hexText bytes) := by
  rw [LowerHex, hexToBytes_hexText]

/-- The text of a byte field. -/
def readHex (varint : Reader CanonicalError ℕ) : Reader CanonicalError String := fun bytes => do
  let (data, bytes) ← readBytesField varint bytes
  return (hexText data, bytes)

/-- A byte field from its text. -/
def writeHex (s : String) : Bytes := writeBytesField (hexToBytes s)

/-- Hexadecimal text that fits in an address space. -/
def HexField (s : String) : Prop := LowerHex s ∧ (hexToBytes s).length < 2 ^ 64

theorem readHex_exact : Exact (readHex minimalVarint) writeHex HexField := by
  intro bytes s rest
  simp only [readHex, accepts_iff, readBytesField_exact _ _ _]
  constructor
  · rintro ⟨data, mid, ⟨hlen, rfl⟩, hok⟩
    cases hok
    refine ⟨⟨lowerHex_hexText data, ?_⟩, ?_⟩
    · rw [hexToBytes_hexText]
      exact hlen
    · rw [writeHex, hexToBytes_hexText]
  · rintro ⟨⟨hhex, hlen⟩, rfl⟩
    refine ⟨hexToBytes s, rest, ⟨hlen, rfl⟩, ?_⟩
    rw [show hexText (hexToBytes s) = s from hhex]

theorem readHex_extends {varint varint' : Reader CanonicalError ℕ} (h : Extends varint varint') :
    Extends (readHex varint) (readHex varint') :=
  fun bytes => extends_bind (readBytesField_extends h bytes) fun _ _ hok => hok

/-! ### Writing -/

/-- Unicode normalization form C. -/
structure Nfc where
  normalize : String → String
  normalize_normalize : ∀ s, normalize (normalize s) = normalize s

/-- `write_field_def`. -/
def writeFieldDef (fd : FieldDef) : Bytes :=
  writeZigzagI32 fd.id ++ (writeString fd.name ++ (writeVarint fd.typeKind.code ++
    (writeString fd.typePrimitive ++ (writeHex fd.typeRef ++ (writeString fd.selfRefName ++
    (writeBool fd.optional ++ (writeBool fd.refTracked ++ (writeVarint fd.container.code ++
    (writeVarint fd.containerKeyKind.code ++ (writeString fd.containerKeyPrimitive ++
    (writeHex fd.containerKeyRef ++ (writeBool fd.required ++
    writeHex fd.defaultValue))))))))))))

/-- `write_enum_value_def`. -/
def writeEnumValueDef (ev : EnumValueDef) : Bytes := writeString ev.name ++ writeZigzagI32 ev.value

/-- `write_union_variant_def`. -/
def writeUnionVariantDef (uv : UnionVariantDef) : Bytes :=
  writeString uv.name ++ (writeZigzagI32 uv.id ++ writeHex uv.typeRef)

/-- The plain bytes of a type definition, every list in the order it has. -/
def TypeDef.bytes (td : TypeDef) : Bytes :=
  writeVarint td.kind.code ++ (writeString td.package ++ (writeString td.name ++
    (writeList writeFieldDef td.fields ++ (writeList writeEnumValueDef td.enumValues ++
    writeList writeUnionVariantDef td.unionVariants))))

/-- The plain bytes of a capability requirement. -/
def CapabilityRequirement.bytes (cap : CapabilityRequirement) : Bytes :=
  writeVarint cap.kind.code ++ writeList writeString cap.roles

/-- The plain bytes of a method definition. -/
def MethodDef.bytes (md : MethodDef) : Bytes :=
  writeString md.name ++ (writeVarint md.pattern.code ++ (writeHex md.requestType ++
    (writeHex md.responseType ++ (writeBool md.idempotent ++ (writeFloat64 md.defaultTimeout ++
    writeOptional CapabilityRequirement.bytes md.requires)))))

/-- The plain bytes of a service contract. -/
def ServiceContract.bytes (sc : ServiceContract) : Bytes :=
  writeString sc.name ++ (writeZigzagI32 sc.version ++ (writeList MethodDef.bytes sc.methods ++
    (writeList writeString sc.serializationModes ++ (writeVarint sc.scope.code ++
    (writeOptional CapabilityRequirement.bytes sc.requires ++ writeString sc.producerLanguage)))))

section Writers

variable (nfc : Nfc)

/-- The code points of the NFC form, by which names are ordered. -/
def nfcCodepoints (s : String) : List ℕ := (nfc.normalize s).toList.map Char.toNat

/-- The fields in their places, numbered from one. -/
def numberFields (fields : List FieldDef) : List FieldDef :=
  fields.mapIdx fun i fd => { fd with id := Int32.ofNat (i + 1) }

/-- `derive_nfc_sorted_field_ids`. -/
def deriveNfcSortedFieldIds (fields : List FieldDef) : List FieldDef :=
  numberFields (sortOn (fun fd => nfcCodepoints nfc fd.name) fields)

/-- `write_type_def`. -/
def writeTypeDef (td : TypeDef) : Bytes :=
  writeVarint td.kind.code ++ (writeString td.package ++ (writeString td.name ++
    (writeList writeFieldDef (deriveNfcSortedFieldIds nfc td.fields) ++
    (writeList writeEnumValueDef (sortOn (fun ev => ev.value.toInt) td.enumValues) ++
    writeList writeUnionVariantDef (sortOn (fun uv => uv.id.toInt) td.unionVariants)))))

/-- The roles in NFC, ordered by code point. -/
def sortedRoles (roles : List String) : List String :=
  sortOn (fun role => role.toList.map Char.toNat) (roles.map nfc.normalize)

/-- `write_capability_requirement`. -/
def writeCapabilityRequirement (cap : CapabilityRequirement) : Bytes :=
  writeVarint cap.kind.code ++ writeList writeString (sortedRoles nfc cap.roles)

/-- `write_method_def`. -/
def writeMethodDef (md : MethodDef) : Bytes :=
  writeString md.name ++ (writeVarint md.pattern.code ++ (writeHex md.requestType ++
    (writeHex md.responseType ++ (writeBool md.idempotent ++ (writeFloat64 md.defaultTimeout ++
    writeOptional (writeCapabilityRequirement nfc) md.requires)))))

/-- `write_service_contract`. -/
def writeServiceContract (sc : ServiceContract) : Bytes :=
  writeString sc.name ++ (writeZigzagI32 sc.version ++
    (writeList (writeMethodDef nfc)
      (sortOn (fun md => nfcCodepoints nfc md.name) sc.methods) ++
    (writeList writeString sc.serializationModes ++ (writeVarint sc.scope.code ++
    (writeOptional (writeCapabilityRequirement nfc) sc.requires ++
    writeString sc.producerLanguage)))))

end Writers

/-! ### Reading -/

section Readers

variable (varint : Reader CanonicalError ℕ)

/-- `read_field_def`. -/
def readFieldDef : Reader CanonicalError FieldDef := fun bytes => do
  let (id, bytes) ← readZigzagI32 varint bytes
  let (name, bytes) ← readString varint bytes
  let (typeKind, bytes) ← readKind varint typeKindFromU64 bytes
  let (typePrimitive, bytes) ← readString varint bytes
  let (typeRef, bytes) ← readHex varint bytes
  let (selfRefName, bytes) ← readString varint bytes
  let (optional, bytes) ← readBool bytes
  let (refTracked, bytes) ← readBool bytes
  let (container, bytes) ← readKind varint containerKindFromU64 bytes
  let (containerKeyKind, bytes) ← readKind varint typeKindFromU64 bytes
  let (containerKeyPrimitive, bytes) ← readString varint bytes
  let (containerKeyRef, bytes) ← readHex varint bytes
  let (required, bytes) ← readBool bytes
  let (defaultValue, bytes) ← readHex varint bytes
  return (⟨id, name, typeKind, typePrimitive, typeRef, selfRefName, optional, refTracked,
    container, containerKeyKind, containerKeyPrimitive, containerKeyRef, required, defaultValue⟩,
    bytes)

/-- `read_enum_value_def`. -/
def readEnumValueDef : Reader CanonicalError EnumValueDef := fun bytes => do
  let (name, bytes) ← readString varint bytes
  let (value, bytes) ← readZigzagI32 varint bytes
  return (⟨name, value⟩, bytes)

/-- `read_union_variant_def`. -/
def readUnionVariantDef : Reader CanonicalError UnionVariantDef := fun bytes => do
  let (name, bytes) ← readString varint bytes
  let (id, bytes) ← readZigzagI32 varint bytes
  let (typeRef, bytes) ← readHex varint bytes
  return (⟨name, id, typeRef⟩, bytes)

/-- `read_type_def`. -/
def readTypeDef : Reader CanonicalError TypeDef := fun bytes => do
  let (kind, bytes) ← readKind varint typeDefKindFromU64 bytes
  let (package, bytes) ← readString varint bytes
  let (name, bytes) ← readString varint bytes
  let (fields, bytes) ← readList varint (readFieldDef varint) bytes
  let (enumValues, bytes) ← readList varint (readEnumValueDef varint) bytes
  let (unionVariants, bytes) ← readList varint (readUnionVariantDef varint) bytes
  return (⟨kind, package, name, fields, enumValues, unionVariants⟩, bytes)

/-- `read_capability_requirement`. -/
def readCapabilityRequirement : Reader CanonicalError CapabilityRequirement := fun bytes => do
  let (kind, bytes) ← readKind varint capabilityKindFromU64 bytes
  let (roles, bytes) ← readList varint (readString varint) bytes
  return (⟨kind, roles⟩, bytes)

/-- `read_method_def`. -/
def readMethodDef : Reader CanonicalError MethodDef := fun bytes => do
  let (name, bytes) ← readString varint bytes
  let (pattern, bytes) ← readKind varint methodPatternFromU64 bytes
  let (requestType, bytes) ← readHex varint bytes
  let (responseType, bytes) ← readHex varint bytes
  let (idempotent, bytes) ← readBool bytes
  let (defaultTimeout, bytes) ← readFloat64 bytes
  let (requires, bytes) ← readOptional (readCapabilityRequirement varint) bytes
  return (⟨name, pattern, requestType, responseType, idempotent, defaultTimeout, requires⟩, bytes)

/-- `read_service_contract`. -/
def readServiceContract : Reader CanonicalError ServiceContract := fun bytes => do
  let (name, bytes) ← readString varint bytes
  let (version, bytes) ← readZigzagI32 varint bytes
  let (methods, bytes) ← readList varint (readMethodDef varint) bytes
  let (serializationModes, bytes) ← readList varint (readString varint) bytes
  let (scope, bytes) ← readKind varint scopeKindFromU64 bytes
  let (requires, bytes) ← readOptional (readCapabilityRequirement varint) bytes
  let (producerLanguage, bytes) ← readString varint bytes
  return (⟨name, version, methods, serializationModes, scope, requires, producerLanguage⟩, bytes)

end Readers

/-- `decode_type_def_bytes`. -/
def decodeTypeDefBytes : Bytes → Except CanonicalError TypeDef :=
  decodeWhole (readTypeDef readVarint)

/-- `decode_service_contract_bytes`. -/
def decodeServiceContractBytes : Bytes → Except CanonicalError ServiceContract :=
  decodeWhole (readServiceContract readVarint)

/-- `decode_method_def_bytes`. -/
def decodeMethodDefBytes : Bytes → Except CanonicalError MethodDef :=
  decodeWhole (readMethodDef readVarint)

/-! ### What can be written

The sizes are those of an address space: no string has `2 ^ 62` bytes and no vector `2 ^ 64`
elements. -/

@[mk_iff]
structure FieldDef.Writable (fd : FieldDef) : Prop where
  name : ShortString fd.name
  typePrimitive : ShortString fd.typePrimitive
  typeRef : HexField fd.typeRef
  selfRefName : ShortString fd.selfRefName
  containerKeyPrimitive : ShortString fd.containerKeyPrimitive
  containerKeyRef : HexField fd.containerKeyRef
  defaultValue : HexField fd.defaultValue

@[mk_iff]
structure UnionVariantDef.Writable (uv : UnionVariantDef) : Prop where
  name : ShortString uv.name
  typeRef : HexField uv.typeRef

@[mk_iff]
structure TypeDef.Writable (td : TypeDef) : Prop where
  package : ShortString td.package
  name : ShortString td.name
  fields : td.fields.length < 2 ^ 64 ∧ ∀ fd ∈ td.fields, fd.Writable
  enumValues : td.enumValues.length < 2 ^ 64 ∧ ∀ ev ∈ td.enumValues, ShortString ev.name
  unionVariants : td.unionVariants.length < 2 ^ 64 ∧ ∀ uv ∈ td.unionVariants, uv.Writable

def CapabilityRequirement.Writable (cap : CapabilityRequirement) : Prop :=
  cap.roles.length < 2 ^ 64 ∧ ∀ role ∈ cap.roles, ShortString role

@[mk_iff]
structure MethodDef.Writable (md : MethodDef) : Prop where
  name : ShortString md.name
  requestType : HexField md.requestType
  responseType : HexField md.responseType
  requires : ∀ cap, md.requires = some cap → cap.Writable

@[mk_iff]
structure ServiceContract.Writable (sc : ServiceContract) : Prop where
  name : ShortString sc.name
  methods : sc.methods.length < 2 ^ 64 ∧ ∀ md ∈ sc.methods, md.Writable
  serializationModes : sc.serializationModes.length < 2 ^ 64 ∧
    ∀ mode ∈ sc.serializationModes, ShortString mode
  requires : ∀ cap, sc.requires = some cap → cap.Writable
  producerLanguage : ShortString sc.producerLanguage

/-! ### What the readers accept -/

theorem readTypeKind_exact : KindExact typeKindFromU64 TypeKind.code := by
  refine readKind_exact (fun v kind => ?_) fun kind => by cases kind <;> decide
  match v with
  | 0 | 1 | 2 | 3 | n + 4 => cases kind <;> simp [typeKindFromU64, TypeKind.code]

theorem readContainerKind_exact : KindExact containerKindFromU64 ContainerKind.code := by
  refine readKind_exact (fun v kind => ?_) fun kind => by cases kind <;> decide
  match v with
  | 0 | 1 | 2 | 3 | n + 4 => cases kind <;> simp [containerKindFromU64, ContainerKind.code]

theorem readTypeDefKind_exact : KindExact typeDefKindFromU64 TypeDefKind.code := by
  refine readKind_exact (fun v kind => ?_) fun kind => by cases kind <;> decide
  match v with
  | 0 | 1 | 2 | n + 3 => cases kind <;> simp [typeDefKindFromU64, TypeDefKind.code]

theorem readMethodPattern_exact : KindExact methodPatternFromU64 MethodPattern.code := by
  refine readKind_exact (fun v kind => ?_) fun kind => by cases kind <;> decide
  match v with
  | 0 | 1 | 2 | 3 | n + 4 => cases kind <;> simp [methodPatternFromU64, MethodPattern.code]

theorem readCapabilityKind_exact : KindExact capabilityKindFromU64 CapabilityKind.code := by
  refine readKind_exact (fun v kind => ?_) fun kind => by cases kind <;> decide
  match v with
  | 0 | 1 | 2 | n + 3 => cases kind <;> simp [capabilityKindFromU64, CapabilityKind.code]

theorem readScopeKind_exact : KindExact scopeKindFromU64 ScopeKind.code := by
  refine readKind_exact (fun v kind => ?_) fun kind => by cases kind <;> decide
  match v with
  | 0 | 1 | n + 2 => cases kind <;> simp [scopeKindFromU64, ScopeKind.code]

theorem readFieldDef_exact :
    Exact (readFieldDef minimalVarint) writeFieldDef FieldDef.Writable := by
  intro bytes fd rest
  refine .trans (b := True ∧ _) (exact_bind readZigzagI32_exact fd.id fun _ _ =>
    exact_bind readString_exact fd.name fun _ _ =>
    exact_bind readTypeKind_exact fd.typeKind fun _ _ =>
    exact_bind readString_exact fd.typePrimitive fun _ _ =>
    exact_bind readHex_exact fd.typeRef fun _ _ =>
    exact_bind readString_exact fd.selfRefName fun _ _ =>
    exact_bind readBool_exact fd.optional fun _ _ =>
    exact_bind readBool_exact fd.refTracked fun _ _ =>
    exact_bind readContainerKind_exact fd.container fun _ _ =>
    exact_bind readTypeKind_exact fd.containerKeyKind fun _ _ =>
    exact_bind readString_exact fd.containerKeyPrimitive fun _ _ =>
    exact_bind readHex_exact fd.containerKeyRef fun _ _ =>
    exact_bind readBool_exact fd.required fun _ _ =>
    exact_bind readHex_exact fd.defaultValue fun _ _ =>
    exact_pure (by cases fd; simp only [FieldDef.mk.injEq, and_assoc, true_and])) ?_
  simp only [writeFieldDef, append_assoc, FieldDef.writable_iff, true_and, and_true]

theorem readEnumValueDef_exact :
    Exact (readEnumValueDef minimalVarint) writeEnumValueDef fun ev => ShortString ev.name := by
  intro bytes ev rest
  refine .trans (b := True ∧ _) (exact_bind readString_exact ev.name fun _ _ =>
    exact_bind readZigzagI32_exact ev.value fun _ _ =>
    exact_pure (by cases ev; simp only [EnumValueDef.mk.injEq, true_and])) ?_
  simp only [writeEnumValueDef, append_assoc, true_and, and_true]

theorem readUnionVariantDef_exact :
    Exact (readUnionVariantDef minimalVarint) writeUnionVariantDef UnionVariantDef.Writable := by
  intro bytes uv rest
  refine .trans (b := True ∧ _) (exact_bind readString_exact uv.name fun _ _ =>
    exact_bind readZigzagI32_exact uv.id fun _ _ =>
    exact_bind readHex_exact uv.typeRef fun _ _ =>
    exact_pure (by cases uv; simp only [UnionVariantDef.mk.injEq, and_assoc, true_and])) ?_
  simp only [writeUnionVariantDef, append_assoc, UnionVariantDef.writable_iff, true_and, and_true]

theorem readTypeDef_exact : Exact (readTypeDef minimalVarint) TypeDef.bytes TypeDef.Writable := by
  intro bytes td rest
  refine .trans (b := True ∧ _) (exact_bind readTypeDefKind_exact td.kind fun _ _ =>
    exact_bind readString_exact td.package fun _ _ =>
    exact_bind readString_exact td.name fun _ _ =>
    exact_bind (readList_exact readFieldDef_exact) td.fields fun _ _ =>
    exact_bind (readList_exact readEnumValueDef_exact) td.enumValues fun _ _ =>
    exact_bind (readList_exact readUnionVariantDef_exact) td.unionVariants fun _ _ =>
    exact_pure (by cases td; simp only [TypeDef.mk.injEq, and_assoc, true_and])) ?_
  simp only [TypeDef.bytes, append_assoc, TypeDef.writable_iff, true_and, and_true]

theorem readCapabilityRequirement_exact :
    Exact (readCapabilityRequirement minimalVarint) CapabilityRequirement.bytes
      CapabilityRequirement.Writable := by
  intro bytes cap rest
  refine .trans (b := True ∧ _) (exact_bind readCapabilityKind_exact cap.kind fun _ _ =>
    exact_bind (readList_exact readString_exact) cap.roles fun _ _ =>
    exact_pure (by cases cap; simp only [CapabilityRequirement.mk.injEq, true_and])) ?_
  simp only [CapabilityRequirement.bytes, append_assoc, CapabilityRequirement.Writable, true_and,
    and_true]

theorem readMethodDef_exact :
    Exact (readMethodDef minimalVarint) MethodDef.bytes MethodDef.Writable := by
  intro bytes md rest
  refine .trans (b := True ∧ _) (exact_bind readString_exact md.name fun _ _ =>
    exact_bind readMethodPattern_exact md.pattern fun _ _ =>
    exact_bind readHex_exact md.requestType fun _ _ =>
    exact_bind readHex_exact md.responseType fun _ _ =>
    exact_bind readBool_exact md.idempotent fun _ _ =>
    exact_bind readFloat64_exact md.defaultTimeout fun _ _ =>
    exact_bind (readOptional_exact readCapabilityRequirement_exact) md.requires fun _ _ =>
    exact_pure (by cases md; simp only [MethodDef.mk.injEq, and_assoc, true_and])) ?_
  simp only [MethodDef.bytes, append_assoc, MethodDef.writable_iff, true_and, and_true]

theorem readServiceContract_exact :
    Exact (readServiceContract minimalVarint) ServiceContract.bytes ServiceContract.Writable := by
  intro bytes sc rest
  refine .trans (b := True ∧ _) (exact_bind readString_exact sc.name fun _ _ =>
    exact_bind readZigzagI32_exact sc.version fun _ _ =>
    exact_bind (readList_exact readMethodDef_exact) sc.methods fun _ _ =>
    exact_bind (readList_exact readString_exact) sc.serializationModes fun _ _ =>
    exact_bind readScopeKind_exact sc.scope fun _ _ =>
    exact_bind (readOptional_exact readCapabilityRequirement_exact) sc.requires fun _ _ =>
    exact_bind readString_exact sc.producerLanguage fun _ _ =>
    exact_pure (by cases sc; simp only [ServiceContract.mk.injEq, and_assoc, true_and])) ?_
  simp only [ServiceContract.bytes, append_assoc, ServiceContract.writable_iff, true_and, and_true]

/-! ### More varints, more accepted -/

section Extends

variable {varint varint' : Reader CanonicalError ℕ} (h : Extends varint varint')

include h

theorem readFieldDef_extends : Extends (readFieldDef varint) (readFieldDef varint') := by
  intro bytes
  refine extends_bind (readZigzagI32_extends h bytes) fun (_, r) => ?_
  refine extends_bind (readString_extends h r) fun (_, r) => ?_
  refine extends_bind (readKind_extends h r) fun (_, r) => ?_
  refine extends_bind (readString_extends h r) fun (_, r) => ?_
  refine extends_bind (readHex_extends h r) fun (_, r) => ?_
  refine extends_bind (readString_extends h r) fun (_, r) => ?_
  refine extends_bind (fun _ hok => hok) fun (_, r) => ?_
  refine extends_bind (fun _ hok => hok) fun (_, r) => ?_
  refine extends_bind (readKind_extends h r) fun (_, r) => ?_
  refine extends_bind (readKind_extends h r) fun (_, r) => ?_
  refine extends_bind (readString_extends h r) fun (_, r) => ?_
  refine extends_bind (readHex_extends h r) fun (_, r) => ?_
  refine extends_bind (fun _ hok => hok) fun (_, r) => ?_
  exact extends_bind (readHex_extends h r) fun _ _ hok => hok

theorem readEnumValueDef_extends :
    Extends (readEnumValueDef varint) (readEnumValueDef varint') := by
  intro bytes
  refine extends_bind (readString_extends h bytes) fun (_, r) => ?_
  exact extends_bind (readZigzagI32_extends h r) fun _ _ hok => hok

theorem readUnionVariantDef_extends :
    Extends (readUnionVariantDef varint) (readUnionVariantDef varint') := by
  intro bytes
  refine extends_bind (readString_extends h bytes) fun (_, r) => ?_
  refine extends_bind (readZigzagI32_extends h r) fun (_, r) => ?_
  exact extends_bind (readHex_extends h r) fun _ _ hok => hok

theorem readTypeDef_extends : Extends (readTypeDef varint) (readTypeDef varint') := by
  intro bytes
  refine extends_bind (readKind_extends h bytes) fun (_, r) => ?_
  refine extends_bind (readString_extends h r) fun (_, r) => ?_
  refine extends_bind (readString_extends h r) fun (_, r) => ?_
  refine extends_bind (readList_extends h (readFieldDef_extends h) r) fun (_, r) => ?_
  refine extends_bind (readList_extends h (readEnumValueDef_extends h) r) fun (_, r) => ?_
  exact extends_bind (readList_extends h (readUnionVariantDef_extends h) r) fun _ _ hok => hok

theorem readCapabilityRequirement_extends :
    Extends (readCapabilityRequirement varint) (readCapabilityRequirement varint') := by
  intro bytes
  refine extends_bind (readKind_extends h bytes) fun (_, r) => ?_
  exact extends_bind (readList_extends h (readString_extends h) r) fun _ _ hok => hok

theorem readMethodDef_extends : Extends (readMethodDef varint) (readMethodDef varint') := by
  intro bytes
  refine extends_bind (readString_extends h bytes) fun (_, r) => ?_
  refine extends_bind (readKind_extends h r) fun (_, r) => ?_
  refine extends_bind (readHex_extends h r) fun (_, r) => ?_
  refine extends_bind (readHex_extends h r) fun (_, r) => ?_
  refine extends_bind (fun _ hok => hok) fun (_, r) => ?_
  refine extends_bind (fun _ hok => hok) fun (_, r) => ?_
  exact extends_bind (readOptional_extends (readCapabilityRequirement_extends h) r)
    fun _ _ hok => hok

theorem readServiceContract_extends :
    Extends (readServiceContract varint) (readServiceContract varint') := by
  intro bytes
  refine extends_bind (readString_extends h bytes) fun (_, r) => ?_
  refine extends_bind (readZigzagI32_extends h r) fun (_, r) => ?_
  refine extends_bind (readList_extends h (readMethodDef_extends h) r) fun (_, r) => ?_
  refine extends_bind (readList_extends h (readString_extends h) r) fun (_, r) => ?_
  refine extends_bind (readKind_extends h r) fun (_, r) => ?_
  refine extends_bind (readOptional_extends (readCapabilityRequirement_extends h) r)
    fun (_, r) => ?_
  exact extends_bind (readString_extends h r) fun _ _ hok => hok

end Extends

end AsterRpc.Schema

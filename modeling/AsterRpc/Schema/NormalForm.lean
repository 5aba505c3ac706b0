import AsterRpc.Schema.Contract

/-!
# The normal form of a definition

What the writer writes of a definition are the plain bytes of its normal form:
fields, enum values, variants, methods and roles in the writer's order, the
fields numbered by it, and the roles in NFC.  The reader gives the normal form
back, so that two definitions have the same bytes exactly when they have the same
normal form; and that they have when they differ only in what the writer is free
to arrange.
-/

namespace AsterRpc.Schema

open AsterRpc.Foundation List CapabilityRequirement FieldDef
open AsterRpc.Coordination (Bytes)

section

variable (nfc : Nfc) {α : Type} {fields fields' : List FieldDef} {xs : List α} {td : TypeDef}
  {o : Option CapabilityRequirement} {md : MethodDef} {ms ms' : List MethodDef}
  {sc : ServiceContract} {fd : FieldDef} {write : α → Bytes} {a : α}

/-! ### Normal forms -/

def TypeDef.normal (td : TypeDef) : TypeDef :=
  { td with
    fields := deriveNfcSortedFieldIds nfc td.fields
    enumValues := sortOn (fun ev => ev.value.toInt) td.enumValues
    unionVariants := sortOn (fun uv => uv.id.toInt) td.unionVariants }

def CapabilityRequirement.normal (cap : CapabilityRequirement) : CapabilityRequirement :=
  { cap with roles := sortedRoles nfc cap.roles }

def MethodDef.normal (md : MethodDef) : MethodDef :=
  { md with requires := md.requires.map (CapabilityRequirement.normal nfc) }

def ServiceContract.normal (sc : ServiceContract) : ServiceContract :=
  { sc with
    methods := (sortOn (fun md => nfcCodepoints nfc md.name) sc.methods).map (MethodDef.normal nfc)
    requires := sc.requires.map (CapabilityRequirement.normal nfc) }

/-- `canonical_xlang_bytes_type_def`. -/
def canonicalXlangBytesTypeDef (td : TypeDef) : Bytes := writeTypeDef nfc td

/-- `canonical_xlang_bytes_method_def`. -/
def canonicalXlangBytesMethodDef (md : MethodDef) : Bytes := writeMethodDef nfc md

/-- `canonical_xlang_bytes_service_contract`. -/
def canonicalXlangBytesServiceContract (sc : ServiceContract) : Bytes := writeServiceContract nfc sc

theorem canonicalTypeDef_eq (td : TypeDef) :
    canonicalXlangBytesTypeDef nfc td = (td.normal nfc).bytes := rfl

theorem writeOptional_normal (o : Option CapabilityRequirement) :
    writeOptional (writeCapabilityRequirement nfc) o =
      writeOptional bytes (o.map (normal nfc)) := by
  cases o <;> rfl

theorem canonicalMethodDef_eq (md : MethodDef) :
    canonicalXlangBytesMethodDef nfc md = (md.normal nfc).bytes := by
  rw [canonicalXlangBytesMethodDef, writeMethodDef, writeOptional_normal]
  rfl

theorem writeList_map {β : Type} (write : β → Bytes) (f : α → β) (xs : List α) :
    writeList write (xs.map f) = writeList (fun a => write (f a)) xs := by
  rw [writeList, writeList, length_map, map_map]
  rfl

theorem canonicalServiceContract_eq (sc : ServiceContract) :
    canonicalXlangBytesServiceContract nfc sc = (sc.normal nfc).bytes := by
  have hmethods : writeMethodDef nfc = fun md => (md.normal nfc).bytes :=
    funext (canonicalMethodDef_eq nfc)
  rw [canonicalXlangBytesServiceContract, writeServiceContract, writeOptional_normal, hmethods,
    ← writeList_map]
  rfl

/-! ### A normal form is its own -/

/-- Numbering leaves the names where they are. -/
theorem names_numberFields (fields : List FieldDef) :
    (numberFields fields).map name = fields.map name := by
  apply ext_getElem
  · simp [numberFields]
  · intro i hi hi'
    simp [numberFields]

theorem derive_pairwise (fields : List FieldDef) :
    (deriveNfcSortedFieldIds nfc fields).Pairwise fun a b =>
      compare (nfcCodepoints nfc a.name) (nfcCodepoints nfc b.name) ≠ .gt := by
  have hnames : ((sortOn (fun fd => nfcCodepoints nfc fd.name) fields).map name).Pairwise fun a b =>
      compare (nfcCodepoints nfc a) (nfcCodepoints nfc b) ≠ .gt :=
    pairwise_map.mpr (sortOn_pairwise _ _)
  rw [← names_numberFields] at hnames
  exact pairwise_map.mp hnames

theorem derive_derive (fields : List FieldDef) :
    deriveNfcSortedFieldIds nfc (deriveNfcSortedFieldIds nfc fields) =
      deriveNfcSortedFieldIds nfc fields := by
  rw [deriveNfcSortedFieldIds, sortOn_eq_self (derive_pairwise nfc fields),
    deriveNfcSortedFieldIds, numberFields, numberFields, mapIdx_mapIdx]
  rfl

theorem sortedRoles_sortedRoles (roles : List String) :
    sortedRoles nfc (sortedRoles nfc roles) = sortedRoles nfc roles := by
  have hnormal : (sortedRoles nfc roles).map nfc.normalize = sortedRoles nfc roles := by
    refine (map_congr_left fun role hrole => ?_).trans (map_id _)
    obtain ⟨r, -, rfl⟩ := mem_map.mp ((sortOn_perm _ _).mem_iff.mp hrole)
    exact nfc.normalize_normalize r
  rw [sortedRoles, hnormal]
  exact sortOn_eq_self (sortOn_pairwise _ _)

theorem TypeDef.normal_normal (td : TypeDef) : (td.normal nfc).normal nfc = td.normal nfc := by
  simp [normal, derive_derive, sortOn_eq_self (sortOn_pairwise _ _)]

theorem CapabilityRequirement.normal_normal (cap : CapabilityRequirement) :
    (cap.normal nfc).normal nfc = cap.normal nfc := by
  simp [normal, sortedRoles_sortedRoles]

theorem requires_normal_normal (o : Option CapabilityRequirement) :
    (o.map (normal nfc)).map (normal nfc) =
      o.map (normal nfc) := by
  cases o with
  | none => rfl
  | some cap => exact congrArg some (cap.normal_normal nfc)

theorem MethodDef.normal_normal (md : MethodDef) : (md.normal nfc).normal nfc = md.normal nfc := by
  simp only [normal, requires_normal_normal]

theorem methods_pairwise (sc : ServiceContract) :
    (sc.normal nfc).methods.Pairwise fun a b =>
      compare (nfcCodepoints nfc a.name) (nfcCodepoints nfc b.name) ≠ .gt :=
  pairwise_map.mpr (sortOn_pairwise (fun md : MethodDef => nfcCodepoints nfc md.name) _)

theorem ServiceContract.normal_normal (sc : ServiceContract) :
    (sc.normal nfc).normal nfc = sc.normal nfc := by
  have hsort := methods_pairwise nfc sc
  simp only [normal] at hsort
  simp only [normal, requires_normal_normal, sortOn_eq_self hsort, map_map]
  congr 1
  exact map_congr_left fun md _ => md.normal_normal nfc

/-! ### Equal up to what the writer arranges -/

/-- A field without its number. -/
def FieldDef.anonymous (fd : FieldDef) : FieldDef := { fd with id := 0 }

/-- Type definitions that differ in the order of their fields, values and variants and in the
field ids alone. -/
@[mk_iff]
structure TypeDef.Same (td td' : TypeDef) : Prop where
  kind : td.kind = td'.kind
  package : td.package = td'.package
  name : td.name = td'.name
  fields : (td.fields.map anonymous).Perm (td'.fields.map anonymous)
  enumValues : td.enumValues.Perm td'.enumValues
  unionVariants : td.unionVariants.Perm td'.unionVariants

/-- Requirements that differ in the order and the normalization of their roles alone. -/
structure CapabilityRequirement.Same (cap cap' : CapabilityRequirement) : Prop where
  kind : cap.kind = cap'.kind
  roles : (cap.roles.map nfc.normalize).Perm (cap'.roles.map nfc.normalize)

@[mk_iff]
structure MethodDef.Same (md md' : MethodDef) : Prop where
  name : md.name = md'.name
  pattern : md.pattern = md'.pattern
  requestType : md.requestType = md'.requestType
  responseType : md.responseType = md'.responseType
  idempotent : md.idempotent = md'.idempotent
  defaultTimeout : md.defaultTimeout = md'.defaultTimeout
  requires : Option.Rel (CapabilityRequirement.Same nfc) md.requires md'.requires

/-- Contracts that differ in the order of their methods and in the roles alone. -/
@[mk_iff]
structure ServiceContract.Same (sc sc' : ServiceContract) : Prop where
  name : sc.name = sc'.name
  version : sc.version = sc'.version
  methods : ∃ methods, sc.methods.Perm methods ∧
    List.Forall₂ (MethodDef.Same nfc) methods sc'.methods
  serializationModes : sc.serializationModes = sc'.serializationModes
  scope : sc.scope = sc'.scope
  requires : Option.Rel (CapabilityRequirement.Same nfc) sc.requires sc'.requires
  producerLanguage : sc.producerLanguage = sc'.producerLanguage

/-! ### What the definitions are asked for -/

/-- Writable, and with names, values and ids that tell apart what they name. -/
structure TypeDef.Proper (td : TypeDef) : Prop where
  writable : td.Writable
  fields : (td.fields.map fun fd => nfc.normalize fd.name).Nodup
  enumValues : (td.enumValues.map EnumValueDef.value).Nodup
  unionVariants : (td.unionVariants.map UnionVariantDef.id).Nodup

structure MethodDef.Proper (md : MethodDef) : Prop where
  name : ShortString md.name
  requestType : HexField md.requestType
  responseType : HexField md.responseType
  requires : ∀ cap, md.requires = some cap → (cap.normal nfc).Writable

structure ServiceContract.Proper (sc : ServiceContract) : Prop where
  name : ShortString sc.name
  methods : sc.methods.length < 2 ^ 64 ∧ ∀ md ∈ sc.methods, md.Proper nfc
  distinct : (sc.methods.map fun md => nfc.normalize md.name).Nodup
  serializationModes : sc.serializationModes.length < 2 ^ 64 ∧
    ∀ mode ∈ sc.serializationModes, ShortString mode
  requires : ∀ cap, sc.requires = some cap → (cap.normal nfc).Writable
  producerLanguage : ShortString sc.producerLanguage

/-! ### The writer's orders -/

variable {nfc}

theorem map_toNat_injective : Function.Injective fun s : String => s.toList.map Char.toNat := by
  intro s s' h
  exact String.toList_inj.mp (map_injective_iff.mpr (fun _ _ => Char.toNat_inj.mp) h)

/-- Distinct NFC names have distinct keys. -/
theorem inj_of_nodup_names {name : α → String}
    (h : (xs.map fun a => nfc.normalize (name a)).Nodup) :
    ∀ a ∈ xs, ∀ b ∈ xs, nfcCodepoints nfc (name a) = nfcCodepoints nfc (name b) → a = b := by
  intro a ha b hb hkey
  exact inj_on_of_nodup_map h ha hb (map_toNat_injective hkey)

theorem anonymous_numberFields (fields : List FieldDef) :
    (numberFields fields).map anonymous = fields.map anonymous := by
  apply ext_getElem
  · simp [numberFields]
  · intro i hi hi'
    simp [numberFields, anonymous]

theorem numberFields_anonymous (fields : List FieldDef) :
    numberFields (fields.map anonymous) = numberFields fields := by
  apply ext_getElem
  · simp [numberFields]
  · intro i hi hi'
    simp [numberFields, anonymous]

/-- The derived fields are the given ones, but for order and number. -/
theorem derive_perm (fields : List FieldDef) :
    ((deriveNfcSortedFieldIds nfc fields).map anonymous).Perm
      (fields.map anonymous) := by
  rw [deriveNfcSortedFieldIds, anonymous_numberFields]
  exact (sortOn_perm _ fields).map _

/-- Fields are numbered alike when they differ in order and number alone. -/
theorem derive_eq_iff (h : (fields.map fun fd => nfc.normalize fd.name).Nodup) :
    deriveNfcSortedFieldIds nfc fields = deriveNfcSortedFieldIds nfc fields' ↔
      (fields.map anonymous).Perm (fields'.map anonymous) := by
  constructor
  · intro heq
    have hperm : ((deriveNfcSortedFieldIds nfc fields).map anonymous).Perm _ := derive_perm fields
    rw [heq] at hperm
    exact hperm.symm.trans (derive_perm fields')
  · intro hperm
    have hnodup : ((fields.map anonymous).map fun fd => nfc.normalize fd.name).Nodup := by
      rw [map_map]
      exact h
    have hsort := sortOn_eq_of_perm hperm (inj_of_nodup_names hnodup)
    rw [sortOn_map, sortOn_map] at hsort
    have hnumber := congrArg numberFields hsort
    rwa [numberFields_anonymous, numberFields_anonymous] at hnumber

theorem perm_of_sortOn_eq {κ : Type} [Ord κ] [Std.TransOrd κ] {key : α → κ} {ys : List α}
    (h : sortOn key xs = sortOn key ys) : xs.Perm ys := by
  have hperm := sortOn_perm key xs
  rw [h] at hperm
  exact hperm.symm.trans (sortOn_perm key ys)

theorem sortOn_eq_iff {κ : Type} [Ord κ] [Std.TransOrd κ] [Std.LawfulEqOrd κ] {key : α → κ}
    {ys : List α} (h : (xs.map key).Nodup) : sortOn key xs = sortOn key ys ↔ xs.Perm ys := by
  constructor
  · exact perm_of_sortOn_eq
  · intro hperm
    exact sortOn_eq_of_perm hperm fun a ha b hb => inj_on_of_nodup_map h ha hb

theorem sortedRoles_eq_iff {roles roles' : List String} :
    sortedRoles nfc roles = sortedRoles nfc roles' ↔
      (roles.map nfc.normalize).Perm (roles'.map nfc.normalize) := by
  constructor
  · exact perm_of_sortOn_eq
  · intro hperm
    exact sortOn_eq_of_perm hperm fun a _ b _ hkey => map_toNat_injective hkey

/-! ### Same normal form -/

theorem TypeDef.normal_eq_iff {td' : TypeDef} (h : td.Proper nfc) :
    td.normal nfc = td'.normal nfc ↔ td.Same td' := by
  have hinj : Function.Injective Int32.toInt := fun _ _ => Int32.toInt_inj.mp
  have hvalues := h.enumValues.map hinj
  have hvariants := h.unionVariants.map hinj
  simp only [map_map, Function.comp_def] at hvalues hvariants
  simp [normal, TypeDef.mk.injEq, derive_eq_iff h.fields, sortOn_eq_iff hvalues,
    sortOn_eq_iff hvariants, same_iff]

theorem CapabilityRequirement.normal_eq_iff {cap cap' : CapabilityRequirement} :
    cap.normal nfc = cap'.normal nfc ↔ cap.Same nfc cap' := by
  simp only [normal, mk.injEq, sortedRoles_eq_iff]
  exact ⟨fun h => ⟨h.1, h.2⟩, fun h => ⟨h.kind, h.roles⟩⟩

theorem requires_normal_eq_iff {o' : Option CapabilityRequirement} :
    o.map (normal nfc) = o'.map (normal nfc) ↔
      Option.Rel (CapabilityRequirement.Same nfc) o o' := by
  cases o with
  | none =>
    cases o' with
    | none => exact ⟨fun _ => .none, fun _ => rfl⟩
    | some => exact ⟨fun h => (by cases h), fun h => (by cases h)⟩
  | some =>
    cases o' with
    | none => exact ⟨fun h => (by cases h), fun h => (by cases h)⟩
    | some =>
      rw [Option.map_some, Option.map_some, Option.some.injEq, normal_eq_iff]
      exact ⟨fun h => .some h, fun h => (by cases h with | some h => exact h)⟩

theorem MethodDef.normal_eq_iff {md' : MethodDef} :
    md.normal nfc = md'.normal nfc ↔ md.Same nfc md' := by
  simp [normal, MethodDef.mk.injEq, requires_normal_eq_iff, same_iff]

theorem methods_normal_eq_iff :
    ms.map (MethodDef.normal nfc) = ms'.map (MethodDef.normal nfc) ↔
      List.Forall₂ (MethodDef.Same nfc) ms ms' := by
  rw [← forall₂_eq_eq_eq, forall₂_map_left_iff, forall₂_map_right_iff]
  simp [MethodDef.normal_eq_iff]

/-- Methods in the writer's order are the same when they are the same in some order. -/
theorem methods_same_iff (h : (ms.map fun md => nfc.normalize md.name).Nodup) :
    (sortOn (fun md => nfcCodepoints nfc md.name) ms).map (MethodDef.normal nfc) =
        (sortOn (fun md => nfcCodepoints nfc md.name) ms').map (MethodDef.normal nfc) ↔
      ∃ methods, ms.Perm methods ∧ List.Forall₂ (MethodDef.Same nfc) methods ms' := by
  constructor
  · intro heq
    have hsame := methods_normal_eq_iff.mp heq
    have hcomp : Relation.Comp (List.Forall₂ (MethodDef.Same nfc)) List.Perm
        (sortOn (fun md => nfcCodepoints nfc md.name) ms) ms' := ⟨_, hsame, sortOn_perm _ ms'⟩
    rw [forall₂_comp_perm_eq_perm_comp_forall₂] at hcomp
    obtain ⟨methods, hperm, hmethods⟩ := hcomp
    exact ⟨methods, (sortOn_perm _ ms).symm.trans hperm, hmethods⟩
  · rintro ⟨methods, hperm, hmethods⟩
    have hnormal : (ms.map (MethodDef.normal nfc)).Perm (ms'.map (MethodDef.normal nfc)) := by
      rw [← methods_normal_eq_iff.mpr hmethods]
      exact hperm.map _
    have hnodup : ((ms.map (MethodDef.normal nfc)).map fun md => nfc.normalize md.name).Nodup := by
      rw [map_map]
      exact h
    have hsort := sortOn_eq_of_perm hnormal (inj_of_nodup_names hnodup)
    rwa [sortOn_map, sortOn_map] at hsort

theorem ServiceContract.normal_eq_iff {sc' : ServiceContract} (h : sc.Proper nfc) :
    sc.normal nfc = sc'.normal nfc ↔ sc.Same nfc sc' := by
  simp [normal, ServiceContract.mk.injEq, requires_normal_eq_iff, methods_same_iff h.distinct,
    same_iff]

/-! ### Reading back -/

theorem mem_numberFields (h : fd ∈ numberFields fields) :
    ∃ fd' ∈ fields, fd.anonymous = fd'.anonymous := by
  have hmem : fd.anonymous ∈ (numberFields fields).map anonymous := mem_map_of_mem h
  rw [anonymous_numberFields] at hmem
  obtain ⟨fd', hfd', heq⟩ := mem_map.mp hmem
  exact ⟨fd', hfd', heq.symm⟩

/-- Whether a field can be written does not depend on its number. -/
theorem FieldDef.Writable.of_anonymous {fd' : FieldDef} (h : fd'.Writable)
    (heq : fd.anonymous = fd'.anonymous) : fd.Writable := by
  have hanon : fd'.anonymous.Writable := ⟨h.name, h.typePrimitive, h.typeRef, h.selfRefName,
    h.containerKeyPrimitive, h.containerKeyRef, h.defaultValue⟩
  rw [← heq] at hanon
  exact ⟨hanon.name, hanon.typePrimitive, hanon.typeRef, hanon.selfRefName,
    hanon.containerKeyPrimitive, hanon.containerKeyRef, hanon.defaultValue⟩

theorem length_derive (fields : List FieldDef) :
    (deriveNfcSortedFieldIds nfc fields).length = fields.length := by
  rw [deriveNfcSortedFieldIds, numberFields, length_mapIdx, (sortOn_perm _ fields).length_eq]

theorem TypeDef.Writable.normal (h : td.Writable) : (td.normal nfc).Writable where
  package := h.package
  name := h.name
  fields := by
    refine ⟨(length_derive td.fields).trans_lt h.fields.1, fun fd hfd => ?_⟩
    obtain ⟨fd', hfd', heq⟩ := mem_numberFields hfd
    exact (h.fields.2 fd' ((sortOn_perm _ _).mem_iff.mp hfd')).of_anonymous heq
  enumValues := by
    refine ⟨(sortOn_perm _ td.enumValues).length_eq.trans_lt h.enumValues.1, fun ev hev => ?_⟩
    exact h.enumValues.2 ev ((sortOn_perm _ _).mem_iff.mp hev)
  unionVariants := by
    refine ⟨(sortOn_perm _ td.unionVariants).length_eq.trans_lt h.unionVariants.1, fun uv huv => ?_⟩
    exact h.unionVariants.2 uv ((sortOn_perm _ _).mem_iff.mp huv)

theorem requires_writable (h : ∀ cap, o = some cap → (cap.normal nfc).Writable) :
    ∀ cap, o.map (normal nfc) = some cap → cap.Writable := by
  intro cap hcap
  obtain ⟨cap', hcap', rfl⟩ := Option.map_eq_some_iff.mp hcap
  exact h cap' hcap'

theorem MethodDef.Proper.writable (h : md.Proper nfc) : (md.normal nfc).Writable :=
  ⟨h.name, h.requestType, h.responseType, requires_writable h.requires⟩

theorem ServiceContract.Proper.writable (h : sc.Proper nfc) :
    (sc.normal nfc).Writable where
  name := h.name
  methods := by
    constructor
    · show ((sortOn _ sc.methods).map _).length < 2 ^ 64
      rw [length_map, (sortOn_perm _ sc.methods).length_eq]
      exact h.methods.1
    · intro md hmd
      obtain ⟨md', hmd', rfl⟩ := mem_map.mp hmd
      exact (h.methods.2 md' ((sortOn_perm _ _).mem_iff.mp hmd')).writable
  serializationModes := h.serializationModes
  requires := requires_writable h.requires
  producerLanguage := h.producerLanguage

/-- A reader that extends an exact one reads back what is written. -/
theorem decodeWhole_write {read read' : Reader CanonicalError α} {valid : α → Prop}
    (hexact : Exact read write valid) (hextends : Extends read read') (ha : valid a) :
    decodeWhole read' (write a) = .ok a := by
  rw [decodeWhole_eq_ok]
  apply hextends
  exact (hexact _ a []).mpr ⟨ha, (append_nil _).symm⟩

theorem decodeTypeDef_bytes (h : td.Writable) : decodeTypeDefBytes td.bytes = .ok td :=
  decodeWhole_write readTypeDef_exact (readTypeDef_extends readVarint_extends) h

theorem decodeMethodDef_bytes (h : md.Writable) : decodeMethodDefBytes md.bytes = .ok md :=
  decodeWhole_write readMethodDef_exact (readMethodDef_extends readVarint_extends) h

theorem decodeServiceContract_bytes (h : sc.Writable) :
    decodeServiceContractBytes sc.bytes = .ok sc :=
  decodeWhole_write readServiceContract_exact (readServiceContract_extends readVarint_extends) h

/-- Bytes that are read back tell the values apart. -/
theorem bytes_injective_of_decode {decode : Bytes → Except CanonicalError α} {b : α}
    (ha : decode (write a) = .ok a) (hb : decode (write b) = .ok b) :
    write a = write b ↔ a = b := by
  constructor
  · intro h
    rw [h, hb] at ha
    exact (Except.ok.inj ha).symm
  · rintro rfl
    rfl

/-- **The canonical bytes are a normal form**: of type definitions, method definitions and service
contracts alike, the bytes agree exactly when the definitions differ only in the order of fields,
values, variants, methods and roles, in the field ids and in the normalization of roles; and they
are read back as the definition so normalized, whose bytes are the same again. -/
theorem canonical_normal_form (nfc : Nfc) :
    ((∀ td td' : TypeDef, td.Proper nfc → td'.Proper nfc →
        (canonicalXlangBytesTypeDef nfc td = canonicalXlangBytesTypeDef nfc td' ↔ td.Same td')) ∧
      ∀ td : TypeDef, td.Proper nfc →
        decodeTypeDefBytes (canonicalXlangBytesTypeDef nfc td) = .ok (td.normal nfc) ∧
        td.Same (td.normal nfc) ∧
        canonicalXlangBytesTypeDef nfc (td.normal nfc) = canonicalXlangBytesTypeDef nfc td) ∧
    ((∀ md md' : MethodDef, md.Proper nfc → md'.Proper nfc →
        (canonicalXlangBytesMethodDef nfc md = canonicalXlangBytesMethodDef nfc md' ↔
          md.Same nfc md')) ∧
      ∀ md : MethodDef, md.Proper nfc →
        decodeMethodDefBytes (canonicalXlangBytesMethodDef nfc md) = .ok (md.normal nfc) ∧
        md.Same nfc (md.normal nfc) ∧
        canonicalXlangBytesMethodDef nfc (md.normal nfc) = canonicalXlangBytesMethodDef nfc md) ∧
    ((∀ sc sc' : ServiceContract, sc.Proper nfc → sc'.Proper nfc →
        (canonicalXlangBytesServiceContract nfc sc = canonicalXlangBytesServiceContract nfc sc' ↔
          sc.Same nfc sc')) ∧
      ∀ sc : ServiceContract, sc.Proper nfc →
        decodeServiceContractBytes (canonicalXlangBytesServiceContract nfc sc) =
          .ok (sc.normal nfc) ∧
        sc.Same nfc (sc.normal nfc) ∧
        canonicalXlangBytesServiceContract nfc (sc.normal nfc) =
          canonicalXlangBytesServiceContract nfc sc) := by
  simp only [canonicalTypeDef_eq, canonicalMethodDef_eq, canonicalServiceContract_eq]
  refine ⟨⟨?_, ?_⟩, ⟨?_, ?_⟩, ?_, ?_⟩
  · intro td td' h h'
    rw [bytes_injective_of_decode (decodeTypeDef_bytes h.writable.normal)
      (decodeTypeDef_bytes h'.writable.normal), TypeDef.normal_eq_iff h]
  · intro td h
    refine ⟨decodeTypeDef_bytes h.writable.normal, ?_, by rw [TypeDef.normal_normal]⟩
    rw [← TypeDef.normal_eq_iff h, TypeDef.normal_normal]
  · intro md md' h h'
    rw [bytes_injective_of_decode (decodeMethodDef_bytes h.writable)
      (decodeMethodDef_bytes h'.writable), MethodDef.normal_eq_iff]
  · intro md h
    refine ⟨decodeMethodDef_bytes h.writable, ?_, by rw [MethodDef.normal_normal]⟩
    rw [← MethodDef.normal_eq_iff, MethodDef.normal_normal]
  · intro sc sc' h h'
    rw [bytes_injective_of_decode (decodeServiceContract_bytes h.writable)
      (decodeServiceContract_bytes h'.writable), ServiceContract.normal_eq_iff h]
  · intro sc h
    refine ⟨decodeServiceContract_bytes h.writable, ?_, by rw [ServiceContract.normal_normal]⟩
    rw [← ServiceContract.normal_eq_iff h, ServiceContract.normal_normal]

end

namespace Sample

/-- A normalization that leaves every string as it is. -/
def nfc : Nfc := ⟨fun s => s, fun _ => rfl⟩

/-- An enum whose values stand in descending order. -/
def descending : TypeDef := ⟨.enum, "", "e", [], [⟨"b", 2⟩, ⟨"a", 1⟩], []⟩

/-- A method for the holders of two roles, in descending order. -/
def method (name : String) : MethodDef :=
  ⟨name, .unary, "0a", "0b", false, 0, some ⟨.anyOf, ["y", "x"]⟩⟩

def service : ServiceContract :=
  ⟨"s", 1, [method "b", method "a"], ["xlang"], .shared, none, "rust"⟩

theorem descending_proper : descending.Proper nfc := by
  refine ⟨⟨?_, ?_, ⟨?_, ?_⟩, ⟨?_, ?_⟩, ?_, ?_⟩, ?_, ?_, ?_⟩ <;> simp [descending, ShortString] <;>
    decide +kernel

theorem method_proper {name : String} (h : ShortString name) : (method name).Proper nfc := by
  refine ⟨h, ?_, ?_, ?_⟩
  · simp only [method, HexField, LowerHex]
    decide +kernel
  · simp only [method, HexField, LowerHex]
    decide +kernel
  · rintro _ ⟨⟩
    simp only [CapabilityRequirement.Writable]
    decide +kernel

theorem service_proper : service.Proper nfc := by
  refine ⟨by decide +kernel, ⟨by decide +kernel, fun md hmd => ?_⟩, by decide +kernel,
    by decide +kernel, fun _ h => (by cases h), by decide +kernel⟩
  simp only [service, mem_cons, not_mem_nil, or_false] at hmd
  rcases hmd with rfl | rfl
  · exact method_proper (by decide +kernel)
  · exact method_proper (by decide +kernel)

end Sample

open Sample

theorem canonical_normal_form_descending :
    (descending.Proper nfc ∧ decodeTypeDefBytes (canonicalXlangBytesTypeDef nfc descending) =
      .ok (descending.normal nfc)) ∧
    ((method "a").Proper nfc ∧
      decodeMethodDefBytes (canonicalXlangBytesMethodDef nfc (method "a")) =
        .ok ((method "a").normal nfc)) ∧
    service.Proper nfc ∧
      decodeServiceContractBytes (canonicalXlangBytesServiceContract nfc service) =
        .ok (service.normal nfc) := by
  obtain ⟨⟨-, hdescending⟩, ⟨-, hmethod⟩, -, hservice⟩ := canonical_normal_form nfc
  have hproper : (method "a").Proper nfc := method_proper (by decide +kernel)
  exact ⟨⟨descending_proper, (hdescending _ descending_proper).1⟩, ⟨hproper, (hmethod _ hproper).1⟩,
    service_proper, (hservice _ service_proper).1⟩

end AsterRpc.Schema

import AsterRpc.Schema.NormalForm

/-!
# What decodes and is not canonical

The decoders ask for the exact output of the writer, and accept more: a varint
may be padded or carry bits beyond the 64th, and lists, field ids and roles are
taken as they come.  A buffer that decodes is the canonical bytes of what it
decodes to exactly when its varints are minimal and its lists are in the writer's
order.
-/

namespace AsterRpc.Schema

open AsterRpc.Foundation List CapabilityRequirement
open AsterRpc.Coordination (Bytes)

variable {bytes : Bytes} {α : Type} {valid : α → Prop}

/-! ### In the writer's order -/

section

variable (nfc : Nfc)

/-- No later element has a smaller key. -/
def Ascending {α κ : Type} [Ord κ] (key : α → κ) (xs : List α) : Prop :=
  xs.Pairwise fun a b => compare (key a) (key b) ≠ .gt

@[mk_iff]
structure TypeDef.InOrder (td : TypeDef) : Prop where
  fields : Ascending (fun fd => nfcCodepoints nfc fd.name) td.fields
  fieldIds : ∀ i fd, td.fields[i]? = some fd → fd.id = Int32.ofNat (i + 1)
  enumValues : Ascending (fun ev => ev.value.toInt) td.enumValues
  unionVariants : Ascending (fun uv => uv.id.toInt) td.unionVariants

structure CapabilityRequirement.InOrder (cap : CapabilityRequirement) : Prop where
  normalized : ∀ role ∈ cap.roles, nfc.normalize role = role
  roles : Ascending (fun role : String => role.toList.map Char.toNat) cap.roles

def MethodDef.InOrder (md : MethodDef) : Prop := ∀ cap, md.requires = some cap → cap.InOrder nfc

structure ServiceContract.InOrder (sc : ServiceContract) : Prop where
  methods : Ascending (fun md => nfcCodepoints nfc md.name) sc.methods
  eachMethod : ∀ md ∈ sc.methods, md.InOrder nfc
  requires : ∀ cap, sc.requires = some cap → cap.InOrder nfc

variable {nfc}

theorem sortOn_eq_self_iff {α κ : Type} [Ord κ] [Std.TransOrd κ] {key : α → κ} {xs : List α} :
    sortOn key xs = xs ↔ Ascending key xs := by
  constructor
  · intro h
    have hsort := sortOn_pairwise key xs
    rw [h] at hsort
    exact hsort
  · exact sortOn_eq_self

theorem derive_eq_self_iff {fields : List FieldDef} :
    deriveNfcSortedFieldIds nfc fields = fields ↔
      Ascending (fun fd => nfcCodepoints nfc fd.name) fields ∧
        ∀ i fd, fields[i]? = some fd → fd.id = Int32.ofNat (i + 1) := by
  constructor
  · intro h
    constructor
    · have hsort := derive_pairwise nfc fields
      rw [h] at hsort
      exact hsort
    · intro i fd hfd
      rw [← h, deriveNfcSortedFieldIds, numberFields, getElem?_mapIdx] at hfd
      obtain ⟨_, -, rfl⟩ := Option.map_eq_some_iff.mp hfd
      rfl
  · rintro ⟨hsort, hids⟩
    rw [deriveNfcSortedFieldIds, sortOn_eq_self hsort]
    apply ext_getElem
    · simp [numberFields]
    · intro i hi hi'
      have hid := hids i fields[i] (getElem?_eq_getElem hi')
      simp only [numberFields, getElem_mapIdx, ← hid]

theorem TypeDef.normal_eq_self_iff {td : TypeDef} : td.normal nfc = td ↔ td.InOrder nfc := by
  have hiff : td.normal nfc = td ↔ deriveNfcSortedFieldIds nfc td.fields = td.fields ∧
      sortOn (fun ev => ev.value.toInt) td.enumValues = td.enumValues ∧
      sortOn (fun uv => uv.id.toInt) td.unionVariants = td.unionVariants := by
    cases td
    simp [normal]
  rw [hiff, derive_eq_self_iff, sortOn_eq_self_iff, sortOn_eq_self_iff, inOrder_iff, and_assoc]

theorem CapabilityRequirement.normal_eq_self_iff {cap : CapabilityRequirement} :
    cap.normal nfc = cap ↔ cap.InOrder nfc := by
  have hiff : cap.normal nfc = cap ↔ sortedRoles nfc cap.roles = cap.roles := by
    cases cap
    simp [normal]
  rw [hiff]
  constructor
  · intro h
    have hnormalized : ∀ role ∈ cap.roles, nfc.normalize role = role := by
      intro role hrole
      rw [← h] at hrole
      obtain ⟨r, -, rfl⟩ := mem_map.mp ((sortOn_perm _ _).mem_iff.mp hrole)
      exact nfc.normalize_normalize r
    have hmap : cap.roles.map nfc.normalize = cap.roles :=
      (map_congr_left hnormalized).trans (map_id _)
    rw [sortedRoles, hmap] at h
    exact ⟨hnormalized, sortOn_eq_self_iff.mp h⟩
  · intro h
    have hmap : cap.roles.map nfc.normalize = cap.roles :=
      (map_congr_left h.normalized).trans (map_id _)
    rw [sortedRoles, hmap]
    exact sortOn_eq_self_iff.mpr h.roles

theorem requires_normal_eq_self_iff {o : Option CapabilityRequirement} :
    o.map (normal nfc) = o ↔ ∀ cap, o = some cap → cap.InOrder nfc := by
  cases o with
  | none => simp
  | some => simp [normal_eq_self_iff]

theorem MethodDef.normal_eq_self_iff {md : MethodDef} : md.normal nfc = md ↔ md.InOrder nfc := by
  have hiff : md.normal nfc = md ↔
      md.requires.map (CapabilityRequirement.normal nfc) = md.requires := by
    cases md
    simp [normal]
  rw [hiff, requires_normal_eq_self_iff]
  rfl

theorem ServiceContract.normal_eq_self_iff {sc : ServiceContract} :
    sc.normal nfc = sc ↔ sc.InOrder nfc := by
  have hiff : sc.normal nfc = sc ↔
      (sortOn (fun md => nfcCodepoints nfc md.name) sc.methods).map (MethodDef.normal nfc) =
        sc.methods ∧ sc.requires.map (CapabilityRequirement.normal nfc) = sc.requires := by
    cases sc
    simp [normal]
  rw [hiff, requires_normal_eq_self_iff]
  constructor
  · rintro ⟨hmethods, hrequires⟩
    have hsort := methods_pairwise nfc sc
    rw [ServiceContract.normal, hmethods] at hsort
    refine ⟨hsort, fun md hmd => ?_, hrequires⟩
    rw [← hmethods] at hmd
    obtain ⟨md', -, rfl⟩ := mem_map.mp hmd
    exact MethodDef.normal_eq_self_iff.mp (md'.normal_normal nfc)
  · intro h
    refine ⟨?_, h.requires⟩
    rw [sortOn_eq_self h.methods]
    refine (map_congr_left fun md hmd => ?_).trans (map_id _)
    exact MethodDef.normal_eq_self_iff.mpr (h.eachMethod md hmd)

end

/-! ### What any reader yields can be written -/

/-- Every value that is read is valid. -/
def Yields {α : Type} (read : Reader CanonicalError α) (valid : α → Prop) : Prop :=
  ∀ bytes a rest, read bytes = .ok (a, rest) → valid a

theorem readVarintLoop_lt {rounds shift value v : ℕ} {rest : Bytes} (hvalue : value < 2 ^ 64)
    (h : readVarintLoop rounds shift value bytes = .ok (v, rest)) : v < 2 ^ 64 := by
  induction rounds generalizing shift value bytes with
  | zero => cases h
  | succ rounds ih =>
    simp only [readVarintLoop, accepts_iff] at h
    obtain ⟨byte, _, -, h⟩ := h
    have hnext : value ||| ((byte &&& 0x7F).toNat <<< shift) % 2 ^ 64 < 2 ^ 64 :=
      Nat.or_lt_two_pow hvalue (Nat.mod_lt _ (by decide))
    split_ifs at h
    · cases h
      exact hnext
    · exact ih hnext h

theorem readVarint_yields : Yields readVarint (· < 2 ^ 64) := by
  intro bytes v rest h
  exact readVarintLoop_lt (by decide) h

theorem readMany_yields {read : Reader CanonicalError α} (h : Yields read valid) (count : ℕ) :
    Yields (readMany read count) fun xs => xs.length = count ∧ ∀ x ∈ xs, valid x := by
  induction count with
  | zero =>
    intro bytes xs rest hok
    cases hok
    exact ⟨rfl, fun x hx => absurd hx not_mem_nil⟩
  | succ count ih =>
    intro bytes xs rest hok
    simp only [readMany, accepts_iff] at hok
    obtain ⟨a, _, ha, _, _, has, hok⟩ := hok
    cases hok
    obtain ⟨hlen, hvalid⟩ := ih _ _ _ has
    refine ⟨by rw [length_cons, hlen], fun x hx => ?_⟩
    rcases mem_cons.mp hx with rfl | hx
    · exact h _ _ _ ha
    · exact hvalid x hx

section Yields

variable {varint : Reader CanonicalError ℕ} (h : Yields varint (· < 2 ^ 64)) {α : Type}
  {read : Reader CanonicalError α} {valid : α → Prop}

include h

theorem readString_yields : Yields (readString varint) ShortString := by
  intro bytes s rest hok
  simp only [readString, accepts_iff, readBytes_eq_ok, fromUtf8_eq_some] at hok
  obtain ⟨_, _, hhead, -, _, _, ⟨hlen, -⟩, _, rfl, hok⟩ := hok
  cases hok
  have hlt := h _ _ _ hhead
  rw [Nat.shiftRight_eq_div_pow] at hlen
  show (utf8 s).length < 2 ^ 62
  omega

theorem readHex_yields : Yields (readHex varint) HexField := by
  intro bytes s rest hok
  simp only [readHex, readBytesField, accepts_iff, readBytes_eq_ok] at hok
  obtain ⟨data, _, ⟨_, _, hlen, hlength, -⟩, hok⟩ := hok
  cases hok
  refine ⟨lowerHex_hexText data, ?_⟩
  rw [hexToBytes_hexText, hlength]
  exact h _ _ _ hlen

theorem readList_yields (hread : Yields read valid) :
    Yields (readList varint read) fun xs => xs.length < 2 ^ 64 ∧ ∀ x ∈ xs, valid x := by
  intro bytes xs rest hok
  simp only [readList, readListHeader, accepts_iff] at hok
  obtain ⟨_, _, ⟨_, _, hlen, _, _, -, -, hhead⟩, hok⟩ := hok
  cases hhead
  obtain ⟨hlength, hvalid⟩ := readMany_yields hread _ _ _ _ hok
  exact ⟨hlength.trans_lt (h _ _ _ hlen), hvalid⟩

theorem readFieldDef_yields : Yields (readFieldDef varint) FieldDef.Writable := by
  intro bytes fd rest hok
  simp only [readFieldDef, accepts_iff] at hok
  obtain ⟨_, _, -, _, _, hname, _, _, -, _, _, hprimitive, _, _,
    href, _, _, hself, _, _, -, _, _, -, _, _, -, _, _,
    -, _, _, hkey, _, _, hkeyRef, _, _, -, _, _, hdefault,
    hok⟩ := hok
  cases hok
  exact ⟨readString_yields h _ _ _ hname, readString_yields h _ _ _ hprimitive,
    readHex_yields h _ _ _ href, readString_yields h _ _ _ hself, readString_yields h _ _ _ hkey,
    readHex_yields h _ _ _ hkeyRef, readHex_yields h _ _ _ hdefault⟩

theorem readEnumValueDef_yields :
    Yields (readEnumValueDef varint) fun ev => ShortString ev.name := by
  intro bytes ev rest hok
  simp only [readEnumValueDef, accepts_iff] at hok
  obtain ⟨_, _, hname, _, _, -, hok⟩ := hok
  cases hok
  exact readString_yields h _ _ _ hname

theorem readUnionVariantDef_yields :
    Yields (readUnionVariantDef varint) UnionVariantDef.Writable := by
  intro bytes uv rest hok
  simp only [readUnionVariantDef, accepts_iff] at hok
  obtain ⟨_, _, hname, _, _, -, _, _, href, hok⟩ := hok
  cases hok
  exact ⟨readString_yields h _ _ _ hname, readHex_yields h _ _ _ href⟩

theorem readTypeDef_yields : Yields (readTypeDef varint) TypeDef.Writable := by
  intro bytes td rest hok
  simp only [readTypeDef, accepts_iff] at hok
  obtain ⟨_, _, -, _, _, hpackage, _, _, hname, _, _, hfields, _, _,
    hvalues, _, _, hvariants, hok⟩ := hok
  cases hok
  exact ⟨readString_yields h _ _ _ hpackage, readString_yields h _ _ _ hname,
    readList_yields h (readFieldDef_yields h) _ _ _ hfields,
    readList_yields h (readEnumValueDef_yields h) _ _ _ hvalues,
    readList_yields h (readUnionVariantDef_yields h) _ _ _ hvariants⟩

theorem readCapabilityRequirement_yields :
    Yields (readCapabilityRequirement varint) CapabilityRequirement.Writable := by
  intro bytes cap rest hok
  simp only [readCapabilityRequirement, accepts_iff] at hok
  obtain ⟨_, _, -, _, _, hroles, hok⟩ := hok
  cases hok
  exact readList_yields h (readString_yields h) _ _ _ hroles

omit h in
theorem readOptional_yields (hread : Yields read valid) :
    Yields (readOptional read) fun o => ∀ a, o = some a → valid a := by
  intro bytes o rest hok
  simp only [readOptional, accepts_iff] at hok
  obtain ⟨present, _, -, hok⟩ := hok
  cases present with
  | false =>
    cases hok
    exact fun a ha => (by cases ha)
  | true =>
    simp only [if_true, accepts_iff] at hok
    obtain ⟨a, _, ha, hok⟩ := hok
    cases hok
    exact fun a' ha' => Option.some.inj ha' ▸ hread _ _ _ ha

theorem readMethodDef_yields : Yields (readMethodDef varint) MethodDef.Writable := by
  intro bytes md rest hok
  simp only [readMethodDef, accepts_iff] at hok
  obtain ⟨_, _, hname, _, _, -, _, _, hreq, _, _, hresponse,
    _, _, -, _, _, -, _, _, hrequires, hok⟩ := hok
  cases hok
  exact ⟨readString_yields h _ _ _ hname, readHex_yields h _ _ _ hreq,
    readHex_yields h _ _ _ hresponse,
    readOptional_yields (readCapabilityRequirement_yields h) _ _ _ hrequires⟩

theorem readServiceContract_yields :
    Yields (readServiceContract varint) ServiceContract.Writable := by
  intro bytes sc rest hok
  simp only [readServiceContract, accepts_iff] at hok
  obtain ⟨_, _, hname, _, _, -, _, _, hmethods, _, _, hmodes, _, _, -,
    _, _, hrequires, _, _, hlanguage, hok⟩ := hok
  cases hok
  exact ⟨readString_yields h _ _ _ hname, readList_yields h (readMethodDef_yields h) _ _ _ hmethods,
    readList_yields h (readString_yields h) _ _ _ hmodes,
    readOptional_yields (readCapabilityRequirement_yields h) _ _ _ hrequires,
    readString_yields h _ _ _ hlanguage⟩

end Yields

/-! ### Roles in a short buffer -/

theorem length_le_writeList (write : α → Bytes) {xs : List α} {x : α} (h : x ∈ xs) :
    (write x).length ≤ (writeList write xs).length := by
  have hmem : (write x).length ∈ (xs.map write).map length :=
    mem_map_of_mem (mem_map_of_mem h)
  rw [writeList, length_append, length_flatten]
  exact Nat.le_trans (single_le_sum (by simp) _ hmem) (Nat.le_add_left _ _)

theorem CapabilityRequirement.short_of_length {cap : CapabilityRequirement}
    (h : cap.bytes.length < 2 ^ 62) : ∀ role ∈ cap.roles, ShortString role := by
  intro role hrole
  have hlist := length_le_writeList writeString hrole
  rw [bytes, length_append] at h
  rw [writeString, length_append] at hlist
  show (utf8 role).length < 2 ^ 62
  omega

section

variable {nfc : Nfc}

theorem CapabilityRequirement.Writable.normal {cap : CapabilityRequirement} (h : cap.Writable)
    (hlen : (cap.normal nfc).bytes.length < 2 ^ 62) : (cap.normal nfc).Writable := by
  refine ⟨?_, short_of_length hlen⟩
  show (sortedRoles nfc cap.roles).length < 2 ^ 64
  rw [sortedRoles, (sortOn_perm _ _).length_eq, length_map]
  exact h.1

theorem requires_writable_of_length {o : Option CapabilityRequirement}
    (h : ∀ cap, o = some cap → cap.Writable)
    (hlen : (writeOptional CapabilityRequirement.bytes
      (o.map (CapabilityRequirement.normal nfc))).length < 2 ^ 62) :
    ∀ cap, o = some cap → (cap.normal nfc).Writable := by
  rintro cap rfl
  rw [Option.map_some, writeOptional, length_cons] at hlen
  exact (h cap rfl).normal (by omega)

theorem MethodDef.Writable.proper {md : MethodDef} (h : md.Writable)
    (hlen : (md.normal nfc).bytes.length < 2 ^ 62) : md.Proper nfc := by
  refine ⟨h.name, h.requestType, h.responseType, requires_writable_of_length h.requires ?_⟩
  simp only [MethodDef.bytes, MethodDef.normal, length_append] at hlen
  omega

theorem ServiceContract.Writable.normal {sc : ServiceContract} (h : sc.Writable)
    (hlen : (sc.normal nfc).bytes.length < 2 ^ 62) : (sc.normal nfc).Writable := by
  have hparts := hlen
  simp only [ServiceContract.bytes, ServiceContract.normal, length_append] at hparts
  refine ⟨h.name, ⟨?_, ?_⟩, h.serializationModes, requires_writable
    (requires_writable_of_length h.requires (by omega)), h.producerLanguage⟩
  · show ((sortOn _ sc.methods).map _).length < 2 ^ 64
    rw [length_map, (sortOn_perm _ sc.methods).length_eq]
    exact h.methods.1
  · intro md hmd
    have hshort := length_le_writeList MethodDef.bytes hmd
    obtain ⟨md', hmd', rfl⟩ := mem_map.mp hmd
    have hproper : md'.Proper nfc := by
      refine (h.methods.2 md' ((sortOn_perm _ _).mem_iff.mp hmd')).proper
        (Nat.lt_of_le_of_lt hshort ?_)
      show (writeList MethodDef.bytes (ServiceContract.normal nfc sc).methods).length < 2 ^ 62
      simp only [ServiceContract.normal]
      omega
    exact hproper.writable

end

/-! ### Canonical or not -/

/-- What a lenient reader decodes is written back as it was exactly when the strict reader decodes
it as well, to something in normal form. -/
theorem written_back_iff {strict lenient : Reader CanonicalError α} {write : α → Bytes}
    {normal : α → α} (hexact : Exact strict write valid) (hextends : Extends strict lenient)
    (hnormal : ∀ a, normal (normal a) = normal a) {a : α}
    (hdecode : decodeWhole lenient bytes = .ok a)
    (hvalid : write (normal a) = bytes → valid (normal a)) :
    write (normal a) = bytes ↔ ∃ a', decodeWhole strict bytes = .ok a' ∧ normal a' = a' := by
  rw [decodeWhole_eq_ok] at hdecode
  constructor
  · intro h
    refine ⟨normal a, ?_, hnormal a⟩
    rw [decodeWhole_eq_ok, hexact]
    exact ⟨hvalid h, by rw [h, append_nil]⟩
  · rintro ⟨a', hstrict, hsame⟩
    rw [decodeWhole_eq_ok] at hstrict
    have hboth : (a', ([] : Bytes)) = (a, []) :=
      Except.ok.inj ((hextends _ _ hstrict).symm.trans hdecode)
    obtain ⟨rfl, -⟩ := Prod.mk.inj hboth
    obtain ⟨-, hbytes⟩ := (hexact _ _ _).mp hstrict
    rw [hsame, hbytes, append_nil]

/-- **What decodes is canonical exactly when it is spelled as the writer spells it**: re-encoding
what a buffer decodes to gives the buffer back if and only if every varint of it is minimal and its
fields, values, variants, methods and roles are numbered, normalized and ordered as the writer
does. -/
theorem decoded_canonical_iff (nfc : Nfc) :
    (∀ (bytes : Bytes) (td : TypeDef), decodeTypeDefBytes bytes = .ok td →
      (canonicalXlangBytesTypeDef nfc td = bytes ↔
        ∃ td', decodeWhole (readTypeDef minimalVarint) bytes = .ok td' ∧ td'.InOrder nfc)) ∧
    (∀ (bytes : Bytes) (md : MethodDef), bytes.length < 2 ^ 62 →
      decodeMethodDefBytes bytes = .ok md →
      (canonicalXlangBytesMethodDef nfc md = bytes ↔
        ∃ md', decodeWhole (readMethodDef minimalVarint) bytes = .ok md' ∧ md'.InOrder nfc)) ∧
    (∀ (bytes : Bytes) (sc : ServiceContract), bytes.length < 2 ^ 62 →
      decodeServiceContractBytes bytes = .ok sc →
      (canonicalXlangBytesServiceContract nfc sc = bytes ↔
        ∃ sc', decodeWhole (readServiceContract minimalVarint) bytes = .ok sc' ∧
          sc'.InOrder nfc)) := by
  simp only [canonicalTypeDef_eq, canonicalMethodDef_eq, canonicalServiceContract_eq,
    ← TypeDef.normal_eq_self_iff, ← MethodDef.normal_eq_self_iff,
    ← ServiceContract.normal_eq_self_iff]
  refine ⟨?_, ?_, ?_⟩
  · intro bytes td hdecode
    refine written_back_iff readTypeDef_exact (readTypeDef_extends readVarint_extends)
      (TypeDef.normal_normal nfc) hdecode fun _ => ?_
    exact (readTypeDef_yields readVarint_yields _ _ _ (decodeWhole_eq_ok.mp hdecode)).normal
  · intro bytes md hlen hdecode
    refine written_back_iff readMethodDef_exact (readMethodDef_extends readVarint_extends)
      (MethodDef.normal_normal nfc) hdecode fun hbytes => ?_
    have hwritable := readMethodDef_yields readVarint_yields _ _ _ (decodeWhole_eq_ok.mp hdecode)
    exact (hwritable.proper (by rw [hbytes]; exact hlen)).writable
  · intro bytes sc hlen hdecode
    refine written_back_iff readServiceContract_exact
      (readServiceContract_extends readVarint_extends) (ServiceContract.normal_normal nfc) hdecode
      fun hbytes => ?_
    have hwritable :=
      readServiceContract_yields readVarint_yields _ _ _ (decodeWhole_eq_ok.mp hdecode)
    exact hwritable.normal (by rw [hbytes]; exact hlen)

namespace Sample

/-- An empty message `m`. -/
def message : TypeDef := ⟨.message, "", "m", [], [], []⟩

/-- The canonical bytes of the message behind its kind. -/
def messageTail : Bytes := [2, 6, 109, 0, 12, 0, 12, 0, 12]

end Sample

open Sample

/-- **Bytes that decode and are not canonical**: a padded kind decodes to the same message as the
canonical bytes, so do bits beyond the 64th, and an enum with its values out of order decodes to
what is written in another order. -/
theorem decoded_not_canonical :
    decodeTypeDefBytes (0x00 :: messageTail) = .ok message ∧
    decodeTypeDefBytes (0x80 :: 0x00 :: messageTail) = .ok message ∧
    decodeTypeDefBytes (replicate 9 0x80 ++ 0x02 :: messageTail) = .ok message ∧
    canonicalXlangBytesTypeDef nfc message = 0x00 :: messageTail ∧
    decodeTypeDefBytes descending.bytes = .ok descending ∧
    canonicalXlangBytesTypeDef nfc descending ≠ descending.bytes := by
  decide +kernel

end AsterRpc.Schema

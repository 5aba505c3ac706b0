import AsterRpc.Storage.Store
import AsterRpc.Storage.Valid

/-!
# A load recovers what is stored

Every table is read through one decoder that also says which key a row belongs
to, so a load is determined by the tables: it succeeds exactly when they decode
to a state that the validator accepts, and that state is the result.
-/

namespace AsterRpc.Coordination

open AsterRpc.Foundation Function ResourceKey

section

variable {codecs : RowCodecs} {parts : Bytes × Bytes} {key : ResourceKey} {bytes : Bytes}

/-! ### Which key a stored row belongs to -/

theorem storedKey_eq_ok {what : String} : storedKey what parts = .ok key ↔ key.parts = parts := by
  unfold storedKey
  constructor
  · intro h
    cases hnew : new parts.1 parts.2 with
    | error =>
      rw [hnew] at h
      cases h
    | ok =>
      rw [hnew] at h
      cases h
      obtain ⟨hns, hkey⟩ := parts_of_new hnew
      exact Prod.ext hns hkey
  · rintro rfl
    have hnew : new key.parts.1 key.parts.2 = .ok key := new_parts key
    rw [hnew]

theorem decodeResource_key {row : ResourceRow}
    (h : decodeResource codecs parts bytes = .ok (key, row)) : key.parts = parts := by
  simp only [decodeResource, bind_accepts] at h
  obtain ⟨k, hk, _, -, r, -, hok⟩ := h
  cases hok
  exact storedKey_eq_ok.mp hk

theorem decodeGrant_key {raw : (Bytes × Bytes) × NodeId} {stored rights : Rights} {key : GrantKey}
    (h : decodeGrant raw stored = .ok (key, rights)) : grantParts key = raw := by
  simp only [decodeGrant, accepts_iff] at h
  obtain ⟨k, hk, -, hok⟩ := h
  cases hok
  exact Prod.ext (storedKey_eq_ok.mp hk) rfl

theorem decodeSession_key {groupId : Bytes} {key key' : SessionKey} {row : Session}
    (h : decodeSession codecs groupId key' bytes = .ok (key, row)) : id key = key' := by
  simp only [decodeSession, bind_accepts] at h
  obtain ⟨_, -, r, -, hok⟩ := h
  cases hok
  rfl

theorem decodeIntent_key {key key' : OperationId} {row : Intent}
    (h : decodeIntent codecs key' bytes = .ok (key, row)) : id key = key' := by
  simp only [decodeIntent, bind_accepts] at h
  obtain ⟨_, -, r, -, hok⟩ := h
  cases hok
  rfl

theorem decodeRoute_key {key key' : NodeId} {row : Route}
    (h : decodeRoute codecs key' bytes = .ok (key, row)) : id key = key' := by
  simp only [decodeRoute, bind_accepts] at h
  obtain ⟨_, -, r, -, hok⟩ := h
  cases hok
  rfl

theorem decodeAudit_key {key key' : AuditKey} {row : AuditRow}
    (h : decodeAudit codecs key' bytes = .ok (key, row)) : id key = key' := by
  simp only [decodeAudit, bind_accepts] at h
  obtain ⟨_, -, r, -, hok⟩ := h
  cases hok
  rfl

theorem grantParts_injective : Function.Injective grantParts := by
  intro a b h
  obtain ⟨hparts, hnode⟩ := Prod.mk.inj h
  exact Prod.ext (parts_injective hparts) hnode

/-! ### The load -/

theorem metaFromWire_withoutRows {row : CoordinationMetaV1} {s : DurableState}
    (h : metaFromWire row = .ok s) : s.withoutRows = s := by
  simp only [metaFromWire, accepts_iff] at h
  obtain ⟨-, _, -, _, -, _, -, _, -, _, -, _, -,
    hs⟩ := h
  cases hs
  rfl

variable {ext : Externals} {db : Database} {s : DurableState}

/-- A stored state is one that its row of metadata can describe. -/
theorem Stored.coherent (h : Stored codecs db s) : MetaCoherent s := by
  obtain ⟨_, -, hrow⟩ := h.coordinationMeta
  obtain ⟨hdomain, hrecovery, hconfigured, hprojection, hlogId⟩ := metaFromWire_coherent hrow
  exact ⟨hdomain, hrecovery, hconfigured, hprojection, hlogId⟩

/-- **A load succeeds exactly with a state that the tables hold**, whose tip is the one its rows
give, and that the validator accepts. -/
theorem load_eq_ok :
    load codecs ext db = .ok s ↔ Stored codecs db s ∧
      s.model.auditTip = rebuildAuditTip s.model.audit ∧ validate ext s = .ok () := by
  -- every table is read by its own decoder, and its rows belong to different keys
  simp only [load, loadRows, accepts_iff, corrupting_eq_ok,
    readRows_eq_ok parts_injective fun _ _ _ _ => decodeResource_key,
    readRows_eq_ok grantParts_injective fun _ _ _ _ => decodeGrant_key,
    readRows_eq_ok injective_id fun _ _ _ _ => decodeSession_key,
    readRows_eq_ok injective_id fun _ _ _ _ => decodeIntent_key,
    readRows_eq_ok injective_id fun _ _ _ _ => decodeRoute_key,
    readRows_eq_ok injective_id fun _ _ _ _ => decodeAudit_key]
  constructor
  · rintro ⟨row, hrow, _, hbare, _, ⟨resources, h1, acl, h2, sessions, h3, intents, h4, routes,
      h5, audit, h6, rfl⟩, hvalid, rfl⟩
    refine ⟨⟨h1, h2, rfl, h3, h4, h5, h6, row, hrow, ?_⟩, rfl, hvalid⟩
    rw [hbare, ← metaFromWire_withoutRows hbare]
    rfl
  · rintro ⟨hstored, htip, hvalid⟩
    obtain ⟨row, hrow, hbare⟩ := hstored.coordinationMeta
    refine ⟨row, hrow, _, hbare, s, ⟨_, hstored.resources, _, hstored.acl, _, hstored.sessions, _,
      hstored.intents, _, hstored.routes, _, hstored.audit, ?_⟩, hvalid, rfl⟩
    obtain ⟨model, _, _, _⟩ := s
    obtain ⟨_, _, admins, _, _, _, _, _, _, _,
      _, _, _, _, _, _, _⟩ := model
    simp only at htip
    subst htip
    have hadmins := hstored.admins
    simp only at hadmins
    subst hadmins
    rfl

end

/-! ### The small group on disk -/

namespace Sample

/-- A codec of a few values: the length of the encoding says which. -/
def fewValues {α : Type} [DecidableEq α] (values : List α) : ForyCodec α :=
  ⟨fun x => if x ∈ values then some (List.replicate (values.idxOf x + 1) 0) else none,
    fun bytes => values[bytes.length - 1]?⟩

theorem fewValues_roundTrips {α : Type} [DecidableEq α] (values : List α) :
    (fewValues values).RoundTrips := by
  intro x bytes h
  simp only [fewValues] at h ⊢
  split_ifs at h with hx
  cases h
  rw [List.length_replicate, Nat.add_sub_cancel, List.getElem?_idxOf hx]

/-- The small group as it is stored, whatever its metadata. -/
def database : Database where
  resources := (∅ : Table (Bytes × Bytes) Bytes).insert resource.parts [0]
  acl := (∅ : Table ((Bytes × Bytes) × NodeId) Rights).insert (resource.parts, voter) allRights
  admins := {voter}
  sessions := ∅
  intents := ∅
  routes := ∅
  audit := ∅
  coordinationMeta := some [0]

end Sample

end AsterRpc.Coordination

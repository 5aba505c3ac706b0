import AsterRpc.Storage.Machine

/-!
# The metadata row

`meta_to_wire` and `meta_from_wire` of `storage/rows.rs`, with the mirror of
OpenRaft's membership of `convert.rs`.  The stored row must be exactly what this
build would write for the state it describes; a row that converting would repair
is refused.
-/

namespace AsterRpc.Coordination

open AsterRpc.Foundation

variable {α : Type} {what : String} {a : α} {bytes : Bytes} {s : DurableState} {id : LogIdV1}

/-! ### Stored membership -/

structure NodeIdSetV1 where
  ids : List NodeIdV1
deriving DecidableEq

structure NodeEntryV1 where
  nodeId : Bytes
  formatVersion : ℕ
deriving DecidableEq

structure MembershipV1 where
  configs : List NodeIdSetV1
  nodes : List NodeEntryV1
deriving DecidableEq

structure StoredMembershipV1 where
  logId : Option LogIdV1
  membership : MembershipV1
deriving DecidableEq

inductive MirrorError where
  | nodeIdLength (field : String) (len : ℕ)
  | emptyMembership
  | unknownNodeFormat (version : ℕ)

def nodeFormatVersion : ℕ := 1

namespace Membership

/-- `Membership::new`. -/
def new (configs : List (Finset NodeId)) (nodes : Finset NodeId) : Membership where
  configs := configs
  nodes := nodes ∪ configs.foldr (· ∪ ·) ∅
  covers := by
    intro config hconf node hnode
    refine Finset.mem_union_right _ ?_
    induction configs with
    | nil => cases hconf
    | cons first rest ih =>
      rcases List.mem_cons.mp hconf with rfl | hrest
      · exact Finset.mem_union_left _ hnode
      · exact Finset.mem_union_right _ (ih hrest)

/-- A membership names all its voters already. -/
theorem new_self (m : Membership) : new m.configs m.nodes = m := by
  have hnodes : m.nodes ∪ m.voterIds = m.nodes := by
    refine Finset.union_eq_left.mpr fun node hnode => ?_
    obtain ⟨config, hconf, hmem⟩ := mem_voterIds.mp hnode
    exact m.covers config hconf hmem
  obtain ⟨_, _, _⟩ := m
  simp only [new, Membership.mk.injEq, true_and]
  exact hnodes

def toWire (m : Membership) : MembershipV1 where
  configs := m.configs.map fun config => ⟨(ascending config).map fun node => ⟨node.bytes⟩⟩
  nodes := (ascending m.nodes).map fun node => ⟨node.bytes, nodeFormatVersion⟩

/-- `node_id` of `convert.rs`. -/
def mirrorNodeId (field : String) (bytes : Bytes) : Except MirrorError NodeId :=
  requireSome (FixedBytes.fromSlice 32 bytes) (.nodeIdLength field bytes.length)

def mirrorConfig (set : NodeIdSetV1) : Except MirrorError (Finset NodeId) := do
  let ids ← narrowAll (fun id : NodeIdV1 => mirrorNodeId "membership.config" id.nodeId) set.ids
  .ok ids.toFinset

def mirrorNode (entry : NodeEntryV1) : Except MirrorError NodeId := do
  refuseIf (entry.formatVersion != nodeFormatVersion) (.unknownNodeFormat entry.formatVersion)
  mirrorNodeId "membership.node" entry.nodeId

def fromWire (wire : MembershipV1) : Except MirrorError Membership := do
  refuseIf wire.configs.isEmpty .emptyMembership
  let configs ← narrowAll mirrorConfig wire.configs
  let nodes ← narrowAll mirrorNode wire.nodes
  .ok (new configs nodes.toFinset)

theorem mirrorNodeId_bytes (field : String) (node : NodeId) :
    mirrorNodeId field node.bytes = .ok node := by
  simp [mirrorNodeId]

/-- A membership mirrors back exactly when it has a configuration, and then to itself. -/
theorem fromWire_toWire {m x : Membership} :
    fromWire m.toWire = .ok x ↔ m.configs ≠ [] ∧ m = x := by
  have hconf : ∀ config : Finset NodeId,
      mirrorConfig ⟨(ascending config).map fun node => ⟨node.bytes⟩⟩ = .ok config := by
    intro config
    have hids : narrowAll (fun id : NodeIdV1 => mirrorNodeId "membership.config" id.nodeId)
        ((ascending config).map fun node => ⟨node.bytes⟩) = .ok (ascending config) :=
      narrowAll_map (fun node : NodeId => (⟨node.bytes⟩ : NodeIdV1))
        (fun node => mirrorNodeId_bytes "membership.config" node) (ascending config)
    simp only [mirrorConfig, hids, accepts_iff, exists_eq_left', toFinset_ascending]
  have hnode : ∀ node : NodeId, mirrorNode ⟨node.bytes, nodeFormatVersion⟩ = .ok node := by
    intro node
    simp [mirrorNode, mirrorNodeId_bytes]
  simp only [fromWire, toWire, accepts_iff, List.isEmpty_map, narrowAll_map _ hconf,
    narrowAll_map _ hnode, exists_eq_left', toFinset_ascending, new_self, List.isEmpty_eq_false_iff,
    ne_eq]

end Membership

open Coordination.Membership

/-- `LogId::try_from` of `convert.rs`. -/
def mirrorLogId (id : LogIdV1) : Except MirrorError LogId := do
  let leader ← mirrorNodeId "log_id.leader_node_id" id.leaderNodeId
  .ok ⟨id.term, leader, id.index⟩

theorem mirrorLogId_toWire (id : LogId) : mirrorLogId id.toWire = .ok id := by
  simp [mirrorLogId, LogId.toWire, mirrorNodeId_bytes]

def StoredMembership.toWire (stored : StoredMembership) : StoredMembershipV1 :=
  ⟨stored.logId.map LogId.toWire, stored.membership.toWire⟩

/-- Nothing was committed yet. -/
def MembershipV1.isEmpty (wire : MembershipV1) : Bool := wire.configs.isEmpty && wire.nodes.isEmpty

/-- A failed mirror is corruption of the row it was read from. -/
def mirrored {α : Type} (what : String) : Except MirrorError α → Except StorageError α
  | .ok a => .ok a
  | .error _ => .error (.corrupt ⟨what, ""⟩)

@[simp] theorem mirrored_eq_ok {x : Except MirrorError α} :
    mirrored what x = .ok a ↔ x = .ok a := by
  cases x <;> simp [mirrored]

/-- `stored_membership_from_wire`. -/
def storedMembershipFromWire (what : String) (wire : StoredMembershipV1) :
    Except StorageError StoredMembership :=
  if wire.logId.isNone && wire.membership.isEmpty then .ok StoredMembership.empty
  else do
    let logId ← mirrored what (narrowOption mirrorLogId wire.logId)
    let membership ← mirrored what (fromWire wire.membership)
    .ok ⟨logId, membership⟩

/-- `membership_is_canonical`. -/
def membershipIsCanonical (wire : MembershipV1) : Except StorageError Unit := do
  let converted ← mirrored "StoredMembershipV1.membership" (fromWire wire)
  refuseIf (converted.toWire != wire)
    (.corrupt ⟨"StoredMembershipV1.membership", "not the canonical encoding of itself"⟩)

/-! ### The row -/

structure CoordinationMetaV1 where
  schemaVersion : ℕ
  groupId : Bytes
  genesisHash : Bytes
  authorityPublicKey : Bytes
  authorityDomain : Bytes
  deploymentProfileCode : Int
  lastApplied : Option LogIdV1
  membership : StoredMembershipV1
  adminRevision : ℕ
  recoveryExportHash : Option Bytes
  recoveredFrom : Option RecoveredFromV1
  aggregateGrowthBytes : ℕ
  aggregateReserveBytes : ℕ
  auditFloor : Option LogIdV1
deriving DecidableEq

def logicalSchemaVersion : ℕ := 1

/-- `meta_to_wire`. -/
def metaToWire (s : DurableState) : CoordinationMetaV1 where
  schemaVersion := logicalSchemaVersion
  groupId := s.model.authority.groupId.bytes
  genesisHash := s.model.authority.genesisHash.bytes
  authorityPublicKey := s.model.authority.publicKey.bytes
  authorityDomain := s.model.authority.domain
  deploymentProfileCode := s.model.deploymentProfileCode
  lastApplied := s.model.lastApplied.map LogId.toWire
  membership := s.membership.toWire
  adminRevision := s.model.adminRevision
  recoveryExportHash := s.recoveryExportHash
  recoveredFrom := s.recoveredFrom
  aggregateGrowthBytes := s.model.growthBytes
  aggregateReserveBytes := s.model.reserveBytes
  auditFloor := s.model.auditFloor.map LogId.toWire

/-- `width` of `validate_meta_wire`. -/
def checkWidth (what : String) (expected : ℕ) (bytes : Bytes) : Except StorageError Unit :=
  refuseIf (bytes.length != expected) (.corrupt ⟨what, "not the expected number of bytes"⟩)

/-- A refusal of the store's own checks. -/
def corrupting {α : Type} : Except Corrupt α → Except StorageError α
  | .ok a => .ok a
  | .error corruption => .error (.corrupt corruption)

@[simp] theorem corrupting_eq_ok {x : Except Corrupt α} : corrupting x = .ok a ↔ x = .ok a := by
  cases x <;> simp [corrupting]

/-- The provenance of a recovered group names the export hash the group is bound to. -/
def checkProvenance (exportHash : Option Bytes) (source : RecoveredFromV1) :
    Except StorageError Unit := do
  checkWidth "RecoveredFromV1.source_group_id" 32 source.sourceGroupId
  checkWidth "RecoveredFromV1.source_genesis_hash" 32 source.sourceGenesisHash
  checkWidth "RecoveredFromV1.source_authority_public_key" 32 source.sourceAuthorityPublicKey
  checkWidth "RecoveredFromV1.export_hash" 32 source.exportHash
  corrupting (checkAuthorityDomain "RecoveredFromV1.source_authority_domain"
    source.sourceAuthorityDomain)
  checkOption (fun id : LogIdV1 => checkWidth "RecoveredFromV1.source_last_applied" 32
    id.leaderNodeId) source.sourceLastApplied
  match exportHash with
  | none => .error (.corrupt ⟨"CoordinationMetaV1.recovery_export_hash",
      "recovery provenance is recorded but the export hash it binds is absent"⟩)
  | some hash =>
    refuseIf (hash != source.exportHash) (.corrupt ⟨"CoordinationMetaV1.recovery_export_hash",
      "the recorded export hash and the provenance disagree"⟩)

/-- What the row says about a recovery. -/
def checkRecovery (exportHash : Option Bytes) (recoveredFrom : Option RecoveredFromV1) :
    Except StorageError Unit := do
  checkOption (checkWidth "CoordinationMetaV1.recovery_export_hash" 32) exportHash
  checkOption (checkProvenance exportHash) recoveredFrom

/-- `validate_meta_wire`. -/
def validateMetaWire (row : CoordinationMetaV1) : Except StorageError Unit := do
  refuseIf (row.schemaVersion != logicalSchemaVersion)
    (.schemaVersion row.schemaVersion logicalSchemaVersion)
  checkWidth "CoordinationMetaV1.group_id" 32 row.groupId
  checkWidth "CoordinationMetaV1.genesis_hash" 32 row.genesisHash
  checkWidth "CoordinationMetaV1.authority_public_key" 32 row.authorityPublicKey
  corrupting (checkAuthorityDomain "CoordinationMetaV1.authority_domain" row.authorityDomain)
  checkRecovery row.recoveryExportHash row.recoveredFrom
  checkOption (fun id : LogIdV1 => checkWidth "CoordinationMetaV1.last_applied" 32 id.leaderNodeId)
    row.lastApplied
  checkOption (fun id : LogIdV1 => checkWidth "CoordinationMetaV1.audit_floor" 32 id.leaderNodeId)
    row.auditFloor
  checkOption (fun id : LogIdV1 => checkWidth "StoredMembershipV1.log_id" 32 id.leaderNodeId)
    row.membership.logId
  if row.membership.membership.isEmpty then .ok ()
  else membershipIsCanonical row.membership.membership

/-- `array32` of `meta_from_wire`. -/
def array32 (what : String) (bytes : Bytes) : Except StorageError (FixedBytes 32) :=
  requireSome (FixedBytes.fromSlice 32 bytes)
    (.corrupt ⟨what, "not the expected number of bytes"⟩)

/-- `log_id` of `meta_from_wire`. -/
def storedLogId (what : String) (id : LogIdV1) : Except StorageError LogId :=
  match LogId.fromWire id with
  | .ok id => .ok id
  | .error _ => .error (.corrupt ⟨what, ""⟩)

/-- `meta_from_wire`: the state a row describes, with no rows yet. -/
def metaFromWire (row : CoordinationMetaV1) : Except StorageError DurableState := do
  validateMetaWire row
  let membership ← storedMembershipFromWire "CoordinationMetaV1.membership" row.membership
  let publicKey ← array32 "CoordinationMetaV1.authority_public_key" row.authorityPublicKey
  let groupId ← array32 "CoordinationMetaV1.group_id" row.groupId
  let genesisHash ← array32 "CoordinationMetaV1.genesis_hash" row.genesisHash
  let lastApplied ← narrowOption (storedLogId "CoordinationMetaV1.last_applied") row.lastApplied
  let auditFloor ← narrowOption (storedLogId "CoordinationMetaV1.audit_floor") row.auditFloor
  .ok
    { model :=
        { resources := ∅
          acl := ∅
          admins := ∅
          sessions := ∅
          intents := ∅
          routes := ∅
          auditTip := none
          audit := ∅
          growthBytes := row.aggregateGrowthBytes
          reserveBytes := row.aggregateReserveBytes
          adminRevision := row.adminRevision
          authority := ⟨publicKey, row.authorityDomain, groupId, genesisHash⟩
          deploymentProfileCode := row.deploymentProfileCode
          membership := projectMembership membership.membership
          membershipLogId := membership.logId
          auditFloor := auditFloor
          lastApplied := lastApplied }
      membership := membership
      recoveryExportHash := row.recoveryExportHash
      recoveredFrom := row.recoveredFrom }

/-! ### The round trip -/

/-- A state without its rows. -/
def DurableState.withoutRows (s : DurableState) : DurableState :=
  { s with
    model := { s.model with
      resources := ∅
      acl := ∅
      admins := ∅
      sessions := ∅
      intents := ∅
      routes := ∅
      auditTip := none
      audit := ∅ } }

/-- What a row of metadata demands of the state it describes. -/
structure MetaCoherent (s : DurableState) : Prop where
  domain : checkAuthorityDomain "CoordinationMetaV1.authority_domain" s.model.authority.domain =
    .ok ()
  recovery : checkRecovery s.recoveryExportHash s.recoveredFrom = .ok ()
  configured : s.membership = StoredMembership.empty ∨ s.membership.membership.configs ≠ []
  projection : s.model.membership = projectMembership s.membership.membership
  logId : s.model.membershipLogId = s.membership.logId

theorem checkWidth_fixed {n : ℕ} (x : FixedBytes n) :
    checkWidth what n x.bytes = .ok () := by
  simp [checkWidth, x.length_eq]

theorem checkWidth_logId (o : Option LogId) :
    checkOption (fun id : LogIdV1 => checkWidth what 32 id.leaderNodeId) (o.map LogId.toWire) =
      .ok () := by
  cases o with
  | none => rfl
  | some id => exact checkWidth_fixed id.leaderNodeId

/-- What is written of a membership with a configuration is canonical. -/
theorem membershipIsCanonical_toWire {m : Membership} (h : m.configs ≠ []) :
    membershipIsCanonical m.toWire = .ok () := by
  simp only [membershipIsCanonical, accepts_iff, mirrored_eq_ok, fromWire_toWire]
  exact ⟨m, ⟨h, rfl⟩, by simp⟩

theorem validateMetaWire_toWire (h : MetaCoherent s) :
    validateMetaWire (metaToWire s) = .ok () := by
  have hmemb : (if (metaToWire s).membership.membership.isEmpty then .ok ()
      else membershipIsCanonical (metaToWire s).membership.membership) =
        (.ok () : Except StorageError Unit) := by
    rcases h.configured with hempty | hconf
    · simp only [metaToWire, hempty]
      rfl
    · split_ifs
      · rfl
      · exact membershipIsCanonical_toWire hconf
  simp only [validateMetaWire, accepts_iff, corrupting_eq_ok]
  exact ⟨by simp [metaToWire], checkWidth_fixed _, checkWidth_fixed _, checkWidth_fixed _,
    h.domain, h.recovery, checkWidth_logId _, checkWidth_logId _, checkWidth_logId _, hmemb⟩

variable {row : CoordinationMetaV1}

/-- A row that reads back describes a coherent state. -/
theorem metaFromWire_coherent (h : metaFromWire row = .ok s) : MetaCoherent s := by
  simp only [metaFromWire, accepts_iff] at h
  obtain ⟨hvalid, membership, hmemb, _, -, _, -, _, -, _, -,
    _, -, hs⟩ := h
  cases hs
  simp only [validateMetaWire, accepts_iff, corrupting_eq_ok] at hvalid
  obtain ⟨-, -, -, -, hdomain, hrecovery, -⟩ := hvalid
  refine ⟨hdomain, hrecovery, ?_, rfl, rfl⟩
  unfold storedMembershipFromWire at hmemb
  split_ifs at hmemb with hempty
  · cases hmemb
    exact .inl rfl
  · simp only [bind_accepts, mirrored_eq_ok] at hmemb
    obtain ⟨_, -, m, hm, heq⟩ := hmemb
    cases heq
    refine .inr ?_
    simp only [fromWire, accepts_iff] at hm
    obtain ⟨hconf, configs, hnarrow, _, -, heq⟩ := hm
    cases heq
    rintro hnil
    simp only [new] at hnil
    subst hnil
    cases hwire : row.membership.membership.configs with
    | nil =>
      rw [hwire] at hconf
      cases hconf
    | cons =>
      rw [hwire] at hnarrow
      simp only [narrowAll, bind_accepts] at hnarrow
      obtain ⟨x, -, _, -, hcons⟩ := hnarrow
      cases hcons

/-! ### The row is its own canonical form -/

/-- What narrows to a value widens back from it. -/
theorem narrowOption_widen {ε β : Type} {narrow : α → Except ε β} {widen : β → α}
    (h : ∀ {a b}, narrow a = .ok b → widen b = a) {o : Option α} {x : Option β}
    (hx : narrowOption narrow o = .ok x) : x.map widen = o := by
  cases o with
  | none =>
    cases hx
    rfl
  | some =>
    simp only [narrowOption, bind_accepts] at hx
    obtain ⟨b, hb, hok⟩ := hx
    cases hok
    rw [Option.map_some, h hb]

theorem mirrorLogId_widen {x : LogId} (h : mirrorLogId id = .ok x) : x.toWire = id := by
  simp only [mirrorLogId, mirrorNodeId, accepts_iff] at h
  obtain ⟨_, hleader, rfl⟩ := h
  rw [LogId.toWire, FixedBytes.bytes_of_fromSlice hleader]

theorem storedLogId_widen {x : LogId} (h : storedLogId what id = .ok x) : x.toWire = id := by
  unfold storedLogId LogId.fromWire at h
  cases hleader : Wire.nodeId id.leaderNodeId with
  | error =>
    rw [hleader] at h
    cases h
  | ok =>
    rw [hleader] at h
    cases h
    simp only [Wire.nodeId, requireSome_eq_ok] at hleader
    rw [LogId.toWire, FixedBytes.bytes_of_fromSlice hleader]

theorem array32_widen {x : FixedBytes 32} (h : array32 what bytes = .ok x) : x.bytes = bytes :=
  FixedBytes.bytes_of_fromSlice (requireSome_eq_ok.mp h)

/-- A stored membership that is its own canonical form. -/
theorem storedMembershipFromWire_widen {wire : StoredMembershipV1} {stored : StoredMembership}
    (h : storedMembershipFromWire what wire = .ok stored)
    (hcanon : (if wire.membership.isEmpty then .ok ()
      else membershipIsCanonical wire.membership) = (.ok () : Except StorageError Unit)) :
    stored.toWire = wire := by
  obtain ⟨_, membership⟩ := wire
  unfold storedMembershipFromWire at h
  split_ifs at h with hempty
  · cases h
    obtain ⟨hnone, hnothing⟩ := Bool.and_eq_true_iff.mp hempty
    obtain ⟨hconf, hnodes⟩ := Bool.and_eq_true_iff.mp hnothing
    obtain ⟨_, _⟩ := membership
    simp only [Option.isNone_iff_eq_none, List.isEmpty_iff] at hnone hconf hnodes
    subst hnone hconf hnodes
    rfl
  · simp only [bind_accepts, mirrored_eq_ok] at h
    obtain ⟨_, hid, m, hm, hok⟩ := h
    cases hok
    have hfilled : membership.isEmpty = false := by
      by_contra hempty
      simp only [Bool.not_eq_false, MembershipV1.isEmpty, Bool.and_eq_true] at hempty
      simp only [fromWire, accepts_iff] at hm
      rw [hempty.1] at hm
      cases hm.1
    rw [if_neg (by simp [hfilled])] at hcanon
    simp only [membershipIsCanonical, hm, accepts_iff, mirrored_eq_ok,
      exists_eq_left'] at hcanon
    rw [StoredMembership.toWire, narrowOption_widen mirrorLogId_widen hid, hcanon]

/-- **A row of metadata that reads back is what the state it describes is written as.** -/
theorem metaFromWire_row (h : metaFromWire row = .ok s) : metaToWire s = row := by
  simp only [metaFromWire, accepts_iff] at h
  obtain ⟨hvalid, _, hmemb, _, hkey, _, hgroup, _, hgenesis,
    _, hlast, _, hfloor, rfl⟩ := h
  simp only [validateMetaWire, accepts_iff] at hvalid
  obtain ⟨hschema, -, -, -, -, -, -, -, -, hcanon⟩ := hvalid
  have hwire := storedMembershipFromWire_widen hmemb hcanon
  obtain ⟨_, _, _, _, _, _, _, _,
    _, _, _, _, _, _⟩ := row
  simp only at hschema hkey hgroup hgenesis hlast hfloor hwire
  simp [metaToWire, hwire, array32_widen hkey, array32_widen hgroup, array32_widen hgenesis,
    narrowOption_widen storedLogId_widen hlast, narrowOption_widen storedLogId_widen hfloor,
    hschema]

end AsterRpc.Coordination

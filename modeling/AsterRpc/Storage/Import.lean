import AsterRpc.Storage.Caps
import AsterRpc.Storage.Export

/-!
# The recovery import

`transform` of `storage/import.rs`: a new group is founded from the export of a
dead one.  Its resources come back free and one epoch and one lease revision
further, so that no fence of the old group equals one of the new; grants and
administrators come back as they were, together with the administrators the new
genesis names; everything else starts empty.

The importer checks an export by rules of its own.  On the export of a store
that loads they all hold, except for those that the new group can break: a
counter with no successor, an administrator set that is too large or contains
the new root, and a growth that no longer fits.
-/

namespace AsterRpc.Coordination

open AsterRpc.Foundation List FixedBytes Table Option

/-! ### The importer -/

/-- `StorageIdentity` without the local node id, which no replicated state holds. -/
structure StorageIdentity where
  groupId : GroupId
  genesisHash : Hash
  authorityPublicKey : NodeId
  authorityDomain : Bytes
  deploymentProfileCode : Int

/-- A refusal of another layer, reported in the importer's words. -/
def refusedAs {ε α : Type} (detail : String) : Except ε α → Except String α
  | .ok a => .ok a
  | .error _ => .error detail

@[simp] theorem refusedAs_eq_ok {ε α : Type} {detail : String} {x : Except ε α} {a : α} :
    refusedAs detail x = .ok a ↔ x = .ok a := by
  cases x <;> simp [refusedAs]

def wide32 (what : String) (bytes : Bytes) : Except String NodeId :=
  requireSome (fromSlice 32 bytes) (what ++ " must be 32 bytes")

/-- `within` of `transform`: a log id of the export is a position in the source's own history. -/
def within (what : String) (id : Option LogIdV1) (bound : LogIdV1) (boundName : String) :
    Except String Unit :=
  checkOption (fun id : LogIdV1 => do
    let _ ← wide32 (what ++ "'s leader id") id.leaderNodeId
    refuseIf (id.index > bound.index) (what ++ " runs ahead of " ++ boundName)
    refuseIf (id.index == bound.index && id != bound)
      (what ++ " and " ++ boundName ++ " are at one index but are different log ids")) id

/-- The provenance of an export: where its source stood when it was taken. -/
def sourceHistory (header : RecoveryHeaderV1) : Except String LogIdV1 := do
  let last ← requireSome header.sourceLastApplied
    "the source group exported without a last-applied log id"
  let _ ← wide32 "the source last-applied leader id" last.leaderNodeId
  refuseIf (header.sourceAdminRevision == 0) "the export declares source_admin_revision = 0"
  within "the source audit floor" header.sourceAuditFloor last "the source last-applied"
  within "the source audit tip" header.sourceAuditTip last "the source last-applied"
  checkOption (fun tip => within "the source audit floor" header.sourceAuditFloor tip
    "the source audit tip") header.sourceAuditTip
  .ok last

/-- The source membership is a record of a group that ran. -/
def sourceMembership (header : RecoveryHeaderV1) (last : LogIdV1) : Except String Unit := do
  let membership := header.sourceMembership
  let logId ← requireSome membership.logId "the source membership carries no log id"
  let _ ← wide32 "the source membership leader id" logId.leaderNodeId
  refuseIf membership.membership.isEmpty "the source membership is empty"
  refusedAs "the source membership is not canonical" (membershipIsCanonical membership.membership)
  within "the source membership" membership.logId last "the source last-applied"

/-- `advanced`: the counter after this one. -/
def advanced (what : String) (source : ℕ) : Except String ℕ := do
  refuseIf (source + 1 > maxCounter) ("advancing the " ++ what ++ " overflows the counter bound")
  .ok (source + 1)

def importResource (row : RecoveryResourceRowV1) : Except String (ResourceKey × ResourceRow) := do
  let key ← refusedAs "an exported resource key is not a legal identity"
    (ResourceKey.new row.key.ns row.key.key)
  let epoch ← advanced "epoch" row.sourceEpoch
  let leaseRevision ← advanced "lease revision" row.leaseRevision
  refuseIf (row.valueRevision > maxCounter) "the exported value revision is over the counter bound"
  refuseIf (row.aclRevision > maxCounter) "the exported ACL revision is over the counter bound"
  refuseIf (!ttlIsLegal row.ttlMs false) "the exported TTL is not a duration the limits admit"
  .ok (key,
    { epoch := epoch
      held := false
      holder := none
      ttlMs := row.ttlMs
      leaseRevision := leaseRevision
      valueRevision := row.valueRevision
      value := row.value
      aclRevision := row.aclRevision })

def importGrant (row : GrantRowV1) : Except String (GrantKey × Rights) := do
  let key ← refusedAs "an exported grant key is not a legal identity"
    (ResourceKey.new row.key.ns row.key.key)
  let subject ← wide32 "a grant subject" row.subjectNodeId
  refuseIf (row.rights == 0) "the export carries a zero-rights grant"
  .ok ((key, subject), row.rights)

/-- One row of the body. -/
def importRow (s : State) : RecoveryBodyRowV1 → Except String State
  | .resource row => do
    let imported ← importResource row
    .ok { s with resources := s.resources.insert imported.1 imported.2 }
  | .grant row => do
    let imported ← importGrant row
    .ok { s with acl := s.acl.insert imported.1 imported.2 }
  | .admin row => do
    let admin ← wide32 "an admin subject" row.subjectNodeId
    .ok { s with admins := insert admin s.admins }
  | .unknown _ => .error "an unknown row variant reached the import"

/-- The length of a run of grants on one resource, after one more. -/
def runLength (run : Option (ResourceKey × ℕ)) (key : ResourceKey) : ℕ :=
  match run with
  | some (current, n) => if current = key then n + 1 else 1
  | none => 1

/-- The ordered pass over the grants: each on an exported resource, and not too many on one. -/
def checkGrantRuns (resources : Table ResourceKey ResourceRow) :
    Option (ResourceKey × ℕ) → List GrantKey → Except String Unit
  | _, [] => .ok ()
  | run, (key, _) :: rest => do
    refuseIf (!resources.contains key) "the export grants on a resource it does not export"
    refuseIf (runLength run key > maxGrantsPerResource)
      "the export carries grants on a resource over the per-resource cap"
    checkGrantRuns resources (some (key, runLength run key)) rest

/-- `State::default()`. -/
def State.fresh : State where
  resources := ∅
  acl := ∅
  admins := ∅
  sessions := ∅
  intents := ∅
  routes := ∅
  auditTip := none
  audit := ∅
  growthBytes := 0
  reserveBytes := 0
  adminRevision := 0
  authority := ⟨fill 32 0, [], fill 32 0, fill 32 0⟩
  deploymentProfileCode := 0
  membership := ⟨∅, ∅, false⟩
  membershipLogId := none
  auditFloor := none
  lastApplied := none

section

variable (ext : Externals)

/-- The new group's binding and the recomputed budgets. -/
def founding (s : State) (identity : StorageIdentity) (admins : Finset NodeId)
    (adminRevision : ℕ) : State :=
  let s := { s with
    admins := admins
    adminRevision := adminRevision
    authority := ⟨identity.authorityPublicKey, identity.authorityDomain, identity.groupId,
      identity.genesisHash⟩
    deploymentProfileCode := identity.deploymentProfileCode }
  { s with growthBytes := s.recomputeGrowth ext, reserveBytes := s.recomputeReserve }

/-- `transform`. -/
def transform (header : RecoveryHeaderV1) (bodyRows : List RecoveryBodyRowV1)
    (identity : StorageIdentity) (genesisAdmins : List NodeId) (exportHash : Hash) :
    Except String DurableState := do
  let last ← sourceHistory header
  sourceMembership header last
  refuseIf (header.sourceGroupId == identity.groupId.bytes)
    "the export's source group id is the new group's own"
  let s ← bodyRows.foldlM importRow State.fresh
  refuseIf (s.admins == ∅) "the export carries no administrators"
  let sourceRoot ← wide32 "the source authority public key" header.sourceAuthorityPublicKey
  refuseIf (decide (sourceRoot ∈ s.admins))
    "the export carries its own source ROOT key as a delegated administrator row"
  checkGrantRuns s.resources none (s.acl.toList.map Prod.fst)
  let admins := s.admins ∪ genesisAdmins.toFinset
  refuseIf (admins.card > maxAdminsPerGroup)
    "the union of exported and new-genesis administrators is over the cap"
  refuseIf (decide (identity.authorityPublicKey ∈ admins))
    "the administrator union contains the new group's ROOT key"
  let adminRevision ← advanced "admin revision" header.sourceAdminRevision
  let founded := founding ext s identity admins adminRevision
  refuseIf (founded.growthBytes > growthBudget)
    "the imported state charges growth bytes over the budget"
  .ok
    { model := founded
      membership := StoredMembership.empty
      recoveryExportHash := some exportHash.bytes
      recoveredFrom := some
        { sourceGroupId := header.sourceGroupId
          sourceGenesisHash := header.sourceGenesisHash
          sourceAuthorityPublicKey := header.sourceAuthorityPublicKey
          sourceAuthorityDomain := header.sourceAuthorityDomain
          exportHash := exportHash.bytes
          sourceLastApplied := header.sourceLastApplied } }

/-- `validate_before_commit`: what a load would demand, asked before anything is written. -/
def validateBeforeCommit (s : DurableState) : Except StorageError Unit := do
  validateMetaWire (metaToWire s)
  corrupting (validate ext s)

end

/-! ### The rows of an export -/

/-- A resource as it comes back: free, and past every fence of the old group. -/
def ResourceRow.recovered (row : ResourceRow) : ResourceRow :=
  { row with
    epoch := row.epoch + 1
    held := false
    holder := none
    leaseRevision := row.leaseRevision + 1 }

/-- The counters of a row that a recovery advances have room. -/
structure ResourceRow.Advances (row : ResourceRow) : Prop where
  epoch : row.epoch < maxCounter
  lease : row.leaseRevision < maxCounter

@[simp] theorem wide32_bytes (what : String) (node : NodeId) :
    wide32 what node.bytes = .ok node := by
  rw [wide32, fromSlice_bytes, requireSome_some]

theorem advanced_eq_ok {what : String} {source next : ℕ} :
    advanced what source = .ok next ↔ source < maxCounter ∧ source + 1 = next := by
  simp only [advanced, accepts_iff, Nat.add_one_le_iff]

theorem importRow_exportedResource {e : ResourceKey × ResourceRow}
    (hrow : checkResourceRow e.2 = .ok ()) {s s' : State} :
    importRow s (exportedResource e) = .ok s' ↔
      e.2.Advances ∧ { s with resources := s.resources.insert e.1 e.2.recovered } = s' := by
  simp only [checkResourceRow, accepts_iff, checkCounters_eq_ok, forall_mem_cons] at hrow
  obtain ⟨-, httl, -, -, hvalue, hacl, -⟩ := hrow
  have hnew : ResourceKey.new e.1.toWire.ns e.1.toWire.key = .ok e.1 := ResourceKey.new_parts e.1
  have hlegal := ttlIsLegal_free httl
  simp only [exportedResource, importRow, importResource, hnew, refusedAs, ok_bind, accepts_iff,
    advanced_eq_ok, hlegal, Bool.not_true, hvalue, hacl, true_and]
  constructor
  · rintro ⟨_, _, ⟨-, ⟨hepoch, rfl⟩, -, ⟨hlease, rfl⟩, hrow⟩, rfl⟩
    cases hrow
    exact ⟨⟨hepoch, hlease⟩, rfl⟩
  · rintro ⟨⟨hepoch, hlease⟩, rfl⟩
    exact ⟨_, _, ⟨_, ⟨hepoch, rfl⟩, _, ⟨hlease, rfl⟩, rfl⟩, rfl⟩

theorem importRow_exportedGrant {e : GrantKey × Rights} (hright : e.2 ≠ 0) (s : State) :
    importRow s (exportedGrant e) = .ok { s with acl := s.acl.insert e.1 e.2 } := by
  have hnew : ResourceKey.new e.1.1.toWire.ns e.1.1.toWire.key = .ok e.1.1 :=
    ResourceKey.new_parts e.1.1
  simp only [exportedGrant, importRow, importGrant, hnew, refusedAs, ok_bind, wide32_bytes,
    beq_eq_false_iff_ne.mpr hright, refuseIf_false]

theorem importRow_exportedAdmin (node : NodeId) (s : State) :
    importRow s (exportedAdmin node) = .ok { s with admins := insert node s.admins } := by
  simp [exportedAdmin, importRow, wide32_bytes, ok_bind]

theorem foldl_resources (es : List (ResourceKey × ResourceRow)) (s : State) :
    es.foldl (fun s e => { s with resources := s.resources.insert e.1 e.2.recovered }) s =
      { s with resources := es.foldl (fun t e => t.insert e.1 e.2.recovered) s.resources } := by
  induction es generalizing s with
  | nil => rfl
  | cons e rest ih => exact ih _

theorem importResources_eq_ok {s : State} (hrows : checkResourceRows s = .ok ())
    {s₀ s₁ : State} :
    (s.resources.toList.map exportedResource).foldlM importRow s₀ = .ok s₁ ↔
      s.resources.AllRows (fun _ row => row.Advances) ∧
        { s₀ with resources :=
          s.resources.toList.foldl (fun t e => t.insert e.1 e.2.recovered) s₀.resources } = s₁ := by
  have hstep : ∀ e ∈ s.resources.toList, ∀ s s',
      importRow s (exportedResource e) = .ok s' ↔
        e.2.Advances ∧ { s with resources := s.resources.insert e.1 e.2.recovered } = s' := by
    intro e he s s'
    exact importRow_exportedResource
      (allRows_iff.mp (checkResourceRows_eq_ok.mp hrows) e he)
  rw [foldlM_map, foldlM_eq_ok hstep, foldl_resources, allRows_iff]

theorem importGrants {es : List (GrantKey × Rights)} (hright : ∀ e ∈ es, e.2 ≠ 0) (s : State) :
    (es.map exportedGrant).foldlM importRow s =
      .ok { s with acl := es.foldl (fun t e => t.insert e.1 e.2) s.acl } := by
  induction es generalizing s with
  | nil => rfl
  | cons e rest ih =>
    rw [map_cons, foldlM_cons, importRow_exportedGrant (hright e mem_cons_self),
      ok_bind, ih fun x hx => hright x (mem_cons_of_mem e hx)]
    rfl

theorem importAdmins (admins : List NodeId) (s : State) :
    (admins.map exportedAdmin).foldlM importRow s =
      .ok { s with admins := s.admins ∪ admins.toFinset } := by
  induction admins generalizing s with
  | nil =>
    rw [toFinset_nil, Finset.union_empty]
    rfl
  | cons node rest ih =>
    rw [map_cons, foldlM_cons, importRow_exportedAdmin, ok_bind, ih,
      toFinset_cons, Finset.union_insert, Finset.insert_union]

/-- What the rows of an export are imported to. -/
def importedRows (s : State) : State :=
  { State.fresh with
    resources := s.resources.toList.foldl (fun t e => t.insert e.1 e.2.recovered) ∅
    acl := s.acl
    admins := s.admins }

/-- **The body of an export goes through exactly when every counter advances.** -/
theorem importRows_eq_ok {s : State} (hrows : checkResourceRows s = .ok ())
    (hacl : s.acl.AllRows fun _ rights => rights ≠ 0) {s' : State} :
    (exportedRows s).foldlM importRow State.fresh = .ok s' ↔
      s.resources.AllRows (fun _ row => row.Advances) ∧ importedRows s = s' := by
  have hright := allRows_iff.mp hacl
  have hsame : s.acl.toList.foldl (fun t e => t.insert e.1 e.2) ∅ = s.acl := by
    refine Std.ExtTreeMap.ext_getElem? fun key => ?_
    exact (get?_foldl_insert_toList id s.acl key).trans (by rw [Option.map_id]; rfl)
  have hadmins : (∅ : Finset NodeId) ∪ s.admins = s.admins := Finset.empty_union _
  simp only [exportedRows, foldlM_append, accepts_iff, importResources_eq_ok hrows,
    importGrants hright, importAdmins, toFinset_ascending, ok_bind]
  constructor
  · rintro ⟨-, ⟨hadvances, rfl⟩, rfl⟩
    exact ⟨hadvances, by simp only [importedRows, State.fresh, hsame, hadmins]⟩
  · rintro ⟨hadvances, rfl⟩
    exact ⟨_, ⟨hadvances, rfl⟩, by simp only [importedRows, State.fresh, hsame, hadmins]⟩

/-! ### The grants, in order -/

/-- How many of a run lie on a resource. -/
def runOn (run : Option (ResourceKey × ℕ)) (key : ResourceKey) : ℕ :=
  match run with
  | some (current, n) => if current = key then n else 0
  | none => 0

theorem runOn_some (current : ResourceKey) (n : ℕ) (key : ResourceKey) :
    runOn (some (current, n)) key = if current = key then n else 0 := rfl

theorem runLength_eq (run : Option (ResourceKey × ℕ)) (key : ResourceKey) :
    runLength run key = runOn run key + 1 := by
  cases run with
  | none => rfl
  | some =>
    simp only [runLength, runOn]
    split <;> rfl

/-- Grants on exported resources, on none too many, pass. -/
theorem checkGrantRuns_accepts {resources : Table ResourceKey ResourceRow} {grants : List GrantKey}
    (hrows : ∀ grant ∈ grants, resources.contains grant.1 = true)
    {run : Option (ResourceKey × ℕ)}
    (hcap : ∀ key, runOn run key + grants.countP (fun grant => grant.1 == key) ≤
      maxGrantsPerResource) :
    checkGrantRuns resources run grants = .ok () := by
  induction grants generalizing run with
  | nil => rfl
  | cons grant rest ih =>
    obtain ⟨key, subject⟩ := grant
    have hlen := hcap key
    rw [countP_cons_of_pos (by simp)] at hlen
    simp only [checkGrantRuns, accepts_iff, runLength_eq]
    refine ⟨hrows _ mem_cons_self, by omega, ?_⟩
    refine ih (fun grant hgrant => hrows grant (mem_cons_of_mem _ hgrant)) fun a => ?_
    by_cases hka : key = a
    · subst hka
      rw [runOn_some, if_pos rfl]
      omega
    · have ha := hcap a
      rw [countP_cons_of_neg (by simpa using hka)] at ha
      rw [runOn_some, if_neg hka]
      omega

/-! ### The provenance of an export -/

theorem LogId.toWire_injective : Function.Injective LogId.toWire := by
  intro a b h
  have hb : LogId.fromWire a.toWire = .ok b := by rw [h, LogId.fromWire_toWire]
  rw [LogId.fromWire_toWire] at hb
  exact Except.ok.inj hb

open LogId

/-- A log id lies in the history that ends with another one. -/
def LogId.InHistory (last id : LogId) : Prop := id.index < last.index ∨ id = last

theorem within_eq_ok {what lastName : String} {id : Option LogId} {last : LogId} :
    within what (id.map toWire) last.toWire lastName = .ok () ↔
      ∀ i, id = some i → last.InHistory i := by
  have hsame : ∀ i : LogId, ((i.toWire.index == last.toWire.index && i.toWire != last.toWire) =
      false ↔ (i.index = last.index → i = last)) := by
    intro i
    simp only [Bool.and_eq_false_imp, beq_iff_eq, bne_eq_false_iff_eq]
    exact imp_congr_right fun _ => toWire_injective.eq_iff
  have hwide : ∀ (what : String) (i : LogId), wide32 what i.toWire.leaderNodeId =
      .ok i.leaderNodeId := fun what i => wide32_bytes what i.leaderNodeId
  simp only [within, checkOption_eq_ok, hwide, accepts_iff, exists_eq_left', hsame,
    map_eq_some_iff, forall_exists_index, and_imp, forall_apply_eq_imp_iff₂]
  refine forall₂_congr fun i _ => ⟨?_, ?_⟩
  · rintro ⟨hle, heq⟩
    rcases Nat.lt_or_eq_of_le hle with hlt | hindex
    · exact .inl hlt
    · exact .inr (heq hindex)
  · rintro (hlt | rfl)
    · exact ⟨Nat.le_of_lt hlt, fun h => absurd h (Nat.ne_of_lt hlt)⟩
    · exact ⟨Nat.le_refl _, fun _ => rfl⟩

section

variable {ext : Externals} {s : DurableState}

/-- The oldest row of the trail is before its newest. -/
theorem RowsAccepted.floor_inHistory (h : RowsAccepted ext s) {floor tip : LogId}
    (hfloor : s.model.auditFloor = some floor) (htip : s.model.auditTip = some tip) :
    tip.InHistory floor := by
  have hrebuilt := (checkAuditTip_eq_ok.mp h.tip).rebuilt
  rw [htip] at hrebuilt
  have hchain : s.model.audit.toList.Pairwise fun a b => a.1.2 < b.1.2 := by
    have horder := h.order
    simp only [checkAuditKeyOrder, refuseIf_eq_ok, Bool.not_eq_false', decide_eq_true_eq] at horder
    exact isChain_iff_pairwise.mp horder
  have holdest := h.floor
  rw [checkAuditFloor, hfloor] at holdest
  cases hrows : s.model.audit.toList with
  | nil =>
    rw [rebuildAuditTip, hrows] at hrebuilt
    cases hrebuilt
  | cons oldest rest =>
    rw [hrows] at holdest hchain
    simp only [head?_cons, refuseIf_eq_ok, bne_eq_false_iff_eq] at holdest
    subst holdest
    have hrow : s.model.audit[oldest.1]? = some oldest.2 := get?_of_head? (by rw [hrows]; rfl)
    obtain ⟨top, topRow, htop, hle, hnewest⟩ := rebuildAuditTip_of_row hrow
    rw [hnewest] at hrebuilt
    cases hrebuilt
    -- the newest row is the oldest one or a later one
    have hmem : (top, topRow) ∈ oldest :: rest := by
      rw [← hrows]
      exact mem_toList.mpr htop
    rcases mem_cons.mp hmem with rfl | hlater
    · exact .inr rfl
    · exact .inl ((pairwise_cons.mp hchain).1 _ hlater)

/-- Of the provenance of an export only the floor can be out of place. -/
theorem sourceHistory_exported (h : RowsAccepted ext s) {last : LogId}
    (hlast : s.model.lastApplied = some last) (hrev : 0 < s.model.adminRevision)
    {found : LogIdV1} :
    sourceHistory (exportedHeader s) = .ok found ↔
      (∀ floor, s.model.auditFloor = some floor → last.InHistory floor) ∧ last.toWire = found := by
  have happ : (exportedHeader s).sourceLastApplied = some last.toWire := by
    rw [show (exportedHeader s).sourceLastApplied = s.model.lastApplied.map toWire from rfl,
      hlast, map_some]
  have hwide : wide32 "the source last-applied leader id" last.toWire.leaderNodeId =
      .ok last.leaderNodeId := wide32_bytes _ last.leaderNodeId
  have hstarted : ((exportedHeader s).sourceAdminRevision == 0) = false :=
    beq_eq_false_iff_ne.mpr hrev.ne'
  have hfloor : (exportedHeader s).sourceAuditFloor = s.model.auditFloor.map toWire := rfl
  have htip : (exportedHeader s).sourceAuditTip = s.model.auditTip.map toWire := rfl
  have hbehind : ∀ tip, s.model.auditTip = some tip → last.InHistory tip := by
    intro tip hsome
    obtain ⟨last', hlast', hcase⟩ := (checkAuditTip_eq_ok.mp h.tip).behind tip hsome
    rw [hlast] at hlast'
    cases hlast'
    exact hcase
  have hbetween : checkOption (fun tip => within "the source audit floor"
      (s.model.auditFloor.map toWire) tip "the source audit tip")
      (s.model.auditTip.map toWire) = .ok () := by
    rw [checkOption_eq_ok]
    intro wire hwire
    obtain ⟨tip, hsome, rfl⟩ := map_eq_some_iff.mp hwire
    exact within_eq_ok.mpr fun floor hsome' => h.floor_inHistory hsome' hsome
  simp only [sourceHistory, happ, requireSome_some, ok_bind, hwide, hstarted, refuseIf_false,
    hfloor, htip, accepts_iff, within_eq_ok, hbetween]
  exact ⟨fun hall => ⟨hall.1, hall.2.2⟩, fun hall => ⟨hall.1, hbehind, hall.2⟩⟩

/-- The membership of an export is one that the importer accepts. -/
theorem sourceMembership_exported (hcoh : MetaCoherent s) (hmeta : MetaValid ext s)
    (hnamed : s.membership.membership.named = true) {last : LogId}
    (hlast : s.model.lastApplied = some last) :
    sourceMembership (exportedHeader s) last.toWire = .ok () := by
  have hsome := hmeta.named
  rw [hnamed] at hsome
  obtain ⟨logId, hlogId⟩ := isSome_iff_exists.mp hsome.symm
  have hconf : s.membership.membership.configs ≠ [] := by
    rcases hcoh.configured with hempty | hconf
    · rw [hempty] at hnamed
      cases hnamed
    · exact hconf
  have hwire : (exportedHeader s).sourceMembership = s.membership.toWire := rfl
  have hlog : s.membership.toWire.logId = (some logId).map toWire := by
    rw [← hlogId]
    rfl
  have hwide : wide32 "the source membership leader id" logId.toWire.leaderNodeId =
      .ok logId.leaderNodeId := wide32_bytes _ logId.leaderNodeId
  have hnonempty : s.membership.toWire.membership.isEmpty = false := by
    simp [StoredMembership.toWire, MembershipV1.isEmpty, Membership.toWire, hconf]
  have happ : last.InHistory logId := by
    have hchk := hmeta.applied
    rw [hlast, hlogId] at hchk
    simp only [checkMembershipApplied, accepts_iff, Bool.and_eq_false_imp, beq_iff_eq] at hchk
    rcases Nat.lt_or_eq_of_le hchk.1 with hlt | heq
    · exact .inl hlt
    · exact .inr (hchk.2 heq)
  have hwithin : within "the source membership" ((some logId).map toWire) last.toWire
      "the source last-applied" = .ok () := by
    rw [within_eq_ok]
    rintro i hi
    cases hi
    exact happ
  rw [map_some] at hlog hwithin
  simp only [sourceMembership, hwire, hlog, requireSome_some, ok_bind, hwide, hnonempty,
    refuseIf_false, accepts_iff, refusedAs_eq_ok]
  exact ⟨membershipIsCanonical_toWire hconf, hwithin⟩

end

/-! ### The import of an export -/

/-- What an identity must be for a store bound to it to open. -/
structure StorageIdentity.Legal (ext : Externals) (identity : StorageIdentity) : Prop where
  key : ext.verifyingKey identity.authorityPublicKey = true
  domain : checkAuthorityDomain "authority_domain" identity.authorityDomain = .ok ()
  profile : identity.deploymentProfileCode ∈ profiles

section

variable (ext : Externals) (s : DurableState) (identity : StorageIdentity)
  (genesisAdmins : List NodeId) (exportHash : Hash)

/-- The administrators of the new group. -/
def recoveredAdmins : Finset NodeId := s.model.admins ∪ genesisAdmins.toFinset

/-- What the rows of the new group weigh. -/
def recoveredGrowth : ℕ :=
  s.model.resources.total resourceCharge + s.model.acl.total grantCharge +
    (recoveredAdmins s genesisAdmins).card * chargeAdmin

/-- The founding state of the new group. -/
def recoveredState : DurableState where
  model := founding ext (importedRows s.model) identity (recoveredAdmins s genesisAdmins)
    (s.model.adminRevision + 1)
  membership := StoredMembership.empty
  recoveryExportHash := some exportHash.bytes
  recoveredFrom := some
    { sourceGroupId := s.model.authority.groupId.bytes
      sourceGenesisHash := s.model.authority.genesisHash.bytes
      sourceAuthorityPublicKey := s.model.authority.publicKey.bytes
      sourceAuthorityDomain := s.model.authority.domain
      exportHash := exportHash.bytes
      sourceLastApplied := s.model.lastApplied.map toWire }

/-- When the import of an export goes through. -/
structure Importable : Prop where
  resources : s.model.resources.AllRows fun _ row => row.Advances
  adminRevision : s.model.adminRevision < maxCounter
  admins : (recoveredAdmins s genesisAdmins).card ≤ maxAdminsPerGroup
  root : identity.authorityPublicKey ∉ recoveredAdmins s genesisAdmins
  growth : recoveredGrowth s genesisAdmins ≤ growthBudget
  floor : ∀ last floor, s.model.lastApplied = some last → s.model.auditFloor = some floor →
    last.InHistory floor

end

section

variable {ext : Externals} {s : DurableState} {identity : StorageIdentity}
  {genesisAdmins : List NodeId} {exportHash : Hash}

theorem importedRows_get? (s : State) (key : ResourceKey) :
    (importedRows s).resources[key]? = s.resources[key]?.map ResourceRow.recovered :=
  get?_foldl_insert_toList ResourceRow.recovered s.resources key

/-- A recovered group has the resources of the old one. -/
theorem importedRows_isSome (s : State) (key : ResourceKey) :
    (importedRows s).resources[key]?.isSome = s.resources[key]?.isSome := by
  rw [importedRows_get?, isSome_map]

/-- A recovered row weighs what it weighed. -/
theorem importedRows_resources_total (s : State) :
    (importedRows s).resources.total resourceCharge = s.resources.total resourceCharge := by
  refine total_eq_of_weightAt (importedRows_isSome s) fun key => ?_
  rw [weightAt, weightAt, importedRows_get?, Option.map_map]
  rfl

theorem founding_growth :
    (founding ext (importedRows s.model) identity (recoveredAdmins s genesisAdmins)
      (s.model.adminRevision + 1)).growthBytes = recoveredGrowth s genesisAdmins := by
  have hintents : (∅ : Table OperationId Intent).total (intentCharge ext) = 0 := rfl
  have hroutes : (∅ : Table NodeId Route).total routeCharge = 0 := rfl
  have htotal := importedRows_resources_total s.model
  simp only [founding, State.recomputeGrowth, htotal, recoveredGrowth]
  simp [importedRows, State.fresh, hintents, hroutes]

/-- The grants of a state that opens pass the ordered check. -/
theorem checkGrantRuns_imported (h : RowsAccepted ext s) :
    checkGrantRuns (importedRows s.model).resources none
      ((importedRows s.model).acl.toList.map Prod.fst) = .ok () := by
  refine checkGrantRuns_accepts ?_ fun key => ?_
  · intro grant hgrant
    obtain ⟨e, he, rfl⟩ := mem_map.mp hgrant
    have hrow := mem_toList.mp he
    have hexists := (checkGrantRows_eq_ok.mp h.acl e.1 e.2 hrow).2.2
    rw [contains_eq_isSome] at hexists ⊢
    rw [importedRows_isSome, hexists]
  · have hcap := checkGrantsPerResource_eq_ok.mp h.grants key
    rw [countP_map, countP_eq_length_filter, runOn, Nat.zero_add]
    exact hcap

/-- A row that a store accepts is accepted again after it was recovered. -/
theorem checkResourceRow_recovered {row : ResourceRow} (h : checkResourceRow row = .ok ())
    (hadvances : row.Advances) : checkResourceRow row.recovered = .ok () := by
  simp only [checkResourceRow, accepts_iff, checkCounters_eq_ok, forall_mem_cons,
    not_mem_nil, false_implies, implies_true, and_true] at h ⊢
  obtain ⟨hvalue, httl, -, -, hrev, hacl⟩ := h
  exact ⟨hvalue, ttlIsLegal_free httl, hadvances.epoch, hadvances.lease, hrev, hacl⟩

/-- Whether a domain is legal does not depend on what it is the domain of. -/
theorem checkAuthorityDomain_of {what what' : String} {domain : Bytes}
    (h : checkAuthorityDomain what domain = .ok ()) :
    checkAuthorityDomain what' domain = .ok () := by
  simp only [checkAuthorityDomain, accepts_iff] at h ⊢
  exact h

section

variable (hvalid : validate ext s = .ok ()) (hrev : 0 < s.model.adminRevision)

include hvalid hrev

/-- **The import of an export**: it goes through exactly when the new group can hold it, and what
it founds is the recovered state. -/
theorem transform_exported (hcoh : MetaCoherent s) (hlast : s.model.lastApplied.isSome = true)
    (hnamed : s.membership.membership.named = true)
    (hgroup : identity.groupId ≠ s.model.authority.groupId) {t : DurableState} :
    transform ext (exportedHeader s) (exportedRows s.model) identity genesisAdmins exportHash =
      .ok t ↔ Importable s identity genesisAdmins ∧
        recoveredState ext s identity genesisAdmins exportHash = t := by
  obtain ⟨last, hlast⟩ := isSome_iff_exists.mp hlast
  obtain ⟨hmeta, hrows⟩ := validate_eq_ok.mp hvalid
  have hmeta := validateMeta_eq_ok.mp hmeta
  have hadmins := checkAdminRevision_eq_ok.mp hrows.admins
  have hright : s.model.acl.AllRows fun _ rights => rights ≠ 0 := fun key rights hrow =>
    (checkGrantRows_eq_ok.mp hrows.acl key rights hrow).1
  -- what the export's own rules find
  have hother : ((exportedHeader s).sourceGroupId == identity.groupId.bytes) = false :=
    beq_eq_false_iff_ne.mpr fun h => hgroup (bytes_injective h.symm)
  have hstarted : ((importedRows s.model).admins == ∅) = false :=
    beq_eq_false_iff_ne.mpr fun h => hrev.ne' (hadmins.started.mpr h)
  have hwide : wide32 "the source authority public key"
      (exportedHeader s).sourceAuthorityPublicKey = .ok s.model.authority.publicKey :=
    wide32_bytes _ s.model.authority.publicKey
  simp only [transform, accepts_iff, sourceHistory_exported hrows hlast hrev,
    importRows_eq_ok hrows.resources hright, hother, hwide, advanced_eq_ok]
  constructor
  · rintro ⟨-, ⟨hfloor, rfl⟩, -, -, -, ⟨hadvances, rfl⟩, -, -, -, -, -, hcard, hnew, -,
      ⟨hroom, rfl⟩, hgrowth, rfl⟩
    refine ⟨⟨hadvances, hroom, hcard, hnew, ?_, fun last' floor hlast' hfloor' => ?_⟩, rfl⟩
    · exact founding_growth.symm.trans_le hgrowth
    · rw [hlast] at hlast'
      cases hlast'
      exact hfloor floor hfloor'
  · rintro ⟨h, rfl⟩
    refine ⟨_, ⟨fun floor => h.floor last floor hlast, rfl⟩,
      sourceMembership_exported hcoh hmeta hnamed hlast, trivial, _, ⟨h.resources, rfl⟩,
      hstarted, _, rfl, hadmins.root, checkGrantRuns_imported hrows, h.admins, h.root, _,
      ⟨h.adminRevision, rfl⟩, founding_growth.trans_le h.growth, rfl⟩

/-- What the validator asks of the rows of a recovered state. -/
theorem rowsAccepted_recovered (h : Importable s identity genesisAdmins) :
    RowsAccepted ext (recoveredState ext s identity genesisAdmins exportHash) := by
  have hrows := (validate_eq_ok.mp hvalid).2
  have hcaps := checkTableCaps_eq_ok.mp hrows.caps
  have hadmins := checkAdminRevision_eq_ok.mp hrows.admins
  have hget := importedRows_get? s.model
  refine
    { root := rfl
      caps := checkTableCaps_eq_ok.mpr
        { resources := (size_eq_of_keys (importedRows_isSome s.model)).trans_le hcaps.resources
          acl := hcaps.acl
          admins := h.admins
          sessions := Nat.zero_le _
          intents := Nat.zero_le _
          routes := Nat.zero_le _
          audit := Nat.zero_le _ }
      grants := hrows.grants
      retained := rfl
      active := rfl
      counters := ?_
      tip := rfl
      floor := rfl
      order := rfl
      audit := rfl
      resources := checkResourceRows_eq_ok.mpr fun key row hrow => ?_
      acl := checkGrantRows_eq_ok.mpr fun key rights hrow => ?_
      admins := checkAdminRevision_eq_ok.mpr ⟨h.adminRevision, ?_, h.root⟩
      sessions := rfl
      intents := rfl
      routes := rfl
      stamps := rfl }
  · simp only [checkAggregateCounters, accepts_iff]
    exact ⟨rfl, rfl⟩
  · obtain ⟨old, hold, rfl⟩ := map_eq_some_iff.mp ((hget key).symm.trans hrow)
    exact checkResourceRow_recovered (checkResourceRows_eq_ok.mp hrows.resources key old hold)
      (h.resources key old hold)
  · obtain ⟨hzero, hknown, hexists⟩ := checkGrantRows_eq_ok.mp hrows.acl key rights hrow
    refine ⟨hzero, hknown, ?_⟩
    rw [contains_eq_isSome] at hexists ⊢
    exact (importedRows_isSome s.model key.1).trans hexists
  · have hnonempty : recoveredAdmins s genesisAdmins ≠ ∅ := fun hempty =>
      hrev.ne' (hadmins.started.mpr (Finset.union_eq_empty.mp hempty).1)
    exact iff_of_false (Nat.succ_ne_zero _) hnonempty

/-- **A recovered state opens** if its new identity is one a store can be bound to. -/
theorem validateBeforeCommit_recovered (hcoh : MetaCoherent s)
    (h : Importable s identity genesisAdmins) (hlegal : identity.Legal ext) :
    validateBeforeCommit ext (recoveredState ext s identity genesisAdmins exportHash) = .ok () := by
  simp only [validateBeforeCommit, accepts_iff, corrupting_eq_ok]
  refine ⟨validateMetaWire_toWire ⟨?_, ?_, .inl rfl, rfl, rfl⟩, validate_eq_ok.mpr
    ⟨validateMeta_eq_ok.mpr ⟨hlegal.key, hlegal.domain, founding_growth.trans_le h.growth,
      Nat.zero_le _, hlegal.profile, Nat.zero_le _, ?_, Nat.zero_le _, rfl, rfl, rfl, rfl, rfl⟩,
      rowsAccepted_recovered hvalid hrev h⟩⟩
  · exact checkAuthorityDomain_of hlegal.domain
  · simp only [recoveredState, checkRecovery, checkOption_eq_ok, some.injEq, forall_eq',
      checkProvenance, accepts_iff, checkWidth_fixed, corrupting_eq_ok, true_and,
      and_true]
    exact ⟨checkAuthorityDomain_of hcoh.domain, checkOption_eq_ok.mp (checkWidth_logId _)⟩
  · simp [recoveredState, StoredMembership.empty, Membership.empty]

end

/-- What a recovery gives back. -/
structure Recovers (ext : Externals) (s : DurableState) (genesisAdmins : List NodeId)
    (t : DurableState) : Prop where
  resources : ∀ key : ResourceKey, t.model.resources[key]? =
    s.model.resources[key]?.map ResourceRow.recovered
  acl : t.model.acl = s.model.acl
  admins : t.model.admins = s.model.admins ∪ genesisAdmins.toFinset
  adminRevision : t.model.adminRevision = s.model.adminRevision + 1
  sessions : t.model.sessions = ∅
  intents : t.model.intents = ∅
  routes : t.model.routes = ∅
  audit : t.model.audit = ∅
  growth : t.model.growthBytes = t.model.recomputeGrowth ext
  reserve : t.model.reserveBytes = t.model.recomputeReserve

theorem recovers_recoveredState :
    Recovers ext s genesisAdmins (recoveredState ext s identity genesisAdmins exportHash) where
  resources := importedRows_get? s.model
  acl := rfl
  admins := rfl
  adminRevision := rfl
  sessions := rfl
  intents := rfl
  routes := rfl
  audit := rfl
  growth := rfl
  reserve := rfl

end

/-- **An export can be imported.**  Take a store that opens, with administrators, something applied
and a committed membership, and the bytes it exports.  The canonical reader gives back a header and
rows from which any other group is founded with what the old one had, and the founding state opens
if the new identity is legal; and the import is refused only where the new group cannot hold the
export, or where the audit floor contradicts the last entry applied. -/
theorem export_can_be_imported {codecs : RowCodecs} {stream : StreamCodecs} {ext : Externals}
    {db : Database} {s : DurableState} {bytes : Bytes} {header : RecoveryHeaderV1}
    (hround : stream.RoundTrip) (hload : load codecs ext db = .ok s)
    (hexport : streamRecoveryBody codecs stream db = .ok (bytes, header))
    (hrev : 0 < s.model.adminRevision) (hlast : s.model.lastApplied.isSome = true)
    (hnamed : s.membership.membership.named = true) :
    ∃ rows, BodyProfile.readBody (collect stream) ⟨none, []⟩ bytes = .ok ⟨some header, rows⟩ ∧
      ∀ (identity : StorageIdentity) (genesisAdmins : List NodeId) (exportHash : Hash),
        identity.groupId ≠ s.model.authority.groupId →
          (∀ t, transform ext header rows identity genesisAdmins exportHash = .ok t →
            Recovers ext s genesisAdmins t ∧
              (identity.Legal ext → validateBeforeCommit ext t = .ok ())) ∧
          ((∃ t, transform ext header rows identity genesisAdmins exportHash = .ok t) ↔
            Importable s identity genesisAdmins) := by
  obtain ⟨rfl, hread⟩ := streamRecoveryBody_loaded hload ⟨hround.recoveryHeader, hround.recoveryRow⟩
    hexport
  obtain ⟨hstored, -, hvalid⟩ := load_eq_ok.mp hload
  refine ⟨_, hread, fun identity genesisAdmins exportHash hgroup => ?_⟩
  have hiff : ∀ t, transform ext (exportedHeader s) (exportedRows s.model) identity genesisAdmins
      exportHash = .ok t ↔ Importable s identity genesisAdmins ∧
        recoveredState ext s identity genesisAdmins exportHash = t := fun t =>
    transform_exported hvalid hrev hstored.coherent hlast hnamed hgroup
  constructor
  · intro t ht
    obtain ⟨himportable, rfl⟩ := (hiff t).mp ht
    exact ⟨recovers_recoveredState, fun hlegal =>
      validateBeforeCommit_recovered hvalid hrev hstored.coherent himportable hlegal⟩
  · simp only [hiff, exists_and_left, exists_eq', and_true]

/-! ### Two small recoveries -/

namespace Sample

def rowCodecs (s : DurableState) : RowCodecs where
  resource := fewValues [ResourceRow.toWire { aclRevision := 1 }]
  session := blankCodec ClientSessionV1
  intent := blankCodec MembershipIntentV1
  route := blankCodec NodeRouteV1
  audit := blankCodec AuditRowV1
  coordinationMeta := fewValues [metaToWire s]

def exportCodecs (s : DurableState) : StreamCodecs :=
  { streamCodecs with
    recoveryHeader := fewValues [exportedHeader s]
    recoveryRow := fewValues (exportedRows s.model) }

theorem exportCodecs_roundTrip (s : DurableState) : (exportCodecs s).RoundTrip :=
  ⟨oneValue_roundTrips _, oneValue_roundTrips _, fewValues_roundTrips _, fewValues_roundTrips _⟩

/-- The new group. -/
def identity : StorageIdentity where
  groupId := fill 32 8
  genesisHash := fill 32 5
  authorityPublicKey := fill 32 4
  authorityDomain := [101]
  deploymentProfileCode := profileDevSingle

theorem model_advances : model.resources.AllRows fun _ row => row.Advances := by
  refine Table.AllRows.insert (fun key row hrow => ?_) ⟨by decide, by decide⟩
  simp at hrow

theorem state_importable : Importable state identity [] where
  resources := model_advances
  adminRevision := by decide
  admins := by decide +kernel
  root := by decide +kernel
  growth := by decide +kernel
  floor := fun _ _ _ hfloor => by cases hfloor

/-- The small group with an audit floor at the index of the last entry, but of another term. -/
def strayFloor : DurableState :=
  { state with model := { model with auditFloor := some ⟨2, voter, 1⟩ } }

end Sample

open Sample

theorem export_can_be_imported_small :
    ∃ bytes header rows t, streamRecoveryBody (rowCodecs state) (exportCodecs state)
        database = .ok (bytes, header) ∧
      BodyProfile.readBody (collect (exportCodecs state)) ⟨none, []⟩ bytes =
        .ok ⟨some header, rows⟩ ∧
      transform externals header rows identity [] (fill 32 0) = .ok t ∧
      Recovers externals state [] t ∧
      validateBeforeCommit externals t = .ok () := by
  have hload : load (rowCodecs state) externals database =
      .ok state := by decide +kernel
  have hexport : (streamRecoveryBody (rowCodecs state)
      (exportCodecs state) database).isOk = true := by decide +kernel
  obtain ⟨⟨bytes, header⟩, hexport⟩ := isOk_iff.mp hexport
  obtain ⟨rows, hread, himport⟩ := export_can_be_imported (exportCodecs_roundTrip _) hload
    hexport (by decide) (by decide) (by decide +kernel)
  obtain ⟨hrecovers, hiff⟩ := himport identity [] (fill 32 0) (by decide)
  obtain ⟨t, ht⟩ := hiff.mpr state_importable
  obtain ⟨hback, hopens⟩ := hrecovers t ht
  exact ⟨bytes, header, rows, t, hexport, hread, ht, hback,
    hopens ⟨rfl, by decide +kernel, by decide⟩⟩

/-- A floor that contradicts the last entry applied passes the loader but not the importer, though
every counter advances and the administrators fit.  And the importer founds a group under a domain
that no store can be bound to. -/
theorem import_of_stray_floor_refused :
    (∃ bytes header rows, load (rowCodecs strayFloor) externals database = .ok strayFloor ∧
      streamRecoveryBody (rowCodecs strayFloor)
        (exportCodecs strayFloor) database = .ok (bytes, header) ∧
      BodyProfile.readBody (collect (exportCodecs strayFloor)) ⟨none, []⟩ bytes =
        .ok ⟨some header, rows⟩ ∧
      (transform externals header rows identity [] (fill 32 0)).isOk = false) ∧
    0 < strayFloor.model.adminRevision ∧
    strayFloor.model.lastApplied.isSome = true ∧
    strayFloor.membership.membership.named = true ∧
    identity.groupId ≠ strayFloor.model.authority.groupId ∧
    strayFloor.model.resources.AllRows (fun _ row => row.Advances) ∧
    strayFloor.model.adminRevision < maxCounter ∧
    (recoveredAdmins strayFloor []).card ≤ maxAdminsPerGroup ∧
    identity.authorityPublicKey ∉ recoveredAdmins strayFloor [] ∧
    ∃ t, transform externals (exportedHeader state) (exportedRows state.model)
        { identity with authorityDomain := [] } [] (fill 32 0) = .ok t ∧
      (validateBeforeCommit externals t).isOk = false := by
  have hload : load (rowCodecs strayFloor) externals database =
      .ok strayFloor := by decide +kernel
  have hexport : (streamRecoveryBody (rowCodecs strayFloor)
      (exportCodecs strayFloor) database).isOk = true := by decide +kernel
  obtain ⟨⟨bytes, header⟩, hexport⟩ := isOk_iff.mp hexport
  have hcodec := exportCodecs_roundTrip strayFloor
  have hround : (recoveryProfile (exportCodecs strayFloor)).RoundTrips :=
    ⟨hcodec.recoveryHeader, hcodec.recoveryRow⟩
  obtain ⟨hhead, hread⟩ := streamRecoveryBody_loaded hload hround hexport
  refine ⟨⟨bytes, header, _, hload, hexport, hread, ?_⟩, by decide, by decide, by decide +kernel,
    by decide, model_advances, by decide, by decide +kernel, by decide +kernel, ?_⟩
  · rw [hhead]
    decide +kernel
  · have hfounded : (transform externals (exportedHeader state)
        (exportedRows state.model) { identity with authorityDomain := [] } []
        (fill 32 0)) = .ok (recoveredState externals state
          { identity with authorityDomain := [] } [] (fill 32 0)) := by
      decide +kernel
    exact ⟨_, hfounded, by decide +kernel⟩

end AsterRpc.Coordination

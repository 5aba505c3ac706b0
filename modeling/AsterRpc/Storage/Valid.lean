import AsterRpc.Foundation.Selection
import AsterRpc.Storage.Durable

/-!
# What the validator accepts

The rules of `Durable`, each restated as the property it checks.  A row type
gets a structure `Valid` that joins what its rule demands with what narrowing a
stored row demands, and `Validated` is the whole of what opening a store
demands of a state.
-/

namespace AsterRpc.Coordination

open AsterRpc.Foundation List FixedBytes

variable {row : AuditRow} {ext : Externals} {s : DurableState}

theorem checkCounters_eq_ok {counters : List (String × ℕ)} :
    checkCounters counters = .ok () ↔ ∀ c ∈ counters, c.2 ≤ maxCounter := by
  simp [checkCounters]

/-! ### Rows -/

/-- A resource row that a store accepts. -/
structure ResourceRow.Valid (row : ResourceRow) : Prop where
  value : row.value.length ≤ maxValue
  ttl : ttlIsLegal row.ttlMs row.held = true
  epoch : row.epoch ≤ maxCounter
  lease : row.leaseRevision ≤ maxCounter
  valueRevision : row.valueRevision ≤ maxCounter
  acl : row.aclRevision ≤ maxCounter
  coherent : row.held = row.holder.isSome

theorem ResourceRow.valid_iff {row : ResourceRow} :
    row.Valid ↔ checkResourceRow row = .ok () ∧ row.held = row.holder.isSome := by
  simp only [checkResourceRow, accepts_iff, checkCounters_eq_ok, forall_mem_cons,
    not_mem_nil, false_implies, implies_true, and_true]
  constructor
  · rintro ⟨hvalue, httl, hepoch, hlease, hrev, hacl, hcoh⟩
    exact ⟨⟨hvalue, httl, hepoch, hlease, hrev, hacl⟩, hcoh⟩
  · rintro ⟨⟨hvalue, httl, hepoch, hlease, hrev, hacl⟩, hcoh⟩
    exact ⟨hvalue, httl, hepoch, hlease, hrev, hacl, hcoh⟩

/-- A saved snapshot that a store accepts. -/
@[mk_iff]
structure SavedSnapshot.Valid (snapshot : SavedSnapshot) : Prop where
  epoch : snapshot.epoch ≤ maxCounter
  lease : snapshot.leaseRevision ≤ maxCounter
  valueRevision : snapshot.valueRevision ≤ maxCounter
  acl : snapshot.aclRevision ≤ maxCounter
  ttl : ttlIsLegal snapshot.ttlMs snapshot.held = true
  coherent : snapshot.held = snapshot.holder.isSome

theorem checkSnapshot_eq_ok {snapshot : SavedSnapshot} :
    checkSnapshot snapshot = .ok () ↔ snapshot.Valid := by
  simp only [checkSnapshot, accepts_iff, checkCounters_eq_ok, forall_mem_cons,
    not_mem_nil, false_implies, implies_true, and_true, and_assoc, SavedSnapshot.valid_iff]

/-- A saved reply that a store accepts. -/
@[mk_iff]
structure SavedReply.Valid (reply : SavedReply) : Prop where
  reserved : reply.reason.isReserved = false
  reason : reply.outcome = .rejected ∨ reply.reason = .none
  acl : reply.aclRevision ≤ maxCounter
  admin : reply.adminRevision ≤ maxCounter
  snapshot : ∀ snapshot, reply.snapshot = some snapshot → snapshot.Valid

theorem checkSavedReply_eq_ok {reply : SavedReply} :
    checkSavedReply reply = .ok () ↔ reply.Valid := by
  simp only [checkSavedReply, accepts_iff, checkCounters_eq_ok, Bool.and_eq_false_iff,
    forall_mem_cons, not_mem_nil, false_implies, implies_true, and_true,
    checkOption_eq_ok, checkSnapshot_eq_ok, and_assoc, SavedReply.valid_iff]

/-- A journal row that a store accepts. -/
structure Session.Valid (session : Session) : Prop where
  sequence : session.lastSequence ≤ maxCounter
  saved : session.lastResult = none → session.lastSequence = 0
  reply : ∀ reply, session.lastResult = some reply → reply.Valid

theorem checkSessionRow_eq_ok {session : Session} :
    checkSessionRow session = .ok () ↔ session.Valid := by
  simp only [checkSessionRow, accepts_iff, Bool.and_eq_false_iff, checkOption_eq_ok,
    checkSavedReply_eq_ok]
  constructor
  · rintro ⟨hseq, hsaved, hreply⟩
    refine ⟨hseq, fun hnone => ?_, hreply⟩
    rw [hnone] at hsaved
    simpa using hsaved
  · rintro ⟨hseq, hsaved, hreply⟩
    refine ⟨hseq, ?_, hreply⟩
    cases hlast : session.lastResult with
    | none => exact .inr (hsaved hlast)
    | some => exact .inl rfl

/-- An audit row that a store accepts. -/
structure AuditRow.Valid (row : AuditRow) : Prop where
  paired : ∃ allowed, auditResultsFor row.operationCode = some allowed ∧ row.result.code ∈ allowed
  space : isSystemOperation row.operationCode = !row.result.isClient
  epoch : row.epoch ≤ maxCounter
  valueRevision : row.valueRevision ≤ maxCounter

theorem checkAuditRow_eq_ok : checkAuditRow row = .ok () ↔ row.Valid := by
  have hspace : (isSystemOperation row.operationCode == row.result.isClient) = false ↔
      isSystemOperation row.operationCode = !row.result.isClient := by
    cases isSystemOperation row.operationCode <;> cases row.result.isClient <;> decide
  simp only [checkAuditRow, accepts_iff, contains_iff_mem, hspace]
  constructor
  · rintro ⟨allowed, hmay, hspace, hmem, hepoch, hrev⟩
    exact ⟨⟨allowed, hmay, hmem⟩, hspace, hepoch, hrev⟩
  · rintro ⟨⟨allowed, hmay, hmem⟩, hspace, hepoch, hrev⟩
    exact ⟨allowed, hmay, hspace, hmem, hepoch, hrev⟩

/-! ### Tables -/

theorem checkResourceRows_eq_ok {s : State} :
    checkResourceRows s = .ok () ↔ s.resources.AllRows fun _ row => checkResourceRow row = .ok () :=
  Table.checkRows_eq_ok

theorem checkAuditRows_eq_ok {s : State} :
    checkAuditRows s = .ok () ↔ s.audit.AllRows fun _ row => row.Valid := by
  simp [checkAuditRows, Table.checkRows_eq_ok, checkAuditRow_eq_ok]

theorem checkSessionRows_eq_ok {s : State} :
    checkSessionRows s = .ok () ↔ s.sessions.AllRows fun _ row => row.Valid := by
  simp [checkSessionRows, Table.checkRows_eq_ok, checkSessionRow_eq_ok]

/-- What `check_admin_revision` accepts. -/
@[mk_iff]
structure State.AdminsValid (s : State) : Prop where
  revision : s.adminRevision ≤ maxCounter
  started : s.adminRevision = 0 ↔ s.admins = ∅
  root : s.authority.publicKey ∉ s.admins

theorem checkAdminRevision_eq_ok {s : State} : checkAdminRevision s = .ok () ↔ s.AdminsValid := by
  simp only [checkAdminRevision, accepts_iff, Bool.beq_eq_decide_eq, decide_eq_decide,
    State.adminsValid_iff]

/-- What `check_table_caps` accepts. -/
@[mk_iff]
structure State.TablesCapped (s : State) : Prop where
  resources : s.resources.size ≤ maxResourcesPerGroup
  acl : s.acl.size ≤ maxAclRowsPerGroup
  admins : s.admins.card ≤ maxAdminsPerGroup
  sessions : s.sessions.size ≤ maxRetainedSessionsPerGroup
  intents : s.intents.size ≤ maxIntentRows
  routes : s.routes.size ≤ maxRetainedRoutes
  audit : s.audit.size ≤ maxAuditRows

theorem checkTableCaps_eq_ok {s : State} : checkTableCaps s = .ok () ↔ s.TablesCapped := by
  simp only [checkTableCaps, checkAll_eq_ok, refuseIf_eq_ok, decide_eq_false_iff_not, gt_iff_lt,
    Nat.not_lt, forall_mem_cons, not_mem_nil, false_implies, implies_true, and_true,
    State.tablesCapped_iff]

/-! ### The audit tip -/

/-- The row that the tip is read off is the last of those with the greatest index. -/
theorem foldl_laterRow (rows : List (AuditKey × AuditRow)) :
    rows.foldl laterRow none = maxByKey (fun e => e.1.2) rows := by
  have hturn : laterRow = keepBest fun e b => compare e.1.2 b.1.2 != .lt := by
    funext best e
    cases best with
    | none => rfl
    | some => simp [laterRow, keepBest, Nat.compare_ne_lt]
  rw [hturn]
  rfl

/-- The tip is the entry of a row of the trail that no other row's index exceeds. -/
theorem rebuildAuditTip_of_row {audit : Table AuditKey AuditRow} {key : AuditKey}
    (h : audit[key]? = some row) :
    ∃ (top : AuditKey) (topRow : AuditRow), audit[top]? = some topRow ∧ key.2 ≤ top.2 ∧
      rebuildAuditTip audit = some ⟨top.1, topRow.leaderNodeId, top.2⟩ := by
  have hrow := Table.mem_toList.mpr h
  rw [rebuildAuditTip, foldl_laterRow]
  cases hmax : maxByKey (fun e : AuditKey × AuditRow => e.1.2) audit.toList with
  | none =>
    rw [bestOf_eq_none.mp hmax] at hrow
    cases hrow
  | some top =>
    exact ⟨top.1, top.2, Table.mem_toList.mp (bestOf_mem hmax), maxByKey_le hmax _ hrow, rfl⟩

/-- What `check_audit_tip` accepts. -/
structure State.TipValid (s : State) : Prop where
  rebuilt : s.auditTip = rebuildAuditTip s.audit
  behind : AuditBehind s

theorem checkAuditTip_eq_ok {s : State} : checkAuditTip s = .ok () ↔ s.TipValid := by
  have hiff : checkAuditTip s = .ok () ↔
      s.auditTip = rebuildAuditTip s.audit ∧ AuditBehind s := by
    simp only [checkAuditTip, accepts_iff]
    refine and_congr_right fun htip => ?_
    unfold AuditBehind
    rw [htip]
    cases rebuildAuditTip s.audit with
    | none => simp
    | some =>
      cases s.lastApplied with
      | none => simp
      | some =>
        simp only [accepts_iff, Bool.and_eq_false_iff, beq_eq_false_iff_ne, ne_eq,
          Option.some.injEq, forall_eq', exists_eq_left']
        constructor
        · rintro ⟨hle, hne | heq⟩
          · exact .inl (Nat.lt_of_le_of_ne hle hne)
          · exact .inr heq
        · rintro (hlt | rfl)
          · exact ⟨Nat.le_of_lt hlt, .inl (Nat.ne_of_lt hlt)⟩
          · exact ⟨Nat.le_refl _, .inr rfl⟩
  rw [hiff]
  exact ⟨fun h => ⟨h.1, h.2⟩, fun h => ⟨h.rebuilt, h.behind⟩⟩

/-- Every rule of `INVARIANTS` accepts. -/
@[mk_iff]
structure RowsAccepted (ext : Externals) (s : DurableState) : Prop where
  root : checkRootNotAMember s = .ok ()
  caps : checkTableCaps s.model = .ok ()
  grants : checkGrantsPerResource s.model = .ok ()
  retained : checkSessionsPerActor s.model = .ok ()
  active : checkActiveClients s.model = .ok ()
  counters : checkAggregateCounters ext s.model = .ok ()
  tip : checkAuditTip s.model = .ok ()
  floor : checkAuditFloor s.model = .ok ()
  order : checkAuditKeyOrder s.model = .ok ()
  audit : checkAuditRows s.model = .ok ()
  resources : checkResourceRows s.model = .ok ()
  acl : checkGrantRows s.model = .ok ()
  admins : checkAdminRevision s.model = .ok ()
  sessions : checkSessionRows s.model = .ok ()
  intents : checkIntentRows ext s.model = .ok ()
  routes : checkRouteRows ext s.model = .ok ()
  stamps : checkStampedLogIds s.model = .ok ()

/-- What `validate_meta` accepts. -/
@[mk_iff]
structure MetaValid (ext : Externals) (s : DurableState) : Prop where
  key : ext.verifyingKey s.model.authority.publicKey = true
  domain : checkAuthorityDomain "authority_domain" s.model.authority.domain = .ok ()
  growth : s.model.growthBytes ≤ growthBudget
  reserve : s.model.reserveBytes ≤ reserveBudget
  profile : s.model.deploymentProfileCode ∈ profiles
  joint : s.membership.membership.configs.length ≤ 2
  permitted : ∀ config ∈ s.membership.membership.configs,
    profilePermitsVoters s.model.deploymentProfileCode config.card = false
  learners : s.model.membership.learners.card ≤ maxLearnerEnvelope
  named : s.membership.membership.named = s.membership.logId.isSome
  applied : checkMembershipApplied s.model.lastApplied s.membership.logId = .ok ()
  projection : s.model.membership = projectMembership s.membership.membership
  logId : s.model.membershipLogId = s.membership.logId
  floor : checkFloorApplied s.model.lastApplied s.model.auditFloor = .ok ()

theorem validateMeta_eq_ok : validateMeta ext s = .ok () ↔ MetaValid ext s := by
  simp only [validateMeta, accepts_iff, checkAll_eq_ok, contains_iff_mem, metaValid_iff]

theorem nameRefusal_eq_ok {name : String} {check : Except String Unit} :
    nameRefusal name check = .ok () ↔ check = .ok () := by
  cases check <;> simp [nameRefusal]

theorem validate_eq_ok :
    validate ext s = .ok () ↔ validateMeta ext s = .ok () ∧ RowsAccepted ext s := by
  simp only [validate, validateRows, rowInvariants, accepts_iff, checkAll_eq_ok, nameRefusal_eq_ok,
    forall_mem_cons, not_mem_nil, false_implies, implies_true, and_true, rowsAccepted_iff]

/-! ### Narrowing -/

/-- Every row reads back: storing it and narrowing what was stored succeeds. -/
def narrows (s : State) : Bool :=
  (s.resources.toList.all fun e => (ResourceRow.fromWire e.2.toWire).isOk) &&
    s.intents.toList.all fun e =>
      match e.2.toWire e.1 with
      | .ok wire => (Intent.fromWire e.1 wire).isOk
      | .error _ => false

/-- **What opening a store demands of a state**: its rows narrow and the validator accepts it. -/
structure Validated (ext : Externals) (s : DurableState) : Prop where
  narrow : narrows s.model = true
  accepted : validate ext s = .ok ()

theorem narrows_iff {s : State} :
    narrows s = true ↔
      (s.resources.AllRows fun _ row => row.held = row.holder.isSome) ∧
      s.intents.AllRows fun id intent => (∃ wire, intent.toWire id = .ok wire) ∧
        intent.Coherent := by
  have hintent : ∀ id (intent : Intent), (match intent.toWire id with
      | .ok wire => (Intent.fromWire id wire).isOk
      | .error _ => false) = true ↔ (∃ wire, intent.toWire id = .ok wire) ∧ intent.Coherent := by
    intro id intent
    cases hwire : intent.toWire id with
    | error => simp
    | ok => simp [isOk_iff, Intent.fromWire_toWire hwire]
  simp only [narrows, Bool.and_eq_true, all_eq_true, isOk_iff, ResourceRow.fromWire_toWire,
    hintent, exists_and_left, exists_eq', and_true, Table.allRows_iff]

theorem Validated.rows (h : Validated ext s) :
    RowsAccepted ext s := (validate_eq_ok.mp h.accepted).2

theorem Validated.metaValid (h : Validated ext s) :
    MetaValid ext s := validateMeta_eq_ok.mp (validate_eq_ok.mp h.accepted).1

theorem Validated.resources (h : Validated ext s) :
    s.model.resources.AllRows fun _ row => row.Valid := by
  intro key row hrow
  exact ResourceRow.valid_iff.mpr
    ⟨checkResourceRows_eq_ok.mp h.rows.resources key row hrow,
      (narrows_iff.mp h.narrow).1 key row hrow⟩

/-! ### A small group

One voter, one administrator, one resource with one grant.  It serves wherever a property has to be
seen on a concrete state. -/

namespace Sample

/-- A codec that keeps nothing. -/
def blankCodec (α : Type) : ForyCodec α := ⟨fun _ => some [], fun _ => none⟩

/-- Stand-ins for the libraries: an action is encoded by its operation code, a digest repeats the
last byte, and a ticket is its node id. -/
def externals : Externals where
  action := ⟨fun action => some [UInt8.ofNat (wireOperationCode action).toNat], fun _ => none⟩
  command := blankCodec CommandV1
  changeMembership := blankCodec ChangeMembershipActionV1
  signedDocument := blankCodec SignedCoordinationDocumentV1
  joinPermit := blankCodec JoinPermitV1
  genesis := blankCodec GenesisV1
  blake3 := fun bytes => fill 32 (bytes.getLast?.getD 0)
  verifyingKey := fun _ => true
  verify := fun _ _ _ => true
  ticketFromText := fun text => (fromSlice 32 text).map fun node => ⟨node, none, [], none⟩
  ticketToText := fun ticket => some ticket.endpointId.bytes

def root : NodeId := fill 32 9
def voter : NodeId := fill 32 1
def client : ClientId := fill 16 2
def resource : ResourceKey := ⟨[97], [0], rfl⟩

/-- The log id of the leader's entry at an index. -/
def entry (index : ℕ) : LogId := ⟨1, voter, index⟩

def membership : Membership := ⟨[{voter}], {voter}, by simp⟩

def model : State where
  resources := (∅ : Table ResourceKey ResourceRow).insert resource { aclRevision := 1 }
  acl := (∅ : Table GrantKey Rights).insert (resource, voter) allRights
  admins := {voter}
  sessions := ∅
  intents := ∅
  routes := ∅
  auditTip := none
  audit := ∅
  growthBytes := 644
  reserveBytes := 0
  adminRevision := 1
  authority := ⟨root, [100], fill 32 7, fill 32 6⟩
  deploymentProfileCode := profileDevSingle
  membership := projectMembership membership
  membershipLogId := some (entry 1)
  auditFloor := none
  lastApplied := some (entry 1)

def state : DurableState := ⟨model, ⟨some (entry 1), membership⟩, none, none⟩

theorem state_validated : Validated externals state := ⟨by decide +kernel, by decide +kernel⟩

end Sample

end AsterRpc.Coordination

import AsterRpc.Storage.Wire

/-!
# The durable state and its validator

`storage/rows.rs`: what a voter keeps on disk and what it demands of it when it
opens.  `validate` reads the rules off the format, not off the transitions, and
repairs nothing: a state that breaks one of them leaves a store that will not
open.

An error keeps the name of the rule and the constant part of its text; the
values the source prints into the text are left out.
-/

namespace AsterRpc.Coordination

open AsterRpc.Foundation

/-! ### Native membership -/

/-- `openraft::Membership`: the joint configurations and the node map.  OpenRaft's constructor puts
every voter into the node map. -/
structure Membership where
  configs : List (Finset NodeId)
  nodes : Finset NodeId
  covers : ∀ config ∈ configs, config ⊆ nodes
deriving DecidableEq

namespace Membership

/-- `Membership::default()`. -/
def empty : Membership := ⟨[], ∅, by simp⟩

def voterIds (m : Membership) : Finset NodeId := m.configs.foldr (· ∪ ·) ∅

theorem mem_voterIds {m : Membership} {node : NodeId} :
    node ∈ m.voterIds ↔ ∃ config ∈ m.configs, node ∈ config := by
  unfold voterIds
  induction m.configs with
  | nil => simp
  | cons config rest ih => simp [ih]

end Membership

structure StoredMembership where
  logId : Option LogId
  membership : Membership
deriving DecidableEq

/-- `StoredMembership::default()`. -/
def StoredMembership.empty : StoredMembership := ⟨none, Membership.empty⟩

/-- `membership_names_root`. -/
def membershipNamesRoot (membership : Membership) (root : NodeId) : Bool :=
  decide (root ∈ membership.voterIds) || decide (root ∈ membership.nodes)

/-- `project_membership`. -/
def projectMembership (membership : Membership) : CommittedMembership where
  voters := membership.voterIds
  learners := membership.nodes.filter fun node =>
    !membership.configs.any fun config => decide (node ∈ config)
  joint := membership.configs.length > 1

/-! ### The durable state -/

structure RecoveredFromV1 where
  sourceGroupId : Bytes
  sourceGenesisHash : Bytes
  sourceAuthorityPublicKey : Bytes
  sourceAuthorityDomain : Bytes
  exportHash : Bytes
  sourceLastApplied : Option LogIdV1
deriving DecidableEq

structure DurableState where
  model : State
  membership : StoredMembership
  recoveryExportHash : Option Bytes
  recoveredFrom : Option RecoveredFromV1
deriving DecidableEq

/-- `StorageError::corrupt`: which part of the store is wrong, and how. -/
structure Corrupt where
  what : String
  detail : String
deriving DecidableEq

/-! ### The metadata -/

/-- `check_authority_domain`. -/
def checkAuthorityDomain (what : String) (domain : Bytes) : Except Corrupt Unit := do
  refuseIf domain.isEmpty ⟨what, "empty"⟩
  refuseIf (domain.length > maxAuthorityDomainBytes) ⟨what, "over the limit"⟩
  refuseIf (domain.any (· ≥ 0x80))
    ⟨what, "not ASCII; a domain is compared bytewise against signed documents"⟩

/-- The text of the rule that a membership and its log id move together. -/
def namedDetail (named : Bool) : String :=
  if named then "a committed membership with no log id"
  else "a membership log id with no membership"

/-- `named` of `validate_meta`: the membership names anyone. -/
def Membership.named (m : Membership) : Bool := !m.configs.isEmpty || m.nodes != ∅

/-- An entry that was recorded must have been applied: not after the last one, and at its index only
if it is that very entry. -/
def checkMembershipApplied (lastApplied membershipLogId : Option LogId) : Except Corrupt Unit :=
  match membershipLogId, lastApplied with
  | none, _ => .ok ()
  | some _, none => .error ⟨"membership", "a membership with nothing applied"⟩
  | some id, some last => do
    refuseIf (id.index > last.index) ⟨"membership", "runs ahead of last_applied"⟩
    refuseIf (id.index == last.index && id != last)
      ⟨"membership", "different entries at one index"⟩

/-- The audit floor is not past the last entry applied. -/
def checkFloorApplied (lastApplied auditFloor : Option LogId) : Except Corrupt Unit :=
  match auditFloor, lastApplied with
  | none, _ => .ok ()
  | some _, none => .error ⟨"audit_floor", "a floor with nothing applied"⟩
  | some floor, some last =>
    refuseIf (floor.index > last.index) ⟨"audit_floor", "runs ahead of last_applied"⟩

section

variable (ext : Externals)

/-- `validate_meta`. -/
def validateMeta (s : DurableState) : Except Corrupt Unit := do
  refuseIf (!ext.verifyingKey s.model.authority.publicKey)
    ⟨"authority_public_key", "the stored key does not decompress to an Ed25519 public key"⟩
  checkAuthorityDomain "authority_domain" s.model.authority.domain
  refuseIf (s.model.growthBytes > growthBudget) ⟨"aggregate_growth_bytes", "over the budget"⟩
  refuseIf (s.model.reserveBytes > reserveBudget) ⟨"aggregate_reserve_bytes", "over the budget"⟩
  refuseIf (!profiles.contains s.model.deploymentProfileCode)
    ⟨"deployment_profile_code", "not one the build declares"⟩
  let membership := s.membership.membership
  refuseIf (membership.configs.length > 2) ⟨"membership", "at most two joint configurations"⟩
  checkAll (fun config : Finset NodeId =>
    refuseIf (profilePermitsVoters s.model.deploymentProfileCode config.card)
      ⟨"membership", "a configuration the profile does not permit"⟩) membership.configs
  refuseIf (s.model.membership.learners.card > maxLearnerEnvelope)
    ⟨"membership", "over the learner envelope"⟩
  refuseIf (membership.named != s.membership.logId.isSome)
    ⟨"membership", namedDetail membership.named⟩
  checkMembershipApplied s.model.lastApplied s.membership.logId
  refuseIf (s.model.membership != projectMembership membership)
    ⟨"membership", "the membership projection does not match the stored membership"⟩
  refuseIf (s.model.membershipLogId != s.membership.logId)
    ⟨"membership", "the membership log id does not match the stored membership"⟩
  checkFloorApplied s.model.lastApplied s.model.auditFloor

end

/-! ### Rules on the rows -/

/-- `check_root_not_a_member`. -/
def checkRootNotAMember (s : DurableState) : Except String Unit :=
  refuseIf (membershipNamesRoot s.membership.membership s.model.authority.publicKey)
    "the committed membership names the deployment ROOT; ROOT is never a voter or learner"

/-- `check_table_caps`. -/
def checkTableCaps (s : State) : Except String Unit :=
  checkAll (fun entry : String × ℕ × ℕ =>
    refuseIf (entry.2.1 > entry.2.2) (entry.1 ++ " holds rows over its cap"))
    [("resources", s.resources.size, maxResourcesPerGroup),
      ("resource_acl", s.acl.size, maxAclRowsPerGroup),
      ("group_admins", s.admins.card, maxAdminsPerGroup),
      ("client_sessions", s.sessions.size, maxRetainedSessionsPerGroup),
      ("membership_intents", s.intents.size, maxIntentRows),
      ("node_routes", s.routes.size, maxRetainedRoutes), ("audit", s.audit.size, maxAuditRows)]

/-- `check_grants_per_resource`. -/
def checkGrantsPerResource (s : State) : Except String Unit :=
  refuseIf (s.acl.toList.any fun e => grantsOn s e.1.1 > maxGrantsPerResource)
    "holds grants over the cap"

/-- `check_sessions_per_actor`. -/
def checkSessionsPerActor (s : State) : Except String Unit :=
  refuseIf (s.sessions.toList.any fun e =>
    (s.capacityFor e.1.1).retainedActor > maxRetainedSessionsPerActor)
    "an actor holds retained sessions over the cap"

/-- `check_active_clients`. -/
def checkActiveClients (s : State) : Except String Unit := do
  refuseIf (s.sessions.toList.any fun e =>
    (s.capacityFor e.1.1).activeActor > maxActiveClientsPerActor)
    "an actor holds active clients over the cap"
  refuseIf ((s.sessions.countWhere fun _ session => !session.retired) > maxActiveClientsPerGroup)
    "active clients over the cap"

/-- One turn of `max_by_key` over the index: the later of two rows, the second one among equals. -/
def laterRow (best : Option (AuditKey × AuditRow)) (e : AuditKey × AuditRow) :
    Option (AuditKey × AuditRow) :=
  match best with
  | none => some e
  | some b => if b.1.2 ≤ e.1.2 then some e else some b

/-- `rebuild_audit_tip`: the entry of the row with the greatest index. -/
def rebuildAuditTip (audit : Table AuditKey AuditRow) : Option LogId :=
  (audit.toList.foldl laterRow none).map fun e => ⟨e.1.1, e.2.leaderNodeId, e.1.2⟩

/-- `check_audit_tip`. -/
def checkAuditTip (s : State) : Except String Unit := do
  refuseIf (s.auditTip != rebuildAuditTip s.audit) "the tip is not the one the rows give"
  match rebuildAuditTip s.audit, s.lastApplied with
  | none, _ => .ok ()
  | some _, none => .error "an audit row with nothing applied"
  | some tip, some last => do
    refuseIf (tip.index > last.index) "runs ahead of last_applied"
    refuseIf (tip.index == last.index && tip != last) "different entries at one index"

/-- `check_audit_floor`. -/
def checkAuditFloor (s : State) : Except String Unit :=
  match s.auditFloor, s.audit.toList.head? with
  | some floor, some oldest =>
    refuseIf (floor != ⟨oldest.1.1, oldest.2.leaderNodeId, oldest.1.2⟩)
      "the floor is not the oldest retained row"
  | _, _ => .ok ()

/-- `check_audit_key_order`: read in key order, the indices increase. -/
def checkAuditKeyOrder (s : State) : Except String Unit :=
  refuseIf (!decide (s.audit.toList.IsChain fun a b => a.1.2 < b.1.2))
    "table order and log order disagree"

/-- One row of `check_audit_rows`. -/
def checkAuditRow (row : AuditRow) : Except String Unit := do
  let allowed ← requireSome (auditResultsFor row.operationCode) "an operation code not declared"
  refuseIf (isSystemOperation row.operationCode == row.result.isClient)
    "the result is in the wrong code space"
  refuseIf (!allowed.contains row.result.code) "a result the operation cannot produce"
  refuseIf (row.epoch > maxCounter) "epoch over the ceiling"
  refuseIf (row.valueRevision > maxCounter) "value_revision over the ceiling"

/-- `check_audit_rows`. -/
def checkAuditRows (s : State) : Except String Unit :=
  s.audit.checkRows fun _ row => checkAuditRow row

/-- `ttl_is_legal`. -/
def ttlIsLegal (ttlMs : ℕ) (held : Bool) : Bool :=
  (decide (minTtlMs ≤ ttlMs) && decide (ttlMs ≤ maxTtlMs)) || (!held && ttlMs == 0)

/-- A list of named counters, none of them over the ceiling. -/
def checkCounters (counters : List (String × ℕ)) : Except String Unit :=
  checkAll (fun c : String × ℕ => refuseIf (c.2 > maxCounter) (c.1 ++ " over the ceiling")) counters

/-- One row of `check_resource_rows`. -/
def checkResourceRow (row : ResourceRow) : Except String Unit := do
  refuseIf (row.value.length > maxValue) "a value over the limit"
  refuseIf (!ttlIsLegal row.ttlMs row.held) "not a duration the limits admit"
  checkCounters [("epoch", row.epoch), ("lease_revision", row.leaseRevision),
    ("value_revision", row.valueRevision), ("acl_revision", row.aclRevision)]

/-- `check_resource_rows`. -/
def checkResourceRows (s : State) : Except String Unit :=
  s.resources.checkRows fun _ row => checkResourceRow row

/-- `check_grant_rows`. -/
def checkGrantRows (s : State) : Except String Unit :=
  s.acl.checkRows fun key rights => do
    refuseIf (rights == 0) "zero rights is how a grant is removed, so the row should not exist"
    refuseIf (!rightsAreKnown rights) "rights include a bit v1 does not define"
    refuseIf (!s.resources.contains key.1) "a grant but no resource row; the two move in one step"

/-- `check_admin_revision`. -/
def checkAdminRevision (s : State) : Except String Unit := do
  refuseIf (s.adminRevision > maxCounter) "admin_revision over the ceiling"
  refuseIf ((s.adminRevision == 0) != (s.admins == ∅))
    "revision 0 is the pre-Genesis state and means no delegates"
  refuseIf (decide (s.authority.publicKey ∈ s.admins))
    "the delegated administrator set contains the ROOT key"

/-- The snapshot of a saved reply. -/
def checkSnapshot (snapshot : SavedSnapshot) : Except String Unit := do
  checkCounters [("epoch", snapshot.epoch), ("lease_revision", snapshot.leaseRevision),
    ("value_revision", snapshot.valueRevision), ("acl_revision", snapshot.aclRevision)]
  refuseIf (!ttlIsLegal snapshot.ttlMs snapshot.held) "not a duration the limits admit"
  refuseIf (snapshot.held != snapshot.holder.isSome) "held flag and holder disagree"

/-- The saved reply of a journal. -/
def checkSavedReply (saved : SavedReply) : Except String Unit := do
  refuseIf saved.reason.isReserved "saved a reserved reason"
  refuseIf (saved.outcome != .rejected && saved.reason != .none) "only a rejection carries a reason"
  checkCounters [("acl_revision", saved.aclRevision), ("admin_revision", saved.adminRevision)]
  checkOption checkSnapshot saved.snapshot

/-- One row of `check_session_rows`. -/
def checkSessionRow (session : Session) : Except String Unit := do
  refuseIf (session.lastSequence > maxCounter) "sequence over the ceiling"
  refuseIf (session.lastResult.isNone && session.lastSequence != 0)
    "consumed a sequence but saved no result"
  checkOption checkSavedReply session.lastResult

/-- `check_session_rows`. -/
def checkSessionRows (s : State) : Except String Unit :=
  s.sessions.checkRows fun _ session => checkSessionRow session

/-- How many intents are still under way. -/
def activeIntents (s : State) : ℕ := s.intents.countWhere fun _ i => !isTerminalPhase i.statusCode

section

variable (ext : Externals)

/-- `check_aggregate_counters`. -/
def checkAggregateCounters (s : State) : Except String Unit := do
  refuseIf (s.growthBytes != s.recomputeGrowth ext) "growth is not what the rows charge"
  refuseIf (s.reserveBytes != s.recomputeReserve) "reserve is not what the rows charge"

/-- A seed of a stored plan. -/
def checkStoredSeed (authority : GroupAuthority) (seed : MemberSeed) : Except String Unit := do
  refuseIf (!(checkMemberSeed seed.ticket.length (seed.joinPermit.map List.length)).isOk)
    "a seed over its limits"
  refuseIf (!(checkSeedTicket ext seed.ticket seed.nodeId).isOk)
    "a seed carries a ticket that is not a canonical ticket for it"
  refuseIf (seed.joinPermit.any fun permit =>
    !(verifyJoinPermit ext authority permit seed.nodeId).isOk)
    "a seed carries a join permit that does not verify"

/-- A stored plan. -/
def checkStoredPlan (s : State) (plan : MembershipPlan) : Except String Unit := do
  refuseIf (profilePermitsVoters s.deploymentProfileCode plan.desiredVoters.length)
    "plans voters the profile does not permit"
  refuseIf (plan.retainedLearners.length > maxRetainedLearners) "retains learners over the cap"
  refuseIf (!sortedUnique plan.desiredVoters) "unsorted or duplicated desired_voters"
  refuseIf (!sortedUnique plan.retainedLearners) "unsorted or duplicated retained_learners"
  refuseIf (!sortedUnique (plan.memberSeeds.map (·.nodeId))) "unsorted or duplicated member seeds"
  checkAll (checkStoredSeed ext s.authority) plan.memberSeeds

/-- `check_intent_rows`. -/
def checkIntentRows (s : State) : Except String Unit := do
  refuseIf (activeIntents s > 1) "one intent at a time"
  refuseIf (s.intents.size - activeIntents s > maxRetainedIntents)
    "terminal intents over the retention cap"
  s.intents.checkRows fun _ intent => checkStoredPlan ext s intent.plan

/-- `check_route_rows`. -/
def checkRouteRows (s : State) : Except String Unit :=
  s.routes.checkRows fun node route =>
    refuseIf (!(checkSeedTicket ext route.ticket node).isOk)
      "a ticket that is not a canonical ticket for the node"

/-- `within` of `check_stamped_log_ids`. -/
def checkWithin (lastApplied : Option LogId) (id : LogId) : Except String Unit :=
  match lastApplied with
  | none => .error "stamped with nothing applied"
  | some last => refuseIf (id.index > last.index) "stamped above last_applied"

/-- One intent of `check_stamped_log_ids`. -/
def checkStampedIntent (lastApplied : Option LogId) (intent : Intent) : Except String Unit := do
  checkWithin lastApplied intent.acceptedLogId
  checkOption (fun completed => do
    checkWithin lastApplied completed
    refuseIf (completed.index < intent.acceptedLogId.index) "completed before it was accepted")
    intent.completedLogId
  checkOption (checkWithin lastApplied) intent.observedMembershipLogId

/-- `check_stamped_log_ids`. -/
def checkStampedLogIds (s : State) : Except String Unit := do
  s.intents.checkRows fun _ intent => checkStampedIntent s.lastApplied intent
  s.routes.checkRows fun _ route => checkWithin s.lastApplied route.introducedLogId

/-- `INVARIANTS`: every rule by name, in the order a load applies them. -/
def rowInvariants : List (String × (DurableState → Except String Unit)) :=
  [("membership", checkRootNotAMember),
    ("table-row-caps", fun s => checkTableCaps s.model),
    ("grants-per-resource", fun s => checkGrantsPerResource s.model),
    ("sessions-per-actor", fun s => checkSessionsPerActor s.model),
    ("active-clients", fun s => checkActiveClients s.model),
    ("aggregate-counters", fun s => checkAggregateCounters ext s.model),
    ("audit-tip", fun s => checkAuditTip s.model),
    ("audit-floor", fun s => checkAuditFloor s.model),
    ("audit-key-order", fun s => checkAuditKeyOrder s.model),
    ("audit-row-shape", fun s => checkAuditRows s.model),
    ("resource-row-shape", fun s => checkResourceRows s.model),
    ("grant-row-shape", fun s => checkGrantRows s.model),
    ("admin-revision", fun s => checkAdminRevision s.model),
    ("session-row-shape", fun s => checkSessionRows s.model),
    ("intent-row-shape", fun s => checkIntentRows ext s.model),
    ("route-row-shape", fun s => checkRouteRows ext s.model),
    ("stamped-log-ids", fun s => checkStampedLogIds s.model)]

/-- A rule's refusal, under the rule's name. -/
def nameRefusal (name : String) : Except String Unit → Except Corrupt Unit
  | .ok () => .ok ()
  | .error detail => .error ⟨name, detail⟩

/-- `validate_rows`. -/
def validateRows (s : DurableState) : Except Corrupt Unit :=
  checkAll (fun rule : String × (DurableState → Except String Unit) =>
    nameRefusal rule.1 (rule.2 s)) (rowInvariants ext)

/-- `validate`. -/
def validate (s : DurableState) : Except Corrupt Unit := do
  validateMeta ext s
  validateRows ext s

end

end AsterRpc.Coordination

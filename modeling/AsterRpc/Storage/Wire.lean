import AsterRpc.Coordination.Boundary

/-!
# Rows on the wire

`model/wire.rs`: the stored form of every row and the conversion both ways.
Widening always succeeds, except for a plan whose ticket is not text; narrowing
refuses a row that no command could have written.  What narrowing demands of a
row beyond its widths is said once per row, as the condition under which a row
survives its own round trip.
-/

namespace AsterRpc.Coordination

open AsterRpc.Foundation

/-! ### Stored rows -/

structure ResourceRowV1 where
  epoch : ℕ
  held : Bool
  holderNodeId : Option Bytes
  ttlMs : ℕ
  leaseRevision : ℕ
  valueRevision : ℕ
  value : Bytes
  aclRevision : ℕ
deriving DecidableEq

structure SavedSnapshotV1 where
  groupId : Bytes
  resource : ResourceKeyV1
  epoch : ℕ
  holder : Option Bytes
  held : Bool
  ttlMs : ℕ
  leaseRevision : ℕ
  valueRevision : ℕ
  aclRevision : ℕ
deriving DecidableEq

structure SavedReplyV1 where
  dispositionCode : Int
  outcomeCode : Int
  reasonCode : Int
  snapshot : Option SavedSnapshotV1
  aclRevision : ℕ
  adminRevision : ℕ
  operationId : Option Bytes
  membershipLogId : Option LogIdV1
deriving DecidableEq

structure ClientSessionV1 where
  lastSequence : ℕ
  requestHash : Bytes
  lastResult : Option SavedReplyV1
  retired : Bool
deriving DecidableEq

structure MembershipIntentV1 where
  actorNodeId : Bytes
  requestHash : Bytes
  expectedMembership : Option LogIdV1
  desiredPlan : ChangeMembershipActionV1
  statusCode : Int
  resultCode : Int
  acceptedLogId : LogIdV1
  completedLogId : Option LogIdV1
  observedMembershipLogId : Option LogIdV1
deriving DecidableEq

structure NodeRouteV1 where
  ticketBytes : Bytes
  sourceOperationId : Bytes
  introducedLogId : LogIdV1

structure AuditRowV1 where
  leaderNodeId : Bytes
  actorNodeId : Option Bytes
  operationCode : Int
  resource : Option ResourceKeyV1
  resultCode : Int
  epoch : ℕ
  valueRevision : ℕ
deriving DecidableEq

inductive WireError where
  | nodeIdWidth
  | operationIdWidth
  | hashWidth
  | resourceKey
  | outcomeCode
  | reasonCode
  | dispositionCode
  | phaseCode
  | ticketEncoding
  | leaseIncoherent
  | intentCompletionIncoherent
  | groupMismatch
  | keyMismatch

/-! ### Fields -/

/-- Narrow an optional field; an absent one is fine. -/
def narrowOption {ε α β : Type} (narrow : α → Except ε β) : Option α → Except ε (Option β)
  | some a => do
    let b ← narrow a
    .ok (some b)
  | none => .ok none

@[simp] theorem narrowOption_map {ε α β : Type} {narrow : α → Except ε β} {widen : β → α}
    (h : ∀ b, narrow (widen b) = .ok b) (o : Option β) :
    narrowOption narrow (o.map widen) = .ok o := by
  cases o with
  | none => rfl
  | some =>
    simp only [narrowOption, Option.map_some, h]
    rfl

namespace Wire

def nodeId (bytes : Bytes) : Except WireError NodeId :=
  requireSome (FixedBytes.fromSlice 32 bytes) .nodeIdWidth

def operationId (bytes : Bytes) : Except WireError OperationId :=
  requireSome (FixedBytes.fromSlice 16 bytes) .operationIdWidth

def hash (bytes : Bytes) : Except WireError Hash :=
  requireSome (FixedBytes.fromSlice 32 bytes) .hashWidth

def resourceKey (wire : ResourceKeyV1) : Except WireError ResourceKey :=
  match ResourceKey.new wire.ns wire.key with
  | .ok k => .ok k
  | .error _ => .error .resourceKey

@[simp] theorem nodeId_bytes (x : NodeId) : nodeId x.bytes = .ok x := by simp [nodeId]

@[simp] theorem operationId_bytes (x : OperationId) : operationId x.bytes = .ok x := by
  simp [operationId]

@[simp] theorem hash_bytes (x : Hash) : Wire.hash x.bytes = .ok x := by simp [Wire.hash]

end Wire

def ResourceKey.toWire (k : ResourceKey) : ResourceKeyV1 := ⟨k.ns, k.key⟩

def LogId.fromWire (id : LogIdV1) : Except WireError LogId := do
  let leader ← Wire.nodeId id.leaderNodeId
  .ok ⟨id.term, leader, id.index⟩

@[simp] theorem LogId.fromWire_toWire (id : LogId) : LogId.fromWire id.toWire = .ok id := by
  simp [LogId.fromWire, LogId.toWire]

/-! ### Resource rows -/

def ResourceRow.toWire (row : ResourceRow) : ResourceRowV1 where
  epoch := row.epoch
  held := row.held
  holderNodeId := row.holder.map (·.bytes)
  ttlMs := row.ttlMs
  leaseRevision := row.leaseRevision
  valueRevision := row.valueRevision
  value := row.value
  aclRevision := row.aclRevision

def ResourceRow.fromWire (row : ResourceRowV1) : Except WireError ResourceRow := do
  let holder ← narrowOption Wire.nodeId row.holderNodeId
  refuseIf (row.held != holder.isSome) .leaseIncoherent
  .ok
    { epoch := row.epoch
      held := row.held
      holder := holder
      ttlMs := row.ttlMs
      leaseRevision := row.leaseRevision
      valueRevision := row.valueRevision
      value := row.value
      aclRevision := row.aclRevision }

/-- A row narrows exactly when it is held by somebody or by nobody, and then to itself. -/
theorem ResourceRow.fromWire_toWire {row x : ResourceRow} :
    ResourceRow.fromWire row.toWire = .ok x ↔ row.held = row.holder.isSome ∧ row = x := by
  simp [ResourceRow.fromWire, ResourceRow.toWire]

/-! ### Saved replies and journals -/

def SavedSnapshot.toWire (groupId : Bytes) (saved : SavedSnapshot) : SavedSnapshotV1 where
  groupId := groupId
  resource := saved.resource.toWire
  epoch := saved.epoch
  holder := saved.holder.map (·.bytes)
  held := saved.held
  ttlMs := saved.ttlMs
  leaseRevision := saved.leaseRevision
  valueRevision := saved.valueRevision
  aclRevision := saved.aclRevision

def SavedSnapshot.fromWire (groupId : Bytes) (wire : SavedSnapshotV1) :
    Except WireError SavedSnapshot := do
  refuseIf (wire.groupId != groupId) .groupMismatch
  let holder ← narrowOption Wire.nodeId wire.holder
  refuseIf (wire.held != holder.isSome) .leaseIncoherent
  let resource ← Wire.resourceKey wire.resource
  .ok
    { resource := resource
      epoch := wire.epoch
      holder := holder
      held := wire.held
      ttlMs := wire.ttlMs
      leaseRevision := wire.leaseRevision
      valueRevision := wire.valueRevision
      aclRevision := wire.aclRevision }

def storedDisposition : Disposition := .consumed

def SavedReply.toWire (groupId : Bytes) (reply : SavedReply) : SavedReplyV1 where
  dispositionCode := storedDisposition.code
  outcomeCode := reply.outcome.code
  reasonCode := reply.reason.code
  snapshot := reply.snapshot.map (SavedSnapshot.toWire groupId)
  aclRevision := reply.aclRevision
  adminRevision := reply.adminRevision
  operationId := reply.operationId.map (·.bytes)
  membershipLogId := reply.membershipLogId.map LogId.toWire

def SavedReply.fromWire (groupId : Bytes) (wire : SavedReplyV1) : Except WireError SavedReply := do
  refuseIf (wire.dispositionCode != storedDisposition.code) .dispositionCode
  let snapshot ← narrowOption (SavedSnapshot.fromWire groupId) wire.snapshot
  let outcome ← requireSome (Outcome.fromCode wire.outcomeCode) .outcomeCode
  let reason ← requireSome (Reason.fromCode wire.reasonCode) .reasonCode
  let operationId ← narrowOption Wire.operationId wire.operationId
  let membershipLogId ← narrowOption LogId.fromWire wire.membershipLogId
  .ok
    { outcome := outcome
      reason := reason
      snapshot := snapshot
      aclRevision := wire.aclRevision
      adminRevision := wire.adminRevision
      operationId := operationId
      membershipLogId := membershipLogId }

def Session.toWire (groupId : Bytes) (session : Session) : ClientSessionV1 where
  lastSequence := session.lastSequence
  requestHash := session.requestHash.bytes
  lastResult := session.lastResult.map (SavedReply.toWire groupId)
  retired := session.retired

def Session.fromWire (groupId : Bytes) (wire : ClientSessionV1) : Except WireError Session := do
  let requestHash ← Wire.hash wire.requestHash
  let lastResult ← narrowOption (SavedReply.fromWire groupId) wire.lastResult
  .ok ⟨wire.lastSequence, requestHash, lastResult, wire.retired⟩

/-! ### Intents -/

/-- `plan_from_wire`. -/
def planFromWire (wire : ChangeMembershipActionV1) :
    Except WireError (OperationId × Option LogId × MembershipPlan) := do
  let seeds ← narrowAll (fun seed : MemberSeedV1 => do
    let node ← Wire.nodeId seed.nodeId
    .ok ⟨node, seed.ticket, seed.signedJoinPermit⟩) wire.memberSeeds
  let operationId ← Wire.operationId wire.operationId
  let expected ← narrowOption LogId.fromWire wire.expectedMembershipLogId
  let voters ← narrowAll (fun n : NodeIdV1 => Wire.nodeId n.nodeId) wire.desiredVoters
  let learners ← narrowAll (fun n : NodeIdV1 => Wire.nodeId n.nodeId) wire.retainedLearners
  .ok (operationId, expected, ⟨voters, learners, seeds⟩)

/-- `intent_to_wire`. -/
def Intent.toWire (operationId : OperationId) (intent : Intent) :
    Except WireError MembershipIntentV1 := do
  let plan ← requireSome (planToWire intent.plan operationId intent.expectedMembership)
    .ticketEncoding
  .ok
    { actorNodeId := intent.actor.bytes
      requestHash := intent.requestHash.bytes
      expectedMembership := intent.expectedMembership.map LogId.toWire
      desiredPlan := plan
      statusCode := intent.statusCode
      resultCode := intent.resultCode
      acceptedLogId := intent.acceptedLogId.toWire
      completedLogId := intent.completedLogId.map LogId.toWire
      observedMembershipLogId := intent.observedMembershipLogId.map LogId.toWire }

/-- `intent_from_wire`. -/
def Intent.fromWire (operationId : OperationId) (wire : MembershipIntentV1) :
    Except WireError Intent := do
  let (planOperationId, planExpected, plan) ← planFromWire wire.desiredPlan
  refuseIf (planOperationId != operationId) .keyMismatch
  let expected ← narrowOption LogId.fromWire wire.expectedMembership
  refuseIf (planExpected != expected) .keyMismatch
  refuseIf (!phases.contains wire.statusCode) .phaseCode
  let completed ← narrowOption LogId.fromWire wire.completedLogId
  refuseIf (isTerminalPhase wire.statusCode != completed.isSome) .intentCompletionIncoherent
  let actor ← Wire.nodeId wire.actorNodeId
  let requestHash ← Wire.hash wire.requestHash
  let accepted ← LogId.fromWire wire.acceptedLogId
  let observed ← narrowOption LogId.fromWire wire.observedMembershipLogId
  .ok
    { actor := actor
      requestHash := requestHash
      expectedMembership := expected
      plan := plan
      statusCode := wire.statusCode
      resultCode := wire.resultCode
      acceptedLogId := accepted
      completedLogId := completed
      observedMembershipLogId := observed }

/-- What narrowing demands of an intent: a known phase, and a completion exactly when terminal. -/
@[mk_iff]
structure Intent.Coherent (intent : Intent) : Prop where
  phase : intent.statusCode ∈ phases
  completed : isTerminalPhase intent.statusCode = intent.completedLogId.isSome

theorem planFromWire_planToWire {plan : MembershipPlan} {operationId : OperationId}
    {expected : Option LogId} {wire : ChangeMembershipActionV1}
    (h : planToWire plan operationId expected = some wire) :
    planFromWire wire = .ok (operationId, expected, plan) := by
  unfold planToWire at h
  split_ifs at h with htext
  cases h
  have hseeds : narrowAll (fun seed : MemberSeedV1 => do
      let node ← Wire.nodeId seed.nodeId
      (.ok ⟨node, seed.ticket, seed.signedJoinPermit⟩ : Except WireError MemberSeed))
      (plan.memberSeeds.map fun s => ⟨s.nodeId.bytes, s.ticket, s.joinPermit⟩) =
        .ok plan.memberSeeds := by
    refine narrowAll_map _ (fun seed => ?_) plan.memberSeeds
    simp
  have hnodes : ∀ ids : List NodeId, narrowAll (fun n : NodeIdV1 => Wire.nodeId n.nodeId)
      (ids.map fun n => ⟨n.bytes⟩) = .ok ids := fun ids =>
    narrowAll_map (fun n : NodeId => (⟨n.bytes⟩ : NodeIdV1)) Wire.nodeId_bytes ids
  simp only [planFromWire, hseeds, hnodes, Wire.operationId_bytes,
    narrowOption_map LogId.fromWire_toWire]
  rfl

/-- An intent narrows exactly when it is coherent, and then to itself. -/
theorem Intent.fromWire_toWire {operationId : OperationId} {intent x : Intent}
    {wire : MembershipIntentV1} (h : intent.toWire operationId = .ok wire) :
    Intent.fromWire operationId wire = .ok x ↔ intent.Coherent ∧ intent = x := by
  simp only [Intent.toWire, accepts_iff] at h
  obtain ⟨plan, hplan, rfl⟩ := h
  simp only [Intent.fromWire, planFromWire_planToWire hplan, accepts_iff, exists_eq_left', true_and,
    narrowOption_map LogId.fromWire_toWire, Wire.nodeId_bytes, Wire.hash_bytes,
    LogId.fromWire_toWire, List.contains_iff_mem, Intent.coherent_iff, and_assoc]

/-! ### Routes and audit rows -/

def Route.toWire (route : Route) : NodeRouteV1 where
  ticketBytes := route.ticket
  sourceOperationId := route.sourceOperationId.bytes
  introducedLogId := route.introducedLogId.toWire

def Route.fromWire (wire : NodeRouteV1) : Except WireError Route := do
  let operationId ← Wire.operationId wire.sourceOperationId
  let introduced ← LogId.fromWire wire.introducedLogId
  .ok ⟨wire.ticketBytes, operationId, introduced⟩

def AuditRow.toWire (row : AuditRow) : AuditRowV1 where
  leaderNodeId := row.leaderNodeId.bytes
  actorNodeId := row.actor.map (·.bytes)
  operationCode := row.operationCode
  resource := row.resource.map ResourceKey.toWire
  resultCode := row.result.code
  epoch := row.epoch
  valueRevision := row.valueRevision

/-- The code space of a stored result is read off the operation. -/
def auditResultFromWire (operationCode resultCode : Int) : Except WireError AuditResult :=
  if isSystemOperation operationCode then .ok (.system resultCode)
  else do
    let outcome ← requireSome (Outcome.fromCode resultCode) .outcomeCode
    .ok (.client outcome)

def AuditRow.fromWire (row : AuditRowV1) : Except WireError AuditRow := do
  let resource ← narrowOption Wire.resourceKey row.resource
  let leader ← Wire.nodeId row.leaderNodeId
  let actor ← narrowOption Wire.nodeId row.actorNodeId
  let result ← auditResultFromWire row.operationCode row.resultCode
  .ok
    { leaderNodeId := leader
      actor := actor
      operationCode := row.operationCode
      resource := resource
      result := result
      epoch := row.epoch
      valueRevision := row.valueRevision }

def AuditResult.isClient : AuditResult → Bool
  | .client _ => true
  | .system _ => false

end AsterRpc.Coordination

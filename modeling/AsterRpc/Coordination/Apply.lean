import AsterRpc.Coordination.Classify
import AsterRpc.Coordination.Retire
import AsterRpc.Coordination.Tables

/-!
# Applying a command

`model/apply.rs`: one committed command against the state.  A client command is
classified against its journal first; only an unresolved one is decided, and
only then is a journal row written.  Every command that is not a fault writes
exactly one audit row.
-/

namespace AsterRpc.Coordination

open AsterRpc.Foundation

/-! ### Requests -/

structure ClientRef where
  actor : NodeId
  clientId : ClientId
  sequence : ℕ
  requestHash : Hash
deriving DecidableEq

/-- The journal a request belongs to. -/
def ClientRef.key (client : ClientRef) : SessionKey := (client.actor, client.clientId)

inductive Action where
  | resource (action : ResourceAction)
  | grant (action : GrantAction)
  | admin (action : AdminAction)
  | changeMembership (action : ChangeMembershipAction)
  | cancelMembership (action : CancelMembershipAction)
deriving DecidableEq

/-- What a decided action asks to be written. -/
inductive ActionVerdict where
  | resource (effect : ResourceEffect)
  | grant (verdict : GrantVerdict)
  | admin (verdict : AdminVerdict)
  | membership (verdict : MembershipVerdict)

def ResourceAction.operationCode : ResourceAction → Int
  | acquire _ _ => 1
  | renew _ => 2
  | compareAndSet _ _ _ => 3
  | release _ => 4
  | releaseWithValue _ _ _ => 5
  | revoke _ _ => 6

namespace Action

def operationCode : Action → Int
  | resource action => action.operationCode
  | grant _ => 7
  | admin _ => 8
  | changeMembership _ => 9
  | cancelMembership _ => 11

def operationId : Action → Option OperationId
  | changeMembership m => some m.operationId
  | cancelMembership m => some m.operationId
  | _ => none

/-- The key an action names, if it is well formed. -/
def validatedResource : Action → Option ResourceKey
  | resource r => r.rawResource.validate.toOption
  | grant g => g.resource.validate.toOption
  | _ => none

/-- `Action::decide`. -/
def decide (ext : Externals) (s : State) (actor : NodeId) (requestHash : Hash) :
    Action → Decision ActionVerdict
  | resource r => (decideResource s actor r).map .resource
  | grant g => (decideGrant s actor g).map .grant
  | admin a => (decideAdmin s actor a).map .admin
  | changeMembership m => (decideChange ext s actor requestHash m).map .membership
  | cancelMembership m => (decideCancel s actor m).map fun e => .membership (.apply e)

end Action

/-! ### Replies and faults -/

structure ClientResult where
  disposition : Disposition
  reply : SavedReply
  replayed : Bool
deriving DecidableEq

structure SystemResult where
  systemResultCode : Int
  leaseRevision : ℕ
deriving DecidableEq

structure RetirementResult where
  outcome : Outcome
  reason : Reason
deriving DecidableEq

inductive CommandReply where
  | client (result : ClientResult)
  | system (result : SystemResult)
  | retirement (result : RetirementResult)
deriving DecidableEq

/-- Why a genesis entry is fatal. -/
inductive GenesisRefusal where
  | notVerified (error : GenesisError)
  | otherGroup
  | otherDocument
  | otherProfile
  | jointMembership
  | learners
  | initialVoters
deriving DecidableEq

inductive Fault where
  | logIdNotAdvancing (delivered lastApplied : LogId)
  | unknownCommand
  | auditAheadOfLastApplied (auditTip : LogId) (lastApplied : Option LogId)
  | genesisRefused (refusal : GenesisRefusal)
deriving DecidableEq

/-- `rejection`: the reply of a refused request, with the row it was refused on. -/
def rejection (s : State) (resource : Option ResourceKey) (reason : Reason) : SavedReply :=
  let snapshot := resource.map fun key => SavedSnapshot.of key (s.resources[key]?.getD default)
  { outcome := .rejected
    reason := reason
    snapshot := snapshot
    aclRevision := (snapshot.map (·.aclRevision)).getD 0
    adminRevision := s.adminRevision
    operationId := none
    membershipLogId := none }

/-- The reply of `consumed_success`. -/
def successReply (outcome : Outcome) (key : ResourceKey) (row : ResourceRow) : SavedReply where
  outcome := outcome
  reason := .none
  snapshot := some (SavedSnapshot.of key row)
  aclRevision := row.aclRevision
  adminRevision := 0
  operationId := none
  membershipLogId := none

def adminReply (adminRevision : ℕ) : SavedReply where
  outcome := .adminUpdated
  reason := .none
  snapshot := none
  aclRevision := 0
  adminRevision := adminRevision
  operationId := none
  membershipLogId := none

def noOpGrantReply (s : State) (resource : Option ResourceKey) (aclRevision : ℕ) : SavedReply where
  outcome := .grantUpdated
  reason := .none
  snapshot := resource.bind fun key => s.resources[key]?.map (SavedSnapshot.of key)
  aclRevision := aclRevision
  adminRevision := 0
  operationId := none
  membershipLogId := none

def membershipReply (outcome : Outcome) (operationId : Option OperationId)
    (membershipLogId : Option LogId) : SavedReply where
  outcome := outcome
  reason := .none
  snapshot := none
  aclRevision := 0
  adminRevision := 0
  operationId := operationId
  membershipLogId := membershipLogId

/-! ### Admission -/

inductive StatusDenial where
  | notAuthorized
  | shape (limit : ShapeLimit)

inductive Admission where
  | resolved (result : ClientResult)
  | deny (reason : RefusalReason)
  | status (denial : StatusDenial)
  | admitted

/-- `project` and `project_refusal`. -/
def project : Decision ActionVerdict → Admission
  | .ok _ => .admitted
  | .error (.refuseShapeless limit) => .status (.shape limit)
  | .error (.refuse reason) =>
    if reason = .permissionChanged then .status .notAuthorized
    else if reason.isAdmissionDenial then .deny reason
    else .admitted

/-- What the journal says about a request. -/
def classifyClient (s : State) (client : ClientRef) : Classification :=
  classify s.sessions[client.key]? client.sequence client.requestHash (s.capacityFor client.actor)

/-- `preflight`: what the leader answers before proposing anything. -/
def preflight (ext : Externals) (s : State) (client : ClientRef) (action : Action) : Admission :=
  match classifyClient s client with
  | .replay _ saved => .resolved ⟨.consumed, saved, true⟩
  | .refuse _ reason => .resolved ⟨.notConsumed, rejection s action.validatedResource reason, false⟩
  | .unresolved _ _ => project (action.decide ext s client.actor client.requestHash)

/-! ### Commands -/

inductive ReplyShape where
  | client
  | retirement
  | system
deriving DecidableEq

structure ShapelessCommand where
  operationCode : Int
  replyShape : ReplyShape
  systemResultCode : Int
  actor : Option NodeId
  resource : Option ResourceKey
deriving DecidableEq

inductive Command where
  | unknown
  | client (client : ClientRef) (action : Action)
  | rejectedClient (client : ClientRef) (operationCode : Int) (resource : Option ResourceKey)
  | shapeless (command : ShapelessCommand)
  | expire (command : ExpireCommand)
  | membershipProgress (command : MembershipProgressCommand)
  | retireClient (command : RetireCommand)
  | genesis (signedGenesis : Bytes)
deriving DecidableEq

/-- `is_system_operation`. -/
def isSystemOperation (operationCode : Int) : Bool :=
  operationCode == operationExpire || operationCode == operationMembershipProgress ||
    operationCode == operationGenesis

/-! ### Deliveries -/

/-- `guard_delivery`: log indices advance, and the audit trail is not ahead of the log. -/
def guardDelivery (s : State) (logId : LogId) : Except Fault Unit := do
  match s.lastApplied with
  | some last => refuseIf (logId.index ≤ last.index) (.logIdNotAdvancing logId last)
  | none => .ok ()
  match s.auditTip with
  | some tip =>
    refuseIf (!s.lastApplied.any fun last => tip.index < last.index || tip == last)
      (.auditAheadOfLastApplied tip s.lastApplied)
  | none => .ok ()

section Apply

variable (ext : Externals)

/-- The arms of `apply_decided` that accept. -/
def applyVerdict (w : Working) (logId : LogId) (action : Action) :
    ActionVerdict → Working × SavedReply
  | .resource e => (w.writeResource e.key e.row, successReply e.outcome e.key e.row)
  | .grant (.apply e) =>
    ((w.writeResource e.key e.row).writeGrant e, successReply .grantUpdated e.key e.row)
  | .grant (.noOp aclRevision) =>
    (w, noOpGrantReply w.state action.validatedResource aclRevision)
  | .admin (.apply e) => (w.writeAdmin e, adminReply e.adminRevision)
  | .admin (.noOp adminRevision) => (w, adminReply adminRevision)
  | .membership (.apply e) =>
    (w.writeIntent ext logId e,
      membershipReply e.outcome (some e.operationId) w.state.membershipLogId)
  | .membership (.existing _) =>
    (w, membershipReply .membershipAccepted action.operationId w.state.membershipLogId)

/-- `apply_decided`. -/
def applyDecided (w : Working) (logId : LogId) (client : ClientRef) (action : Action) :
    Working × SavedReply :=
  match action.decide ext w.state client.actor client.requestHash with
  | .ok verdict => applyVerdict ext w logId action verdict
  | .error (.refuse reason) => (w, rejection w.state action.validatedResource reason.get)
  | .error (.refuseShapeless _) => (w, rejection w.state action.validatedResource .none)

/-- `write_session`. -/
def writeSession (w : Working) (client : ClientRef) (reply : SavedReply) : Working :=
  w.writeSessionRow client.key
    (Working.sessionRow w.state.sessions[client.key]? client.sequence client.requestHash reply)

/-- The audit row of a client command. -/
def clientAuditRow (logId : LogId) (client : ClientRef) (reply : SavedReply) (action : Action) :
    AuditRow where
  leaderNodeId := logId.leaderNodeId
  actor := some client.actor
  operationCode := action.operationCode
  resource := reply.resource
  result := .client reply.outcome
  epoch := (reply.snapshot.map (·.epoch)).getD 0
  valueRevision := (reply.snapshot.map (·.valueRevision)).getD 0

/-- `apply_client`. -/
def applyClient (w : Working) (logId : LogId) (client : ClientRef) (action : Action) :
    Working × ClientResult :=
  match classifyClient w.state client with
  | .replay _ saved =>
    (w.writeAuditRow logId (clientAuditRow logId client saved action), ⟨.consumed, saved, true⟩)
  | .refuse _ reason =>
    let reply := rejection w.state action.validatedResource reason
    (w.writeAuditRow logId (clientAuditRow logId client reply action), ⟨.notConsumed, reply, false⟩)
  | .unresolved _ _ =>
    let decided := applyDecided ext w logId client action
    ((writeSession decided.1 client decided.2).writeAuditRow logId
      (clientAuditRow logId client decided.2 action), ⟨.consumed, decided.2, false⟩)

/-- The audit row of a client command whose action could not be read. -/
def rejectedAuditRow (logId : LogId) (client : ClientRef) (operationCode : Int)
    (reply : SavedReply) : AuditRow where
  leaderNodeId := logId.leaderNodeId
  actor := some client.actor
  operationCode := operationCode
  resource := reply.resource
  result := .client reply.outcome
  epoch := 0
  valueRevision := 0

/-- `apply_rejected_client`. -/
def applyRejectedClient (w : Working) (logId : LogId) (client : ClientRef) (operationCode : Int)
    (resource : Option ResourceKey) : Working × ClientResult :=
  match classifyClient w.state client with
  | .replay _ saved =>
    (w.writeAuditRow logId (rejectedAuditRow logId client operationCode saved),
      ⟨.consumed, saved, true⟩)
  | .refuse _ reason =>
    let reply := rejection w.state resource reason
    (w.writeAuditRow logId (rejectedAuditRow logId client operationCode reply),
      ⟨.notConsumed, reply, false⟩)
  | .unresolved _ _ =>
    let reply := rejection w.state resource .none
    ((writeSession w client reply).writeAuditRow logId
      (rejectedAuditRow logId client operationCode reply), ⟨.consumed, reply, false⟩)

/-- The audit row of a command that could not be read at all. -/
def shapelessAuditRow (logId : LogId) (command : ShapelessCommand) : AuditRow where
  leaderNodeId := logId.leaderNodeId
  actor := match command.replyShape with
    | .system => some logId.leaderNodeId
    | _ => command.actor
  operationCode := command.operationCode
  resource := command.resource
  result := match command.replyShape with
    | .system => .system command.systemResultCode
    | _ => .client .rejected
  epoch := 0
  valueRevision := 0

def shapelessReply (s : State) (command : ShapelessCommand) : CommandReply :=
  match command.replyShape with
  | .client => .client ⟨.notConsumed, rejection s command.resource .none, false⟩
  | .retirement => .retirement ⟨.rejected, .none⟩
  | .system => .system ⟨command.systemResultCode, 0⟩

/-- `apply_shapeless`. -/
def applyShapeless (w : Working) (logId : LogId) (command : ShapelessCommand) :
    Working × CommandReply :=
  (w.writeAuditRow logId (shapelessAuditRow logId command), shapelessReply w.state command)

/-- The journal write of `apply_retire`, if the decision asks for one. -/
def writeRetirement (w : Working) (command : RetireCommand) : Working :=
  match decideRetire w.state command with
  | .ok effect =>
    match retireEffectRow w.state command effect with
    | some row => w.writeSessionRow command.target row
    | none => w
  | .error _ => w

def retireResult : RetireDecision → RetirementResult
  | .ok _ => ⟨.clientRetired, .none⟩
  | .error reason => ⟨.rejected, reason.get⟩

def retireAuditRow (logId : LogId) (command : RetireCommand) (outcome : Outcome) : AuditRow where
  leaderNodeId := logId.leaderNodeId
  actor := some command.actor
  operationCode := operationRetireClient
  resource := none
  result := .client outcome
  epoch := 0
  valueRevision := 0

/-- `apply_retire`. -/
def applyRetire (w : Working) (logId : LogId) (command : RetireCommand) :
    Working × RetirementResult :=
  let result := retireResult (decideRetire w.state command)
  ((writeRetirement w command).writeAuditRow logId (retireAuditRow logId command result.outcome),
    result)

/-- An audit row of the leader's own reports. -/
def systemAuditRow (logId : LogId) (operationCode : Int) (resource : Option ResourceKey)
    (code : Int) (epoch : ℕ) : AuditRow where
  leaderNodeId := logId.leaderNodeId
  actor := some logId.leaderNodeId
  operationCode := operationCode
  resource := resource
  result := .system code
  epoch := epoch
  valueRevision := 0

/-- `apply_expire`. -/
def applyExpire (w : Working) (logId : LogId) (command : ExpireCommand) :
    Working × SystemResult :=
  let decision := decideExpire w.state command
  let written := match decision with
    | .apply row => w.putResource command.resource row
    | .stale => w
  let row := written.state.resources[command.resource]?.getD default
  (written.writeAuditRow logId
    (systemAuditRow logId operationExpire (some command.resource) decision.systemResultCode
      row.epoch), ⟨decision.systemResultCode, row.leaseRevision⟩)

/-- `apply_membership_progress`. -/
def applyMembershipProgress (w : Working) (logId : LogId) (command : MembershipProgressCommand) :
    Working × SystemResult :=
  let effect := decideProgress w.state command
  let written := match effect with
    | some effect => w.writeIntent ext logId effect
    | none => w
  let code := progressResultCode effect.isSome
  (written.writeAuditRow logId (systemAuditRow logId operationMembershipProgress none code 0),
    ⟨code, 0⟩)

/-- The checks of `apply_genesis` that hold for every delivery of the document. -/
def checkGenesis (s : State) (signedGenesis : Bytes) : Except GenesisRefusal VerifiedGenesis := do
  let verified ← match verifyGenesis ext s.authority.publicKey s.authority.domain signedGenesis with
    | .ok verified => .ok verified
    | .error e => .error (.notVerified e)
  refuseIf (verified.groupId != s.authority.groupId) .otherGroup
  refuseIf (verified.genesisHash != s.authority.genesisHash) .otherDocument
  refuseIf (verified.deploymentProfileCode != s.deploymentProfileCode) .otherProfile
  .ok verified

/-- The further checks of its first delivery. -/
def checkInstall (s : State) (verified : VerifiedGenesis) : Except GenesisRefusal Unit := do
  refuseIf s.membership.joint .jointMembership
  refuseIf (s.membership.learners != ∅) .learners
  refuseIf ((verified.initialVoters.map (·.nodeId)).toFinset != s.membership.voters) .initialVoters

/-- The first delivery: install the administrators and start the revision. -/
def installGenesis (w : Working) (verified : VerifiedGenesis) : Working :=
  let put := verified.initialAdmins.foldl Working.putAdmin w
  let revised := { put with state := { put.state with adminRevision := 1 } }
  { revised with
    state := { revised.state with growthBytes := revised.state.recomputeGrowth ext } }

/-- `apply_genesis`; a fault leaves the state as it was. -/
def applyGenesis (w : Working) (logId : LogId) (signedGenesis : Bytes) :
    Except Fault (Working × SystemResult) :=
  match checkGenesis ext w.state signedGenesis with
  | .error refusal => .error (.genesisRefused refusal)
  | .ok verified =>
    if w.state.adminRevision > 0 then
      .ok (w.writeAuditRow logId
        (systemAuditRow logId operationGenesis none sysGenesisAlreadyInstalled 0),
        ⟨sysGenesisAlreadyInstalled, 0⟩)
    else
      match checkInstall w.state verified with
      | .error refusal => .error (.genesisRefused refusal)
      | .ok () =>
        .ok ((installGenesis ext w verified).writeAuditRow logId
          (systemAuditRow logId operationGenesis none sysGenesisInstalled 0),
          ⟨sysGenesisInstalled, 0⟩)

/-- The dispatch of `apply_command_recording`. -/
def dispatch (w : Working) (logId : LogId) : Command → Except Fault (Working × CommandReply)
  | .unknown => .error .unknownCommand
  | .client client action =>
    let applied := applyClient ext w logId client action
    .ok (applied.1, .client applied.2)
  | .rejectedClient client operationCode resource =>
    let applied := applyRejectedClient w logId client operationCode resource
    .ok (applied.1, .client applied.2)
  | .shapeless command => .ok (applyShapeless w logId command)
  | .expire command =>
    let applied := applyExpire w logId command
    .ok (applied.1, .system applied.2)
  | .membershipProgress command =>
    let applied := applyMembershipProgress ext w logId command
    .ok (applied.1, .system applied.2)
  | .retireClient command =>
    let applied := applyRetire w logId command
    .ok (applied.1, .retirement applied.2)
  | .genesis signedGenesis =>
    (applyGenesis ext w logId signedGenesis).map fun applied => (applied.1, .system applied.2)

/-- Record the delivered log id as applied. -/
def Working.setLastApplied (w : Working) (logId : LogId) : Working :=
  { w with state := { w.state with lastApplied := some logId } }

/-- `apply_command_recording`; no fault is raised after a first write. -/
def applyCommandRecording (w : Working) (logId : LogId) (command : Command) :
    Working × Except Fault CommandReply :=
  match guardDelivery w.state logId with
  | .error fault => (w, .error fault)
  | .ok () =>
    match dispatch ext w logId command with
    | .error fault => (w, .error fault)
    | .ok (written, reply) => (written.setLastApplied logId, .ok reply)

/-- `apply_command`. -/
def applyCommand (s : State) (logId : LogId) (command : Command) :
    State × Except Fault CommandReply :=
  let applied := applyCommandRecording ext (Working.start s) logId command
  (applied.1.state, applied.2)

end Apply

end AsterRpc.Coordination

import AsterRpc.Coordination.Preflight
import AsterRpc.Coordination.Boundary

/-!
# The Store host

`store/host.rs`, `mutation`: how a voter that leads the group answers a
sequenced mutation.  The journal is consulted first, then the admission rules,
then what the host itself refuses under pressure, and only then is a command
proposed and its applied reply sent back.

The host waits for a read barrier before it looks at the state; that the barrier
was passed is assumed.  Metrics are left out.
-/

namespace AsterRpc.Coordination

open AsterRpc.Foundation

/-! ### Statuses and replies -/

inductive StatusCode where
  | invalidArgument
  | permissionDenied
  | resourceExhausted
  | unavailable
  | internal
deriving DecidableEq

structure RpcStatus where
  code : StatusCode
  message : String
deriving DecidableEq

def ShapeLimit.describe : ShapeLimit → String
  | .namespaceInvalid => "namespace is not a valid coordination namespace"
  | .resourceKey => "resource key is not a valid coordination key"
  | .value => "resource value exceeds its limit"
  | .ttl => "ttl_ms is outside the v1 bounds"
  | .rightsBits => "rights carry a bit v1 does not define"
  | .encodedCommand => "the encoded command exceeds its limit"
  | .memberSeedTicket => "a member seed ticket exceeds its limit"
  | .memberSeedJoinPermit => "a signed join permit exceeds its limit"
  | .nodeIdWidth => "a node id is not 32 bytes"
  | .fenceGroupWidth => "a fence group id is not 32 bytes"
  | .clientIdWidth => "a client or operation id is not 16 bytes"
  | .requestHashWidth => "the request hash is not 32 bytes"
  | .requestHashMismatch => "the request hash does not match its action"
  | .membershipPlanSize => "the membership plan is outside the v1 shape"
  | .membershipPlanOrder => "a membership plan node vector is not sorted and unique"
  | .membershipPlanRoot => "a membership plan names the deployment ROOT as a member"
  | .memberSeedUnknownNode => "a member seed names a node the plan does not contain"
  | .memberSeedPermit => "a member seed's join permit does not match its node's status"
  | .memberSeedTicketEmpty => "a member seed carries no ticket"
  | .memberSeedTicketInvalid => "a member seed ticket is not a canonical Aster ticket"
  | .memberSeedTicketCredential => "a member seed ticket carries a credential"
  | .memberSeedTicketNode => "a member seed ticket is for another node"
  | .memberSeedTicketNonCanonical => "a member seed ticket is not its own canonical encoding"
  | .membershipNewVoters => "a membership plan adds more than two new voters at once"

/-- `STORE_PROTOCOL_VERSION`. -/
def storeProtocolVersion : Int := 1

/-- `MutationReplyWireV1`. -/
structure MutationReplyWireV1 where
  protocolVersion : Int
  groupId : Bytes
  clientId : Bytes
  sequence : ℕ
  requestHash : Bytes
  dispositionCode : Int
  outcomeCode : Int
  reasonCode : Int
  snapshot : Option ResourceSnapshotV1
  aclRevision : ℕ
  adminRevision : ℕ
  operationId : Option Bytes
  membershipLogId : Option LogIdV1
deriving DecidableEq

/-! ### Requests -/

/-- `MutationPrefix`: the validated identity of a sequenced request. -/
structure MutationPrefix where
  groupId : GroupId
  clientId : ClientId
  sequence : ℕ

/-- `DecodedMutation`: who asks in which place, and for what. -/
structure DecodedMutation where
  identity : MutationPrefix
  wireAction : ActionV1

/-- The request as the journals know it. -/
def DecodedMutation.client (m : DecodedMutation) (actor : NodeId) (requestHash : Hash) :
    ClientRef :=
  ⟨actor, m.identity.clientId, m.identity.sequence, requestHash⟩

/-- The command the host proposes for it. -/
def DecodedMutation.command (m : DecodedMutation) (actor : NodeId) (requestHash : Hash) :
    CommandV1 :=
  .client
    { actorNodeId := actor.bytes
      clientId := m.identity.clientId.bytes
      sequence := m.identity.sequence
      requestHash := requestHash.bytes
      action := m.wireAction }

/-- `mutation_reply`. -/
def mutationReply (group : GroupId) (identity : MutationPrefix) (requestHash : Hash)
    (reply : ClientReplyV1) : MutationReplyWireV1 where
  protocolVersion := storeProtocolVersion
  groupId := group.bytes
  clientId := identity.clientId.bytes
  sequence := identity.sequence
  requestHash := requestHash.bytes
  dispositionCode := reply.dispositionCode
  outcomeCode := reply.outcomeCode
  reasonCode := reply.reasonCode
  snapshot := reply.snapshot
  aclRevision := reply.aclRevision
  adminRevision := reply.adminRevision
  operationId := reply.operationId
  membershipLogId := reply.membershipLogId

/-! ### Preflight on the served state -/

/-- `preflight_shapeless`: the journal's answer to a request whose action does not narrow. -/
def preflightShapeless (s : State) (client : ClientRef) : Option Admission :=
  match classifyClient s client with
  | .replay _ saved => some (.resolved ⟨.consumed, saved, true⟩)
  | .refuse _ reason => some (.resolved ⟨.notConsumed, rejection s none reason, false⟩)
  | .unresolved _ _ => none

/-- The answer of the state actor's `preflight`; `none` is `ShapelessUnresolved`. -/
def preflightAnswer (ext : Externals) (s : State) (client : ClientRef) :
    Option Action → Option Admission
  | some action => some (preflight ext s client action)
  | none => preflightShapeless s client

/-- Whether an admitted request would create a journal. -/
def createsSession (s : State) (client : ClientRef) : Bool :=
  match classifyClient s client with
  | .unresolved _ creates => creates
  | _ => false

/-! ### Host-local refusals -/

/-- What the host refuses for reasons of its own: no disk, a full database, an empty bucket. -/
structure HostGates where
  hardHit : Bool
  growthHit : Bool
  mutateExhausted : Bool

/-- `is_growth_mutation`. -/
def isGrowthMutation : ActionV1 → Bool
  | .acquire _ _ => true
  | .compareAndSet _ _ _ => true
  | .releaseWithValue _ _ _ => true
  | .changeMembership change => !change.memberSeeds.isEmpty
  | .setGrant _ _ rights _ => rights != 0
  | .setAdmin _ enabled _ => enabled
  | .release _ => false
  | .revoke _ _ => false
  | .cancelMembership _ _ => false
  | .renew _ => false
  | .unknown _ => false

/-- The three gates between admission and the proposal. -/
def HostGates.check (gates : HostGates) (action : ActionV1) (creates : Bool) :
    Except RpcStatus Unit := do
  refuseIf gates.hardHit ⟨.resourceExhausted,
    "free disk space is below the §11.5 floor; this node is draining " ++
      "and refuses all new mutations"⟩
  refuseIf (gates.growthHit && (isGrowthMutation action || creates)) ⟨.resourceExhausted,
    "the state database is at its §11.5 high-water mark; growth-class " ++
      "mutations are refused while safety-reducing operations continue"⟩
  refuseIf gates.mutateExhausted ⟨.resourceExhausted,
    "the actor's mutating-request budget is exhausted; retry later"⟩

/-! ### The answer -/

/-- What a call is finished with. -/
abbrev HostAnswer := Except RpcStatus MutationReplyWireV1

section

variable (ext : Externals) {group : GroupId} {m : DecodedMutation}

/-- The reply to a denial before the log. -/
def denialReply (reason : Reason) : ClientReplyV1 where
  dispositionCode := 2
  outcomeCode := Outcome.rejected.code
  reasonCode := reason.code
  snapshot := none
  aclRevision := 0
  adminRevision := 0
  operationId := none
  membershipLogId := none

/-- The status of a request that has no reason code. -/
def StatusDenial.status : StatusDenial → RpcStatus
  | .notAuthorized =>
    ⟨.permissionDenied, "the actor lacks the required committed permission"⟩
  | .shape limit => ⟨.invalidArgument, limit.describe⟩

/-- The reply to a request its journal resolved. -/
def resolvedReply (group : GroupId) (result : ClientResult) : ClientReplyV1 :=
  clientReply group.bytes result.reply result.disposition
    (if result.replayed then .replay else .firstAttempt) none

/-- `propose_and_reply`: the command is applied to `s` under `logId`.  Of the internal error the
constant part of the text is kept; the source also prints the reply. -/
def propose (group : GroupId) (s : State) (logId : LogId) (command : CommandV1) :
    Except RpcStatus ClientReplyV1 :=
  match (applyWireCommand ext s logId group.bytes command).2 with
  | .ok (.client reply) => .ok reply
  | .ok _ => .error ⟨.internal, "a client command must answer with a Client reply"⟩
  | .error _ => .error ⟨.unavailable,
      "the proposal did not commit; the coordination runtime is unavailable"⟩

/-- The end of `mutation`: what is sent for an answer of preflight, with the command applied to
`applied`. -/
def respond (group : GroupId) (gates : HostGates) (applied : State) (logId : LogId)
    (actor : NodeId) (m : DecodedMutation) (hash : Hash) (creates : Bool) :
    Option Admission → HostAnswer
  | none => .error ⟨.invalidArgument,
      "the request does not decode as this method's §5.2 request type"⟩
  | some (.resolved result) =>
    .ok (mutationReply group m.identity hash (resolvedReply group result))
  | some (.deny reason) => .ok (mutationReply group m.identity hash (denialReply reason.get))
  | some (.status denial) => .error denial.status
  | some .admitted => do
    gates.check m.wireAction creates
    let reply ← propose ext group applied logId (m.command actor hash)
    .ok (mutationReply group m.identity hash reply)

/-- `mutation`, with preflight on the state `s` and the command applied to `applied`. -/
def mutation (group : GroupId) (gates : HostGates) (s applied : State) (logId : LogId)
    (actor : NodeId) (m : DecodedMutation) : HostAnswer := do
  refuseIf (m.identity.groupId != group)
    ⟨.invalidArgument, "the request names a different coordination group"⟩
  let hash ← requireSome (requestHash ext m.wireAction).toOption
    ⟨.internal, "the action does not hash"⟩
  let client := m.client actor hash
  respond ext group gates applied logId actor m hash (createsSession s client)
    (preflightAnswer ext s client (actionFromWire m.wireAction).toOption)

/-- The answer to a request of this group whose action hashes. -/
theorem mutation_eq_respond (gates : HostGates) (s applied : State) (logId : LogId)
    (actor : NodeId) {hash : Hash} (hgroup : m.identity.groupId = group)
    (hhash : requestHash ext m.wireAction = .ok hash) :
    mutation ext group gates s applied logId actor m =
      respond ext group gates applied logId actor m hash
        (createsSession s (m.client actor hash))
        (preflightAnswer ext s (m.client actor hash) (actionFromWire m.wireAction).toOption) := by
  simp [mutation, hgroup, refuseIf_false, ok_bind, hhash, Except.toOption, requireSome_some]

end

/-! ### The command a host proposes -/

section

variable (ext : Externals) {action : Action} {s : State} {client : ClientRef} {m : DecodedMutation}
  {hash : Hash}

theorem Boundary.fence_resource {f : FenceV1} {narrowed : Fence}
    (h : Boundary.fence f = .ok narrowed) : narrowed.resource = Boundary.rawKey f.resource := by
  simp only [Boundary.fence, bind_accepts] at h
  obtain ⟨_, -, _, -, hok⟩ := h
  cases hok
  rfl

/-- The key read off the wire is the key of the narrowed action. -/
theorem wireResource_eq {a : ActionV1} (h : actionFromWire a = .ok action) :
    wireResource a = action.validatedResource := by
  cases a with
  | acquire | revoke =>
    cases h
    rfl
  | renew | release | compareAndSet | releaseWithValue =>
    simp only [actionFromWire, accepts_iff] at h
    obtain ⟨_, hfence, rfl⟩ := h
    simp [wireResource, Action.validatedResource, ResourceAction.rawResource,
      Boundary.fence_resource hfence]
  | setGrant resource target rights expected | setAdmin target enabled expected
  | changeMembership change | cancelMembership operationId phase =>
    simp only [actionFromWire, accepts_iff] at h
    obtain ⟨_, -, rfl⟩ := h
    rfl
  | unknown => cases h

/-- The request itself, or its forced rejection. -/
def DecodedMutation.Becomes (m : DecodedMutation) (actor : NodeId) (hash : Hash) (action : Action)
    (command : Command) : Prop :=
  command = .client (m.client actor hash) action ∨
    command = .rejectedClient (m.client actor hash) (wireOperationCode m.wireAction)
      action.validatedResource

/-- **What a host proposes is the request itself**, or its forced rejection if it is too long. -/
theorem commandForApply_command (actor : NodeId) (hhash : requestHash ext m.wireAction = .ok hash)
    (haction : actionFromWire m.wireAction = .ok action) :
    ∃ command, commandForApply ext (m.command actor hash) = .ok command ∧
      m.Becomes actor hash action command := by
  have hknown : unknownVariant (m.command actor hash) = false := by
    cases ha : m.wireAction with
    | unknown =>
      rw [ha] at haction
      cases haction
    | _ => simp only [unknownVariant, DecodedMutation.command, ha]
  have hactor : Boundary.nodeId actor.bytes = .ok actor := Boundary.narrow_bytes _ actor
  have hcli : Boundary.clientId m.identity.clientId.bytes = .ok m.identity.clientId :=
    Boundary.narrow_bytes _ m.identity.clientId
  have hdigest : Boundary.hash hash.bytes = .ok hash := Boundary.narrow_bytes _ hash
  unfold commandForApply
  rw [hknown]
  by_cases hlong : oversized ext (m.command actor hash) = true
  · refine ⟨_, ?_, .inr rfl⟩
    have hrej : shapeRejection (m.command actor hash) =
        .rejectedClient (m.client actor hash) (wireOperationCode m.wireAction)
          action.validatedResource := by
      simp only [DecodedMutation.command, shapeRejection, hactor, hcli, hdigest,
        wireResource_eq haction]
      rfl
    simp [hlong, hrej]
  · refine ⟨_, ?_, .inl rfl⟩
    have hnarrow : commandFromWire ext (m.command actor hash) =
        .ok (.client (m.client actor hash) action) := by
      simp only [commandFromWire, DecodedMutation.command, clientFromWire, hactor, hcli,
        hdigest, haction, hhash, ok_bind, bne_self_eq_false, refuseIf_false]
      rfl
    simp [hlong, hnarrow]

theorem rejection_resource (s : State) (resource : Option ResourceKey) (reason : Reason) :
    (rejection s resource reason).resource = resource := by
  cases resource <;> rfl

/-- **A reply names only the resource of its action.** -/
theorem Decided.names {change : RowChange} {reply : SavedReply} {key : ResourceKey}
    (h : Decided ext s client action change reply) (hreply : reply.resource = some key) :
    action.validatedResource = some key := by
  cases h with
  | resource a e he =>
    obtain ⟨key', hvalid, -, -, -, hstep⟩ := decideResource_ok he
    have hkey : e.key = key' := by cases hstep <;> rfl
    cases hreply
    simp [Action.validatedResource, hvalid, Except.toOption, SavedSnapshot.of, hkey]
  | grant a e he =>
    cases hreply
    simp [Action.validatedResource, (decideGrant_apply he).key, Except.toOption, SavedSnapshot.of]
  | grantNoOp =>
    simp only [SavedReply.resource, noOpGrantReply, Option.map_bind,
      Option.bind_eq_some_iff] at hreply
    obtain ⟨_, hkey, hrow⟩ := hreply
    rw [hkey]
    simp only [Function.comp_apply, Option.map_map, Option.map_eq_some_iff] at hrow
    obtain ⟨_, -, rfl⟩ := hrow
    rfl
  | refused | shapeless =>
    rw [rejection_resource] at hreply
    exact hreply
  | admin a e he | adminNoOp a revision he | change a e he | existing a phase he
  | cancel => cases hreply

/-- The wire reply to a command that narrows, from what applying it does. -/
theorem applyWireCommand_reply {command : CommandV1} {model : Command} (s : State) (logId : LogId)
    (groupId : Bytes) (h : commandForApply ext command = .ok model) :
    (applyWireCommand ext s logId groupId command).2 =
      (deliver ext s (logId, model)).2.map
        (replyToWire (deliver ext s (logId, model)).1 groupId model) := by
  simp only [applyWireCommand, applyWireCommandRecording, h, deliver, applyCommand]
  cases (applyCommandRecording ext (Working.start s) logId model).2 <;> rfl

/-- **What a host proposes is the request itself or its rejection**, and for a sequence the journal
has no answer to, its reply consumes the sequence and names only the action's resource. -/
theorem deliver_fresh {logId : LogId} {actor : NodeId} {command : Command} {reply : CommandReply}
    {row : Row} {creates : Bool} (hcmd : m.Becomes actor hash action command)
    (hclass : classifyClient s (m.client actor hash) = .unresolved row creates)
    (h : (deliver ext s (logId, command)).2 = .ok reply) :
    ∃ saved, reply = .client ⟨.consumed, saved, false⟩ ∧
      ∀ key, saved.resource = some key → action.validatedResource = some key := by
  revert h
  refine deliver_elim ext s _ (fun _ => nofun) fun _ hstep _ h => ?_
  cases h
  rcases hcmd with rfl | rfl
  · cases hstep with
    | decided client action change saved row' creates' hclass' hdec =>
      exact ⟨saved, rfl, fun key hkey => hdec.names ext hkey⟩
    | replay client action row' saved hclass' | refused client action row' reason hclass' =>
      rw [hclass] at hclass'
      cases hclass'
  · cases hstep with
    | rejectedFresh =>
      exact ⟨_, rfl, fun key hkey => by rwa [rejection_resource] at hkey⟩
    | rejectedReplay client code resource row' saved hclass'
    | rejectedRefused client code resource row' reason hclass' =>
      rw [hclass] at hclass'
      cases hclass'

end

end AsterRpc.Coordination

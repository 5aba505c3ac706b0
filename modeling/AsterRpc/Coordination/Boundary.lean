import AsterRpc.Coordination.Step

/-!
# The wire boundary

`model/boundary.rs` with `hash.rs` and `model/project.rs`: a `CommandV1` in, a
`CommandReplyV1` out.  The wire is wider than the model, so narrowing can fail.
An unknown variant is fatal; anything else that will not narrow still goes
through the log, as the forced rejection that `shape_rejection` makes of it.
-/

namespace AsterRpc.Coordination

open AsterRpc.Foundation

/-! ### Request hashes -/

inductive HashError where
  | unknownVariant
  | encode
deriving DecidableEq

/-- `aster-coordination/action/v1` with a trailing NUL. -/
def actionDomain : Bytes := "aster-coordination/action/v1\x00".toUTF8.toList

/-! ### Narrowing -/

inductive NarrowError where
  | unknownVariant
  | malformedField (limit : ShapeLimit)

namespace Boundary

/-- Narrow a wire byte string to a fixed width, naming the field that is wrong. -/
def narrow (n : ℕ) (limit : ShapeLimit) (bytes : Bytes) : Except NarrowError (FixedBytes n) :=
  requireSome (FixedBytes.fromSlice n bytes) (.malformedField limit)

/-- Bytes of the right width narrow to what they are. -/
theorem narrow_bytes {n : ℕ} (limit : ShapeLimit) (x : FixedBytes n) :
    narrow n limit x.bytes = .ok x := by
  rw [narrow, FixedBytes.fromSlice_bytes, requireSome_some]

def nodeId : Bytes → Except NarrowError NodeId := narrow 32 .nodeIdWidth
def clientId : Bytes → Except NarrowError ClientId := narrow 16 .clientIdWidth
def hash : Bytes → Except NarrowError Hash := narrow 32 .requestHashWidth

def rawKey (k : ResourceKeyV1) : RawResourceKey := ⟨k.ns, k.key⟩

def fence (f : FenceV1) : Except NarrowError Fence := do
  let group ← narrow 32 .fenceGroupWidth f.groupId
  let holder ← nodeId f.holder
  .ok ⟨group, rawKey f.resource, f.epoch, holder⟩

def logId (id : LogIdV1) : Except NarrowError LogId := do
  let leader ← narrow 32 .nodeIdWidth id.leaderNodeId
  .ok ⟨id.term, leader, id.index⟩

def optLogId : Option LogIdV1 → Except NarrowError (Option LogId)
  | some id => do
    let narrowed ← logId id
    .ok (some narrowed)
  | none => .ok none

def memberSeed (s : MemberSeedV1) : Except NarrowError MemberSeed := do
  let node ← nodeId s.nodeId
  .ok ⟨node, s.ticket, s.signedJoinPermit⟩

def changeMembership (a : ChangeMembershipActionV1) :
    Except NarrowError ChangeMembershipAction := do
  let operationId ← clientId a.operationId
  let expected ← optLogId a.expectedMembershipLogId
  let voters ← narrowAll (fun n : NodeIdV1 => nodeId n.nodeId) a.desiredVoters
  let learners ← narrowAll (fun n : NodeIdV1 => nodeId n.nodeId) a.retainedLearners
  let seeds ← narrowAll memberSeed a.memberSeeds
  .ok ⟨operationId, expected, ⟨voters, learners, seeds⟩⟩

end Boundary

open Boundary in
/-- `action_from_wire`. -/
def actionFromWire : ActionV1 → Except NarrowError Action
  | .acquire resource ttlMs => .ok (.resource (.acquire (rawKey resource) ttlMs))
  | .renew f => do
    let f ← fence f
    .ok (.resource (.renew f))
  | .compareAndSet f expected newValue => do
    let f ← fence f
    .ok (.resource (.compareAndSet f expected newValue))
  | .release f => do
    let f ← fence f
    .ok (.resource (.release f))
  | .releaseWithValue f expected finalValue => do
    let f ← fence f
    .ok (.resource (.releaseWithValue f expected finalValue))
  | .revoke resource expectedEpoch => .ok (.resource (.revoke (rawKey resource) expectedEpoch))
  | .setGrant resource target rights expected => do
    let subject ← nodeId target
    .ok (.grant ⟨rawKey resource, subject, rights, expected⟩)
  | .setAdmin target enabled expected => do
    let target ← nodeId target
    .ok (.admin ⟨target, enabled, expected⟩)
  | .changeMembership a => do
    let change ← changeMembership a
    .ok (.changeMembership change)
  | .cancelMembership operationId expectedPhase => do
    let operationId ← clientId operationId
    .ok (.cancelMembership ⟨operationId, expectedPhase⟩)
  | .unknown _ => .error .unknownVariant

section

variable (ext : Externals)

/-- `canonical_bytes`; an unknown variant is never hashable. -/
def canonicalBytes (action : ActionV1) : Except HashError Bytes :=
  match action with
  | .unknown _ => .error .unknownVariant
  | _ => requireSome (ext.action.serialize action) .encode

/-- `request_hash`. -/
def requestHash (action : ActionV1) : Except HashError Hash := do
  let encoded ← canonicalBytes ext action
  .ok (ext.blake3 (actionDomain ++ encoded))

open Boundary in
/-- The client arm of `command_from_wire`: the request hash must be the digest of the action. -/
def clientFromWire (c : ClientCommandV1) : Except NarrowError Command := do
  let actor ← nodeId c.actorNodeId
  let client ← clientId c.clientId
  let digest ← Boundary.hash c.requestHash
  let action ← actionFromWire c.action
  match requestHash ext c.action with
  | .error _ => .error (.malformedField .requestHashMismatch)
  | .ok expected =>
    refuseIf (digest != expected) (.malformedField .requestHashMismatch)
    .ok (.client ⟨actor, client, c.sequence, digest⟩ action)

open Boundary in
/-- `command_from_wire`. -/
def commandFromWire : CommandV1 → Except NarrowError Command
  | .client c => clientFromWire ext c
  | .expire resource epoch leaseRevision =>
    match (rawKey resource).validate with
    | .error limit => .error (.malformedField limit)
    | .ok key => .ok (.expire ⟨key, epoch, leaseRevision⟩)
  | .membershipProgress operationId expectedPhase newPhase observed resultCode => do
    let operationId ← clientId operationId
    let observed ← optLogId observed
    .ok (.membershipProgress ⟨operationId, expectedPhase, newPhase, observed, resultCode⟩)
  | .retireClient actor target targetClient => do
    let actor ← nodeId actor
    let target ← nodeId target
    let targetClient ← clientId targetClient
    .ok (.retireClient ⟨actor, target, targetClient⟩)
  | .genesis signedGenesis => .ok (.genesis signedGenesis)
  | .unknown _ => .ok .unknown

/-! ### Forced rejections -/

/-- `unknown_variant`. -/
def unknownVariant : CommandV1 → Bool
  | .unknown _ => true
  | .client c =>
    match c.action with
    | .unknown _ => true
    | _ => false
  | _ => false

/-- `check_encoded_command`. -/
def checkEncodedCommand (encodedLen : ℕ) : Except ShapeLimit Unit :=
  refuseIf (encodedLen > maxEncodedCommand) .encodedCommand

/-- `oversized`; what will not encode counts as oversized. -/
def oversized (command : CommandV1) : Bool :=
  match ext.command.serialize command with
  | none => true
  | some bytes => !(checkEncodedCommand bytes.length).isOk

/-- `wire_resource`. -/
def wireResource (action : ActionV1) : Option ResourceKey :=
  let named : Option ResourceKeyV1 := match action with
    | .acquire resource _ => some resource
    | .renew f => some f.resource
    | .compareAndSet f _ _ => some f.resource
    | .release f => some f.resource
    | .releaseWithValue f _ _ => some f.resource
    | .revoke resource _ => some resource
    | .setGrant resource _ _ _ => some resource
    | .setAdmin _ _ _ => none
    | .changeMembership _ => none
    | .cancelMembership _ _ => none
    | .unknown _ => none
  named.bind fun k => (Boundary.rawKey k).validate.toOption

/-- `wire_operation_code`. -/
def wireOperationCode : ActionV1 → Int
  | .acquire _ _ => 1
  | .renew _ => 2
  | .compareAndSet _ _ _ => 3
  | .release _ => 4
  | .releaseWithValue _ _ _ => 5
  | .revoke _ _ => 6
  | .setGrant _ _ _ _ => 7
  | .setAdmin _ _ _ => 8
  | .changeMembership _ => 9
  | .cancelMembership _ _ => 11
  | .unknown _ => 0

open Boundary in
/-- `shape_rejection`: with a readable prefix the rejection consumes the client's sequence. -/
def shapeRejection : CommandV1 → Command
  | .client c =>
    match nodeId c.actorNodeId, clientId c.clientId, Boundary.hash c.requestHash with
    | .ok actor, .ok client, .ok requestHash =>
      .rejectedClient ⟨actor, client, c.sequence, requestHash⟩ (wireOperationCode c.action)
        (wireResource c.action)
    | actor, _, _ =>
      .shapeless ⟨wireOperationCode c.action, .client, 0, actor.toOption, wireResource c.action⟩
  | .retireClient actor _ _ =>
    .shapeless ⟨operationRetireClient, .retirement, 0, (nodeId actor).toOption, none⟩
  | .expire _ _ _ => .shapeless ⟨operationExpire, .system, sysExpireMalformed, none, none⟩
  | .membershipProgress _ _ _ _ _ =>
    .shapeless ⟨operationMembershipProgress, .system, sysMembershipMalformed, none, none⟩
  | .genesis signedGenesis => .genesis signedGenesis
  | .unknown _ => .unknown

/-- `command_for_apply`. -/
def commandForApply (command : CommandV1) : Except NarrowError Command :=
  if unknownVariant command then .error .unknownVariant
  else if oversized ext command then .ok (shapeRejection command)
  else
    match commandFromWire ext command with
    | .ok model => .ok model
    | .error .unknownVariant => .error .unknownVariant
    | .error (.malformedField _) => .ok (shapeRejection command)

end

/-! ### Replies on the wire -/

inductive Provenance where
  | firstAttempt
  | replay

def Disposition.code : Disposition → Int
  | .consumed => 1
  | .notConsumed => 2

/-- The snapshot of `client_reply`: a replay never carries a value. -/
def snapshotReply (groupId : Bytes) (saved : SavedSnapshot) (provenance : Provenance)
    (value : Option Bytes) : ResourceSnapshotV1 where
  groupId := groupId
  resource := ⟨saved.resource.ns, saved.resource.key⟩
  epoch := saved.epoch
  holder := saved.holder.map (·.bytes)
  held := saved.held
  ttlMs := saved.ttlMs
  leaseRevision := saved.leaseRevision
  valueRevision := saved.valueRevision
  aclRevision := saved.aclRevision
  value := match provenance with
    | .firstAttempt => value
    | .replay => none
  valueRedacted := match provenance with
    | .firstAttempt => false
    | .replay => true

/-- `client_reply`. -/
def clientReply (groupId : Bytes) (reply : SavedReply) (disposition : Disposition)
    (provenance : Provenance) (value : Option Bytes) : ClientReplyV1 where
  dispositionCode := disposition.code
  outcomeCode := reply.outcome.code
  reasonCode := reply.reason.code
  snapshot := reply.snapshot.map fun saved => snapshotReply groupId saved provenance value
  aclRevision := reply.aclRevision
  adminRevision := reply.adminRevision
  operationId := reply.operationId.map (·.bytes)
  membershipLogId := reply.membershipLogId.map LogId.toWire

/-- The value a first attempt may report: only to an actor that may read it. -/
def readableValue (s : State) (command : Command) (reply : SavedReply) : Option Bytes :=
  reply.resource.bind fun key =>
    match command with
    | .client client _ =>
      if grantedRights s key client.actor &&& rightRead != 0 then
        s.resources[key]?.map (·.value)
      else none
    | _ => none

/-- `client_reply_for`. -/
def clientReplyFor (s : State) (groupId : Bytes) (command : Command) (result : ClientResult) :
    ClientReplyV1 :=
  let provenance := if result.replayed then Provenance.replay else Provenance.firstAttempt
  let value := match provenance with
    | .replay => none
    | .firstAttempt => readableValue s command result.reply
  clientReply groupId result.reply result.disposition provenance value

/-- `to_wire`. -/
def replyToWire (s : State) (groupId : Bytes) (command : Command) : CommandReply → CommandReplyV1
  | .client result => .client (clientReplyFor s groupId command result)
  | .system r =>
    .system ⟨r.systemResultCode, r.leaseRevision, s.membershipLogId.map LogId.toWire⟩
  | .retirement r => .retirement ⟨r.outcome.code, r.reason.code⟩

/-! ### Applying a wire command -/

section

variable (ext : Externals)

/-- `apply_wire_command_recording`. -/
def applyWireCommandRecording (w : Working) (logId : LogId) (groupId : Bytes)
    (command : CommandV1) : Working × Except Fault CommandReplyV1 :=
  match commandForApply ext command with
  | .error _ => (w, .error .unknownCommand)
  | .ok model =>
    let applied := applyCommandRecording ext w logId model
    match applied.2 with
    | .error fault => (applied.1, .error fault)
    | .ok reply => (applied.1, .ok (replyToWire applied.1.state groupId model reply))

/-- `apply_wire_command`. -/
def applyWireCommand (s : State) (logId : LogId) (groupId : Bytes) (command : CommandV1) :
    State × Except Fault CommandReplyV1 :=
  let applied := applyWireCommandRecording ext (Working.start s) logId groupId command
  (applied.1.state, applied.2)

/-- A committed entry that carries a wire command. -/
abbrev WireDelivery := LogId × CommandV1

/-- `apply_wire_command` as a machine over committed entries of the group. -/
def deliverWire (s : State) (d : WireDelivery) : State × Except Fault CommandReplyV1 :=
  applyWireCommand ext s d.1 s.authority.groupId.bytes d.2

/-- The command the boundary makes of a wire command; an unknown variant stays unknown. -/
def modelCommand (command : CommandV1) : Command :=
  match commandForApply ext command with
  | .ok model => model
  | .error _ => .unknown

variable {ext}

/-- A client command is read under the digest of its action. -/
theorem clientFromWire_ok {c : ClientCommandV1} {model : Command}
    (h : clientFromWire ext c = .ok model) :
    ∃ actor client digest action, actionFromWire c.action = .ok action ∧
      requestHash ext c.action = .ok digest ∧
      model = .client ⟨actor, client, c.sequence, digest⟩ action := by
  simp only [clientFromWire, bind_accepts] at h
  obtain ⟨actor, -, client, -, digest, -, action, haction, h⟩ := h
  cases hhash : requestHash ext c.action with
  | error =>
    rw [hhash] at h
    cases h
  | ok expected =>
    rw [hhash] at h
    simp only [accepts_iff] at h
    obtain ⟨rfl, rfl⟩ := h
    exact ⟨actor, client, digest, action, haction, rfl, rfl⟩

variable (ext)

/-- A wire command is unknown, or rejected for its shape, or what it is read as. -/
theorem modelCommand_cases (command : CommandV1) :
    modelCommand ext command = .unknown ∨
      (unknownVariant command = false ∧ modelCommand ext command = shapeRejection command) ∨
      commandFromWire ext command = .ok (modelCommand ext command) := by
  unfold modelCommand commandForApply
  cases hunknown : unknownVariant command with
  | true => exact .inl rfl
  | false =>
    simp only [Bool.false_eq_true, if_false]
    split_ifs with hsize
    · exact .inr (.inl ⟨trivial, rfl⟩)
    · cases hmodel : commandFromWire ext command with
      | ok => exact .inr (.inr rfl)
      | error e =>
        cases e with
        | unknownVariant => exact .inl rfl
        | malformedField => exact .inr (.inl ⟨trivial, rfl⟩)

/-- **The boundary only narrows**: a wire command does to the state what its model command does. -/
theorem applyWireCommand_state (s : State) (logId : LogId) (groupId : Bytes)
    (command : CommandV1) :
    (applyWireCommand ext s logId groupId command).1 =
      (deliver ext s (logId, modelCommand ext command)).1 := by
  simp only [applyWireCommand, applyWireCommandRecording, deliver, applyCommand, modelCommand]
  cases commandForApply ext command with
  | ok model =>
    dsimp only
    cases (applyCommandRecording ext (Working.start s) logId model).2 <;> rfl
  | error =>
    dsimp only [applyCommandRecording]
    cases guardDelivery (Working.start s).state logId <;> rfl

/-- A wire command is read as the request only under the digest of its own action. -/
theorem modelCommand_eq_client {client : ClientRef} {action : Action} {command : CommandV1}
    (h : modelCommand ext command = .client client action) :
    ∃ c, command = .client c ∧ actionFromWire c.action = .ok action ∧
      requestHash ext c.action = .ok client.requestHash := by
  obtain hunknown | ⟨-, hshape⟩ | hread := modelCommand_cases ext command
  · rw [hunknown] at h
    cases h
  · rw [hshape] at h
    cases command with
    | client =>
      simp only [shapeRejection] at h
      split at h <;> cases h
    | _ => cases h
  · rw [h] at hread
    cases command with
    | client c =>
      obtain ⟨_, _, _, _, haction, hhash, hcli⟩ := clientFromWire_ok hread
      cases hcli
      exact ⟨c, rfl, haction, hhash⟩
    | expire =>
      simp only [commandFromWire] at hread
      split at hread <;> cases hread
    | membershipProgress | retireClient =>
      simp only [commandFromWire, bind_accepts] at hread
      grind
    | genesis | unknown => cases hread

/-- No client command of the run has the digest of this action and another action. -/
def CollisionFree (sent : ActionV1) (ds : List WireDelivery) : Prop :=
  ∀ d ∈ ds, ∀ c, d.2 = .client c → requestHash ext c.action = requestHash ext sent → c.action = sent

theorem run_deliverWire (s : State) (ds : List WireDelivery) :
    run (deliverWire ext) s ds =
      run (deliver ext) s (ds.map fun d => (d.1, modelCommand ext d.2)) := by
  induction ds generalizing s with
  | nil => rfl
  | cons d rest ih =>
    rw [run_cons, ih, deliverWire, applyWireCommand_state]
    rfl

/-- **One action for each reference**, by the request hash. -/
theorem CollisionFree.same {client : ClientRef} {action : Action} {request : ClientCommandV1}
    {ds : List WireDelivery} (h : CollisionFree ext request.action ds)
    (hreq : modelCommand ext (.client request) = .client client action) :
    ∀ d ∈ ds.map fun d => (d.1, modelCommand ext d.2),
      ∀ a, d.2 = .client client a → a = action := by
  intro d hd a ha
  obtain ⟨d', hd', rfl⟩ := List.mem_map.mp hd
  obtain ⟨c, hc, hread, hhash⟩ := modelCommand_eq_client ext ha
  obtain ⟨_, hsent, hread', hhash'⟩ := modelCommand_eq_client ext hreq
  cases hsent
  rw [h d' hd' c hc (hhash.trans hhash'.symm), hread'] at hread
  exact (Except.ok.inj hread).symm

end

end AsterRpc.Coordination

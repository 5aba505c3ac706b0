import AsterRpc.Coordination.Contract

/-!
# The replicated state

`model/state.rs`: the rows of the coordination state machine, the state itself,
and the byte accounting recomputed from the rows.  A `BTreeMap` is an ordered
table, a `BTreeSet` a finite set; every counter is a natural number.
-/

namespace AsterRpc.Coordination

open AsterRpc.Foundation

/-! ### Rows -/

structure LogId where
  term : ℕ
  leaderNodeId : NodeId
  index : ℕ
deriving DecidableEq

/-- One leased resource; `default` is the row of a resource nobody has touched. -/
structure ResourceRow where
  epoch : ℕ := 0
  held : Bool := false
  holder : Option NodeId := none
  ttlMs : ℕ := 0
  leaseRevision : ℕ := 0
  valueRevision : ℕ := 0
  value : Bytes := []
  aclRevision : ℕ := 0
deriving DecidableEq, Inhabited

/-- A resource row without its value, as a saved reply keeps it. -/
structure SavedSnapshot where
  resource : ResourceKey
  epoch : ℕ
  holder : Option NodeId
  held : Bool
  ttlMs : ℕ
  leaseRevision : ℕ
  valueRevision : ℕ
  aclRevision : ℕ
deriving DecidableEq

/-- `SavedSnapshot::of`. -/
def SavedSnapshot.of (resource : ResourceKey) (row : ResourceRow) : SavedSnapshot where
  resource := resource
  epoch := row.epoch
  holder := row.holder
  held := row.held
  ttlMs := row.ttlMs
  leaseRevision := row.leaseRevision
  valueRevision := row.valueRevision
  aclRevision := row.aclRevision

structure SavedReply where
  outcome : Outcome
  reason : Reason
  snapshot : Option SavedSnapshot
  aclRevision : ℕ
  adminRevision : ℕ
  operationId : Option OperationId
  membershipLogId : Option LogId
deriving DecidableEq

def SavedReply.resource (r : SavedReply) : Option ResourceKey := r.snapshot.map (·.resource)

/-- One client journal of an actor. -/
structure Session where
  lastSequence : ℕ
  requestHash : Hash
  lastResult : Option SavedReply
  retired : Bool
deriving DecidableEq

inductive AuditResult where
  | client (outcome : Outcome)
  | system (code : Int)
deriving DecidableEq

def AuditResult.code : AuditResult → Int
  | .client outcome => outcome.code
  | .system code => code

structure AuditRow where
  leaderNodeId : NodeId
  actor : Option NodeId
  operationCode : Int
  resource : Option ResourceKey
  result : AuditResult
  epoch : ℕ
  valueRevision : ℕ
deriving DecidableEq

structure MemberSeed where
  nodeId : NodeId
  ticket : Bytes
  joinPermit : Option Bytes
deriving DecidableEq

structure MembershipPlan where
  desiredVoters : List NodeId
  retainedLearners : List NodeId
  memberSeeds : List MemberSeed
deriving DecidableEq

/-- One membership operation, from acceptance to its terminal phase. -/
structure Intent where
  actor : NodeId
  requestHash : Hash
  expectedMembership : Option LogId
  plan : MembershipPlan
  statusCode : Int
  resultCode : Int
  acceptedLogId : LogId
  completedLogId : Option LogId
  observedMembershipLogId : Option LogId
deriving DecidableEq

structure Route where
  ticket : Bytes
  sourceOperationId : OperationId
  introducedLogId : LogId
deriving DecidableEq

abbrev GrantKey := ResourceKey × NodeId
abbrev SessionKey := NodeId × ClientId
/-- Term first, then index. -/
abbrev AuditKey := ℕ × ℕ

instance GrantKey.transOrd : Std.TransOrd GrantKey := inferInstance
instance GrantKey.lawfulEqOrd : Std.LawfulEqOrd GrantKey := inferInstance
instance SessionKey.transOrd : Std.TransOrd SessionKey := inferInstance
instance SessionKey.lawfulEqOrd : Std.LawfulEqOrd SessionKey := inferInstance

/-! ### The state -/

/-- What the group's trust rests on; never written by a command. -/
structure GroupAuthority where
  publicKey : NodeId
  domain : Bytes
  groupId : GroupId
  genesisHash : Hash
deriving DecidableEq

/-- The projection of the last committed native membership. -/
structure CommittedMembership where
  voters : Finset NodeId
  learners : Finset NodeId
  joint : Bool
deriving DecidableEq

namespace CommittedMembership

def members (m : CommittedMembership) : Finset NodeId := m.voters ∪ m.learners

def contains (m : CommittedMembership) (node : NodeId) : Bool :=
  decide (node ∈ m.voters) || decide (node ∈ m.learners)

theorem contains_iff (m : CommittedMembership) (node : NodeId) :
    m.contains node = true ↔ node ∈ m.members := by
  simp [contains, members]

end CommittedMembership

structure State where
  resources : Table ResourceKey ResourceRow
  acl : Table GrantKey Rights
  admins : Finset NodeId
  sessions : Table SessionKey Session
  intents : Table OperationId Intent
  routes : Table NodeId Route
  auditTip : Option LogId
  audit : Table AuditKey AuditRow
  growthBytes : ℕ
  reserveBytes : ℕ
  adminRevision : ℕ
  authority : GroupAuthority
  deploymentProfileCode : Int
  membership : CommittedMembership
  membershipLogId : Option LogId
  auditFloor : Option LogId
  lastApplied : Option LogId
deriving DecidableEq

/-- The keys touched since the last commit. -/
structure ChangeSet where
  resources : Finset ResourceKey
  grants : Finset GrantKey
  admins : Finset NodeId
  sessions : Finset SessionKey
  intents : Finset OperationId
  routes : Finset NodeId
  audit : Finset AuditKey

/-- `ChangeSet::default()`. -/
def ChangeSet.empty : ChangeSet := ⟨∅, ∅, ∅, ∅, ∅, ∅, ∅⟩

/-! ### Plan encoding -/

/-- `std::str::from_utf8` accepts: no stray or missing continuation byte, no overlong form, no
surrogate, nothing past U+10FFFF. -/
def isUtf8 : Bytes → Bool
  | [] => true
  | a :: rest =>
    if a < 0x80 then isUtf8 rest
    else
      match rest with
      | [] => false
      | b :: rest =>
        if 0xC2 ≤ a && a ≤ 0xDF then continuation b && isUtf8 rest
        else
          match rest with
          | [] => false
          | c :: rest =>
            if 0xE0 ≤ a && a ≤ 0xEF then
              (if a = 0xE0 then 0xA0 ≤ b else true) && (if a = 0xED then b ≤ 0x9F else true) &&
                continuation b && continuation c && isUtf8 rest
            else
              match rest with
              | [] => false
              | d :: rest =>
                0xF0 ≤ a && a ≤ 0xF4 && (if a = 0xF0 then 0x90 ≤ b else true) &&
                  (if a = 0xF4 then b ≤ 0x8F else true) &&
                  continuation b && continuation c && continuation d && isUtf8 rest
where
  continuation (b : UInt8) : Bool := 0x80 ≤ b && b ≤ 0xBF

def LogId.toWire (id : LogId) : LogIdV1 := ⟨id.term, id.leaderNodeId.bytes, id.index⟩

/-- `plan_to_wire`; fails on a ticket that is not text. -/
def planToWire (plan : MembershipPlan) (operationId : OperationId)
    (expectedMembership : Option LogId) : Option ChangeMembershipActionV1 :=
  if plan.memberSeeds.all fun seed => isUtf8 seed.ticket then
    some
      { operationId := operationId.bytes
        expectedMembershipLogId := expectedMembership.map LogId.toWire
        desiredVoters := plan.desiredVoters.map fun n => ⟨n.bytes⟩
        retainedLearners := plan.retainedLearners.map fun n => ⟨n.bytes⟩
        memberSeeds := plan.memberSeeds.map fun s => ⟨s.nodeId.bytes, s.ticket, s.joinPermit⟩ }
  else none

section Accounting

variable (ext : Externals)

/-- `MembershipPlan::encoded_len`. -/
def MembershipPlan.encodedLen (plan : MembershipPlan) (operationId : OperationId)
    (expectedMembership : Option LogId) : ℕ :=
  match (planToWire plan operationId expectedMembership).bind ext.changeMembership.serialize with
  | some bytes => bytes.length
  | none => maxEncodedCommand

/-- `Intent::charge_len`. -/
def Intent.chargeLen (intent : Intent) (operationId : OperationId) : ℕ :=
  intent.plan.encodedLen ext operationId intent.expectedMembership

/-! ### Charges of whole rows -/

def resourceCharge (k : ResourceKey) (row : ResourceRow) : ℕ := chargeResource k row.value.length
def grantCharge (k : GrantKey) (_ : Rights) : ℕ := chargeAcl k.1
def intentCharge (id : OperationId) (intent : Intent) : ℕ := chargeIntent (intent.chargeLen ext id)
def routeCharge (_ : NodeId) (route : Route) : ℕ := chargeRoute route.ticket.length
def sessionCharge (_ : SessionKey) (s : Session) : ℕ :=
  chargeSession (s.lastResult.bind SavedReply.resource)
def auditCharge (_ : AuditKey) (row : AuditRow) : ℕ := chargeAudit row.resource

namespace State

/-- `recompute_growth`: what the growth tables really weigh. -/
def recomputeGrowth (s : State) : ℕ :=
  s.resources.total resourceCharge + s.acl.total grantCharge + s.admins.card * chargeAdmin +
    s.intents.total (intentCharge ext) + s.routes.total routeCharge

/-- `recompute_reserve`: what the session and audit tables really weigh. -/
def recomputeReserve (s : State) : ℕ :=
  s.sessions.total sessionCharge + s.audit.total auditCharge

end State

end Accounting

/-! ### Queries -/

structure Capacity where
  retainedGroup : ℕ
  retainedActor : ℕ
  activeGroup : ℕ
  activeActor : ℕ

namespace Capacity

def retainedExhausted (c : Capacity) : Bool :=
  c.retainedGroup ≥ maxRetainedSessionsPerGroup || c.retainedActor ≥ maxRetainedSessionsPerActor

def activeExhausted (c : Capacity) : Bool :=
  c.activeGroup ≥ maxActiveClientsPerGroup || c.activeActor ≥ maxActiveClientsPerActor

end Capacity

namespace State

def isRoot (s : State) (actor : NodeId) : Bool := actor == s.authority.publicKey

def isAdministrator (s : State) (actor : NodeId) : Bool :=
  s.adminRevision > 0 && (s.isRoot actor || decide (actor ∈ s.admins))

/-- `growth_fits`; the sum saturates at `u64::MAX`, far above the budget. -/
def growthFits (s : State) (added : ℕ) : Bool :=
  decide (min (s.growthBytes + added) (2 ^ 64 - 1) ≤ growthBudget)

theorem growthFits_iff (s : State) (added : ℕ) :
    s.growthFits added = true ↔ s.growthBytes + added ≤ growthBudget := by
  rw [growthFits, decide_eq_true_eq, growthBudget, min_le_iff]
  omega

def capacityFor (s : State) (actor : NodeId) : Capacity where
  retainedGroup := s.sessions.size
  retainedActor := s.sessions.countWhere fun k _ => k.1 == actor
  activeGroup := s.sessions.countWhere fun _ session => !session.retired
  activeActor := s.sessions.countWhere fun k session => k.1 == actor && !session.retired

end State

end AsterRpc.Coordination

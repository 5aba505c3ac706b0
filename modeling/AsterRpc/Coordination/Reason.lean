import AsterRpc.Foundation.Table

/-!
# Reasons and outcomes

`reason.rs`: why a request was refused, what a request achieved, and the two
classifications of a refusal that the rest of the service relies on, which
refusals are admission denials and which are final when nothing was consumed.
-/

namespace AsterRpc.Coordination

inductive Reason where
  | none
  | intentSlotsExhausted
  | heldByOther
  | notHeld
  | notHolder
  | epochMismatch
  | valueRevisionMismatch
  | aclRevisionMismatch
  | adminRevisionMismatch
  | sequenceTooOld
  | sequenceGap
  | sequenceConflict
  | clientRetired
  | permissionChanged
  | membershipRevisionMismatch
  | membershipIntentActive
  | counterExhausted
  | membershipCannotCancel
  | operationIdConflict
  | retainedSessionCapReached
  | stateBudgetExhausted
  | activeClientCap
  | resourceSlotsExhausted
  | aclSlotsExhausted
  | lastAdministrator
  | membershipLearnerEnvelope
  | rootAuthorityImmutable
deriving DecidableEq

namespace Reason

def code : Reason → Int
  | none => 0
  | intentSlotsExhausted => 20
  | heldByOther => 1
  | notHeld => 2
  | notHolder => 3
  | epochMismatch => 4
  | valueRevisionMismatch => 5
  | aclRevisionMismatch => 6
  | adminRevisionMismatch => 7
  | sequenceTooOld => 8
  | sequenceGap => 9
  | sequenceConflict => 10
  | clientRetired => 11
  | permissionChanged => 12
  | membershipRevisionMismatch => 13
  | membershipIntentActive => 14
  | counterExhausted => 15
  | membershipCannotCancel => 16
  | operationIdConflict => 17
  | retainedSessionCapReached => 18
  | stateBudgetExhausted => 19
  | activeClientCap => 21
  | resourceSlotsExhausted => 22
  | aclSlotsExhausted => 23
  | lastAdministrator => 24
  | membershipLearnerEnvelope => 25
  | rootAuthorityImmutable => 26

/-- Every reason. -/
def all : List Reason :=
  [none, intentSlotsExhausted, heldByOther, notHeld, notHolder, epochMismatch,
    valueRevisionMismatch, aclRevisionMismatch, adminRevisionMismatch, sequenceTooOld, sequenceGap,
    sequenceConflict, clientRetired, permissionChanged, membershipRevisionMismatch,
    membershipIntentActive, counterExhausted, membershipCannotCancel, operationIdConflict,
    retainedSessionCapReached, stateBudgetExhausted, activeClientCap, resourceSlotsExhausted,
    aclSlotsExhausted, lastAdministrator, membershipLearnerEnvelope, rootAuthorityImmutable]

def fromCode (code : Int) : Option Reason := all.find? fun r => r.code == code

def isReserved : Reason → Bool
  | intentSlotsExhausted => true
  | _ => false

/-- Neither the absent reason nor the reserved one. -/
def isRefusable : Reason → Bool
  | none | intentSlotsExhausted => false
  | _ => true

/-- Denied before the log: capacity, a ceiling, or an authority that cannot change. -/
def isAdmissionDenial : Reason → Bool
  | counterExhausted | stateBudgetExhausted | resourceSlotsExhausted | aclSlotsExhausted
  | lastAdministrator | rootAuthorityImmutable | membershipLearnerEnvelope => true
  | _ => false

/-- A refusal that consumed nothing and that no later command can clear. -/
def isTerminalWhenNotConsumed : Reason → Bool
  | clientRetired | retainedSessionCapReached | counterExhausted | resourceSlotsExhausted
  | rootAuthorityImmutable | lastAdministrator => true
  | _ => false

end Reason

/-- A reason a request can actually be refused with. -/
structure RefusalReason where
  get : Reason
  refusable : get.isRefusable = true
deriving DecidableEq

namespace RefusalReason

def heldByOther : RefusalReason := ⟨.heldByOther, rfl⟩
def notHeld : RefusalReason := ⟨.notHeld, rfl⟩
def notHolder : RefusalReason := ⟨.notHolder, rfl⟩
def epochMismatch : RefusalReason := ⟨.epochMismatch, rfl⟩
def valueRevisionMismatch : RefusalReason := ⟨.valueRevisionMismatch, rfl⟩
def aclRevisionMismatch : RefusalReason := ⟨.aclRevisionMismatch, rfl⟩
def adminRevisionMismatch : RefusalReason := ⟨.adminRevisionMismatch, rfl⟩
def permissionChanged : RefusalReason := ⟨.permissionChanged, rfl⟩
def membershipRevisionMismatch : RefusalReason := ⟨.membershipRevisionMismatch, rfl⟩
def membershipIntentActive : RefusalReason := ⟨.membershipIntentActive, rfl⟩
def counterExhausted : RefusalReason := ⟨.counterExhausted, rfl⟩
def membershipCannotCancel : RefusalReason := ⟨.membershipCannotCancel, rfl⟩
def operationIdConflict : RefusalReason := ⟨.operationIdConflict, rfl⟩
def retainedSessionCapReached : RefusalReason := ⟨.retainedSessionCapReached, rfl⟩
def stateBudgetExhausted : RefusalReason := ⟨.stateBudgetExhausted, rfl⟩
def resourceSlotsExhausted : RefusalReason := ⟨.resourceSlotsExhausted, rfl⟩
def aclSlotsExhausted : RefusalReason := ⟨.aclSlotsExhausted, rfl⟩
def lastAdministrator : RefusalReason := ⟨.lastAdministrator, rfl⟩
def membershipLearnerEnvelope : RefusalReason := ⟨.membershipLearnerEnvelope, rfl⟩
def rootAuthorityImmutable : RefusalReason := ⟨.rootAuthorityImmutable, rfl⟩

def isAdmissionDenial (r : RefusalReason) : Bool := r.get.isAdmissionDenial

def isTerminalWhenNotConsumed (r : RefusalReason) : Bool := r.get.isTerminalWhenNotConsumed

end RefusalReason

/-- Whether a request used up its sequence number. -/
inductive Disposition where
  | consumed
  | notConsumed
deriving DecidableEq

inductive Outcome where
  | granted
  | renewed
  | mutated
  | released
  | revoked
  | grantUpdated
  | adminUpdated
  | membershipAccepted
  | clientRetired
  | membershipCancelled
  | rejected
deriving DecidableEq

namespace Outcome

def code : Outcome → Int
  | granted => 1
  | renewed => 2
  | mutated => 3
  | released => 4
  | revoked => 5
  | grantUpdated => 6
  | adminUpdated => 7
  | membershipAccepted => 8
  | clientRetired => 9
  | membershipCancelled => 10
  | rejected => 100

/-- Every outcome. -/
def all : List Outcome :=
  [granted, renewed, mutated, released, revoked, grantUpdated, adminUpdated, membershipAccepted,
    clientRetired, membershipCancelled, rejected]

def fromCode (code : Int) : Option Outcome := all.find? fun o => o.code == code

end Outcome

end AsterRpc.Coordination

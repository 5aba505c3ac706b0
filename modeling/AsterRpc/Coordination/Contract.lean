import AsterRpc.Coordination.Limits
import AsterRpc.Coordination.Reason

/-!
# Wire contract

The payload types of `contract.rs`, `raft.rs` and `rowstream.rs` that the state
machine reads, and the libraries it calls.  On the wire an identifier is a byte
string of any width; narrowing it is the boundary's work.  A Rust `String` is
its UTF-8 bytes.

`Externals` collects the code that is not in the repository: the Fory codec,
BLAKE3, Ed25519 and the Aster ticket text.  Nothing is assumed of it here.
-/

namespace AsterRpc.Coordination

/-! ### Values -/

structure NodeIdV1 where
  nodeId : Bytes
deriving DecidableEq

structure ResourceKeyV1 where
  ns : Bytes
  key : Bytes
deriving DecidableEq

structure LogIdV1 where
  term : ℕ
  leaderNodeId : Bytes
  index : ℕ
deriving DecidableEq

structure FenceV1 where
  groupId : Bytes
  resource : ResourceKeyV1
  epoch : ℕ
  holder : Bytes

structure MemberSeedV1 where
  nodeId : Bytes
  ticket : Bytes
  signedJoinPermit : Option Bytes
deriving DecidableEq

/-! ### Actions and commands -/

structure ChangeMembershipActionV1 where
  operationId : Bytes
  expectedMembershipLogId : Option LogIdV1
  desiredVoters : List NodeIdV1
  retainedLearners : List NodeIdV1
  memberSeeds : List MemberSeedV1
deriving DecidableEq

inductive ActionV1 where
  | acquire (resource : ResourceKeyV1) (ttlMs : ℕ)
  | renew (fence : FenceV1)
  | compareAndSet (fence : FenceV1) (expectedValueRevision : ℕ) (newValue : Bytes)
  | release (fence : FenceV1)
  | releaseWithValue (fence : FenceV1) (expectedValueRevision : ℕ) (finalValue : Bytes)
  | revoke (resource : ResourceKeyV1) (expectedEpoch : Option ℕ)
  | setGrant (resource : ResourceKeyV1) (targetNodeId : Bytes) (rights : Rights)
      (expectedAclRevision : ℕ)
  | setAdmin (targetNodeId : Bytes) (enabled : Bool) (expectedAdminRevision : ℕ)
  | changeMembership (change : ChangeMembershipActionV1)
  | cancelMembership (operationId : Bytes) (expectedPhaseCode : Int)
  /-- The forward-compatibility carrier: a variant this version does not know. -/
  | unknown (payload : Bytes)

structure ClientCommandV1 where
  actorNodeId : Bytes
  clientId : Bytes
  sequence : ℕ
  requestHash : Bytes
  action : ActionV1

inductive CommandV1 where
  | client (command : ClientCommandV1)
  | expire (resource : ResourceKeyV1) (epoch leaseRevision : ℕ)
  | membershipProgress (operationId : Bytes) (expectedPhase newPhase : Int)
      (observedMembershipLogId : Option LogIdV1) (resultCode : Int)
  | retireClient (actorNodeId targetNodeId targetClientId : Bytes)
  | genesis (signedGenesis : Bytes)
  | unknown (payload : Bytes)

/-! ### Replies -/

structure ResourceSnapshotV1 where
  groupId : Bytes
  resource : ResourceKeyV1
  epoch : ℕ
  holder : Option Bytes
  held : Bool
  ttlMs : ℕ
  leaseRevision : ℕ
  valueRevision : ℕ
  aclRevision : ℕ
  value : Option Bytes
  valueRedacted : Bool
deriving DecidableEq

structure ClientReplyV1 where
  dispositionCode : Int
  outcomeCode : Int
  reasonCode : Int
  snapshot : Option ResourceSnapshotV1
  aclRevision : ℕ
  adminRevision : ℕ
  operationId : Option Bytes
  membershipLogId : Option LogIdV1

structure SystemReplyV1 where
  systemResultCode : Int
  leaseRevision : ℕ
  membershipLogId : Option LogIdV1

structure RetirementReplyV1 where
  outcomeCode : Int
  reasonCode : Int

inductive CommandReplyV1 where
  | client (reply : ClientReplyV1)
  | system (reply : SystemReplyV1)
  | retirement (reply : RetirementReplyV1)
  /-- The answer to an entry of the log itself, which carries no command. -/
  | nonCommand

/-! ### Signed documents -/

structure SignedCoordinationDocumentV1 where
  formatVersion : ℕ
  documentBytes : Bytes
  authorityPublicKey : Bytes
  signature : Bytes

structure JoinPermitV1 where
  formatVersion : ℕ
  groupId : Bytes
  authorityDomain : Bytes
  genesisHash : Bytes
  candidateNodeId : Bytes
  candidateTicket : Bytes
  bootstrapSenders : List NodeIdV1
  joinNonce : Bytes

structure VoterSeedV1 where
  nodeId : Bytes
  ticket : Bytes

structure GenesisV1 where
  formatVersion : ℕ
  groupId : Bytes
  authorityDomain : Bytes
  genesisNonce : Bytes
  deploymentProfileCode : Int
  initialVoters : List VoterSeedV1
  initialAdmins : List NodeIdV1
  recoveryExportHash : Option Bytes

/-! ### Tickets -/

inductive TicketCredential where
  | openAccess
  | consumerRcan (payload : Bytes)
  | enrollment (payload : Bytes)
  | registryRead (registry : FixedBytes 32)
deriving DecidableEq

/-- `AsterTicket`; a socket address is kept as its encoded bytes. -/
structure AsterTicket where
  endpointId : NodeId
  relay : Option Bytes
  directAddrs : List Bytes
  credential : Option TicketCredential

/-! ### External code -/

/-- A Fory payload codec for one type; either direction may fail. -/
structure ForyCodec (α : Type) where
  serialize : α → Option Bytes
  deserialize : Bytes → Option α

/-- The libraries the state machine calls. -/
structure Externals where
  action : ForyCodec ActionV1
  command : ForyCodec CommandV1
  changeMembership : ForyCodec ChangeMembershipActionV1
  signedDocument : ForyCodec SignedCoordinationDocumentV1
  joinPermit : ForyCodec JoinPermitV1
  genesis : ForyCodec GenesisV1
  /-- `blake3::hash` of the concatenated input. -/
  blake3 : Bytes → Hash
  /-- Whether 32 bytes decompress to a curve point, `VerifyingKey::from_bytes`. -/
  verifyingKey : NodeId → Bool
  /-- Ed25519 verification of a message and a 64-byte signature. -/
  verify : NodeId → Bytes → Bytes → Bool
  /-- `AsterTicket::from_base58_str`. -/
  ticketFromText : Bytes → Option AsterTicket
  /-- `AsterTicket::to_base58_string`. -/
  ticketToText : AsterTicket → Option Bytes

/-! ### System result codes -/

def sysExpired : Int := 1
def sysExpiryStale : Int := 2
def sysMembershipAdvanced : Int := 3
def sysMembershipPhaseMismatch : Int := 4
def sysExpireMalformed : Int := 5
def sysMembershipMalformed : Int := 6
def sysGenesisInstalled : Int := 7
def sysGenesisAlreadyInstalled : Int := 8

def operationRetireClient : Int := 10
def operationExpire : Int := 100
def operationMembershipProgress : Int := 101
def operationGenesis : Int := 102

/-- `AUDIT_RESULTS`: the result codes an audit row may carry, per operation code. -/
def auditResults : List (Int × List Int) :=
  [(1, [1, 100]), (2, [2, 100]), (3, [3, 100]), (4, [4, 100]), (5, [4, 100]), (6, [5, 100]),
    (7, [6, 100]), (8, [7, 100]), (9, [8, 100]), (10, [9, 100]), (11, [10, 100]),
    (100, [1, 2, 5]), (101, [3, 4, 6]), (102, [7, 8])]

/-- `audit_results_for`. -/
def auditResultsFor (operation : Int) : Option (List Int) :=
  (auditResults.find? fun entry => entry.1 == operation).map Prod.snd

end AsterRpc.Coordination

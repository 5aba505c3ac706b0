import AsterRpc.Coordination.State

/-!
# Shapes and signed documents

`model/shape.rs` and `model/authority.rs`: the static checks of a request, a
membership plan, a join permit and a signed genesis.  A check that the source
writes as `Option<ShapeLimit>` refuses with that limit here.
-/

namespace AsterRpc.Coordination

open AsterRpc.Foundation List

inductive ShapeLimit where
  | namespaceInvalid
  | resourceKey
  | value
  | ttl
  | rightsBits
  | encodedCommand
  | memberSeedTicket
  | memberSeedJoinPermit
  | nodeIdWidth
  | fenceGroupWidth
  | clientIdWidth
  | requestHashWidth
  | requestHashMismatch
  | membershipPlanSize
  | membershipPlanOrder
  | membershipPlanRoot
  | memberSeedUnknownNode
  | memberSeedPermit
  | memberSeedTicketEmpty
  | memberSeedTicketInvalid
  | memberSeedTicketCredential
  | memberSeedTicketNode
  | memberSeedTicketNonCanonical
  | membershipNewVoters
deriving DecidableEq

/-! ### Single fields -/

/-- `validate_resource_key`. -/
def validateResourceKey (ns key : Bytes) : Except ShapeLimit ResourceKey :=
  match ResourceKey.new ns key with
  | .ok k => .ok k
  | .error (.namespaceLength _) => .error .namespaceInvalid
  | .error .namespaceCharset => .error .namespaceInvalid
  | .error (.keyLength _) => .error .resourceKey

def checkValue (value : Bytes) : Except ShapeLimit Unit :=
  refuseIf (value.length > maxValue) .value

def checkTtl (ttlMs : ℕ) : Except ShapeLimit Unit :=
  refuseIf (!(minTtlMs ≤ ttlMs && ttlMs ≤ maxTtlMs)) .ttl

def checkRights (rights : Rights) : Except ShapeLimit Unit :=
  refuseIf (!rightsAreKnown rights) .rightsBits

/-! ### Deployment profiles -/

def minVoters : ℕ := 3
def maxVoters : ℕ := 5
def maxRetainedLearners : ℕ := 2
def maxNewVoters : ℕ := 2
def maxLearnerEnvelope : ℕ := maxRetainedLearners + maxNewVoters + maxRetainedLearners

def profileProd : Int := 1
def profileDevSingle : Int := 2
def profileDevEven : Int := 3
def profiles : List Int := [profileProd, profileDevSingle, profileDevEven]

/-- Whether a profile runs with this many voters. -/
def permittedVoters (profileCode : Int) (voters : ℕ) : Bool :=
  if profileCode = profileProd then voters == minVoters || voters == maxVoters
  else if profileCode = profileDevSingle then voters == 1
  else if profileCode = profileDevEven then voters == 2
  else false

/-- `profile_permits_voters`: despite its name, `true` on a count that is NOT permitted. -/
def profilePermitsVoters (profileCode : Int) (voters : ℕ) : Bool :=
  !permittedVoters profileCode voters

theorem voters_le_of_permitted {profileCode : Int} {voters : ℕ}
    (h : permittedVoters profileCode voters = true) : voters ≤ maxVoters := by
  unfold permittedVoters at h
  simp only [maxVoters]
  split_ifs at h <;> simp [minVoters, maxVoters] at h <;> omega

/-! ### Node lists -/

/-- `sorted_unique`: every window of two is strictly increasing. -/
def sortedUnique (ids : List NodeId) : Bool :=
  decide (ids.IsChain fun a b => compare a b = .lt)

theorem nodup_of_sortedUnique {ids : List NodeId} (h : sortedUnique ids = true) : ids.Nodup := by
  rw [sortedUnique, decide_eq_true_eq] at h
  have htrans : Trans (fun a b : NodeId => compare a b = .lt) (fun a b => compare a b = .lt)
      (fun a b => compare a b = .lt) := ⟨fun hab hbc => Std.TransCmp.lt_trans hab hbc⟩
  refine (isChain_iff_pairwise.mp h).imp ?_
  intro a b hab heq
  subst heq
  simp at hab

/-- `new_voters`. -/
def newVoters (desired : List NodeId) (current : Finset NodeId) : ℕ :=
  (desired.filter fun v => decide (v ∉ current)).length

/-- `projected_learners`: the learners once every missing node of the plan has joined. -/
def projectedLearners (currentLearners currentMembers : Finset NodeId)
    (desiredVoters retainedLearners : List NodeId) : ℕ :=
  (currentLearners ∪
    ((desiredVoters ++ retainedLearners).filter fun n => decide (n ∉ currentMembers)).toFinset).card

/-- `check_membership_plan`. -/
def checkMembershipPlan (voters retainedLearners : ℕ) (profileCode : Int) :
    Except ShapeLimit Unit := do
  refuseIf (retainedLearners > maxRetainedLearners) .membershipPlanSize
  refuseIf (profilePermitsVoters profileCode voters) .membershipPlanSize

/-- `check_member_seed`. -/
def checkMemberSeed (ticketLen : ℕ) (joinPermitLen : Option ℕ) : Except ShapeLimit Unit := do
  refuseIf (ticketLen > maxTicket) .memberSeedTicket
  refuseIf (joinPermitLen.any fun len => len > maxJoinPermit) .memberSeedJoinPermit

section Documents

variable (ext : Externals) {plan : MembershipPlan} {current : CommittedMembership}
  {authority : GroupAuthority} {profileCode : Int} {ε α β : Type} {narrow : α → Except ε β}
  {xs : List α} {ys : List β} {y : β}

/-- `check_seed_ticket`: a canonical ticket of this node that carries no secret. -/
def checkSeedTicket (ticket : Bytes) (node : NodeId) : Except ShapeLimit Unit := do
  refuseIf ticket.isEmpty .memberSeedTicketEmpty
  refuseIf (!isUtf8 ticket) .memberSeedTicketInvalid
  let parsed ← requireSome (ext.ticketFromText ticket) .memberSeedTicketInvalid
  let canonical ← requireSome (ext.ticketToText parsed) .memberSeedTicketInvalid
  refuseIf (canonical != ticket) .memberSeedTicketNonCanonical
  refuseIf (!(parsed.credential == none || parsed.credential == some .openAccess))
    .memberSeedTicketCredential
  refuseIf (parsed.endpointId != node) .memberSeedTicketNode

/-! ### Join permits -/

def permitFormatVersion : ℕ := 1
def maxAuthorityDomainBytes : ℕ := 128
/-- `aster-coordination/join/v1` with a trailing NUL. -/
def joinDomain : Bytes := "aster-coordination/join/v1\x00".toUTF8.toList
/-- `aster-coordination/genesis/v1` with a trailing NUL. -/
def genesisDomain : Bytes := "aster-coordination/genesis/v1\x00".toUTF8.toList

inductive PermitError where
  | malformed
  | unknownFormat (version : ℕ)
  | nonCanonical
  | wrongAuthorityKey
  | badSignature
  | wrongDomain
  | wrongGroup
  | wrongGenesis
  | wrongNode
  | ticketMismatch
  | bootstrapSenders
  | fieldWidth

/-- A domain name: 1 to 128 ASCII bytes. -/
def domainShape (domain : Bytes) : Bool :=
  !domain.isEmpty && domain.length ≤ maxAuthorityDomainBytes && domain.all (· < 0x80)

/-- `windows(2).any(|w| w[0] >= w[1])` on byte strings. -/
def notAscending (ids : List Bytes) : Bool :=
  !decide (ids.IsChain fun a b => compare a b = .lt)

/-- `canonical_candidate_ticket`: the bare open ticket of a node. -/
def canonicalCandidateTicket (candidate : NodeId) : Except PermitError Bytes :=
  requireSome (ext.ticketToText ⟨candidate, none, [], some .openAccess⟩) .ticketMismatch

/-- `open_signed_permit`. -/
def openSignedPermit (publicKey : NodeId) (permitBytes : Bytes) :
    Except PermitError (JoinPermitV1 × Bytes) := do
  let envelope ← requireSome (ext.signedDocument.deserialize permitBytes) .malformed
  refuseIf (envelope.formatVersion != permitFormatVersion) (.unknownFormat envelope.formatVersion)
  refuseIf (envelope.authorityPublicKey.length != 32 || envelope.signature.length != 64) .fieldWidth
  refuseIf (envelope.authorityPublicKey != publicKey.bytes) .wrongAuthorityKey
  refuseIf (!ext.verifyingKey publicKey) .malformed
  refuseIf (!ext.verify publicKey (joinDomain ++ envelope.documentBytes) envelope.signature)
    .badSignature
  let permit ← requireSome (ext.joinPermit.deserialize envelope.documentBytes) .malformed
  let reencoded ← requireSome (ext.joinPermit.serialize permit) .malformed
  refuseIf (reencoded != envelope.documentBytes) .nonCanonical
  .ok (permit, envelope.documentBytes)

/-- `check_permit_shape`. -/
def checkPermitShape (permit : JoinPermitV1) : Except PermitError Unit := do
  refuseIf (permit.formatVersion != permitFormatVersion) (.unknownFormat permit.formatVersion)
  refuseIf (permit.groupId.length != 32 || permit.genesisHash.length != 32 ||
    permit.candidateNodeId.length != 32 || permit.joinNonce.length != 32 ||
    !domainShape permit.authorityDomain || permit.candidateTicket.isEmpty ||
    permit.candidateTicket.length > maxTicket) .fieldWidth
  refuseIf permit.bootstrapSenders.isEmpty .bootstrapSenders
  refuseIf (permit.bootstrapSenders.any fun n => n.nodeId.length != 32) .fieldWidth
  refuseIf (notAscending (permit.bootstrapSenders.map (·.nodeId))) .bootstrapSenders

/-- `check_permit`. -/
def checkPermit (authority : GroupAuthority) (permit : JoinPermitV1) (candidate : NodeId) :
    Except PermitError Unit := do
  checkPermitShape permit
  refuseIf (permit.authorityDomain != authority.domain) .wrongDomain
  refuseIf (permit.groupId != authority.groupId.bytes) .wrongGroup
  refuseIf (permit.genesisHash != authority.genesisHash.bytes) .wrongGenesis
  refuseIf (permit.candidateNodeId != candidate.bytes) .wrongNode
  let ticket ← canonicalCandidateTicket ext candidate
  refuseIf (permit.candidateTicket != ticket) .ticketMismatch

/-- `verify_join_permit`. -/
def verifyJoinPermit (authority : GroupAuthority) (permitBytes : Bytes) (candidate : NodeId) :
    Except PermitError Unit := do
  let (permit, _) ← openSignedPermit ext authority.publicKey permitBytes
  checkPermit ext authority permit candidate

/-! ### Membership plans -/

/-- The permit rule of one seed: a new node brings a valid permit, a member brings none. -/
def checkSeedPermit (authority : GroupAuthority) (members : Finset NodeId) (seed : MemberSeed) :
    Except ShapeLimit Unit :=
  match decide (seed.nodeId ∉ members), seed.joinPermit with
  | true, some permit =>
    match verifyJoinPermit ext authority permit seed.nodeId with
    | .ok () => .ok ()
    | .error _ => .error .memberSeedPermit
  | false, none => .ok ()
  | _, _ => .error .memberSeedPermit

/-- One turn of the seed loop of `plan_shape`. -/
def checkPlanSeed (plan : MembershipPlan) (authority : GroupAuthority) (members : Finset NodeId)
    (seed : MemberSeed) : Except ShapeLimit Unit := do
  checkMemberSeed seed.ticket.length (seed.joinPermit.map length)
  refuseIf (!(plan.desiredVoters.contains seed.nodeId ||
    plan.retainedLearners.contains seed.nodeId))
    .memberSeedUnknownNode
  checkSeedTicket ext seed.ticket seed.nodeId
  checkSeedPermit ext authority members seed

/-- `plan_shape`. -/
def planShape (plan : MembershipPlan) (current : CommittedMembership) (authority : GroupAuthority)
    (profileCode : Int) : Except ShapeLimit Unit := do
  checkMembershipPlan plan.desiredVoters.length plan.retainedLearners.length profileCode
  refuseIf (!sortedUnique plan.desiredVoters || !sortedUnique plan.retainedLearners)
    .membershipPlanOrder
  refuseIf (!sortedUnique (plan.memberSeeds.map (·.nodeId))) .membershipPlanOrder
  refuseIf (plan.desiredVoters.any fun v => plan.retainedLearners.contains v) .membershipPlanOrder
  refuseIf ((plan.desiredVoters ++ plan.retainedLearners).any (· == authority.publicKey))
    .membershipPlanRoot
  refuseIf (newVoters plan.desiredVoters current.members > maxNewVoters) .membershipNewVoters
  checkAll (checkPlanSeed ext plan authority current.members) plan.memberSeeds
  checkAll (fun node => refuseIf (decide (node ∉ current.members) &&
    !plan.memberSeeds.any fun s => s.nodeId == node) .memberSeedUnknownNode)
    (plan.desiredVoters ++ plan.retainedLearners)

/-- Only nodes of the plan are seeded. -/
theorem checkPlanSeed_named {members : Finset NodeId} {seed : MemberSeed}
    (h : checkPlanSeed ext plan authority members seed = .ok ()) :
    seed.nodeId ∈ plan.desiredVoters ++ plan.retainedLearners := by
  simp only [checkPlanSeed, accepts_iff, Bool.or_eq_true, contains_iff_mem] at h
  exact mem_append.mpr h.2.1

/-- Everything `plan_shape` demands of a plan. -/
structure PlanShaped (plan : MembershipPlan) (current : CommittedMembership)
    (authority : GroupAuthority) (profileCode : Int) : Prop where
  voterCount : profilePermitsVoters profileCode plan.desiredVoters.length = false
  learnerCount : plan.retainedLearners.length ≤ maxRetainedLearners
  voters : sortedUnique plan.desiredVoters = true
  learners : sortedUnique plan.retainedLearners = true
  seeds : sortedUnique (plan.memberSeeds.map (·.nodeId)) = true
  newVoters : newVoters plan.desiredVoters current.members ≤ maxNewVoters
  seed : ∀ seed ∈ plan.memberSeeds, checkPlanSeed ext plan authority current.members seed = .ok ()

theorem planShape_ok (h : planShape ext plan current authority profileCode = .ok ()) :
    PlanShaped ext plan current authority profileCode := by
  simp only [planShape, checkMembershipPlan, accepts_iff, checkAll_eq_ok, Bool.or_eq_false_iff] at h
  obtain ⟨⟨hlearn, hcount⟩, ⟨hvoters, hkeep⟩, hseeds, -, -, hnew, hseed, -⟩ := h
  exact ⟨hcount, hlearn, hvoters, hkeep, hseeds, hnew, hseed⟩

/-- What `plan_shape` demands of the nodes of a plan: no node has two roles, none is the root, only
nodes of the plan are seeded, and every new one is. -/
structure PlanNodes (plan : MembershipPlan) (members : Finset NodeId) (root : NodeId) : Prop where
  roles : ∀ node ∈ plan.desiredVoters, node ∉ plan.retainedLearners
  root : root ∉ plan.desiredVoters ++ plan.retainedLearners
  seeds : ∀ seed ∈ plan.memberSeeds, seed.nodeId ∈ plan.desiredVoters ++ plan.retainedLearners
  seeded : ∀ node ∈ plan.desiredVoters ++ plan.retainedLearners, node ∉ members →
    ∃ seed ∈ plan.memberSeeds, seed.nodeId = node

theorem planShape_nodes (h : planShape ext plan current authority profileCode = .ok ()) :
    PlanNodes plan current.members authority.publicKey := by
  simp only [planShape, accepts_iff, checkAll_eq_ok] at h
  obtain ⟨-, -, -, hroles, hroot, -, hseed, hseeded⟩ := h
  refine ⟨?_, ?_, ?_, ?_⟩
  · intro node hnode
    simpa using any_eq_false.mp hroles node hnode
  · intro hnode
    simpa using any_eq_false.mp hroot _ hnode
  · intro seed hmem
    exact checkPlanSeed_named ext (hseed seed hmem)
  · intro node hnode hnew
    simpa [hnew] using hseeded node hnode

/-- A plan seeds no more nodes than it names. -/
theorem PlanShaped.seeds_length (h : PlanShaped ext plan current authority profileCode) :
    plan.memberSeeds.length ≤ maxVoters + maxRetainedLearners := by
  have hsub : plan.memberSeeds.map (·.nodeId) ⊆ plan.desiredVoters ++ plan.retainedLearners := by
    intro node hnode
    obtain ⟨seed, hseed, rfl⟩ := mem_map.mp hnode
    exact checkPlanSeed_named ext (h.seed seed hseed)
  have hlen := ((nodup_of_sortedUnique h.seeds).subperm hsub).length_le
  have hpermitted : permittedVoters profileCode plan.desiredVoters.length = true := by
    simpa [profilePermitsVoters] using h.voterCount
  have hvoters := voters_le_of_permitted hpermitted
  have hlearn := h.learnerCount
  rw [length_map, length_append] at hlen
  omega

/-! ### Genesis -/

inductive GenesisError where
  | malformed
  | unknownFormat (version : ℕ)
  | nonCanonical
  | wrongAuthorityKey
  | badSignature
  | wrongDomain
  | fieldWidth
  | unknownProfile (profile : Int)
  | voterCount (profile : Int) (voters : ℕ)
  | initialVoters
  | rootIsNotDelegable
  | rootIsNotAMember
  | initialAdmins
  | voterSeedTicket (limit : ShapeLimit)
deriving DecidableEq

structure VerifiedVoterSeed where
  nodeId : NodeId
  ticket : Bytes

/-- A genesis document whose signature and every field have been checked. -/
structure VerifiedGenesis where
  documentBytes : Bytes
  genesisHash : Hash
  groupId : GroupId
  authorityPublicKey : NodeId
  authorityDomain : Bytes
  deploymentProfileCode : Int
  initialVoters : List VerifiedVoterSeed
  initialAdmins : List NodeId
  recoveryExportHash : Option Hash

/-- `genesis_hash`. -/
def genesisHash (documentBytes : Bytes) : Hash := ext.blake3 (genesisDomain ++ documentBytes)

/-- Narrow every element in order, up to the first failure. -/
def narrowAll {ε α β : Type} (narrow : α → Except ε β) : List α → Except ε (List β)
  | [] => .ok []
  | x :: rest => do
    let y ← narrow x
    let ys ← narrowAll narrow rest
    .ok (y :: ys)

/-- Narrowing a list is narrowing its elements, one by one. -/
theorem narrowAll_eq_ok :
    narrowAll narrow xs = .ok ys ↔ Forall₂ (fun x y => narrow x = .ok y) xs ys := by
  induction xs generalizing ys with
  | nil => simp [narrowAll, eq_comm]
  | cons x rest ih =>
    simp only [narrowAll, accepts_iff, ih, forall₂_cons_left_iff]
    simp [eq_comm]

theorem narrowAll_accepts :
    (∃ ys, narrowAll narrow xs = .ok ys) ↔ ∀ x ∈ xs, ∃ y, narrow x = .ok y := by
  simp only [narrowAll_eq_ok]
  refine ⟨fun ⟨ys, h⟩ x hx => ?_, exists_forall₂⟩
  obtain ⟨y, -, hy⟩ := (forall₂_mem h).1 x hx
  exact ⟨y, hy⟩

theorem narrowAll_mem (h : narrowAll narrow xs = .ok ys) (hy : y ∈ ys) :
    ∃ x ∈ xs, narrow x = .ok y :=
  (forall₂_mem (narrowAll_eq_ok.mp h)).2 y hy

theorem mem_narrowAll {x : α} (h : narrowAll narrow xs = .ok ys) (hx : x ∈ xs)
    (hy : narrow x = .ok y) : y ∈ ys := by
  obtain ⟨_, hmem, hy'⟩ := (forall₂_mem (narrowAll_eq_ok.mp h)).1 x hx
  cases hy.symm.trans hy'
  exact hmem

/-- What narrowing keeps of an element it keeps of a list. -/
theorem map_of_narrowAll {γ : Type} {f : α → γ} {g : β → γ}
    (hkeeps : ∀ x ∈ xs, ∀ y, narrow x = .ok y → g y = f x) (h : narrowAll narrow xs = .ok ys) :
    ys.map g = xs.map f := by
  induction xs generalizing ys with
  | nil =>
    cases h
    rfl
  | cons x rest ih =>
    simp only [narrowAll, accepts_iff] at h
    obtain ⟨y, hy, _, hothers, rfl⟩ := h
    rw [map_cons, map_cons, hkeeps x mem_cons_self y hy,
      ih (fun x hx => hkeeps x (mem_cons_of_mem _ hx)) hothers]

theorem narrowAll_map (widen : β → α) (h : ∀ b, narrow (widen b) = .ok b) (bs : List β) :
    narrowAll narrow (bs.map widen) = .ok bs :=
  narrowAll_eq_ok.mpr (forall₂_map_left_iff.mpr (forall₂_same.mpr fun b _ => h b))

/-- One turn of the voter loop of `seal_genesis`. -/
def sealVoter (seed : VoterSeedV1) : Except GenesisError VerifiedVoterSeed := do
  let nodeId ← requireSome (FixedBytes.fromSlice 32 seed.nodeId) .fieldWidth
  refuseIf (seed.ticket.length > maxTicket) (.voterSeedTicket .memberSeedTicket)
  match checkSeedTicket ext seed.ticket nodeId with
  | .ok () => .ok ⟨nodeId, seed.ticket⟩
  | .error limit => .error (.voterSeedTicket limit)

/-- An optional digest, if present of the right width. -/
def sealRecoveryHash : Option Bytes → Except GenesisError (Option Hash)
  | none => .ok none
  | some bytes => do
    let hash ← requireSome (FixedBytes.fromSlice 32 bytes) .fieldWidth
    .ok (some hash)

/-- `seal_genesis`. -/
def sealGenesis (publicKey : NodeId) (domain : Bytes) (genesis : GenesisV1)
    (documentBytes : Bytes) :
    Except GenesisError VerifiedGenesis := do
  refuseIf (genesis.formatVersion != permitFormatVersion) (.unknownFormat genesis.formatVersion)
  refuseIf (genesis.groupId.length != 32 || genesis.genesisNonce.length != 32 ||
    !domainShape genesis.authorityDomain) .fieldWidth
  let recoveryExportHash ← sealRecoveryHash genesis.recoveryExportHash
  refuseIf (genesis.authorityDomain != domain) .wrongDomain
  refuseIf (!profiles.contains genesis.deploymentProfileCode)
    (.unknownProfile genesis.deploymentProfileCode)
  refuseIf (profilePermitsVoters genesis.deploymentProfileCode genesis.initialVoters.length)
    (.voterCount genesis.deploymentProfileCode genesis.initialVoters.length)
  let initialVoters ← narrowAll (sealVoter ext) genesis.initialVoters
  refuseIf (initialVoters.isEmpty || !sortedUnique (initialVoters.map (·.nodeId))) .initialVoters
  let initialAdmins ← narrowAll
    (fun admin : NodeIdV1 => requireSome (FixedBytes.fromSlice 32 admin.nodeId) .fieldWidth)
    genesis.initialAdmins
  refuseIf (initialAdmins.isEmpty || initialAdmins.length > maxAdminsPerGroup ||
    !sortedUnique initialAdmins) .initialAdmins
  refuseIf (initialAdmins.contains publicKey) .rootIsNotDelegable
  refuseIf (initialVoters.any fun seed => seed.nodeId == publicKey) .rootIsNotAMember
  let groupId ← requireSome (FixedBytes.fromSlice 32 genesis.groupId) .fieldWidth
  .ok
    { documentBytes := documentBytes
      genesisHash := genesisHash ext documentBytes
      groupId := groupId
      authorityPublicKey := publicKey
      authorityDomain := genesis.authorityDomain
      deploymentProfileCode := genesis.deploymentProfileCode
      initialVoters := initialVoters
      initialAdmins := initialAdmins
      recoveryExportHash := recoveryExportHash }

/-- `verify_genesis`. -/
def verifyGenesis (publicKey : NodeId) (domain signedBytes : Bytes) :
    Except GenesisError VerifiedGenesis := do
  let envelope ← requireSome (ext.signedDocument.deserialize signedBytes) .malformed
  refuseIf (envelope.formatVersion != permitFormatVersion) (.unknownFormat envelope.formatVersion)
  refuseIf (envelope.authorityPublicKey.length != 32 || envelope.signature.length != 64) .fieldWidth
  refuseIf (envelope.authorityPublicKey != publicKey.bytes) .wrongAuthorityKey
  refuseIf (!ext.verifyingKey publicKey) .malformed
  refuseIf (!ext.verify publicKey (genesisDomain ++ envelope.documentBytes) envelope.signature)
    .badSignature
  let genesis ← requireSome (ext.genesis.deserialize envelope.documentBytes) .malformed
  let reencoded ← requireSome (ext.genesis.serialize genesis) .malformed
  refuseIf (reencoded != envelope.documentBytes) .nonCanonical
  sealGenesis ext publicKey domain genesis envelope.documentBytes

/-- What a verified genesis guarantees about the administrators it installs. -/
theorem verifyGenesis_admins {publicKey : NodeId} {domain signedBytes : Bytes} {g : VerifiedGenesis}
    (h : verifyGenesis ext publicKey domain signedBytes = .ok g) :
    g.initialAdmins ≠ [] ∧ g.initialAdmins.length ≤ maxAdminsPerGroup ∧
      publicKey ∉ g.initialAdmins := by
  simp only [verifyGenesis, accepts_iff] at h
  obtain ⟨_, -, -, -, -, -, -, _, -, _, -, -, hseal⟩ := h
  simp only [sealGenesis, accepts_iff, Bool.or_eq_false_iff] at hseal
  obtain ⟨-, -, _, -, -, -, -, _, -, -, _, -, hadmins, hroot, -, _, -, rfl⟩ := hseal
  refine ⟨?_, ?_, ?_⟩
  · simpa using hadmins.1.1
  · simpa using hadmins.1.2
  · simpa using hroot

end Documents

end AsterRpc.Coordination

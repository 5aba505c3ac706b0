import AsterRpc.Storage.Valid

/-!
# The membership controller

`runtime/membership.rs`: the phase table of the task that a leader runs while a
membership intent is under way.  It reads the intent and the committed
membership, and answers what is to be done next: add learners, wait for them,
move the voters, replace the node map, report, or clean up after a cancellation.
-/

namespace AsterRpc.Coordination

open AsterRpc.Foundation FixedBytes

variable {members : Finset NodeId} {node : NodeId} {plan : MembershipPlan}

/-! ### What the controller reads -/

/-- `RaftMetrics`, as far as the table reads them: the node itself, and how far each follower's log
matches. -/
structure Metrics where
  id : NodeId
  replication : Option (Table NodeId (Option LogId))

/-- `missing_learners`. -/
def missingLearners (desiredVoters retainedLearners : List NodeId)
    (currentMembers : Finset NodeId) : Finset NodeId :=
  ((desiredVoters ++ retainedLearners).filter fun node =>
    decide (node ∉ currentMembers)).toFinset

/-- `replacement_node_map`. -/
def replacementNodeMap (desiredVoters retainedLearners : List NodeId) : Finset NodeId :=
  (desiredVoters ++ retainedLearners).toFinset

/-- `caught_up`. -/
def caughtUp (metrics : Metrics) (node : NodeId) (barrier : ℕ) : Bool :=
  (metrics.replication.bind fun replication => replication[node]?).join.any fun matched =>
    matched.index ≥ barrier

/-- `Membership::learner_ids`. -/
def Membership.learnerIds (m : Membership) : Finset NodeId := (projectMembership m).learners

/-- `completion_is_visible`. -/
def completionIsVisible (membership : Membership) (desiredVoters retainedLearners : List NodeId) :
    Bool :=
  membership.configs.length == 1 && membership.voterIds == desiredVoters.toFinset &&
    membership.learnerIds == retainedLearners.toFinset

/-! ### The phase table -/

/-- `Step` of the controller. -/
inductive ControllerStep where
  | idle
  | addLearners (missing : Finset NodeId)
  | establishCatchUpBarrier
  | awaitCatchUp (barrier : ℕ) (outstanding : Finset NodeId)
  | changeVoters
  | replaceNodes
  | reportComplete
  | cancelCleanup (introduced : Finset NodeId)
deriving DecidableEq

/-- The arm of `next_step` for an intent that adds learners. -/
def addingStep (plan : MembershipPlan) (metrics : Metrics) (committed : Membership)
    (catchUpBarrier : Option ℕ) : ControllerStep :=
  let missing := missingLearners plan.desiredVoters plan.retainedLearners committed.nodes
  if missing ≠ ∅ then .addLearners missing
  else
    match catchUpBarrier with
    | none => .establishCatchUpBarrier
    | some barrier =>
      let outstanding := (plan.desiredVoters.filter fun node =>
        node != metrics.id && !caughtUp metrics node barrier).toFinset
      if outstanding = ∅ then .changeVoters else .awaitCatchUp barrier outstanding

/-- The arm of `next_step` for an intent that changes voters. -/
def changingStep (plan : MembershipPlan) (committed : Membership) : ControllerStep :=
  if completionIsVisible committed plan.desiredVoters plan.retainedLearners then .reportComplete
  else if committed.voterIds == plan.desiredVoters.toFinset && committed.configs.length == 1 then
    .replaceNodes
  else .changeVoters

/-- The nodes a cancellation removes: those the plan seeds, as far as they are members and not
desired voters. -/
def introducedNodes (plan : MembershipPlan) (committed : Membership) : Finset NodeId :=
  ((plan.memberSeeds.map (·.nodeId)).filter fun node =>
    decide (node ∈ committed.nodes) && !plan.desiredVoters.contains node).toFinset

/-- `next_step`. -/
def nextStep (intent : Intent) (metrics : Metrics) (committed : Membership)
    (catchUpBarrier : Option ℕ) : ControllerStep :=
  if intent.statusCode = phasePending then .changeVoters
  else if intent.statusCode = phaseAddingLearners then
    addingStep intent.plan metrics committed catchUpBarrier
  else if intent.statusCode = phaseChangingVoters then changingStep intent.plan committed
  else if intent.statusCode = phaseCancelRequested then
    .cancelCleanup (introducedNodes intent.plan committed)
  else .idle

/-! ### Reading the table -/

theorem mem_missingLearners {desired retained : List NodeId} :
    node ∈ missingLearners desired retained members ↔
      node ∈ desired ++ retained ∧ node ∉ members := by
  simp only [missingLearners, List.mem_toFinset, List.mem_filter, decide_eq_true_eq]

theorem mem_introducedNodes {committed : Membership} :
    node ∈ introducedNodes plan committed ↔
      (∃ seed ∈ plan.memberSeeds, seed.nodeId = node) ∧ node ∈ committed.nodes ∧
        node ∉ plan.desiredVoters := by
  simp [introducedNodes, List.contains_eq_mem]

/-! ### Cancellations -/

/-- **The membership is restored** by a removal: it takes no member of before and no learner the
plan keeps, and what it leaves was a member before or is such a learner. -/
structure Restores (members : Finset NodeId) (plan : MembershipPlan) (committed : Membership)
    (removed : Finset NodeId) : Prop where
  keepsMembers : ∀ node ∈ removed, node ∉ members
  keepsRetained : ∀ node ∈ removed, node ∉ plan.retainedLearners
  complete : ∀ node ∈ committed.nodes \ removed, node ∈ members ∨ node ∈ plan.retainedLearners

/-- The clean-up of a plan removes nothing but learners the plan keeps. -/
theorem introducedNodes_retained {root : NodeId} (h : PlanNodes plan members root)
    {committed : Membership} (hnode : node ∈ introducedNodes plan committed) :
    node ∈ plan.retainedLearners := by
  obtain ⟨⟨seed, hseed, rfl⟩, -, hdesired⟩ := mem_introducedNodes.mp hnode
  exact (List.mem_append.mp (h.seeds seed hseed)).resolve_left hdesired

/-- **When a cancellation restores the membership.**  Let a plan be accepted at a membership, and
let some of its missing learners have joined since.  The clean-up restores the membership exactly
when none has, and no learner that the plan keeps and that was a member already is among its
seeds. -/
theorem cancel_restores_iff (ext : Externals) (s : State) (actor : NodeId) (requestHash : Hash)
    (action : ChangeMembershipAction) (e : IntentEffect)
    (hacc : decideChange ext s actor requestHash action = .ok (.apply e)) (intent : Intent)
    (hplan : intent.plan = e.intent.plan) (hphase : intent.statusCode = phaseCancelRequested)
    (metrics : Metrics) (barrier : Option ℕ) (committed : Membership) (added : Finset NodeId)
    (hadded : added ⊆ missingLearners action.plan.desiredVoters action.plan.retainedLearners
      s.membership.members)
    (hnodes : committed.nodes = s.membership.members ∪ added) :
    (∃ removed, nextStep intent metrics committed barrier = .cancelCleanup removed ∧
        Restores s.membership.members action.plan committed removed) ↔
      added = ∅ ∧ ∀ seed ∈ action.plan.memberSeeds,
        seed.nodeId ∈ action.plan.retainedLearners → seed.nodeId ∉ s.membership.members := by
  have hstep := decideChange_apply ext hacc
  have hshape := planShape_nodes ext hstep.shape
  have hsame : intent.plan = action.plan := by
    rw [hplan, hstep.effect]
    rfl
  rw [nextStep, hphase, if_neg (by decide), if_neg (by decide), if_neg (by decide), if_pos rfl,
    hsame]
  constructor
  · rintro ⟨removed, hremoved, hrestores⟩
    cases hremoved
    refine ⟨Finset.eq_empty_of_forall_notMem fun node hnode => ?_,
      fun seed hseed hkeep hold => ?_⟩
    · -- a learner that joined is a desired voter, which stays, or a retained one, which goes
      obtain ⟨hnamed, hnew⟩ := mem_missingLearners.mp (hadded hnode)
      have hmember : node ∈ committed.nodes := by
        rw [hnodes]
        exact Finset.mem_union_right _ hnode
      by_cases hdesired : node ∈ action.plan.desiredVoters
      · have hstays : node ∈ committed.nodes \ introducedNodes action.plan committed :=
          Finset.mem_sdiff.mpr ⟨hmember, fun h => (mem_introducedNodes.mp h).2.2 hdesired⟩
        rcases hrestores.complete node hstays with hpre | hkeep
        · exact hnew hpre
        · exact hshape.roles node hdesired hkeep
      · have hgoes : node ∈ introducedNodes action.plan committed :=
          mem_introducedNodes.mpr ⟨hshape.seeded node hnamed hnew, hmember, hdesired⟩
        exact hrestores.keepsRetained node hgoes (introducedNodes_retained hshape hgoes)
    · have hmember : seed.nodeId ∈ committed.nodes := by
        rw [hnodes]
        exact Finset.mem_union_left _ hold
      have hgoes : seed.nodeId ∈ introducedNodes action.plan committed :=
        mem_introducedNodes.mpr ⟨⟨seed, hseed, rfl⟩, hmember, fun hdesired =>
          hshape.roles _ hdesired hkeep⟩
      exact hrestores.keepsMembers _ hgoes hold
  · rintro ⟨rfl, hseeds⟩
    rw [Finset.union_empty] at hnodes
    have hnothing : introducedNodes action.plan committed = ∅ := by
      refine Finset.eq_empty_of_forall_notMem fun node hnode => ?_
      have hkeep := introducedNodes_retained hshape hnode
      obtain ⟨⟨seed, hseed, rfl⟩, hmember, -⟩ := mem_introducedNodes.mp hnode
      rw [hnodes] at hmember
      exact hseeds seed hseed hkeep hmember
    refine ⟨_, rfl, ?_⟩
    rw [hnothing]
    refine ⟨by simp, by simp, fun node hnode => .inl ?_⟩
    rw [Finset.sdiff_empty, hnodes] at hnode
    exact hnode

namespace Sample

/-- The stand-ins of `externals`, with a permit that is the id of the node it admits. -/
def permitting : Externals :=
  { externals with
    signedDocument := ⟨fun _ => none, fun bytes =>
      some ⟨permitFormatVersion, bytes, root.bytes, List.replicate 64 0⟩⟩
    joinPermit := ⟨fun permit => some permit.candidateNodeId, fun bytes =>
      some ⟨permitFormatVersion, model.authority.groupId.bytes, model.authority.domain,
        model.authority.genesisHash.bytes, bytes, bytes, [⟨voter.bytes⟩], List.replicate 32 0⟩⟩ }

def joiner : NodeId := fill 32 5

/-- Replace the voter by the joiner. -/
def replaceVoter : ChangeMembershipAction :=
  ⟨fill 16 8, some (entry 1), ⟨[joiner], [], [⟨joiner, joiner.bytes, some joiner.bytes⟩]⟩⟩

/-- Keep the voter, with the joiner as a learner. -/
def keepLearner : ChangeMembershipAction :=
  ⟨fill 16 8, some (entry 1), ⟨[voter], [joiner], [⟨joiner, joiner.bytes, some joiner.bytes⟩]⟩⟩

/-- The intent of a change, once its cancellation was asked for. -/
def cancelRequested (action : ChangeMembershipAction) : Intent :=
  { newIntent voter (fill 32 0) action with statusCode := phaseCancelRequested }

/-- The voter, with the joiner as a learner. -/
def joined : Membership := ⟨[{voter}], {voter, joiner}, by simp⟩

def metrics : Metrics := ⟨voter, none⟩

theorem replaceVoter_accepted :
    decideChange permitting model voter (fill 32 0) replaceVoter =
      .ok (.apply (changeEffect model voter (fill 32 0) replaceVoter)) := by
  decide +kernel

end Sample

open Sample

/-- Before the joiner was added there is nothing to clean up. -/
theorem cancel_restores_iff_early :
    ∃ removed, nextStep (cancelRequested replaceVoter) metrics membership none =
        .cancelCleanup removed ∧
      Restores model.membership.members replaceVoter.plan membership removed :=
  (cancel_restores_iff permitting model voter (fill 32 0)
    replaceVoter _ replaceVoter_accepted (cancelRequested replaceVoter) rfl rfl metrics
    none membership ∅ (Finset.empty_subset _) (by decide +kernel)).mpr
    ⟨rfl, by decide +kernel⟩

/-- The joiner was added, and the change is cancelled.  Of the replacement nothing is removed, and
the joiner, no member before and no learner to keep, stays.  As a learner to keep it is removed. -/
theorem cancelled_joiner_stays :
    decideChange permitting model voter (fill 32 0) replaceVoter =
      .ok (.apply (changeEffect model voter (fill 32 0) replaceVoter)) ∧
    joined.nodes = model.membership.members ∪ missingLearners replaceVoter.plan.desiredVoters
        replaceVoter.plan.retainedLearners model.membership.members ∧
    nextStep (cancelRequested replaceVoter) metrics joined none = .cancelCleanup ∅ ∧
    joiner ∈ joined.nodes ∧ joiner ∉ model.membership.members ∧
    joiner ∉ replaceVoter.plan.retainedLearners ∧
    decideChange permitting model voter (fill 32 0) keepLearner =
      .ok (.apply (changeEffect model voter (fill 32 0) keepLearner)) ∧
    joined.nodes = model.membership.members ∪ missingLearners keepLearner.plan.desiredVoters
        keepLearner.plan.retainedLearners model.membership.members ∧
    nextStep (cancelRequested keepLearner) metrics joined none = .cancelCleanup {joiner} ∧
    joiner ∈ keepLearner.plan.retainedLearners :=
  ⟨replaceVoter_accepted, by decide +kernel, by decide +kernel, by decide +kernel,
    by decide +kernel, by decide +kernel, by decide +kernel, by decide +kernel,
    by decide +kernel, by decide +kernel⟩

end AsterRpc.Coordination

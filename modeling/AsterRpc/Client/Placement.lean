import AsterRpc.Foundation.Selection
import AsterRpc.Foundation.Text
import AsterRpc.Runtime.Controller

/-!
# The placement planner

`client/placement.rs`: the pure planner that proposes a membership.  It reads a
policy, one topology snapshot and the committed membership, and answers that
nothing is to be done, that something is missing, or with a plan.  A voter set is
chosen by scoring every set of the target size that honours the pins and the cap on
new voters; the retained learners are those of before that may stay, filled up from
the candidates that are live.

The revision and the digest of a policy and its grace period are not read by the
planner, and are left out.
-/

namespace AsterRpc.Coordination

open AsterRpc.Foundation Std List FixedBytes Boundary

/-! ### What the planner reads -/

inductive SeparationVerdict where
  | separated
  | connected
  | unknown
deriving DecidableEq

/-- `TopologySnapshot`: the clusters of one view, and its verdict on a pair of nodes. -/
structure TopologySnapshot where
  clusters : List (List NodeId)
  separated : NodeId → NodeId → SeparationVerdict

namespace TopologySnapshot

/-- `cluster_index_of_hex`. -/
def clusterIndexOf (t : TopologySnapshot) (node : NodeId) : Option ℕ :=
  t.clusters.findIdx? fun members => members.contains node

/-- `contains_hex`: whether a node is a live vertex. -/
def contains (t : TopologySnapshot) (node : NodeId) : Bool := (t.clusterIndexOf node).isSome

end TopologySnapshot

structure PlacementCandidate where
  nodeId : NodeId
  memberSeed : Option MemberSeedV1

structure PlacementPolicy where
  authorityPublicKey : NodeId
  authorityDomain : Bytes
  targetVoters : ℕ
  targetRetainedLearners : ℕ
  eligible : Table NodeId PlacementCandidate
  pinnedVoters : Finset NodeId
  excluded : Finset NodeId
  minimumSeparatedVoterPairs : ℕ
  allowHealthyRebalance : Bool

structure PlacementInput where
  groupId : GroupId
  genesisHash : Hash
  deploymentProfileCode : Int
  membershipLogId : Option LogIdV1
  currentVoters : Finset NodeId
  currentLearners : Finset NodeId
  activeMembershipIntent : Bool
  graceCrossedMembers : Finset NodeId
  policy : PlacementPolicy
  topology : TopologySnapshot

open PlacementInput

/-! ### What it answers -/

structure SeparationSummary where
  separatedPairs : ℕ
  connectedPairs : ℕ
  unknownPairs : ℕ
  totalPairs : ℕ
  representedClusters : ℕ
  diversityProved : Bool
deriving DecidableEq

structure PlacementPlan where
  desiredVoters : List NodeId
  retainedLearners : List NodeId
  memberSeeds : List MemberSeedV1
  expectedMembershipLogId : Option LogIdV1
  separation : SeparationSummary
deriving DecidableEq

inductive PlacementRecommendation where
  | stable (separation : SeparationSummary)
  | degraded (why : String) (separation : SeparationSummary)
  | converging
  | needsProvisioning (candidates : Finset NodeId) (desiredVoters retainedLearners : List NodeId)
  | insufficientEvidence (missing : String)
  | invalidPolicy (why : String)
  | plan (plan : PlacementPlan)
deriving DecidableEq

/-! ### Validating a policy -/

/-- `to_hex`. -/
def toHex (bytes : Bytes) : String := hexText bytes

/-- The `Debug` text of a permit error. -/
def PermitError.debug : PermitError → String
  | .malformed => "Malformed"
  | .unknownFormat version => "UnknownFormat(" ++ toString version ++ ")"
  | .nonCanonical => "NonCanonical"
  | .wrongAuthorityKey => "WrongAuthorityKey"
  | .badSignature => "BadSignature"
  | .wrongDomain => "WrongDomain"
  | .wrongGroup => "WrongGroup"
  | .wrongGenesis => "WrongGenesis"
  | .wrongNode => "WrongNode"
  | .ticketMismatch => "TicketMismatch"
  | .bootstrapSenders => "BootstrapSenders"
  | .fieldWidth => "FieldWidth"

section

variable (ext : Externals) (input : PlacementInput)

/-- The authority the planner verifies permits against. -/
def PlacementInput.authority : GroupAuthority :=
  ⟨input.policy.authorityPublicKey, input.policy.authorityDomain, input.groupId, input.genesisHash⟩

/-- The checks of one pin. -/
def checkPin (pin : NodeId) : Except String Unit := do
  refuseIf (!input.policy.eligible.contains pin)
    ("pinned voter " ++ toHex pin.bytes ++ " is not eligible")
  refuseIf (decide (pin ∈ input.policy.excluded))
    ("pinned voter " ++ toHex pin.bytes ++ " is also excluded")
  refuseIf (decide (pin ∈ input.graceCrossedMembers))
    ("pinned voter " ++ toHex pin.bytes ++ " cannot be grace-replaced")

/-- The permit of a seed, under the authority of the policy. -/
def checkCandidatePermit (key : NodeId) (permit : Bytes) : Except String Unit :=
  match verifyJoinPermit ext input.authority permit key with
  | .ok () => .ok ()
  | .error why =>
    .error ("the join permit for " ++ toHex key.bytes ++ " does not verify: " ++ why.debug)

/-- The checks of the seed of one candidate. -/
def checkCandidateSeed (key : NodeId) (seed : MemberSeedV1) : Except String Unit := do
  refuseIf (seed.nodeId != key.bytes)
    ("the seed for " ++ toHex key.bytes ++ " names a different node")
  refuseIf (!(checkSeedTicket ext seed.ticket key).isOk)
    ("the seed ticket for " ++ toHex key.bytes ++ " is not the canonical Aster ticket")
  checkOption (checkCandidatePermit ext input key) seed.signedJoinPermit

/-- The checks of one eligible candidate. -/
def checkCandidate (key : NodeId) (candidate : PlacementCandidate) : Except String Unit := do
  refuseIf (candidate.nodeId != key)
    ("eligible entry " ++ toHex key.bytes ++ " names a different node " ++
      toHex candidate.nodeId.bytes)
  checkOption (checkCandidateSeed ext input key) candidate.memberSeed

/-- `validate_policy`. -/
def validatePolicy : Except String Unit := do
  let policy := input.policy
  let maxPairs := policy.targetVoters * (policy.targetVoters - 1) / 2
  refuseIf (profilePermitsVoters input.deploymentProfileCode policy.targetVoters)
    ("target_voters " ++ toString policy.targetVoters ++
      " is not permitted by deployment profile " ++ toString input.deploymentProfileCode)
  refuseIf (policy.targetRetainedLearners > maxRetainedLearners)
    ("target_retained_learners " ++ toString policy.targetRetainedLearners ++
      " exceeds the shape limit " ++ toString maxRetainedLearners)
  refuseIf (policy.minimumSeparatedVoterPairs > maxPairs)
    ("minimum_separated_voter_pairs " ++ toString policy.minimumSeparatedVoterPairs ++
      " exceeds target_voters choose 2 = " ++ toString maxPairs)
  refuseIf (policy.pinnedVoters.card > policy.targetVoters)
    (toString policy.pinnedVoters.card ++ " pinned voters exceed the target of " ++
      toString policy.targetVoters)
  checkAll (checkPin input) (ascending policy.pinnedVoters)
  policy.eligible.checkRows (checkCandidate ext input)

/-! ### Scoring voter sets -/

/-- `TIE_BREAK_DOMAIN`. -/
def tieBreakDomain : Bytes := "aster.coordination.placement.v1\x00".toUTF8.toList

/-- `tie_break_tag`. -/
def tieBreakTag (group : GroupId) (node : NodeId) : Hash :=
  ext.blake3 (group.bytes ++ tieBreakDomain ++ node.bytes)

/-- The pairs of a list, each once. -/
def pairsOf : List NodeId → List (NodeId × NodeId)
  | [] => []
  | a :: rest => rest.map (a, ·) ++ pairsOf rest

/-- The clusters that have one of the voters. -/
def voterClusters (voters : Finset NodeId) : Finset ℕ :=
  ((ascending voters).filterMap input.topology.clusterIndexOf).toFinset

/-- `summarize`. -/
def summarize (voters : Finset NodeId) : SeparationSummary :=
  let verdicts := (pairsOf (ascending voters)).map fun pair =>
    input.topology.separated pair.1 pair.2
  let separated := verdicts.count .separated
  let connected := verdicts.count .connected
  let unknown := verdicts.count .unknown
  let total := separated + connected + unknown
  { separatedPairs := separated
    connectedPairs := connected
    unknownPairs := unknown
    totalPairs := total
    representedClusters := min (voterClusters input voters).card 255
    diversityProved := decide (total > 0) && separated == total }

structure Scored where
  voters : Finset NodeId
  meetsMinimum : Bool
  graceRetained : ℕ
  retained : ℕ
  summary : SeparationSummary
  tie : List Hash

/-- The objective, "better" last: first what meets the minimum, then fewer members whose grace has
passed, more voters retained, more separated pairs, more clusters, and the smaller tie-break. -/
def Scored.objective : Scored → Scored → Ordering :=
  compareLex (compareOn (·.meetsMinimum)) <|
  compareLex (fun a b => compareOn (·.graceRetained) b a) <|
  compareLex (compareOn (·.retained)) <|
  compareLex (compareOn (·.summary.separatedPairs)) <|
  compareLex (compareOn (·.summary.representedClusters)) <|
  fun a b => compareOn (·.tie) b a

/-- `Scored::beats`. -/
def Scored.beats (a b : Scored) : Bool := a.objective b == .gt

/-- The score of one voter set. -/
def scoreOf (voters : Finset NodeId) : Scored :=
  { voters := voters
    meetsMinimum :=
      decide ((summarize input voters).separatedPairs ≥ input.policy.minimumSeparatedVoterPairs)
    graceRetained := (voters ∩ input.graceCrossedMembers).card
    retained := (voters ∩ input.currentVoters).card
    summary := summarize input voters
    tie := sortAscending ((ascending voters).map (tieBreakTag ext input.groupId)) }

/-- Whether a voter set has the required members and no more new ones than allowed. -/
def feasible (required : Finset NodeId) (maxNew : ℕ) (voters : Finset NodeId) : Bool :=
  decide (required ⊆ voters) && decide ((voters \ input.currentVoters).card ≤ maxNew)

/-- `best_voter_set`. -/
def bestVoterSet (candidates : List NodeId) (required : Finset NodeId) (maxNew : ℕ) :
    Option Scored :=
  bestOf Scored.beats <|
    (((combinations input.policy.targetVoters candidates).map toFinset).filter
      (feasible input required maxNew)).map (scoreOf ext input)

/-! ### Choosing -/

namespace PlacementInput

def retainable (node : NodeId) : Bool :=
  input.policy.eligible.contains node && !decide (node ∈ input.policy.excluded)

def live (node : NodeId) : Bool := input.topology.contains node

/-- The nodes that may be voters: current ones that may stay, and live candidates. -/
def voterUniverse : Finset NodeId :=
  input.currentVoters.filter (fun voter => input.retainable voter) ∪
    ((input.policy.eligible.toList.map Prod.fst).filter fun node =>
      !decide (node ∈ input.policy.excluded) && !decide (node ∈ input.currentVoters) &&
        input.live node).toFinset

/-- The same, in the order of the group's tie-break. -/
def ordered : List NodeId :=
  sortOn (tieBreakTag ext input.groupId) (ascending input.voterUniverse)

/-- Whether more than ordinary maintenance is asked for. -/
def explicit : Bool :=
  input.policy.allowHealthyRebalance || !(input.policy.targetVoters == input.currentVoters.card)

/-- The current voters that ordinary maintenance does not move. -/
def protectedVoters : Finset NodeId :=
  input.currentVoters.filter fun voter =>
    input.retainable voter && !decide (voter ∈ input.graceCrossedMembers)

def required : Finset NodeId :=
  let withProtected := input.policy.pinnedVoters ∪ input.protectedVoters
  if !input.explicit && decide (withProtected.card ≤ input.policy.targetVoters) then withProtected
  else input.policy.pinnedVoters

def maxNew : ℕ := if input.explicit then maxNewVoters else 1

/-- The current learners that may stay beside the voters. -/
def keptLearners (voters : Finset NodeId) : Finset NodeId :=
  input.currentLearners.filter fun learner =>
    input.retainable learner && !decide (learner ∈ input.graceCrossedMembers) &&
      !decide (learner ∈ voters)

end PlacementInput

/-- One turn of the loop that trims the learners: the last of those with the greatest tag goes. -/
def dropGreatest (group : GroupId) (learners : Finset NodeId) : Finset NodeId :=
  match maxByKey (tieBreakTag ext group) (ascending learners) with
  | some drop => learners.erase drop
  | none => learners

/-- Trim the learners to a number. -/
def trimLearners (group : GroupId) (target : ℕ) (learners : Finset NodeId) : Finset NodeId :=
  (dropGreatest ext group)^[learners.card - target] learners

namespace PlacementInput

/-- What the candidates for a free learner slot are sorted by: those whose cluster has no voter come
first, then the tie-break decides. -/
def fillerKey (voters : Finset NodeId) (node : NodeId) : Bool × Hash :=
  ((input.topology.clusterIndexOf node).all fun cluster =>
      decide (cluster ∈ voterClusters input voters),
    tieBreakTag ext input.groupId node)

/-- The candidates for a free learner slot. -/
def fillers (voters learners : Finset NodeId) : List NodeId :=
  sortOn (input.fillerKey ext voters) ((input.ordered ext).filter fun node =>
    !decide (node ∈ voters) && !decide (node ∈ learners) && !decide (node ∈ input.currentVoters) &&
      input.live node)

/-- The learners beside a voter set: those that may stay, and candidates for the free slots. -/
def selectLearners (voters : Finset NodeId) : Finset NodeId :=
  let target := input.policy.targetRetainedLearners
  let kept := trimLearners ext input.groupId target (input.keptLearners voters)
  fillUp target kept (input.fillers ext voters kept)

/-- The members of a selection that are not members yet, in order. -/
def newMembers (voters learners : Finset NodeId) : List NodeId :=
  (ascending (voters ∪ learners)).filter fun node =>
    !decide (node ∈ input.currentVoters ∪ input.currentLearners)

/-- The new members beside these voters. -/
abbrev joining (voters : Finset NodeId) : List NodeId :=
  input.newMembers voters (input.selectLearners ext voters)

/-- The seed of a candidate, if it has one with a permit. -/
def joinSeed (node : NodeId) : Option MemberSeedV1 :=
  (input.policy.eligible[node]?.bind (·.memberSeed)).filter fun seed =>
    seed.signedJoinPermit.isSome

/-! ### The planner -/

/-- The end of `plan`: the answer for a choice of voters and learners. -/
def answer (best : Scored) (learners : Finset NodeId) : PlacementRecommendation :=
  if best.voters = input.currentVoters ∧ learners = input.currentLearners then
    if best.graceRetained > 0 then
      .degraded (toString best.graceRetained ++
        " grace-crossed members cannot be replaced: no live eligible" ++
        "                      candidate fills their seats") best.summary
    else .stable best.summary
  else
    let newMembers := input.newMembers best.voters learners
    let unprovisioned := (newMembers.filter fun node => (input.joinSeed node).isNone).toFinset
    let desiredVoters := ascending best.voters
    let retainedLearners := ascending learners
    if unprovisioned ≠ ∅ then .needsProvisioning unprovisioned desiredVoters retainedLearners
    else
      .plan
        { desiredVoters := desiredVoters
          retainedLearners := retainedLearners
          memberSeeds := sortOn (·.nodeId) (newMembers.filterMap input.joinSeed)
          expectedMembershipLogId := input.membershipLogId
          separation := best.summary }

/-- The middle of `plan`: the answer for the best voter set. -/
def answerFor (best : Scored) : PlacementRecommendation :=
  let policy := input.policy
  if policy.minimumSeparatedVoterPairs > 0 ∧ best.meetsMinimum = false then
    let relaxed := bestVoterSet ext input (input.ordered ext) policy.pinnedVoters maxNewVoters
    if relaxed.any (·.meetsMinimum) then
      .degraded ("meeting " ++ toString policy.minimumSeparatedVoterPairs ++
        " separated pairs requires moving a healthy voter, and allow_healthy_rebalance is false")
        best.summary
    else
      .insufficientEvidence ("no eligible live candidate set attains " ++
        toString policy.minimumSeparatedVoterPairs ++
        " separated pairs; the best attainable is " ++ toString best.summary.separatedPairs)
  else
    let learners := input.selectLearners ext best.voters
    if learners.card < policy.targetRetainedLearners then
      .insufficientEvidence ("only " ++ toString learners.card ++ " of " ++
        toString policy.targetRetainedLearners ++
          " retained-learner slots can be filled by live " ++
        "eligible candidates outside the voter set")
    else input.answer best learners

/-- `plan`. -/
def plan : PlacementRecommendation :=
  match validatePolicy ext input with
  | .error why => .invalidPolicy why
  | .ok () =>
    let target := input.policy.targetVoters
    if input.activeMembershipIntent then .converging
    else
      match (ascending input.policy.pinnedVoters).find? fun pin =>
        !decide (pin ∈ input.voterUniverse) with
      | some pin =>
        .insufficientEvidence ("pinned voter " ++ toHex pin.bytes ++
          " is neither a retainable current member nor a live eligible candidate")
      | none =>
        if input.voterUniverse.card < target then
          .insufficientEvidence ("only " ++ toString input.voterUniverse.card ++
            " retainable or live eligible candidates exist for a target of " ++ toString target)
        else
          match bestVoterSet ext input (input.ordered ext) input.required input.maxNew with
          | none =>
            .insufficientEvidence ("no voter set of size " ++ toString target ++
              " honours the pins and the new-voter cap")
          | some best => input.answerFor ext best

end PlacementInput

end

open Scored

/-! ### The objective -/

section

variable (ext : Externals) {input : PlacementInput} {node : NodeId}

instance : TransCmp objective := by
  unfold objective
  infer_instance

theorem Scored.beats_irrefl (a : Scored) : a.beats a = false := by
  simp [beats, ReflCmp.compare_self]

theorem Scored.beats_trans (a b c : Scored) (hab : a.beats b = true) (hbc : b.beats c = true) :
    a.beats c = true := by
  simp only [beats, beq_iff_eq] at hab hbc ⊢
  exact TransCmp.gt_trans hab hbc

theorem then_ne_gt {o p : Ordering} (h : o.then p ≠ .gt) : o ≠ .gt ∧ (o = .eq → p ≠ .gt) := by
  cases o <;> simp_all

/-- What does not beat a score does not meet the minimum where the score does not; where they agree
it keeps no fewer members whose grace has passed, and where they agree on that too it retains no
more voters. -/
theorem Scored.of_not_beats {a b : Scored} (h : a.beats b = false) :
    (a.meetsMinimum = true → b.meetsMinimum = true) ∧
      (a.meetsMinimum = b.meetsMinimum → b.graceRetained ≤ a.graceRetained ∧
        (a.graceRetained = b.graceRetained → a.retained ≤ b.retained)) := by
  simp only [beats, objective, compareLex, compareOn, beq_eq_false_iff_ne, ne_eq] at h
  obtain ⟨hmeets, h⟩ := then_ne_gt h
  refine ⟨fun ha => ?_, fun hsame => ?_⟩
  · rw [ha] at hmeets
    cases hb : b.meetsMinimum with
    | true => rfl
    | false => rw [hb] at hmeets; exact absurd rfl hmeets
  · rw [hsame] at h
    obtain ⟨hgrace, h⟩ := then_ne_gt (h ReflCmp.compare_self)
    refine ⟨Nat.compare_ne_gt.mp hgrace, fun hequal => ?_⟩
    rw [hequal] at h
    exact Nat.compare_ne_gt.mp (then_ne_gt (h ReflCmp.compare_self)).1

/-! ### The best voter set -/

/-- **The best voter set**: it has the size asked for and is one of the feasible ones, and no other
feasible one beats it. -/
@[mk_iff]
structure Best (input : PlacementInput) (candidates : List NodeId) (required : Finset NodeId)
    (maxNew : ℕ) (best : Scored) : Prop where
  score : best = scoreOf ext input best.voters
  subset : ∀ voter ∈ best.voters, voter ∈ candidates
  card : best.voters.card = input.policy.targetVoters
  demanded : required ⊆ best.voters
  new : (best.voters \ input.currentVoters).card ≤ maxNew
  unbeaten : ∀ voters : Finset NodeId, (∀ voter ∈ voters, voter ∈ candidates) →
    voters.card = input.policy.targetVoters → required ⊆ voters →
    (voters \ input.currentVoters).card ≤ maxNew → (scoreOf ext input voters).beats best = false

section

variable {candidates : List NodeId} {required : Finset NodeId} {maxNew : ℕ} {best other : Scored}

/-- The scores that are compared are those of the feasible sets. -/
theorem mem_scored (hnodup : candidates.Nodup) :
    best ∈ (((combinations input.policy.targetVoters candidates).map toFinset).filter
        (feasible input required maxNew)).map (scoreOf ext input) ↔
      ∃ voters : Finset NodeId, ((∀ voter ∈ voters, voter ∈ candidates) ∧
        voters.card = input.policy.targetVoters ∧ required ⊆ voters ∧
        (voters \ input.currentVoters).card ≤ maxNew) ∧ scoreOf ext input voters = best := by
  simp only [mem_map, mem_filter, mem_combinations, feasible, Bool.and_eq_true,
    decide_eq_true_eq]
  constructor
  · rintro ⟨_, ⟨⟨_, ⟨hsub, hlen⟩, rfl⟩, hdemanded, hnew⟩, rfl⟩
    refine ⟨_, ⟨?_, ?_, hdemanded, hnew⟩, rfl⟩
    · intro voter hvoter
      exact hsub.subset (mem_toFinset.mp hvoter)
    · exact (toFinset_card_of_nodup (hnodup.sublist hsub)).trans hlen
  · rintro ⟨voters, ⟨hcandidates, hcard, hdemanded, hnew⟩, rfl⟩
    -- the set, listed in the order of the candidates
    have hlist : (candidates.filter fun node => decide (node ∈ voters)).toFinset = voters := by
      ext node
      simp only [mem_toFinset, mem_filter, decide_eq_true_eq]
      exact ⟨fun h => h.2, fun h => ⟨hcandidates node h, h⟩⟩
    refine ⟨voters, ⟨⟨_, ⟨filter_sublist, ?_⟩, hlist⟩, hdemanded, hnew⟩, rfl⟩
    rw [← hcard, ← toFinset_card_of_nodup (hnodup.filter _), hlist]

theorem bestVoterSet_best (hnodup : candidates.Nodup)
    (h : bestVoterSet ext input candidates required maxNew = some best) :
    Best ext input candidates required maxNew best := by
  obtain ⟨hmem, hunbeaten⟩ := bestOf_eq_some beats_irrefl beats_trans h
  obtain ⟨_, ⟨hsub, hcard, hdemanded, hnew⟩, rfl⟩ := (mem_scored ext hnodup).mp hmem
  refine ⟨rfl, hsub, hcard, hdemanded, hnew, ?_⟩
  intro others hothers hsize hall hcap
  exact hunbeaten _ ((mem_scored ext hnodup).mpr ⟨others, ⟨hothers, hsize, hall, hcap⟩, rfl⟩)

theorem bestVoterSet_eq_none (hnodup : candidates.Nodup) :
    bestVoterSet ext input candidates required maxNew = none ↔
      ¬ ∃ voters : Finset NodeId, (∀ voter ∈ voters, voter ∈ candidates) ∧
        voters.card = input.policy.targetVoters ∧ required ⊆ voters ∧
        (voters \ input.currentVoters).card ≤ maxNew := by
  rw [bestVoterSet, bestOf_eq_none, eq_nil_iff_forall_not_mem]
  simp only [mem_scored ext hnodup]
  constructor
  · rintro h ⟨voters, hvoters⟩
    exact h _ ⟨voters, hvoters, rfl⟩
  · rintro h _ ⟨voters, hvoters, -⟩
    exact h ⟨voters, hvoters⟩

/-- `recurse`: choose `remaining` more of the candidates that are left, and stop where they are too
few. -/
def recurse (input : PlacementInput) (required : Finset NodeId) (maxNew : ℕ) :
    ℕ → List NodeId → List NodeId → Option Scored → Option Scored
  | 0, _, chosen, best =>
    if feasible input required maxNew chosen.toFinset then
      keepBest beats best (scoreOf ext input chosen.toFinset)
    else best
  | _ + 1, [], _, best => best
  | remaining + 1, node :: rest, chosen, best =>
    if (node :: rest).length < remaining + 1 then best
    else
      recurse input required maxNew (remaining + 1) rest chosen
        (recurse input required maxNew remaining rest (chosen ++ [node]) best)

/-- The search compares every choice from what is left, added to what is chosen: where it stops
there is none. -/
theorem recurse_eq (remaining : ℕ) (left chosen : List NodeId) (held : Option Scored) :
    recurse ext input required maxNew remaining left chosen held =
      ((((combinations remaining left).map fun more => (chosen ++ more).toFinset).filter
        (feasible input required maxNew)).map (scoreOf ext input)).foldl
          (keepBest beats) held := by
  induction left generalizing remaining chosen held with
  | nil =>
    cases remaining with
    | zero => by_cases h : feasible input required maxNew chosen.toFinset <;>
        simp [recurse, combinations, h]
    | succ => rfl
  | cons node rest ih =>
    cases remaining with
    | zero => by_cases h : feasible input required maxNew chosen.toFinset <;>
        simp [recurse, combinations, h]
    | succ remaining =>
      rw [recurse]
      split_ifs with hfew
      · have hnone : combinations (remaining + 1) (node :: rest) = [] := by
          refine eq_nil_iff_forall_not_mem.mpr fun more hmore => ?_
          obtain ⟨hsub, hlen⟩ := mem_combinations.mp hmore
          have := hsub.length_le
          omega
        rw [hnone]
        rfl
      · rw [ih, ih, combinations]
        simp [map_map, Function.comp_def, append_assoc]

section

variable (htags : ∀ a ∈ candidates, ∀ b ∈ candidates,
  tieBreakTag ext input.groupId a = tieBreakTag ext input.groupId b → a = b)

include htags

/-- Sets whose tags are the same have the same members, where no two candidates share a tag. -/
theorem Best.voters_subset (hbest : Best ext input candidates required maxNew best)
    (hother : Best ext input candidates required maxNew other) (htie : best.tie = other.tie) :
    best.voters ⊆ other.voters := by
  intro node hnode
  have hmem : tieBreakTag ext input.groupId node ∈ other.tie := by
    rw [← htie, hbest.score]
    exact (sortAscending_perm _).mem_iff.mpr (mem_map_of_mem (mem_ascending.mpr hnode))
  rw [hother.score] at hmem
  obtain ⟨voter, hvoter, htag⟩ := mem_map.mp ((sortAscending_perm _).mem_iff.mp hmem)
  have hvoter := mem_ascending.mp hvoter
  rwa [htags node (hbest.subset node hnode) voter (hother.subset voter hvoter) htag.symm]

/-- Of two best sets neither beats the other, so that their tags are the same. -/
theorem Best.unique (hbest : Best ext input candidates required maxNew best)
    (hother : Best ext input candidates required maxNew other) : best = other := by
  have htie : best.tie = other.tie := by
    have hle := hother.unbeaten _ hbest.subset hbest.card hbest.demanded hbest.new
    have hge := hbest.unbeaten _ hother.subset hother.card hother.demanded hother.new
    rw [← hbest.score] at hle
    rw [← hother.score] at hge
    simp only [beats, beq_eq_false_iff_ne] at hle hge
    have heq : best.objective other = .eq := by
      cases hobjective : best.objective other with
      | lt => exact absurd (OrientedCmp.gt_of_lt hobjective) hge
      | eq => rfl
      | gt => exact absurd hobjective hle
    simp only [objective, compareLex, Ordering.then_eq_eq, compareOn] at heq
    exact (LawfulEqOrd.eq_of_compare heq.2.2.2.2.2).symm
  have hvoters : best.voters = other.voters :=
    (hbest.voters_subset ext htags hother htie).antisymm
      (hother.voters_subset ext htags hbest htie.symm)
  rw [hbest.score, hother.score, hvoters]

theorem bestVoterSet_eq_some (hnodup : candidates.Nodup) :
    bestVoterSet ext input candidates required maxNew = some best ↔
      Best ext input candidates required maxNew best := by
  refine ⟨bestVoterSet_best ext hnodup, fun hbest => ?_⟩
  cases hfound : bestVoterSet ext input candidates required maxNew with
  | none =>
    exact absurd ⟨best.voters, hbest.subset, hbest.card, hbest.demanded, hbest.new⟩
      ((bestVoterSet_eq_none ext hnodup).mp hfound)
  | some => rw [(bestVoterSet_best ext hnodup hfound).unique ext htags hbest]

end

/-- **The voter search is optimal.**  The search, which stops early where too few candidates are
left, finds what a search of every set finds: a feasible set of the target size that no feasible set
beats, and nothing only where there is none.  Where no two candidates share a tie-break tag, what it
finds does not depend on the order of the candidates. -/
theorem voter_search_optimal (input : PlacementInput) (candidates : List NodeId)
    (required : Finset NodeId) (maxNew : ℕ) (hnodup : candidates.Nodup) :
    recurse ext input required maxNew input.policy.targetVoters candidates [] none =
        bestVoterSet ext input candidates required maxNew ∧
      (∀ best, bestVoterSet ext input candidates required maxNew = some best →
        Best ext input candidates required maxNew best) ∧
      (bestVoterSet ext input candidates required maxNew = none ↔
        ¬ ∃ voters : Finset NodeId, (∀ voter ∈ voters, voter ∈ candidates) ∧
          voters.card = input.policy.targetVoters ∧ required ⊆ voters ∧
          (voters \ input.currentVoters).card ≤ maxNew) ∧
      ((∀ a ∈ candidates, ∀ b ∈ candidates,
          tieBreakTag ext input.groupId a = tieBreakTag ext input.groupId b → a = b) →
        ∀ reordered : List NodeId, reordered.Perm candidates →
          bestVoterSet ext input reordered required maxNew =
            bestVoterSet ext input candidates required maxNew) := by
  refine ⟨recurse_eq ext _ _ _ _, fun best => bestVoterSet_best ext hnodup,
    bestVoterSet_eq_none ext hnodup, ?_⟩
  intro htags reordered hperm
  refine Option.ext fun best => ?_
  rw [bestVoterSet_eq_some ext htags hnodup, bestVoterSet_eq_some ext
    (by simpa only [hperm.mem_iff] using htags) (hperm.nodup_iff.mpr hnodup)]
  simp [best_iff, hperm.mem_iff]

end

/-! ### Who can be chosen -/

theorem mem_voterUniverse :
    node ∈ input.voterUniverse ↔
      input.retainable node = true ∧ (node ∈ input.currentVoters ∨ input.live node = true) := by
  have hkeys : node ∈ input.policy.eligible.toList.map Prod.fst ↔
      input.policy.eligible.contains node = true := by
    rw [ExtTreeMap.map_fst_toList_eq_keys, ExtTreeMap.mem_keys, ExtTreeMap.contains_iff_mem]
  simp only [voterUniverse, retainable, Finset.mem_union,
    Finset.mem_filter, mem_toFinset, mem_filter, hkeys, Bool.and_eq_true,
    Bool.not_eq_true', decide_eq_false_iff_not]
  tauto

theorem mem_ordered : node ∈ input.ordered ext ↔ node ∈ input.voterUniverse := by
  rw [ordered, (sortOn_perm _ _).mem_iff, mem_ascending]

theorem ordered_nodup : (input.ordered ext).Nodup :=
  (sortOn_perm _ _).nodup_iff.mpr (ascending_nodup _)

theorem maxNew_le : input.maxNew ≤ maxNewVoters := by
  unfold maxNew
  split_ifs <;> decide

/-- Every choice of voters has the pins. -/
theorem pinned_subset_required : input.policy.pinnedVoters ⊆ input.required := by
  unfold required
  dsimp only
  split_ifs
  · exact Finset.subset_union_left
  · exact Finset.Subset.refl _

/-! ### The learners -/

section

variable (group : GroupId) (s : Finset NodeId)

theorem dropGreatest_subset : dropGreatest ext group s ⊆ s := by
  unfold dropGreatest
  split
  · exact Finset.erase_subset _ _
  · exact Finset.Subset.refl _

theorem dropGreatest_card : (dropGreatest ext group s).card = s.card - 1 := by
  unfold dropGreatest
  split
  · rename_i drop hdrop
    exact Finset.card_erase_of_mem (mem_ascending.mp (bestOf_mem hdrop))
  · rename_i hnone
    have hempty : s.card = 0 := by rw [← length_ascending, bestOf_eq_none.mp hnone, length_nil]
    rw [hempty]

theorem dropGreatest_iterate (n : ℕ) :
    (dropGreatest ext group)^[n] s ⊆ s ∧ ((dropGreatest ext group)^[n] s).card = s.card - n := by
  induction n with
  | zero => exact ⟨Finset.Subset.refl _, rfl⟩
  | succ n ih =>
    rw [Function.iterate_succ_apply', dropGreatest_card, ih.2]
    exact ⟨(dropGreatest_subset ext group _).trans ih.1, by omega⟩

theorem trimLearners_subset (target : ℕ) : trimLearners ext group target s ⊆ s :=
  (dropGreatest_iterate ext group s _).1

theorem trimLearners_card_le (target : ℕ) :
    (trimLearners ext group target s).card ≤ target := by
  rw [trimLearners, (dropGreatest_iterate ext group s _).2]
  omega

end

section Learners

variable {voters : Finset NodeId} {node : NodeId}

theorem mem_keptLearners :
    node ∈ input.keptLearners voters ↔ node ∈ input.currentLearners ∧
      input.retainable node = true ∧ node ∉ input.graceCrossedMembers ∧ node ∉ voters := by
  simp only [keptLearners, Finset.mem_filter, Bool.and_eq_true, Bool.not_eq_true',
    decide_eq_false_iff_not, and_assoc]

/-- The candidates for any learner slot, in their order. -/
def PlacementInput.spares (input : PlacementInput) (voters : Finset NodeId) : List NodeId :=
  sortOn (input.fillerKey ext voters) ((input.ordered ext).filter fun node =>
    !decide (node ∈ voters) && !decide (node ∈ input.currentVoters) && input.live node)

theorem mem_spares :
    node ∈ input.spares ext voters ↔ input.retainable node = true ∧ node ∉ voters ∧
      node ∉ input.currentVoters ∧ input.live node = true := by
  rw [spares, (sortOn_perm _ _).mem_iff]
  simp only [mem_filter, mem_ordered, mem_voterUniverse, Bool.and_eq_true, Bool.not_eq_true',
    decide_eq_false_iff_not]
  tauto

theorem spares_nodup : (input.spares ext voters).Nodup :=
  (sortOn_perm _ _).nodup_iff.mpr ((ordered_nodup ext).filter _)

/-- What the selection of learners starts from. -/
def PlacementInput.heldLearners (input : PlacementInput) (voters : Finset NodeId) :
    Finset NodeId :=
  trimLearners ext input.groupId input.policy.targetRetainedLearners (input.keptLearners voters)

theorem selectLearners_eq :
    input.selectLearners ext voters =
      fillUp input.policy.targetRetainedLearners (input.heldLearners ext voters)
        ((input.spares ext voters).filter fun node =>
          decide (node ∉ input.heldLearners ext voters)) := by
  rw [spares, filter_sortOn, filter_filter]
  refine congrArg (fun nodes => fillUp _ _ (sortOn _ nodes)) (filter_congr fun node _ => ?_)
  rw [← heldLearners]
  by_cases hlearner : node ∈ input.heldLearners ext voters <;> simp [hlearner]

theorem selectLearners_union :
    input.selectLearners ext voters = input.heldLearners ext voters ∪
      (((input.spares ext voters).filter fun node =>
        decide (node ∉ input.heldLearners ext voters)).take
        (input.policy.targetRetainedLearners -
          (input.heldLearners ext voters).card)).toFinset := by
  rw [selectLearners_eq, fillUp_eq ((spares_nodup ext).filter _) (by simp)]

/-- A selected learner stays, or is a spare candidate. -/
theorem selectLearners_cases (h : node ∈ input.selectLearners ext voters) :
    node ∈ input.keptLearners voters ∨ node ∈ input.spares ext voters := by
  rw [selectLearners_union, Finset.mem_union, mem_toFinset] at h
  rcases h with hheld | hspare
  · exact .inl (trimLearners_subset ext _ _ _ hheld)
  · exact .inr (mem_of_mem_filter (mem_of_mem_take hspare))

theorem selectLearners_retainable (h : node ∈ input.selectLearners ext voters) :
    input.retainable node = true ∧ node ∉ voters := by
  rcases selectLearners_cases ext h with hkept | hspare
  · obtain ⟨-, hfit, -, hvoter⟩ := mem_keptLearners.mp hkept
    exact ⟨hfit, hvoter⟩
  · obtain ⟨hfit, hvoter, -⟩ := (mem_spares ext).mp hspare
    exact ⟨hfit, hvoter⟩

theorem selectLearners_card_le :
    (input.selectLearners ext voters).card ≤ input.policy.targetRetainedLearners := by
  have hheld : (input.heldLearners ext voters).card ≤ input.policy.targetRetainedLearners :=
    trimLearners_card_le ext _ _ _
  rw [selectLearners_union]
  refine (Finset.card_union_le _ _).trans ?_
  have hfront := toFinset_card_le (((input.spares ext voters).filter fun node =>
    decide (node ∉ input.heldLearners ext voters)).take
      (input.policy.targetRetainedLearners - (input.heldLearners ext voters).card))
  rw [length_take] at hfront
  omega

end Learners

/-! ### Plans -/

/-- **What stands behind a plan**: the policy is valid, the best voters and their learners are not
those of before, and every new member has its seed. -/
structure Proposed (input : PlacementInput) (best : Scored) (plan : PlacementPlan) : Prop where
  policy : validatePolicy ext input = .ok ()
  optimal : Best ext input (input.ordered ext) input.required input.maxNew best
  chosen : bestVoterSet ext input (input.ordered ext) input.required input.maxNew = some best
  full : (input.selectLearners ext best.voters).card = input.policy.targetRetainedLearners
  changed : ¬(best.voters = input.currentVoters ∧
    input.selectLearners ext best.voters = input.currentLearners)
  seeded : ∀ node ∈ input.joining ext best.voters, ∃ seed, input.joinSeed node = some seed
  voters : plan.desiredVoters = ascending best.voters
  learners : plan.retainedLearners = ascending (input.selectLearners ext best.voters)
  seeds : plan.memberSeeds =
    sortOn (·.nodeId) ((input.joining ext best.voters).filterMap input.joinSeed)

theorem plan_eq_plan {plan : PlacementPlan} (h : input.plan ext = .plan plan) :
    ∃ best, Proposed ext input best plan := by
  unfold PlacementInput.plan at h
  cases hpolicy : validatePolicy ext input with
  | error => rw [hpolicy] at h; cases h
  | ok =>
    rw [hpolicy] at h
    dsimp only at h
    -- no intent is active, every pin can be chosen, and there are enough candidates
    split at h
    · cases h
    split at h
    · cases h
    split at h
    · cases h
    · cases hbest : bestVoterSet ext input (input.ordered ext) input.required input.maxNew with
      | none => rw [hbest] at h; cases h
      | some best =>
        rw [hbest] at h
        unfold answerFor answer at h
        dsimp only at h
        split_ifs at h with hminimum hrelaxed hfull hchanged hgrace hseeded
        cases h
        refine ⟨best, hpolicy, bestVoterSet_best ext (ordered_nodup ext) hbest, hbest,
          Nat.le_antisymm (selectLearners_card_le ext) (Nat.le_of_not_lt hfull), hchanged, ?_,
          rfl, rfl, rfl⟩
        intro node hnode
        have hnone := not_not.mp hseeded
        rw [toFinset_eq_empty_iff, filter_eq_nil_iff] at hnone
        exact Option.ne_none_iff_exists'.mp (by simpa using hnone node hnode)

/-! ### Whether the group accepts a plan -/

/-- The plan as the group reads it. -/
def PlacementPlan.membershipPlan (plan : PlacementPlan) : Except NarrowError MembershipPlan := do
  let seeds ← narrowAll memberSeed plan.memberSeeds
  .ok ⟨plan.desiredVoters, plan.retainedLearners, seeds⟩

/-- The committed membership the planner was given. -/
def PlacementInput.committed (input : PlacementInput) (joint : Bool) : CommittedMembership :=
  ⟨input.currentVoters, input.currentLearners, joint⟩

/-- **The group accepts a placement plan**: `plan_shape` finds nothing wrong with it and it stays
within the learner envelope. -/
def AcceptsPlan (input : PlacementInput) (joint : Bool) (plan : PlacementPlan) : Prop :=
  ∃ members, plan.membershipPlan = .ok members ∧
    planShape ext members (input.committed joint) input.authority input.deploymentProfileCode =
      .ok () ∧
    projectedLearners input.currentLearners (input.committed joint).members members.desiredVoters
      members.retainedLearners ≤ maxLearnerEnvelope

instance (input : PlacementInput) (joint : Bool) (plan : PlacementPlan) :
    Decidable (AcceptsPlan ext input joint plan) :=
  match h : plan.membershipPlan with
  | .error _ => isFalse fun ⟨_, hread, _⟩ => by rw [h] at hread; cases hread
  | .ok members => decidable_of_iff
      (planShape ext members (input.committed joint) input.authority input.deploymentProfileCode =
          .ok () ∧
        projectedLearners input.currentLearners (input.committed joint).members
          members.desiredVoters members.retainedLearners ≤ maxLearnerEnvelope)
      ⟨fun hshape => ⟨members, h, hshape⟩, fun ⟨_, hread, hshape⟩ => by
        rw [h] at hread
        cases hread
        exact hshape⟩

/-- What the planner does not look at when it has chosen the voters. -/
structure Unchecked (input : PlacementInput) (voters : Finset NodeId) : Prop where
  root : input.policy.authorityPublicKey ∉ voters ∪ input.selectLearners ext voters
  sizes : ∀ node ∈ input.joining ext voters, ∀ seed ∈ input.joinSeed node,
    checkMemberSeed seed.ticket.length (seed.signedJoinPermit.map length) = .ok ()
  envelope : input.currentLearners.card + (input.joining ext voters).length ≤ maxLearnerEnvelope

namespace PlacementInput

/-- The nodes that can join: live candidates that are no members. -/
def newcomers (input : PlacementInput) : Finset NodeId :=
  input.voterUniverse \ (input.currentVoters ∪ input.currentLearners)

/-- The seats that current voters leave open: where no separation is asked for all of them that may
stay do, and otherwise the required ones. -/
def voterSeats (input : PlacementInput) : ℕ :=
  let stay := input.required ∩ input.currentVoters
  if input.policy.minimumSeparatedVoterPairs = 0 then
    max (input.required \ input.currentVoters).card
      (input.policy.targetVoters - (stay ∪ input.protectedVoters).card)
  else input.policy.targetVoters - stay.card

/-- The slots that current learners leave open. -/
def learnerSlots (input : PlacementInput) : ℕ :=
  input.policy.targetRetainedLearners - (input.keptLearners input.currentVoters).card

/-- How many nodes can join. -/
def openings (input : PlacementInput) : ℕ :=
  min input.newcomers.card (min input.voterSeats input.maxNew + input.learnerSlots)

end PlacementInput

/-- What keeps the planner from proposing a plan that is refused: the root, where it is a candidate,
is no member and finds no opening; the seeds of those who can join are of the size of a seed; and
there is room for as many learners as there are openings. -/
@[mk_iff]
structure Guarded (input : PlacementInput) : Prop where
  root : input.retainable input.policy.authorityPublicKey = true →
    input.policy.authorityPublicKey ∉ input.currentVoters ∪ input.currentLearners ∧
      (input.live input.policy.authorityPublicKey = true → input.openings = 0)
  sizes : 0 < input.openings → ∀ node ∈ input.newcomers, ∀ seed ∈ input.joinSeed node,
    checkMemberSeed seed.ticket.length (seed.signedJoinPermit.map length) = .ok ()
  room : input.currentLearners.card + input.openings ≤ maxLearnerEnvelope

instance (input : PlacementInput) : Decidable (Guarded input) :=
  decidable_of_iff _ (guarded_iff input).symm

/-- What `validate_policy` has found out about a seed that the planner uses. -/
structure SeedChecked (input : PlacementInput) (node : NodeId) (seed : MemberSeedV1) : Prop where
  nodeId : seed.nodeId = node.bytes
  ticket : checkSeedTicket ext seed.ticket node = .ok ()
  permit : ∃ permit, seed.signedJoinPermit = some permit ∧
    verifyJoinPermit ext input.authority permit node = .ok ()

theorem joinSeed_eligible {seed : MemberSeedV1} (h : input.joinSeed node = some seed) :
    ∃ candidate, input.policy.eligible[node]? = some candidate ∧
      candidate.memberSeed = some seed ∧ seed.signedJoinPermit.isSome = true := by
  rw [joinSeed, Option.filter_eq_some_iff, Option.bind_eq_some_iff] at h
  obtain ⟨⟨candidate, hcandidate, hseed⟩, hpermit⟩ := h
  exact ⟨candidate, hcandidate, hseed, hpermit⟩

theorem joinSeed_checked {seed : MemberSeedV1} (hpolicy : validatePolicy ext input = .ok ())
    (h : input.joinSeed node = some seed) : SeedChecked ext input node seed := by
  obtain ⟨candidate, hcandidate, hseed, hpermit⟩ := joinSeed_eligible h
  obtain ⟨permit, hpermit⟩ := Option.isSome_iff_exists.mp hpermit
  simp only [validatePolicy, accepts_iff, Table.checkRows_eq_ok] at hpolicy
  obtain ⟨-, -, -, -, -, hrows⟩ := hpolicy
  have hrow := hrows node candidate hcandidate
  simp only [checkCandidate, checkCandidateSeed, accepts_iff, checkOption_eq_ok, isOk_iff] at hrow
  obtain ⟨hnode, hticket, hver⟩ := hrow.2 seed hseed
  refine ⟨hnode, hticket, permit, hpermit, ?_⟩
  have hchk := hver permit hpermit
  unfold checkCandidatePermit at hchk
  split at hchk
  · assumption
  · cases hchk

theorem sortedUnique_ascending (s : Finset NodeId) : sortedUnique (ascending s) = true := by
  rw [sortedUnique, decide_eq_true_eq]
  exact (ascending_pairwise s).isChain

theorem mem_joining {voters : Finset NodeId} :
    node ∈ input.joining ext voters ↔ (node ∈ voters ∨ node ∈ input.selectLearners ext voters) ∧
      node ∉ input.currentVoters ∪ input.currentLearners := by
  simp [newMembers, mem_ascending]

theorem joining_nodup (voters : Finset NodeId) : (input.joining ext voters).Nodup :=
  (ascending_nodup _).filter _

theorem memberSeed_of_checked {seed : MemberSeedV1} (h : SeedChecked ext input node seed) :
    memberSeed seed = .ok ⟨node, seed.ticket, seed.signedJoinPermit⟩ := by
  have hnode : nodeId seed.nodeId = .ok node := by
    rw [h.nodeId]
    exact narrow_bytes _ node
  rw [memberSeed, hnode, ok_bind]

/-- The group reads the nodes of the seeds as they are. -/
theorem memberSeeds_ids {raws : List MemberSeedV1} {seeds : List MemberSeed}
    (h : narrowAll memberSeed raws = .ok seeds) :
    seeds.map (fun seed => seed.nodeId.bytes) = raws.map (·.nodeId) := by
  refine map_of_narrowAll ?_ h
  intro raw _ seed hnarrow
  simp only [memberSeed, nodeId, narrow, accepts_iff] at hnarrow
  obtain ⟨_, hnode, rfl⟩ := hnarrow
  exact bytes_of_fromSlice hnode

/-- The seeds of a list of nodes, in its order. -/
theorem joinSeeds_nodes {nodes : List NodeId} (hpolicy : validatePolicy ext input = .ok ())
    (hseeded : ∀ node ∈ nodes, ∃ seed, input.joinSeed node = some seed) :
    (nodes.filterMap input.joinSeed).map (·.nodeId) = nodes.map (·.bytes) := by
  induction nodes with
  | nil => rfl
  | cons node nodes ih =>
    obtain ⟨_, hseed⟩ := hseeded node mem_cons_self
    rw [filterMap_cons_some hseed, map_cons, map_cons,
      (joinSeed_checked ext hpolicy hseed).nodeId,
      ih fun node hnode => hseeded node (mem_cons_of_mem _ hnode)]

section Proposed

variable {ext} {best : Scored} {plan : PlacementPlan} {seeds : List MemberSeed}
  (h : Proposed ext input best plan)

include h

theorem Proposed.mem_nodes {node : NodeId} :
    node ∈ plan.desiredVoters ++ plan.retainedLearners ↔
      node ∈ best.voters ∨ node ∈ input.selectLearners ext best.voters := by
  rw [mem_append, h.voters, h.learners, mem_ascending, mem_ascending]

/-- A seed of a plan is the seed of one of its new members. -/
theorem Proposed.mem_seeds {seed : MemberSeedV1} : seed ∈ plan.memberSeeds ↔
    ∃ node ∈ input.joining ext best.voters, input.joinSeed node = some seed := by
  rw [h.seeds, (sortOn_perm _ _).mem_iff, mem_filterMap]

theorem Proposed.narrowed :
    ∃ seeds, narrowAll memberSeed plan.memberSeeds = .ok seeds := by
  refine narrowAll_accepts.mpr fun seed hseed => ?_
  obtain ⟨_, -, hjoin⟩ := h.mem_seeds.mp hseed
  exact ⟨_, memberSeed_of_checked ext (joinSeed_checked ext h.policy hjoin)⟩

/-- The group reads the seed of a new member as what the policy gives for it. -/
theorem Proposed.read (hseeds : narrowAll memberSeed plan.memberSeeds = .ok seeds)
    {seed : MemberSeed} (hmem : seed ∈ seeds) :
    ∃ raw ∈ plan.memberSeeds,
      seed.nodeId ∈ input.joining ext best.voters ∧
      SeedChecked ext input seed.nodeId raw ∧ seed.ticket = raw.ticket ∧
      seed.joinPermit = raw.signedJoinPermit := by
  obtain ⟨raw, hraw, hnarrow⟩ := narrowAll_mem hseeds hmem
  obtain ⟨_, hnode, hjoin⟩ := h.mem_seeds.mp hraw
  have hchk := joinSeed_checked ext h.policy hjoin
  rw [memberSeed_of_checked ext hchk] at hnarrow
  cases hnarrow
  exact ⟨raw, hraw, hnode, hchk, rfl, rfl⟩

/-- The seeds of a plan go up by their nodes. -/
theorem Proposed.seeds_sorted
    (hseeds : narrowAll memberSeed plan.memberSeeds = .ok seeds) :
    sortedUnique (seeds.map (·.nodeId)) = true := by
  have hnodup : (plan.memberSeeds.map (·.nodeId)).Nodup := by
    rw [h.seeds, ((sortOn_perm _ _).map _).nodup_iff, joinSeeds_nodes ext h.policy h.seeded]
    exact ((ascending_nodup _).filter _).map bytes_injective
  have hsort : (plan.memberSeeds.map (·.nodeId)).Pairwise fun a b => compare a b = .lt := by
    refine pairwise_lt_of_nodup ?_ hnodup
    rw [h.seeds, pairwise_map]
    exact sortOn_pairwise _ _
  rw [← memberSeeds_ids hseeds, pairwise_map] at hsort
  rw [sortedUnique, decide_eq_true_eq]
  exact (pairwise_map.mpr hsort).isChain

/-- The new voters of a plan are within the limit. -/
theorem Proposed.newVoters_le (joint : Bool) :
    newVoters plan.desiredVoters (input.committed joint).members ≤ maxNewVoters := by
  have hsub : plan.desiredVoters.filter (fun v => decide (v ∉ (input.committed joint).members)) ⊆
      ascending (best.voters \ input.currentVoters) := by
    intro node hnode
    obtain ⟨hvoter, hnew⟩ := mem_filter.mp hnode
    rw [h.voters, mem_ascending] at hvoter
    rw [mem_ascending, Finset.mem_sdiff]
    refine ⟨hvoter, fun hcurr => of_decide_eq_true hnew ?_⟩
    exact Finset.mem_union_left _ hcurr
  have hnodup : (plan.desiredVoters.filter fun v =>
      decide (v ∉ (input.committed joint).members)).Nodup := by
    rw [h.voters]
    exact (ascending_nodup _).filter _
  have hlen := (hnodup.subperm hsub).length_le
  rw [length_ascending] at hlen
  exact hlen.trans (h.optimal.new.trans maxNew_le)

/-- A seed that is of the right size passes every check of `plan_shape`. -/
theorem Proposed.checkPlanSeed (joint : Bool)
    (hseeds : narrowAll memberSeed plan.memberSeeds = .ok seeds)
    (hsizes : ∀ seed ∈ plan.memberSeeds,
      checkMemberSeed seed.ticket.length (seed.signedJoinPermit.map length) = .ok ())
    {seed : MemberSeed} (hmem : seed ∈ seeds) :
    checkPlanSeed ext ⟨plan.desiredVoters, plan.retainedLearners, seeds⟩ input.authority
      (input.committed joint).members seed = .ok () := by
  obtain ⟨raw, hraw, hnew, hchk, hticket, hpermit⟩ := h.read hseeds hmem
  obtain ⟨permit, hsome, hver⟩ := hchk.permit
  obtain ⟨hnode, hfresh⟩ := (mem_joining ext).mp hnew
  have hnode := mem_append.mp (h.mem_nodes.mpr hnode)
  simp only [Coordination.checkPlanSeed, accepts_iff, Bool.or_eq_true, contains_iff_mem]
  refine ⟨?_, hnode, ?_, ?_⟩
  · rw [hticket, hpermit]
    exact hsizes raw hraw
  · rw [hticket]
    exact hchk.ticket
  · have hmembers : decide (seed.nodeId ∉ (input.committed joint).members) = true :=
      decide_eq_true hfresh
    rw [checkSeedPermit, hmembers, hpermit, hsome]
    simp [hver]

/-! ### The planner against the group -/

/-- The learners on the way are those of before and the new members. -/
theorem Proposed.projected :
    projectedLearners input.currentLearners (input.currentVoters ∪ input.currentLearners)
        plan.desiredVoters plan.retainedLearners =
      input.currentLearners.card + (input.joining ext best.voters).length := by
  have hjoin : ((plan.desiredVoters ++ plan.retainedLearners).filter fun n =>
      decide (n ∉ input.currentVoters ∪ input.currentLearners)).toFinset =
      (input.joining ext best.voters).toFinset := by
    ext node
    rw [mem_toFinset, mem_toFinset, mem_filter, h.mem_nodes, mem_joining ext, decide_eq_true_eq]
  rw [projectedLearners, hjoin, Finset.card_union_of_disjoint,
    toFinset_card_of_nodup (joining_nodup ext _)]
  refine Finset.disjoint_left.mpr fun node hlearner hnew => ?_
  exact ((mem_joining ext).mp (mem_toFinset.mp hnew)).2 (Finset.mem_union_right _ hlearner)

theorem Proposed.accepts (joint : Bool) (hunchecked : Unchecked ext input best.voters) :
    AcceptsPlan ext input joint plan := by
  obtain ⟨seeds, hseeds⟩ := h.narrowed
  have hpolicy := h.policy
  simp only [validatePolicy, accepts_iff] at hpolicy
  obtain ⟨hcount, hkeep, -⟩ := hpolicy
  have hvoters : plan.desiredVoters.length = input.policy.targetVoters := by
    rw [h.voters, length_ascending, h.optimal.card]
  have hlearn : plan.retainedLearners.length ≤ maxRetainedLearners := by
    rw [h.learners, length_ascending, h.full]
    exact hkeep
  have hsizes : ∀ seed ∈ plan.memberSeeds,
      checkMemberSeed seed.ticket.length (seed.signedJoinPermit.map length) = .ok () := by
    intro seed hseed
    obtain ⟨node, hnode, hjoin⟩ := h.mem_seeds.mp hseed
    exact hunchecked.sizes node hnode seed hjoin
  refine ⟨⟨plan.desiredVoters, plan.retainedLearners, seeds⟩, ?_, ?_,
    h.projected.trans_le hunchecked.envelope⟩
  · rw [PlacementPlan.membershipPlan, hseeds, ok_bind]
  simp only [planShape, checkMembershipPlan, accepts_iff, checkAll_eq_ok, Bool.or_eq_false_iff,
    any_eq_false]
  refine ⟨⟨hlearn, ?_⟩, ⟨?_, ?_⟩, h.seeds_sorted hseeds, ?_, ?_, h.newVoters_le joint,
    fun seed hmem => h.checkPlanSeed joint hseeds hsizes hmem, ?_⟩
  · rw [hvoters]
    exact hcount
  · rw [h.voters]
    exact sortedUnique_ascending _
  · rw [h.learners]
    exact sortedUnique_ascending _
  · -- no node has two roles
    intro node hnode
    rw [h.voters, mem_ascending] at hnode
    rw [contains_iff_mem, h.learners, mem_ascending]
    exact fun hlearner => (selectLearners_retainable ext hlearner).2 hnode
  · intro node hnode hroot
    rw [beq_iff_eq] at hroot
    subst hroot
    exact hunchecked.root (Finset.mem_union.mpr (h.mem_nodes.mp hnode))
  · -- every new node is seeded
    intro node hnode
    by_cases hmember : node ∈ (input.committed joint).members
    · simp [hmember]
    have hnew := (mem_joining ext).mpr ⟨h.mem_nodes.mp hnode, hmember⟩
    obtain ⟨raw, hraw⟩ := h.seeded node hnew
    have hmem : raw.nodeId ∈ plan.memberSeeds.map (·.nodeId) :=
      mem_map_of_mem (h.mem_seeds.mpr ⟨node, hnew, hraw⟩)
    rw [← memberSeeds_ids hseeds, (joinSeed_checked ext h.policy hraw).nodeId] at hmem
    obtain ⟨seed, hseed, hbytes⟩ := mem_map.mp hmem
    have hid : seed.nodeId = node := bytes_injective hbytes
    have hany : (seeds.any fun s => s.nodeId == node) = true :=
      any_eq_true.mpr ⟨seed, hseed, by rw [hid, beq_self_eq_true]⟩
    simp [hany]

end Proposed

/-! ### Openings -/

section Openings

/-- A current voter in the place of a new one is one more that stays. -/
theorem card_swap_inter {voters current : Finset NodeId} {out stay : NodeId}
    (hout : out ∉ current) (hcurr : stay ∈ current) (hstay : stay ∉ voters.erase out) :
    (insert stay (voters.erase out) ∩ current).card = (voters ∩ current).card + 1 := by
  rw [Finset.insert_inter_of_mem hcurr, Finset.card_insert_of_notMem, Finset.erase_inter,
    Finset.erase_eq_of_notMem]
  · exact fun hmem => hout (Finset.mem_inter.mp hmem).2
  · exact fun hmem => hstay (Finset.mem_inter.mp hmem).1

variable {ext} {best : Scored}
  (h : Best ext input (input.ordered ext) input.required input.maxNew best)

include h

theorem Best.graceRetained :
    best.graceRetained = (best.voters ∩ input.graceCrossedMembers).card :=
  congrArg Scored.graceRetained h.score

theorem Best.retained : best.retained = (best.voters ∩ input.currentVoters).card :=
  congrArg Scored.retained h.score

/-- Where no separation is asked for, a voter that may stay is not given up for a new one that is
not required. -/
theorem Best.keeps (hminimum : input.policy.minimumSeparatedVoterPairs = 0) :
    best.voters \ input.currentVoters ⊆ input.required ∨
      input.protectedVoters ⊆ best.voters := by
  by_contra hnot
  rw [not_or, Finset.not_subset, Finset.not_subset] at hnot
  obtain ⟨⟨out, hout, hfree⟩, stay, hstay, hleft⟩ := hnot
  obtain ⟨houtVoter, houtNew⟩ := Finset.mem_sdiff.mp hout
  simp only [protectedVoters, Finset.mem_filter, Bool.and_eq_true, Bool.not_eq_true',
    decide_eq_false_iff_not] at hstay
  obtain ⟨hcurr, hfit, hgrace⟩ := hstay
  -- put the one in the place of the other
  have hstay' : stay ∉ best.voters.erase out := fun hmem => hleft (Finset.mem_of_mem_erase hmem)
  have hswap := h.unbeaten (insert stay (best.voters.erase out)) ?_ ?_ ?_ ?_
  · obtain ⟨-, hsame⟩ := of_not_beats hswap
    have hmeets : ∀ voters, (scoreOf ext input voters).meetsMinimum = true := by
      simp [scoreOf, hminimum]
    have hscore : best.meetsMinimum = true := h.score ▸ hmeets best.voters
    obtain ⟨hle, hkeep⟩ := hsame ((hmeets _).trans hscore.symm)
    have hge : (scoreOf ext input (insert stay (best.voters.erase out))).graceRetained ≤
        best.graceRetained := by
      rw [h.graceRetained]
      show (insert stay (best.voters.erase out) ∩ input.graceCrossedMembers).card ≤ _
      rw [Finset.insert_inter_of_notMem hgrace]
      exact Finset.card_le_card (Finset.inter_subset_inter_right (Finset.erase_subset _ _))
    have hmore := hkeep (Nat.le_antisymm hge hle)
    have hcount : (scoreOf ext input (insert stay (best.voters.erase out))).retained =
        best.retained + 1 := by
      rw [h.retained]
      exact card_swap_inter houtNew hcurr hstay'
    omega
  · intro voter hvoter
    rcases Finset.mem_insert.mp hvoter with rfl | hvoter
    · exact (mem_ordered ext).mpr (mem_voterUniverse.mpr ⟨hfit, .inl hcurr⟩)
    · exact h.subset voter (Finset.mem_of_mem_erase hvoter)
  · rw [Finset.card_insert_of_notMem hstay', Finset.card_erase_add_one houtVoter, h.card]
  · intro voter hvoter
    refine Finset.mem_insert_of_mem (Finset.mem_erase.mpr ⟨?_, h.demanded hvoter⟩)
    rintro rfl
    exact hfree hvoter
  · refine (Finset.card_le_card fun voter hvoter => ?_).trans h.new
    obtain ⟨hvoter, hnew⟩ := Finset.mem_sdiff.mp hvoter
    rcases Finset.mem_insert.mp hvoter with rfl | hvoter
    · exact absurd hcurr hnew
    · exact Finset.mem_sdiff.mpr ⟨Finset.mem_of_mem_erase hvoter, hnew⟩

/-- Current voters that stay leave that many seats fewer. -/
theorem Best.newVoters_le_sub {stay : Finset NodeId} (hvoters : stay ⊆ best.voters)
    (hcurr : stay ⊆ input.currentVoters) :
    (best.voters \ input.currentVoters).card ≤ input.policy.targetVoters - stay.card := by
  rw [← h.card, ← Finset.card_sdiff_of_subset hvoters]
  exact Finset.card_le_card (Finset.sdiff_subset_sdiff (Finset.Subset.refl _) hcurr)

theorem Best.newVoters_le : (best.voters \ input.currentVoters).card ≤ input.voterSeats := by
  have hstay : input.required ∩ input.currentVoters ⊆ best.voters :=
    Finset.inter_subset_left.trans h.demanded
  unfold voterSeats
  dsimp only
  split_ifs with hminimum
  · rcases h.keeps hminimum with hrequired | hkept
    · refine (Finset.card_le_card fun voter hvoter => ?_).trans (le_max_left _ _)
      exact Finset.mem_sdiff.mpr ⟨hrequired hvoter, (Finset.mem_sdiff.mp hvoter).2⟩
    · refine (h.newVoters_le_sub (Finset.union_subset hstay hkept) ?_).trans (le_max_right _ _)
      exact Finset.union_subset Finset.inter_subset_right (Finset.filter_subset _ _)
  · exact h.newVoters_le_sub hstay Finset.inter_subset_right

/-- A new member is one of those who can join. -/
theorem Best.newcomer {node : NodeId}
    (hnode : node ∈ input.joining ext best.voters) : node ∈ input.newcomers := by
  obtain ⟨hchosen, hnew⟩ := (mem_joining ext).mp hnode
  refine Finset.mem_sdiff.mpr ⟨?_, hnew⟩
  rcases hchosen with hvoter | hlearner
  · exact (mem_ordered ext).mp (h.subset node hvoter)
  · rcases selectLearners_cases ext hlearner with hkept | hspare
    · exact absurd (Finset.mem_union_right _ (mem_keptLearners.mp hkept).1) hnew
    · obtain ⟨hfit, -, -, hlive⟩ := (mem_spares ext).mp hspare
      exact mem_voterUniverse.mpr ⟨hfit, .inr hlive⟩

end Openings

end

namespace Sample

/-- A candidate with a ticket and a permit. -/
def candidate (node : NodeId) : PlacementCandidate :=
  ⟨node, some ⟨node.bytes, node.bytes, some node.bytes⟩⟩

def spare : NodeId := fill 32 3

/-- One voter is wanted, and a number of learners beside it. -/
def placementPolicy (learners : ℕ) (eligible : List NodeId) : PlacementPolicy where
  authorityPublicKey := root
  authorityDomain := model.authority.domain
  targetVoters := 1
  targetRetainedLearners := learners
  eligible := eligible.foldl (fun t node => t.insert node (candidate node)) ∅
  pinnedVoters := ∅
  excluded := ∅
  minimumSeparatedVoterPairs := 0
  allowHealthyRebalance := false

/-- The group of the voter, with some learners; every candidate is live. -/
def placement (learners : ℕ) (eligible : List NodeId) (current : Finset NodeId) :
    PlacementInput where
  groupId := model.authority.groupId
  genesisHash := model.authority.genesisHash
  deploymentProfileCode := profileDevSingle
  membershipLogId := none
  currentVoters := {voter}
  currentLearners := current
  activeMembershipIntent := false
  graceCrossedMembers := ∅
  policy := placementPolicy learners eligible
  topology := ⟨[eligible], fun _ _ => .unknown⟩

/-- The summary of a single voter that is live. -/
def alone : SeparationSummary := ⟨0, 0, 0, 0, 1, false⟩

/-- The voter stays, and two learners join. -/
def addLearners : PlacementPlan :=
  ⟨[voter], [spare, joiner], [⟨spare.bytes, spare.bytes, some spare.bytes⟩,
    ⟨joiner.bytes, joiner.bytes, some joiner.bytes⟩], none, alone⟩

end Sample

open Sample

/-- Two of three candidates are chosen, one of them new. -/
theorem voter_search_optimal_two :
    let input := { placement 2 [voter] ∅ with
      policy := { placementPolicy 2 [voter] with targetVoters := 2 } }
    let found := bestVoterSet permitting input [voter, joiner, spare] ∅ 1
    found.isSome = true ∧ ∀ best, found = some best →
      Best permitting input [voter, joiner, spare] ∅ 1 best :=
  ⟨by decide +kernel, (voter_search_optimal permitting _ _ ∅ 1 (by decide)).2.1⟩

end AsterRpc.Coordination

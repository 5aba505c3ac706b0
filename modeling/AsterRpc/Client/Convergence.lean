import AsterRpc.Client.Placement

/-!
# Placement converges

The placement manager asks the planner, has the plan committed, and asks again.
Under one policy, one topology and one set of members whose grace has passed this
comes to an end: once the voters are the planner's own choice, a plan that moves
them meets the minimum of separated pairs where they did not, or keeps fewer members
whose grace has passed; and a plan that leaves them alone changes the learners, once.
-/

namespace AsterRpc.Coordination

open AsterRpc.Foundation Finset

/-! ### Adopting a plan -/

/-- The next input, once the roles of a plan are the committed membership. -/
def PlacementInput.adopt (input : PlacementInput) (plan : PlacementPlan)
    (logId : Option LogIdV1) : PlacementInput :=
  { input with
    membershipLogId := logId
    currentVoters := plan.desiredVoters.toFinset
    currentLearners := plan.retainedLearners.toFinset }

open PlacementInput

/-- **One turn**: the planner returns a plan, and its roles are committed at some log id. -/
inductive Adopts (ext : Externals) : PlacementInput → PlacementInput → Prop
  | plan {input : PlacementInput} {plan : PlacementPlan} (logId : Option LogIdV1)
      (h : input.plan ext = .plan plan) : Adopts ext input (input.adopt plan logId)

/-- The voters are a choice of the planner. -/
structure Settled (input : PlacementInput) : Prop where
  card : input.currentVoters.card = input.policy.targetVoters
  retainable : ∀ voter ∈ input.currentVoters, input.retainable voter = true
  pinned : input.policy.pinnedVoters ⊆ input.currentVoters

/-- What a plan that moves the voters lowers. -/
def PlacementInput.rank (input : PlacementInput) : ℕ :=
  (if (summarize input input.currentVoters).separatedPairs ≥
      input.policy.minimumSeparatedVoterPairs then 0 else input.policy.targetVoters + 1) +
    (input.currentVoters ∩ input.graceCrossedMembers).card

section

variable {ext : Externals} {input : PlacementInput} {best : Scored} {plan : PlacementPlan}

theorem Proposed.adopt_voters (h : Proposed ext input best plan) (logId : Option LogIdV1) :
    (input.adopt plan logId).currentVoters = best.voters := by
  show plan.desiredVoters.toFinset = best.voters
  rw [h.voters, toFinset_ascending]

/-- What was adopted is a choice of the planner. -/
theorem Adopts.settled {next : PlacementInput} (h : Adopts ext input next) : Settled next := by
  cases h with
  | plan logId h =>
    obtain ⟨best, hprop⟩ := plan_eq_plan ext h
    have hvoters := hprop.adopt_voters logId
    refine ⟨?_, ?_, ?_⟩
    · rw [hvoters]
      exact hprop.optimal.card
    · intro voter hvoter
      rw [hvoters] at hvoter
      exact (mem_voterUniverse.mp ((mem_ordered ext).mp (hprop.optimal.subset _ hvoter))).1
    · have hpinned : input.policy.pinnedVoters ⊆ best.voters :=
        pinned_subset_required.trans hprop.optimal.demanded
      rw [hvoters]
      exact hpinned

/-! ### Plans that move the voters -/

theorem Settled.required_subset (h : Settled input) : input.required ⊆ input.currentVoters := by
  unfold required
  dsimp only
  split_ifs
  · exact union_subset h.pinned (filter_subset _ _)
  · exact h.pinned

/-- The voters themselves were a possible choice. -/
theorem Settled.not_beats (h : Settled input) (hprop : Proposed ext input best plan) :
    (scoreOf ext input input.currentVoters).beats best = false := by
  refine hprop.optimal.unbeaten _ ?_ h.card h.required_subset ?_
  · intro voter hvoter
    exact (mem_ordered ext).mpr (mem_voterUniverse.mpr ⟨h.retainable voter hvoter, .inl hvoter⟩)
  · rw [Finset.sdiff_self, Finset.card_empty]
    exact Nat.zero_le _

/-- A choice of other voters retains fewer of them. -/
theorem Settled.retained_lt (h : Settled input) {voters : Finset NodeId}
    (hcard : voters.card = input.policy.targetVoters) (hmoved : voters ≠ input.currentVoters) :
    (voters ∩ input.currentVoters).card < (input.currentVoters ∩ input.currentVoters).card := by
  rw [Finset.inter_self, h.card, ← hcard]
  refine Finset.card_lt_card (Finset.ssubset_iff_subset_ne.mpr ⟨Finset.inter_subset_left, ?_⟩)
  intro hall
  refine hmoved (Finset.eq_of_subset_of_card_le (Finset.inter_eq_left.mp hall) ?_)
  rw [h.card, hcard]

/-- **A plan that moves the voters lowers the rank.** -/
theorem Settled.rank_lt (h : Settled input) (hprop : Proposed ext input best plan)
    (logId : Option LogIdV1) (hmoved : best.voters ≠ input.currentVoters) :
    (input.adopt plan logId).rank < input.rank := by
  obtain ⟨hmeets, hsame⟩ := Scored.of_not_beats (h.not_beats hprop)
  have hkeep := h.retained_lt hprop.optimal.card hmoved
  have hgrace : (best.voters ∩ input.graceCrossedMembers).card ≤ input.policy.targetVoters := by
    rw [← hprop.optimal.card]
    exact card_le_card inter_subset_left
  -- the rank after the plan, in terms of the chosen voters
  have hafter : (input.adopt plan logId).rank =
      (if (summarize input best.voters).separatedPairs ≥ input.policy.minimumSeparatedVoterPairs
        then 0 else input.policy.targetVoters + 1) +
        (best.voters ∩ input.graceCrossedMembers).card := by
    unfold rank
    rw [hprop.adopt_voters logId]
    rfl
  rw [hprop.optimal.score] at hmeets hsame
  simp only [scoreOf, decide_eq_true_eq, decide_eq_decide] at hmeets hsame
  -- where both sets meet the minimum or both miss it, fewer members whose grace has passed stay
  have hfewer : ((summarize input input.currentVoters).separatedPairs ≥
      input.policy.minimumSeparatedVoterPairs ↔ (summarize input best.voters).separatedPairs ≥
      input.policy.minimumSeparatedVoterPairs) → (best.voters ∩ input.graceCrossedMembers).card <
      (input.currentVoters ∩ input.graceCrossedMembers).card := by
    intro hiff
    obtain ⟨hle, hequal⟩ := hsame hiff
    refine lt_of_le_of_ne hle fun heq => ?_
    exact absurd (hequal heq.symm) (Nat.not_le.mpr hkeep)
  rw [hafter, rank]
  by_cases hpre : (summarize input input.currentVoters).separatedPairs ≥
      input.policy.minimumSeparatedVoterPairs
  · rw [if_pos hpre, if_pos (hmeets hpre)]
    have hlt := hfewer ⟨hmeets, fun _ => hpre⟩
    omega
  · rw [if_neg hpre]
    split_ifs with hnow
    · omega
    · have hlt := hfewer ⟨fun hmet => absurd hmet hpre, fun hmet => absurd hmet hnow⟩
      omega

/-! ### Plans that leave the voters alone -/

/-- The input with other learners, committed at another log id. -/
def PlacementInput.withLearners (input : PlacementInput) (logId : Option LogIdV1)
    (learners : Finset NodeId) : PlacementInput :=
  { input with membershipLogId := logId, currentLearners := learners }

/-- **Selected learners are selected again**: those whose grace has passed lose their place, and are
the first candidates for it. -/
theorem selectLearners_again (logId : Option LogIdV1) {voters : Finset NodeId}
    (hfull : (input.selectLearners ext voters).card = input.policy.targetRetainedLearners) :
    (input.withLearners logId (input.selectLearners ext voters)).selectLearners ext voters =
      input.selectLearners ext voters := by
  set next := input.withLearners logId (input.selectLearners ext voters) with hnext
  let lasting : NodeId → Bool := fun node => !decide (node ∈ input.graceCrossedMembers)
  have hgraces : next.graceCrossedMembers = input.graceCrossedMembers := rfl
  have hkept : next.keptLearners voters =
      (input.selectLearners ext voters).filter fun node => lasting node = true := by
    ext node
    rw [mem_keptLearners, mem_filter, hgraces]
    constructor
    · rintro ⟨hmem, -, hgrace, -⟩
      exact ⟨hmem, by simpa [lasting] using hgrace⟩
    · rintro ⟨hmem, hgrace⟩
      obtain ⟨hfit, hvoter⟩ := selectLearners_retainable ext hmem
      exact ⟨hmem, hfit, by simpa [lasting] using hgrace, hvoter⟩
  have hheld : next.heldLearners ext voters =
      (input.selectLearners ext voters).filter fun node => lasting node = true := by
    -- nothing is trimmed from a set that is small enough
    rw [heldLearners, hkept]
    exact congrArg (fun excess => (dropGreatest ext next.groupId)^[excess] _)
      (Nat.sub_eq_zero_of_le ((card_filter_le _ _).trans hfull.le))
  have hspares : next.spares ext voters = input.spares ext voters := rfl
  have htarget : next.policy.targetRetainedLearners = input.policy.targetRetainedLearners := rfl
  have hlasting : ∀ node ∈ input.heldLearners ext voters, lasting node = true := by
    intro node hnode
    obtain ⟨-, -, hgrace, -⟩ := mem_keptLearners.mp (trimLearners_subset ext _ _ _ hnode)
    simpa [lasting] using hgrace
  have hagain : next.selectLearners ext voters = fillUp next.policy.targetRetainedLearners
      (next.heldLearners ext voters) ((next.spares ext voters).filter fun node =>
        decide (node ∉ next.heldLearners ext voters)) := selectLearners_eq ext
  rw [hagain, hheld, hspares, htarget]
  rw [selectLearners_eq] at hfull ⊢
  exact fillUp_again (spares_nodup ext) lasting hfull hlasting

/-- **After a plan that leaves the voters alone there is no plan.** -/
theorem Proposed.last (h : Proposed ext input best plan) (logId : Option LogIdV1)
    (hstays : best.voters = input.currentVoters) (again : PlacementPlan) :
    (input.adopt plan logId).plan ext ≠ .plan again := by
  have hnext : input.adopt plan logId =
      input.withLearners logId (input.selectLearners ext best.voters) := by
    unfold adopt withLearners
    rw [h.voters, h.learners, toFinset_ascending, toFinset_ascending, hstays]
  intro hagain
  obtain ⟨best', hprop⟩ := plan_eq_plan ext hagain
  -- the choice of voters does not read the learners
  have hchosen : bestVoterSet ext input (input.ordered ext) input.required input.maxNew =
      some best' := by
    have hsame := hprop.chosen
    rw [hnext] at hsame
    exact hsame
  cases Option.some.inj (hchosen.symm.trans h.chosen)
  refine hprop.changed ⟨(h.adopt_voters logId).symm, ?_⟩
  show _ = plan.retainedLearners.toFinset
  rw [h.learners, toFinset_ascending, hnext]
  exact selectLearners_again logId h.full

/-! ### The iteration -/

theorem Settled.acc (h : Settled input) : Acc (fun next input => Adopts ext input next) input := by
  induction hrank : input.rank using Nat.strong_induction_on generalizing input with
  | _ rank ih =>
    refine Acc.intro _ fun next hadopts => ?_
    have hdone := hadopts.settled
    cases hadopts with
    | plan logId hplan =>
      obtain ⟨best, hprop⟩ := plan_eq_plan ext hplan
      by_cases hstays : best.voters = input.currentVoters
      · refine Acc.intro _ fun other hother => ?_
        generalize hsource : input.adopt _ logId = source at hother
        cases hother with
        | plan _ hagain =>
          rw [← hsource] at hagain
          exact absurd hagain (hprop.last logId hstays _)
      · exact ih _ (hrank ▸ h.rank_lt hprop logId hstays) hdone rfl

end

theorem adopts_wellFounded (ext : Externals) :
    WellFounded fun next input => Adopts ext input next :=
  ⟨fun _ => Acc.intro _ fun _ hadopts => hadopts.settled.acc⟩

/-- **Placement converges.**  There is no endless chain of plans, each adopted before the planner is
asked again; and from every membership the iteration reaches one for which the planner has no plan.
-/
theorem placement_converges (ext : Externals) :
    (∀ chain : ℕ → PlacementInput, ∃ n, ¬Adopts ext (chain n) (chain (n + 1))) ∧
      ∀ input : PlacementInput, ∃ final, Relation.ReflTransGen (Adopts ext) input final ∧
        ∀ plan, final.plan ext ≠ .plan plan := by
  have hwf := adopts_wellFounded ext
  constructor
  · intro chain
    by_contra hendless
    have hempty := wellFounded_iff_isEmpty_descending_chain.mp hwf
    exact hempty.elim ⟨chain, fun n => by_contra fun hstop => hendless ⟨n, hstop⟩⟩
  · intro input
    induction input using hwf.induction with
    | _ input ih =>
      by_cases hplan : ∃ plan, input.plan ext = .plan plan
      · obtain ⟨plan, hplan⟩ := hplan
        have hadopts := Adopts.plan input.membershipLogId hplan
        obtain ⟨final, hreach, hfinal⟩ := ih _ hadopts
        exact ⟨final, Relation.ReflTransGen.head hadopts hreach, hfinal⟩
      · exact ⟨input, Relation.ReflTransGen.refl, fun plan h => hplan ⟨plan, h⟩⟩

end AsterRpc.Coordination

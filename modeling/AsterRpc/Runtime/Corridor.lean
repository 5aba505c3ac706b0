import AsterRpc.Runtime.Controller
import AsterRpc.Storage.LifeCycle

/-!
# The membership corridor

What a group goes through while its leader drives a membership intent.  A pass
of `run_generation` asks the phase table for a step and commits the operations
of the step one after another; between any two of them clients go on sending
commands, and the pass may end, for a loss of leadership, a restart or an
operation that is refused, with another leader starting over from what it then
reads.  Whatever the order, no membership that is committed on the way leaves the
envelope a store accepts.

OpenRaft is modelled by what its membership operations commit.
-/

namespace AsterRpc.Coordination

open AsterRpc.Foundation Coordination.Membership List

/-! ### OpenRaft's membership operations -/

namespace Membership

variable {node : NodeId}

theorem voterIds_subset (m : Membership) : m.voterIds ⊆ m.nodes := by
  intro node hnode
  obtain ⟨config, hconf, hmem⟩ := mem_voterIds.mp hnode
  exact m.covers config hconf hmem

theorem mem_learnerIds {m : Membership} :
    node ∈ m.learnerIds ↔ node ∈ m.nodes ∧ node ∉ m.voterIds := by
  simp [learnerIds, projectMembership, mem_voterIds]

/-- The projection of a membership has its nodes for members. -/
theorem members_project (m : Membership) : (projectMembership m).members = m.nodes := by
  ext node
  have hmember : node ∈ (projectMembership m).members ↔ node ∈ m.voterIds ∨ node ∈ m.learnerIds :=
    Finset.mem_union
  rw [hmember, mem_learnerIds]
  constructor
  · rintro (hvoter | ⟨hnode, -⟩)
    · exact m.voterIds_subset hvoter
    · exact hnode
  · intro hnode
    by_cases hvoter : node ∈ m.voterIds
    · exact .inl hvoter
    · exact .inr ⟨hnode, hvoter⟩

/-- `add_learner`: a node that is there already stays what it is. -/
def addLearner (m : Membership) (node : NodeId) : Membership where
  configs := m.configs
  nodes := insert node m.nodes
  covers := fun config hconf => (m.covers config hconf).trans (Finset.subset_insert _ _)

/-- The configurations on the way to a voter set: the set alone once the group has agreed to it,
and jointly with the last one before. -/
def nextConfigs (m : Membership) (voters : Finset NodeId) : List (Finset NodeId) :=
  if voters ∈ m.configs then [voters]
  else
    match m.configs.getLast? with
    | some last => [last, voters]
    | none => [voters]

/-- The voters of a list of configurations. -/
def votersOf (configs : List (Finset NodeId)) : Finset NodeId := configs.foldr (· ∪ ·) ∅

theorem mem_votersOf {configs : List (Finset NodeId)} :
    node ∈ votersOf configs ↔ ∃ config ∈ configs, node ∈ config := by
  unfold votersOf
  induction configs with
  | nil => simp
  | cons config rest ih => simp [ih]

theorem nextConfigs_covered {m : Membership} {voters : Finset NodeId} (h : voters ⊆ m.nodes) :
    ∀ config ∈ m.nextConfigs voters, config ⊆ m.nodes := by
  intro config hconf
  unfold nextConfigs at hconf
  split_ifs at hconf
  · rw [mem_singleton.mp hconf]
    exact h
  · split at hconf
    · rename_i last hlast
      simp only [mem_cons, not_mem_nil, or_false] at hconf
      rcases hconf with rfl | rfl
      · exact m.covers _ (mem_of_getLast? hlast)
      · exact h
    · rw [mem_singleton.mp hconf]
      exact h

theorem nextConfigs_length (m : Membership) (voters : Finset NodeId) :
    (m.nextConfigs voters).length ≤ 2 := by
  unfold nextConfigs
  split_ifs
  · simp
  · split <;> simp

/-- One entry of `change_membership(voters, retain = false)`: voters that are in no configuration
any more leave the node map; a voter without a node is refused. -/
def changeVoters (m : Membership) (voters : Finset NodeId) : Option Membership :=
  if h : voters ⊆ m.nodes then
    some
      { configs := m.nextConfigs voters
        nodes := m.nodes \ (m.voterIds \ votersOf (m.nextConfigs voters))
        covers := by
          intro config hconf node hnode
          refine Finset.mem_sdiff.mpr ⟨nextConfigs_covered h config hconf hnode, fun hleft => ?_⟩
          exact (Finset.mem_sdiff.mp hleft).2 (mem_votersOf.mpr ⟨config, hconf, hnode⟩) }
  else none

/-- The second entry of `change_membership`: a joint configuration settles on its last one. -/
def settle (m : Membership) : Option Membership :=
  if m.configs.length > 1 then m.configs.getLast?.bind m.changeVoters else none

/-- `ReplaceAllNodes`: a voter without a node is refused. -/
def replaceAllNodes (m : Membership) (nodes : Finset NodeId) : Option Membership :=
  if h : m.voterIds ⊆ nodes then
    some ⟨m.configs, nodes, fun config hconf _ hnode =>
      h (mem_voterIds.mpr ⟨config, hconf, hnode⟩)⟩
  else none

/-- `RemoveNodes` of one node: a voter is refused. -/
def removeNode (m : Membership) (node : NodeId) : Option Membership :=
  if h : node ∈ m.voterIds then none
  else
    some ⟨m.configs, m.nodes.erase node, fun config hconf _ hother =>
      Finset.mem_erase.mpr ⟨fun heq => h (heq ▸ mem_voterIds.mpr ⟨config, hconf, hother⟩),
        m.covers config hconf hother⟩⟩

end Membership

/-! ### A pass of the controller -/

/-- What a pass commits: a membership entry, or a progress report. -/
inductive ControllerOp where
  | addLearner (node : NodeId)
  | changeVoters (voters : Finset NodeId)
  | settle
  | replaceAllNodes (nodes : Finset NodeId)
  | removeNode (node : NodeId)
  | report (command : MembershipProgressCommand)

/-- The membership an operation commits, if OpenRaft does not refuse it. -/
def ControllerOp.membership (m : Membership) : ControllerOp → Option Membership
  | addLearner node => some (m.addLearner node)
  | changeVoters voters => m.changeVoters voters
  | settle => m.settle
  | replaceAllNodes nodes => m.replaceAllNodes nodes
  | removeNode node => m.removeNode node
  | report _ => none

/-- The operations of a step, in the order in which `run_generation` performs them. -/
def performStep (operationId : OperationId) (intent : Intent) (committed : StoredMembership) :
    ControllerStep → List ControllerOp
  | .idle => []
  | .establishCatchUpBarrier => []
  | .awaitCatchUp _ _ => []
  | .addLearners missing => (ascending missing).map .addLearner
  | .changeVoters =>
    if intent.statusCode = phasePending then
      [.report ⟨operationId, phasePending, phaseAddingLearners, none, 0⟩]
    else if intent.statusCode = phaseAddingLearners then
      [.report ⟨operationId, phaseAddingLearners, phaseChangingVoters, none, 0⟩]
    else [.changeVoters intent.plan.desiredVoters.toFinset, .settle]
  | .replaceNodes =>
    [.replaceAllNodes (replacementNodeMap intent.plan.desiredVoters intent.plan.retainedLearners)]
  | .reportComplete =>
    [.report ⟨operationId, phaseChangingVoters, phaseCompleted, committed.logId,
      sysMembershipAdvanced⟩]
  | .cancelCleanup introduced =>
    (ascending introduced).map .removeNode ++
      [.report ⟨operationId, phaseCancelRequested, phaseCancelled, none, 0⟩]

/-- The record a report proposes. -/
def MembershipProgressCommand.toWire (command : MembershipProgressCommand) : CommandV1 :=
  .membershipProgress command.operationId.bytes command.expectedPhase command.newPhase
    (command.observedMembershipLogId.map LogId.toWire) command.resultCode

/-- `active_intent`: the first intent under way. -/
def activeIntent (s : State) : Option (OperationId × Intent) :=
  s.intents.toList.find? fun e => !isTerminalPhase e.2.statusCode

/-! ### The corridor -/

/-- The group, and what is left of the pass of its leader. -/
structure Corridor where
  durable : DurableState
  pending : List ControllerOp

inductive CorridorEvent where
  /-- An entry that is not the controller's is applied. -/
  | entry (e : Entry)
  /-- A leader reads the intent and the membership, and starts a pass. -/
  | observe (metrics : Metrics) (barrier : Option ℕ)
  /-- The next operation of the pass is committed. -/
  | act (logId : LogId)
  /-- The pass ends: leadership is lost, the node restarts, or an operation is not accepted. -/
  | stop

/-- Only the controller commits memberships and progress reports. -/
def EntryPayload.isControllers : EntryPayload → Bool
  | .membership _ => true
  | .normal (.membershipProgress _ _ _ _ _) => true
  | _ => false

section

variable (ext : Externals)

/-- A membership entry is committed.  What the state machine checks before it applies one is left
out here: that it never has to refuse one is what the corridor is about. -/
def commitMembership (s : DurableState) (logId : LogId) (m : Membership) : Option DurableState :=
  if (guardEntry s logId).isOk then some (s.withMembership logId m) else none

/-- The next operation of the pass; one that is refused ends it. -/
def Corridor.act (c : Corridor) (logId : LogId) : Corridor :=
  match c.pending with
  | [] => c
  | .report command :: rest => ⟨(applyOne ext c.durable ⟨logId, .normal command.toWire⟩).1, rest⟩
  | op :: rest =>
    match (op.membership c.durable.membership.membership).bind
        (commitMembership c.durable logId) with
    | some durable => ⟨durable, rest⟩
    | none => ⟨c.durable, []⟩

/-- A leader starts a pass. -/
def Corridor.observe (c : Corridor) (metrics : Metrics) (barrier : Option ℕ) : Corridor :=
  match activeIntent c.durable.model with
  | none => ⟨c.durable, []⟩
  | some (operationId, intent) =>
    ⟨c.durable, performStep operationId intent c.durable.membership
      (nextStep intent metrics c.durable.membership.membership barrier)⟩

def Corridor.step (c : Corridor) : CorridorEvent → Corridor × Unit
  | .entry e =>
    if e.payload.isControllers then (c, ())
    else (⟨(applyOne ext c.durable e).1, c.pending⟩, ())
  | .observe metrics barrier => (c.observe metrics barrier, ())
  | .act logId => (c.act ext logId, ())
  | .stop => (⟨c.durable, []⟩, ())

end

/-! ### The envelope -/

/-- **A membership a store accepts**, whatever its profile: at most two configurations, no more
learners than the envelope, and not the root. -/
structure InEnvelope (root : NodeId) (m : Membership) : Prop where
  joint : m.configs.length ≤ 2
  learners : m.learnerIds.card ≤ maxLearnerEnvelope
  root : root ∉ m.nodes

/-- The learners of a plan at their most: those there are, and those still to be added. -/
def peakLearners (m : Membership) (plan : MembershipPlan) : Finset NodeId :=
  m.learnerIds ∪ missingLearners plan.desiredVoters plan.retainedLearners m.nodes

/-- What is kept of an accepted plan while its intent is under way.  Once the voters change, a
retained node may be dropped and be missing again, but nothing is added any more. -/
structure PlanFits (root : NodeId) (m : Membership) (intent : Intent) : Prop where
  root : root ∉ intent.plan.desiredVoters ++ intent.plan.retainedLearners
  retained : intent.plan.retainedLearners.length ≤ maxRetainedLearners
  peak : intent.statusCode ≠ phaseChangingVoters →
    (peakLearners m intent.plan).card ≤ maxLearnerEnvelope

section

variable {m m' : Membership} {node : NodeId}

/-- Fewer nodes with no new learner stay in the envelope. -/
theorem InEnvelope.shrink {root : NodeId} (h : InEnvelope root m) (hjoint : m'.configs.length ≤ 2)
    (hlearn : m'.learnerIds ⊆ m.learnerIds) (hnodes : m'.nodes ⊆ m.nodes) :
    InEnvelope root m' :=
  ⟨hjoint, (Finset.card_le_card hlearn).trans h.learners, fun hroot => h.root (hnodes hroot)⟩

/-- **No voter becomes a learner**: whoever leaves the configurations leaves the node map. -/
theorem Membership.changeVoters_learners {voters : Finset NodeId}
    (h : m.changeVoters voters = some m') :
    m'.configs.length ≤ 2 ∧ m'.learnerIds ⊆ m.learnerIds ∧ m'.nodes ⊆ m.nodes := by
  unfold changeVoters at h
  split_ifs at h with hknown
  cases h
  refine ⟨m.nextConfigs_length voters, ?_, Finset.sdiff_subset⟩
  intro node hnode
  obtain ⟨hmember, hvoter⟩ := mem_learnerIds.mp hnode
  obtain ⟨hold, hstays⟩ := Finset.mem_sdiff.mp hmember
  refine mem_learnerIds.mpr ⟨hold, fun hwas => hstays ?_⟩
  exact Finset.mem_sdiff.mpr ⟨hwas, hvoter⟩

theorem Membership.settle_learners (h : m.settle = some m') :
    m'.configs.length ≤ 2 ∧ m'.learnerIds ⊆ m.learnerIds ∧ m'.nodes ⊆ m.nodes := by
  unfold settle at h
  split_ifs at h
  obtain ⟨_, -, hchanged⟩ := Option.bind_eq_some_iff.mp h
  exact changeVoters_learners hchanged

/-- **Adding a node of the plan does not raise its peak.** -/
theorem peakLearners_addLearner {plan : MembershipPlan}
    (hnode : node ∈ plan.desiredVoters ++ plan.retainedLearners) :
    peakLearners (m.addLearner node) plan ⊆ peakLearners m plan := by
  intro other hother
  rcases Finset.mem_union.mp hother with hlearner | hmissing
  · obtain ⟨hmember, hvoter⟩ := mem_learnerIds.mp hlearner
    by_cases hold : other ∈ m.nodes
    · exact Finset.mem_union_left _ (mem_learnerIds.mpr ⟨hold, hvoter⟩)
    · have heq : other = node := (Finset.mem_insert.mp hmember).resolve_right hold
      rw [heq] at hold ⊢
      exact Finset.mem_union_right _ (mem_missingLearners.mpr ⟨hnode, hold⟩)
  · obtain ⟨hnamed, hnew⟩ := mem_missingLearners.mp hmissing
    exact Finset.mem_union_right _
      (mem_missingLearners.mpr ⟨hnamed, fun hold => hnew (Finset.mem_insert_of_mem hold)⟩)

theorem Membership.removeNode_eq_some (h : m.removeNode node = some m') :
    node ∉ m.voterIds ∧ m'.configs = m.configs ∧ m'.nodes = m.nodes.erase node := by
  unfold removeNode at h
  split_ifs at h with hvoter
  cases h
  exact ⟨hvoter, rfl, rfl⟩

theorem Membership.voterIds_congr (h : m'.configs = m.configs) : m'.voterIds = m.voterIds := by
  rw [voterIds, voterIds, h]

theorem Membership.removeNode_learners (h : m.removeNode node = some m') :
    m'.learnerIds ⊆ m.learnerIds := by
  obtain ⟨-, hconf, hnodes⟩ := removeNode_eq_some h
  intro other hother
  obtain ⟨hmember, hnot⟩ := mem_learnerIds.mp hother
  rw [hnodes] at hmember
  rw [voterIds_congr hconf] at hnot
  exact mem_learnerIds.mpr ⟨Finset.mem_of_mem_erase hmember, hnot⟩

/-- **Removing a node does not raise the peak of a plan**: it was a learner before. -/
theorem peakLearners_removeNode (h : m.removeNode node = some m') (plan : MembershipPlan) :
    peakLearners m' plan ⊆ peakLearners m plan := by
  obtain ⟨hvoter, -, hnodes⟩ := removeNode_eq_some h
  intro other hother
  rcases Finset.mem_union.mp hother with hlearner | hmissing
  · exact Finset.mem_union_left _ (removeNode_learners h hlearner)
  · obtain ⟨hnamed, hgone⟩ := mem_missingLearners.mp hmissing
    by_cases hold : other ∈ m.nodes
    · have heq : other = node := by
        by_contra hne
        exact hgone (hnodes ▸ Finset.mem_erase.mpr ⟨hne, hold⟩)
      rw [heq] at hold ⊢
      exact Finset.mem_union_left _ (mem_learnerIds.mpr ⟨hold, hvoter⟩)
    · exact Finset.mem_union_right _ (mem_missingLearners.mpr ⟨hnamed, hold⟩)

end

/-! ### What commands do to the intents -/

/-- An intent under way. -/
def Underway (s : State) (id : OperationId) (intent : Intent) : Prop :=
  s.intents[id]? = some intent ∧ isTerminalPhase intent.statusCode = false

/-- An intent under way has its voters changed. -/
def Changing (s : State) : Prop :=
  ∃ id intent, Underway s id intent ∧ intent.statusCode = phaseChangingVoters

/-- No more than one intent is under way. -/
def OneUnderway (s : State) : Prop :=
  ∀ id id' intent intent', Underway s id intent → Underway s id' intent' → id = id'

/-- Where an intent under way comes from when a command is applied: it is new, and then accepted,
or it was under way with the same plan, in the same phase or one it moved on from. -/
inductive Descends (ext : Externals) (s : State) (command : Command) (id : OperationId)
    (intent : Intent) : Prop where
  | accepted (client : ClientRef) (action : ChangeMembershipAction) (e : IntentEffect)
      (hcmd : command = .client client (.changeMembership action))
      (h : ChangeStep ext s client.actor client.requestHash action e)
      (hid : id = action.operationId) (hplan : intent.plan = action.plan)
      (hphase : intent.statusCode = phasePending)
  | moved (old : Intent) (hold : Underway s id old) (hplan : intent.plan = old.plan)
      (hphase : intent.statusCode = old.statusCode ∨
        isCancelStep old.statusCode intent.statusCode = true ∨
        isLegalTransition old.statusCode intent.statusCode = true ∧
          ∃ progress, command = .membershipProgress progress)

section

variable {ext : Externals} {s : State} {e : IntentEffect} {id : OperationId}

/-- A cancellation moves its intent along one of the two cancelling steps. -/
theorem CancelStep.isCancelStep {action : CancelMembershipAction} (h : CancelStep s action e)
    {existing : Intent} (hfound : s.intents[e.operationId]? = some existing) :
    Coordination.isCancelStep existing.statusCode e.intent.statusCode = true := by
  cases h with
  | pending found hprev hphase | adding found hprev hphase =>
    have heq : existing = found := Option.some.inj (hfound.symm.trans hprev)
    rw [heq, hphase]
    rfl

theorem deliver_descends (d : Delivery) {intent : Intent}
    (h : Underway (deliver ext s d).1 id intent) : Descends ext s d.2 id intent := by
  obtain ⟨logId, _⟩ := d
  revert h
  refine deliver_elim ext s _ (fun _ h => .moved intent h rfl (.inl rfl))
    @fun _ _ change _ _ _ hstep hdone h => ?_
  obtain ⟨_, _, _, -, rfl⟩ := hdone
  obtain ⟨hrow, hlive⟩ := h
  rcases hstep.intents with ⟨hsame, -⟩ | ⟨e, rfl, hmove⟩
  · rw [hsame] at hrow
    exact .moved intent ⟨hrow, hlive⟩ rfl (.inl rfl)
  rw [get?_intents] at hrow
  split_ifs at hrow with hid hevicted
  · cases hrow
    subst hid
    cases hmove with
    | change client action e hchange =>
      have heffect := hchange.effect
      subst heffect
      exact .accepted client action _ rfl hchange rfl rfl rfl
    | cancel client action e hcancel =>
      obtain ⟨existing, hupd⟩ := hcancel.update
      have hplan : (Working.stampIntent logId e.intent).plan = existing.plan := by
        rw [hupd.intent]
        rfl
      refine .moved existing ⟨hupd.found, hupd.live⟩ hplan (Or.inr (.inl ?_))
      exact hcancel.isCancelStep hupd.found
    | progress progress existing e hdec hprog =>
      have hupd := hprog.update
      have hplan : (Working.stampIntent logId e.intent).plan = existing.plan := by
        rw [hupd.intent]
        rfl
      have hlegal : isLegalTransition existing.statusCode e.intent.statusCode = true := by
        rw [hprog.effect]
        exact hprog.legal
      exact .moved existing ⟨hupd.found, hupd.live⟩ hplan
        (Or.inr (.inr ⟨hlegal, progress, rfl⟩))
  · exact .moved intent ⟨hrow, hlive⟩ rfl (.inl rfl)

/-- A change is accepted only when no intent is under way. -/
theorem ChangeStep.not_underway {actor : NodeId} {requestHash : Hash}
    {action : ChangeMembershipAction} (h : ChangeStep ext s actor requestHash action e)
    (id : OperationId) (old : Intent) : ¬ Underway s id old := by
  rintro ⟨hrow, hlive⟩
  have hended : isTerminalPhase old.statusCode = true := h.idle id old hrow
  rw [hlive] at hended
  cases hended

/-- **At most one intent is under way.** -/
theorem deliver_oneUnderway (h : OneUnderway s) (d : Delivery) :
    OneUnderway (deliver ext s d).1 := by
  intro id id' intent intent' hid hid'
  cases deliver_descends d hid with
  | accepted client action e hcmd hchange hsame =>
    cases deliver_descends d hid' with
    | accepted client' action' e' hcmd' hchange' hsame' =>
      rw [hcmd] at hcmd'
      cases hcmd'
      rw [hsame, hsame']
    | moved old' hold' => exact absurd hold' (hchange.not_underway id' old')
  | moved old hold =>
    cases deliver_descends d hid' with
    | accepted client' action' e' hcmd' hchange' =>
      exact absurd hold (hchange'.not_underway id old)
    | moved old' hold' => exact h id id' old old' hold hold'

/-- **An intent past its first phase stays under way** until the controller reports on it; all a
client can do is ask for a cancellation while learners are added. -/
theorem deliver_underway (ext : Externals) {d : Delivery}
    (hcmd : ∀ progress, d.2 ≠ .membershipProgress progress) {old : Intent}
    (h : Underway s id old) (hphase : old.statusCode ≠ phasePending) :
    ∃ new, Underway (deliver ext s d).1 id new ∧ new.plan = old.plan ∧
      (new.statusCode = old.statusCode ∨
        old.statusCode = phaseAddingLearners ∧ new.statusCode = phaseCancelRequested) := by
  obtain ⟨logId, _⟩ := d
  refine deliver_elim ext s _ (fun _ => ⟨old, h, rfl, .inl rfl⟩) fun _ hstep hdone => ?_
  obtain ⟨_, _, _, -, rfl⟩ := hdone
  rcases hstep.intents with ⟨hsame, -⟩ | ⟨e, rfl, hmove⟩
  · refine ⟨old, ⟨?_, h.2⟩, rfl, .inl rfl⟩
    rw [hsame]
    exact h.1
  cases hmove with
  | change client action e hchange => exact absurd h (hchange.not_underway id old)
  | progress progress => exact absurd rfl (hcmd progress)
  | cancel client action e hcancel =>
    by_cases hid : e.operationId = id
    · subst hid
      cases hcancel with
      | pending found hprev hpend =>
        have heq : old = found := Option.some.inj (h.1.symm.trans hprev)
        rw [heq] at hphase
        exact absurd hpend hphase
      | adding found hprev hadding =>
        have heq : old = found := Option.some.inj (h.1.symm.trans hprev)
        subst heq
        refine ⟨Working.stampIntent logId { old with statusCode := phaseCancelRequested },
          ⟨?_, ?_⟩, rfl, .inr ⟨hadding, rfl⟩⟩
        · rw [get?_intents, if_pos rfl]
        · exact (by decide : isTerminalPhase phaseCancelRequested = false)
    · obtain ⟨_, hupd⟩ := hcancel.update
      have hkept : id ∉ e.evict := by
        intro hevicted
        rw [hupd.evict] at hevicted
        split_ifs at hevicted
        · obtain ⟨_, hintent, hterm⟩ := evictions_terminal hevicted
          rw [h.1] at hintent
          cases hintent
          rw [h.2] at hterm
          cases hterm
        · cases hevicted
      refine ⟨old, ⟨?_, h.2⟩, rfl, .inl rfl⟩
      rw [get?_intents, if_neg hid, if_neg hkept]
      exact h.1

/-- No command changes the authority of the group. -/
theorem deliver_authority (ext : Externals) (s : State) (d : Delivery) :
    (deliver ext s d).1.authority = s.authority := by
  refine deliver_elim ext s d (fun _ => rfl) fun _ _ hdone => ?_
  obtain ⟨_, _, _, -, rfl⟩ := hdone
  rfl

/-- From the change of the voters an intent only ends. -/
theorem terminal_of_changing {next : Int}
    (h : isCancelStep phaseChangingVoters next = true ∨
      isLegalTransition phaseChangingVoters next = true) : isTerminalPhase next = true := by
  rcases h with h | h
  · simp [isCancelStep, phaseChangingVoters, phasePending, phaseAddingLearners] at h
  · simp only [isLegalTransition, isTerminalPhase, phaseChangingVoters, phasePending,
      phaseAddingLearners, phaseCompleted, phaseFailed, phaseCancelled, phaseCancelRequested] at h ⊢
    have hnext : next = 4 ∨ next = 5 := by simpa using h
    simpa using Or.inl hnext

end

/-! ### What every event keeps -/

/-- **What is left of a pass**, and what the group still is while it is left: learners to add are
nodes of the plan of an intent that has not begun to change voters; voters are changed and nodes
replaced only for one that has; removals can always go on. -/
inductive PassSafe (s : State) (m : Membership) : List ControllerOp → Prop where
  | adds (id : OperationId) (intent : Intent) (hunder : Underway s id intent)
      (hphase : intent.statusCode = phaseAddingLearners ∨ intent.statusCode = phaseCancelRequested)
      (nodes : List NodeId)
      (hnodes : ∀ node ∈ nodes, node ∈ intent.plan.desiredVoters ++ intent.plan.retainedLearners) :
      PassSafe s m (nodes.map .addLearner)
  | voters (hchg : Changing s) (voters : Finset NodeId) :
      PassSafe s m [.changeVoters voters, .settle]
  | settles (hchg : Changing s) : PassSafe s m [.settle]
  | replaces (hchg : Changing s) (nodes : Finset NodeId)
      (hroot : s.authority.publicKey ∉ nodes)
      (hlearn : (nodes \ m.voterIds).card ≤ maxLearnerEnvelope) :
      PassSafe s m [.replaceAllNodes nodes]
  | removes (nodes : List NodeId) (command : MembershipProgressCommand) :
      PassSafe s m (nodes.map .removeNode ++ [.report command])
  | done : PassSafe s m []

/-- A pass stays safe while the intents past their first phase go on, or are to be cancelled. -/
theorem PassSafe.goes_on {s s' : State} {m : Membership} {ops : List ControllerOp}
    (h : PassSafe s m ops) (hauthority : s'.authority = s.authority)
    (hgoes : ∀ id old, Underway s id old → old.statusCode ≠ phasePending →
      ∃ new, Underway s' id new ∧ new.plan = old.plan ∧ (new.statusCode = old.statusCode ∨
        old.statusCode = phaseAddingLearners ∧ new.statusCode = phaseCancelRequested)) :
    PassSafe s' m ops := by
  have hstays : Changing s → Changing s' := by
    rintro ⟨id, intent, hunder, hphase⟩
    obtain ⟨new, hnew, -, hsame | ⟨hadding, -⟩⟩ :=
      hgoes id intent hunder (by rw [hphase]; decide)
    · exact ⟨id, new, hnew, hsame.trans hphase⟩
    · rw [hphase] at hadding
      exact absurd hadding (by decide)
  cases h with
  | adds id intent hunder hphase nodes hnodes =>
    have hlater : intent.statusCode ≠ phasePending := by
      rcases hphase with hphase | hphase <;> rw [hphase] <;> decide
    obtain ⟨new, hnew, hplan, hmoved⟩ := hgoes id intent hunder hlater
    refine .adds id new hnew ?_ nodes (hplan ▸ hnodes)
    rcases hmoved with hsame | ⟨-, hcancel⟩
    · rw [hsame]
      exact hphase
    · exact .inr hcancel
  | voters hchg voters => exact .voters (hstays hchg) voters
  | settles hchg => exact .settles (hstays hchg)
  | replaces hchg nodes hroot hlearn =>
    exact .replaces (hstays hchg) nodes (hauthority ▸ hroot) hlearn
  | removes nodes command => exact .removes nodes command
  | done => exact .done

/-- **The invariant of the corridor.** -/
structure GroupSafe (s : DurableState) : Prop where
  envelope : InEnvelope s.model.authority.publicKey s.membership.membership
  projected : s.model.membership = projectMembership s.membership.membership
  plans : ∀ id intent, Underway s.model id intent →
    PlanFits s.model.authority.publicKey s.membership.membership intent
  one : OneUnderway s.model

structure CorridorSafe (c : Corridor) : Prop where
  group : GroupSafe c.durable
  pass : PassSafe c.durable.model c.durable.membership.membership c.pending

section

variable {ext : Externals} {c : Corridor} {id : OperationId} {intent : Intent}
  {rest : List ControllerOp} {s : DurableState} {m : Membership}

/-- **A command keeps the group in its envelope**: a plan that is accepted has its peak within. -/
theorem GroupSafe.deliver (h : GroupSafe s) (d : Delivery) :
    GroupSafe { s with model := (deliver ext s.model d).1 } := by
  refine ⟨?_, ?_, ?_, deliver_oneUnderway h.one d⟩
  · rw [deliver_authority]
    exact h.envelope
  · exact (deliver_lifeCycle ext s.model d).2.1.trans h.projected
  · intro id intent hunder
    rw [deliver_authority]
    cases deliver_descends d hunder with
    | accepted client action e hcmd hchange hid hplan =>
      refine ⟨?_, ?_, fun _ => ?_⟩
      · rw [hplan]
        exact (planShape_nodes ext hchange.shape).root
      · rw [hplan]
        exact (planShape_ok ext hchange.shape).learnerCount
      · have henv := hchange.envelope
        rw [h.projected, Membership.members_project] at henv
        rw [hplan]
        exact henv
    | moved old hold hplan hphase =>
      have hfits := h.plans id old hold
      refine ⟨hplan ▸ hfits.root, hplan ▸ hfits.retained, fun hnew => ?_⟩
      rw [hplan]
      refine hfits.peak fun hchg => ?_
      rw [hchg] at hphase
      rcases hphase with hsame | hcancel | ⟨hlegal, -⟩
      · exact hnew hsame
      · exact absurd (terminal_of_changing (.inl hcancel)) (by simp [hunder.2])
      · exact absurd (terminal_of_changing (.inr hlegal)) (by simp [hunder.2])

/-! ### Entries -/

theorem shapeRejection_ne_progress (command : CommandV1)
    (progress : MembershipProgressCommand) :
    shapeRejection command ≠ .membershipProgress progress := by
  intro h
  cases command with
  | client =>
    simp only [shapeRejection] at h
    split at h <;> cases h
  | _ => cases h

/-- Only a progress report is read as one. -/
theorem modelCommand_ne_progress (ext : Externals) {command : CommandV1}
    (h : (EntryPayload.normal command).isControllers = false)
    (progress : MembershipProgressCommand) :
    modelCommand ext command ≠ .membershipProgress progress := by
  intro hmodel
  obtain hunknown | ⟨-, hshape⟩ | hread := modelCommand_cases ext command
  · rw [hunknown] at hmodel
    cases hmodel
  · exact shapeRejection_ne_progress command progress (hshape.symm.trans hmodel)
  · rw [hmodel] at hread
    cases command with
    | membershipProgress => cases h
    | client =>
      obtain ⟨_, _, _, _, -, -, hcli⟩ := clientFromWire_ok hread
      cases hcli
    | expire =>
      simp only [commandFromWire] at hread
      split at hread <;> cases hread
    | retireClient =>
      simp only [commandFromWire, accepts_iff] at hread
      obtain ⟨_, -, _, -, _, -, hretire⟩ := hread
      cases hretire
    | genesis | unknown => cases hread

/-- **An entry of a client** keeps the group and leaves a pass what it is. -/
theorem CorridorSafe.entry (h : CorridorSafe c) {e : Entry}
    (hforeign : e.payload.isControllers = false) :
    CorridorSafe ⟨(applyOne ext c.durable e).1, c.pending⟩ := by
  generalize hafter : (applyOne ext c.durable e).1 = after
  have happ := applyOne_applied ext c.durable e
  rw [hafter] at happ
  cases happ with
  | refused => exact h
  | blank =>
    exact ⟨⟨h.group.envelope, h.group.projected, h.group.plans, h.group.one⟩,
      h.pass.goes_on rfl fun _ old hold _ => ⟨old, hold, rfl, .inl rfl⟩⟩
  | membership m hpay =>
    rw [hpay] at hforeign
    cases hforeign
  | command command hpay =>
    rw [hpay] at hforeign
    exact ⟨h.group.deliver (e.logId, modelCommand ext command),
      h.pass.goes_on (deliver_authority ..) fun _ _ =>
        deliver_underway ext (modelCommand_ne_progress ext hforeign)⟩

/-! ### Passes -/

theorem activeIntent_underway {s : State} (h : activeIntent s = some (id, intent)) :
    Underway s id intent := by
  refine ⟨Table.mem_toList.mp (mem_of_find?_eq_some h), ?_⟩
  simpa using find?_some h

/-- **A step is asked for in its place**: what the table answers is safe to perform. -/
theorem GroupSafe.pass (h : GroupSafe s)
    (hunder : Underway s.model id intent) (metrics : Metrics) (barrier : Option ℕ) :
    PassSafe s.model s.membership.membership (performStep id intent s.membership
      (nextStep intent metrics s.membership.membership barrier)) := by
  have hreport : ∀ command, PassSafe s.model s.membership.membership [.report command] :=
    fun command => .removes [] command
  unfold nextStep
  split_ifs with hpend hadding hchg hcancel
  · rw [performStep, if_pos hpend]
    exact hreport _
  · simp only [addingStep]
    split_ifs with hmissing
    · refine .adds id intent hunder (.inl hadding) _ fun node hnode => ?_
      exact (mem_missingLearners.mp (mem_ascending.mp hnode)).1
    · cases barrier with
      | none => exact .done
      | some =>
        dsimp only
        split_ifs
        · rw [performStep, if_neg hpend, if_pos hadding]
          exact hreport _
        · exact .done
  · simp only [changingStep]
    split_ifs with hcomplete huniform
    · exact hreport _
    · -- the voters are the desired ones, so the learners to come are the retained ones
      simp only [Bool.and_eq_true, beq_iff_eq] at huniform
      have hfits := h.plans id intent hunder
      refine .replaces ⟨id, intent, hunder, hchg⟩ _ ?_ ?_
      · simpa [replacementNodeMap] using hfits.root
      · have hsub : replacementNodeMap intent.plan.desiredVoters intent.plan.retainedLearners \
            s.membership.membership.voterIds ⊆ intent.plan.retainedLearners.toFinset := by
          rw [huniform.1, replacementNodeMap, toFinset_append]
          intro node hnode
          obtain ⟨hnamed, hvoter⟩ := Finset.mem_sdiff.mp hnode
          exact (Finset.mem_union.mp hnamed).resolve_left hvoter
        calc _ ≤ intent.plan.retainedLearners.toFinset.card := Finset.card_le_card hsub
          _ ≤ intent.plan.retainedLearners.length := toFinset_card_le _
          _ ≤ maxRetainedLearners := hfits.retained
          _ ≤ maxLearnerEnvelope := by decide
    · rw [performStep, if_neg hpend, if_neg hadding]
      exact .voters ⟨id, intent, hunder, hchg⟩ _
  · exact .removes _ _
  · exact .done

/-- The plans under way do not rise with this membership; one whose voters change has no peak to
keep to. -/
def KeepsPeaks (s : State) (m m' : Membership) : Prop :=
  ∀ id intent, Underway s id intent → intent.statusCode = phaseChangingVoters ∨
    peakLearners m' intent.plan ⊆ peakLearners m intent.plan

theorem GroupSafe.commit (h : GroupSafe s) (logId : LogId)
    (henv : InEnvelope s.model.authority.publicKey m)
    (hpeaks : KeepsPeaks s.model s.membership.membership m) :
    GroupSafe (s.withMembership logId m) := by
  refine ⟨henv, rfl, fun id intent hunder => ?_, h.one⟩
  obtain ⟨hroot, hkeep, hpeak⟩ := h.plans id intent hunder
  refine ⟨hroot, hkeep, fun hphase => ?_⟩
  rcases hpeaks id intent hunder with hchg | hsub
  · exact absurd hchg hphase
  · exact (Finset.card_le_card hsub).trans (hpeak hphase)

theorem OneUnderway.eq {s : State} (h : OneUnderway s) {id' : OperationId} {intent' : Intent}
    (hunder : Underway s id intent) (hunder' : Underway s id' intent') :
    intent = intent' := by
  have hid := h id id' intent intent' hunder hunder'
  subst hid
  exact Option.some.inj (hunder.1.symm.trans hunder'.1)

theorem OneUnderway.keepsPeaks_changing {s : State} (h : OneUnderway s) (hchg : Changing s)
    (m m' : Membership) : KeepsPeaks s m m' := by
  obtain ⟨_, _, hunder, hphase⟩ := hchg
  exact fun _ _ hunder' => .inl (h.eq hunder hunder' ▸ hphase)

/-- **A membership operation of a pass** commits a membership in the envelope, and leaves the rest
of the pass safe. -/
theorem PassSafe.commit (hgroup : GroupSafe s) {op : ControllerOp}
    (h : PassSafe s.model s.membership.membership (op :: rest))
    (hop : op.membership s.membership.membership = some m) :
    InEnvelope s.model.authority.publicKey m ∧
      KeepsPeaks s.model s.membership.membership m ∧ PassSafe s.model m rest := by
  have henv := hgroup.envelope
  generalize hops : op :: rest = ops at h
  cases h with
  | adds id intent hunder hphase nodes hnodes =>
    cases nodes with
    | nil => cases hops
    | cons node nodes =>
      cases hops
      cases hop
      have hnode := hnodes node mem_cons_self
      have hpeak := peakLearners_addLearner (m := s.membership.membership) hnode
      have hfits := hgroup.plans id intent hunder
      have hlater : intent.statusCode ≠ phaseChangingVoters := by
        rcases hphase with hphase | hphase <;> rw [hphase] <;> decide
      refine ⟨⟨henv.joint, ?_, ?_⟩, ?_, ?_⟩
      · have hlearn : (s.membership.membership.addLearner node).learnerIds ⊆
            peakLearners s.membership.membership intent.plan :=
          Finset.subset_union_left.trans hpeak
        exact (Finset.card_le_card hlearn).trans (hfits.peak hlater)
      · intro hroot
        rcases Finset.mem_insert.mp hroot with heq | hold
        · rw [← heq] at hnode
          exact hfits.root hnode
        · exact henv.root hold
      · intro id' intent' hunder'
        rw [← hgroup.one.eq hunder hunder']
        exact .inr hpeak
      · exact .adds id intent hunder hphase nodes
          fun other hother => hnodes other (mem_cons_of_mem node hother)
  | voters hchg =>
    cases hops
    obtain ⟨hjoint, hlearn, hnodes⟩ := changeVoters_learners hop
    exact ⟨henv.shrink hjoint hlearn hnodes, hgroup.one.keepsPeaks_changing hchg _ _,
      .settles hchg⟩
  | settles hchg =>
    cases hops
    obtain ⟨hjoint, hlearn, hnodes⟩ := settle_learners hop
    exact ⟨henv.shrink hjoint hlearn hnodes, hgroup.one.keepsPeaks_changing hchg _ _,
      .done⟩
  | replaces hchg nodes hroot hlearn =>
    cases hops
    rw [ControllerOp.membership, Membership.replaceAllNodes] at hop
    split_ifs at hop
    cases hop
    refine ⟨⟨henv.joint, ?_, hroot⟩, hgroup.one.keepsPeaks_changing hchg _ _, .done⟩
    refine (Finset.card_le_card fun node hnode => ?_).trans hlearn
    exact Finset.mem_sdiff.mpr (mem_learnerIds.mp hnode)
  | removes nodes command =>
    cases nodes with
    | nil =>
      cases hops
      cases hop
    | cons node nodes =>
      cases hops
      obtain ⟨-, hconf, hnodes⟩ := removeNode_eq_some hop
      have hsub : m.nodes ⊆ s.membership.membership.nodes := by
        rw [hnodes]
        exact Finset.erase_subset _ _
      exact ⟨henv.shrink (hconf ▸ henv.joint) (removeNode_learners hop) hsub,
        fun id' intent' _ => .inr (peakLearners_removeNode hop intent'.plan),
        .removes nodes command⟩
  | done => cases hops

/-- A report is applied like any command. -/
theorem GroupSafe.applyReport (h : GroupSafe s) (logId : LogId)
    (command : MembershipProgressCommand) :
    GroupSafe (applyOne ext s ⟨logId, .normal command.toWire⟩).1 := by
  generalize hafter : (applyOne ext s ⟨logId, .normal command.toWire⟩).1 = after
  have happ := applyOne_applied ext s ⟨logId, .normal command.toWire⟩
  rw [hafter] at happ
  cases happ with
  | refused => exact h
  | blank hpay | membership m hpay => cases hpay
  | command => exact h.deliver _

/-- A report is the last operation of its pass. -/
theorem PassSafe.report_last {s : State} {command : MembershipProgressCommand}
    (h : PassSafe s m (.report command :: rest)) : rest = [] := by
  generalize hops : ControllerOp.report command :: rest = ops at h
  cases h with
  | adds id intent hunder hphase nodes => cases nodes <;> cases hops
  | removes nodes =>
    cases nodes with
    | nil =>
      cases hops
      rfl
    | cons => cases hops
  | _ => cases hops

/-- **Every event keeps the corridor safe.** -/
theorem CorridorSafe.step (h : CorridorSafe c) (event : CorridorEvent) :
    CorridorSafe (c.step ext event).1 := by
  cases event with
  | entry =>
    simp only [Corridor.step]
    split_ifs with hcontrollers
    · exact h
    · exact h.entry (by simpa using hcontrollers)
  | observe metrics barrier =>
    simp only [Corridor.step, Corridor.observe]
    split
    · exact ⟨h.group, .done⟩
    · rename_i id intent hactive
      exact ⟨h.group, h.group.pass (activeIntent_underway hactive) metrics barrier⟩
  | stop => exact ⟨h.group, .done⟩
  | act logId =>
    simp only [Corridor.step, Corridor.act]
    split
    · exact h
    · rename_i command rest hpend
      have hpass := h.pass
      rw [hpend] at hpass
      obtain rfl := hpass.report_last
      exact ⟨h.group.applyReport logId command, .done⟩
    · rename_i op rest hreport hpend
      have hpass := h.pass
      rw [hpend] at hpass
      split
      · rename_i durable hdurable
        obtain ⟨m, hop, hcommit⟩ := Option.bind_eq_some_iff.mp hdurable
        unfold commitMembership at hcommit
        split_ifs at hcommit
        cases hcommit
        obtain ⟨henv, hpeaks, hrest⟩ := hpass.commit h.group hop
        exact ⟨h.group.commit logId henv hpeaks,
          hrest.goes_on rfl fun _ old hold _ => ⟨old, hold, rfl, .inl rfl⟩⟩
      · exact ⟨h.group, .done⟩

theorem Membership.configs_of_uniform {voters : Finset NodeId}
    (hvoters : m.voterIds = voters) (huniform : m.configs.length = 1) : m.configs = [voters] := by
  obtain ⟨_, hconf⟩ := length_eq_one_iff.mp huniform
  rw [hconf]
  rw [voterIds, hconf] at hvoters
  simpa using hvoters

theorem addingStep_before (plan : MembershipPlan) (metrics : Metrics) (m : Membership)
    (barrier : Option ℕ) :
    addingStep plan metrics m barrier ≠ .replaceNodes ∧
      addingStep plan metrics m barrier ≠ .reportComplete := by
  unfold addingStep
  dsimp only
  split_ifs
  · exact ⟨nofun, nofun⟩
  · cases barrier with
    | none => exact ⟨nofun, nofun⟩
    | some =>
      dsimp only
      split_ifs <;> exact ⟨nofun, nofun⟩

/-- **The node map is replaced, and completion reported, only for the desired voters alone.** -/
theorem nextStep_uniform {metrics : Metrics} {barrier : Option ℕ}
    (h : nextStep intent metrics m barrier = .replaceNodes ∨
      nextStep intent metrics m barrier = .reportComplete) :
    m.configs = [intent.plan.desiredVoters.toFinset] := by
  by_cases hchg : intent.statusCode = phaseChangingVoters
  · rw [nextStep, hchg, if_neg (by decide), if_neg (by decide), if_pos rfl, changingStep] at h
    split_ifs at h with hcomplete huniform
    · simp only [completionIsVisible, Bool.and_eq_true, beq_iff_eq] at hcomplete
      exact configs_of_uniform hcomplete.1.2 hcomplete.1.1
    · simp only [Bool.and_eq_true, beq_iff_eq] at huniform
      exact configs_of_uniform huniform.1 huniform.2
    · simp at h
  · -- no other phase has these answers
    have hadding := addingStep_before intent.plan metrics m barrier
    unfold nextStep at h
    split_ifs at h
    · simp at h
    · exact absurd h (not_or.mpr hadding)
    · simp at h
    · simp at h

/-- A group that is taken up without an intent under way. -/
theorem GroupSafe.start (hvalid : Validated ext s)
    (hidle : s.model.intents.AllRows fun _ intent => isTerminalPhase intent.statusCode = true) :
    GroupSafe s := by
  have hmeta := hvalid.metaValid
  have hnone : ∀ id intent, ¬ Underway s.model id intent := by
    rintro id intent ⟨hrow, hlive⟩
    have hended : isTerminalPhase intent.statusCode = true := hidle id intent hrow
    rw [hlive] at hended
    cases hended
  have hroot : membershipNamesRoot s.membership.membership s.model.authority.publicKey = false :=
    refuseIf_eq_ok.mp hvalid.rows.root
  refine ⟨⟨hmeta.joint, ?_, ?_⟩, hmeta.projection, fun id intent hunder =>
    absurd hunder (hnone id intent), fun id _ intent _ hunder =>
    absurd hunder (hnone id intent)⟩
  · rw [learnerIds, ← hmeta.projection]
    exact hmeta.learners
  · simp only [membershipNamesRoot, Bool.or_eq_false_iff, decide_eq_false_iff_not] at hroot
    exact hroot.2

end

/-- **The corridor never leaves the envelope.**  Start a group from any state its store accepts,
with no intent under way, and let clients commit whatever they like while leaders drive the accepted
plans, in passes that end anywhere.  In every state of every such run the committed membership has
at most two configurations, no more learners than the envelope, and not the root; and the nodes are
replaced and completion is reported only when the committed configuration is uniform and the desired
one. -/
theorem corridor_in_envelope (ext : Externals) (s₀ : DurableState) (hvalid : Validated ext s₀)
    (hidle : s₀.model.intents.AllRows fun _ intent => isTerminalPhase intent.statusCode = true)
    (events : List CorridorEvent) :
    let s := (run (Corridor.step ext) ⟨s₀, []⟩ events).durable
    InEnvelope s.model.authority.publicKey s.membership.membership ∧
      ∀ (intent : Intent) (metrics : Metrics) (barrier : Option ℕ),
        nextStep intent metrics s.membership.membership barrier = .replaceNodes ∨
          nextStep intent metrics s.membership.membership barrier = .reportComplete →
        s.membership.membership.configs = [intent.plan.desiredVoters.toFinset] := by
  have hsafe : CorridorSafe (run (Corridor.step ext) ⟨s₀, []⟩ events) :=
    run_invariant (fun c event h => h.step event) ⟨.start hvalid hidle, .done⟩ events
  exact ⟨hsafe.group.envelope, fun intent metrics barrier => nextStep_uniform⟩

namespace Sample

/-- The voter asks to be replaced by the joiner. -/
def replaceVoterEntry : Entry :=
  ⟨entry 2, .normal (.client ⟨voter.bytes, client.bytes, 1, (FixedBytes.fill 32 9 : Hash).bytes,
    .changeMembership ⟨(FixedBytes.fill 16 8 : OperationId).bytes, some (entry 1).toWire,
      [⟨joiner.bytes⟩], [], [⟨joiner.bytes, joiner.bytes, some joiner.bytes⟩]⟩⟩)⟩

/-- The leader takes the plan up, and adds the joiner as a learner. -/
def joinEvents : List CorridorEvent :=
  [.entry replaceVoterEntry, .observe metrics none, .act (entry 3), .observe metrics none,
    .act (entry 4)]

theorem state_permitted : Validated permitting state := ⟨by decide +kernel, by decide +kernel⟩

end Sample

open Sample

/-- The joiner is a learner, and the group is within its envelope. -/
theorem corridor_in_envelope_join :
    (run (Corridor.step permitting) ⟨state, []⟩
        joinEvents).durable.membership.membership.nodes = {voter, joiner} ∧
      (run (Corridor.step permitting) ⟨state, []⟩
        joinEvents).durable.membership.membership.learnerIds.card ≤ maxLearnerEnvelope :=
  ⟨by decide +kernel,
    (corridor_in_envelope permitting state state_permitted
      (by intro id intent hrow; simp [state, model] at hrow)
      joinEvents).1.learners⟩

end AsterRpc.Coordination

import AsterRpc.Foundation.Ascending
import AsterRpc.Coordination.Resource

/-!
# Membership intents

`model/membership.rs`: the life cycle of a membership operation, from its
acceptance through the phases the leader reports to a terminal phase, with the
two bounded histories it leaves behind, terminal intents and node routes.
-/

namespace AsterRpc.Coordination

open AsterRpc.Foundation List

variable {s : State}

/-! ### Phases -/

def phasePending : Int := 1
def phaseAddingLearners : Int := 2
def phaseChangingVoters : Int := 3
def phaseCompleted : Int := 4
def phaseFailed : Int := 5
def phaseCancelRequested : Int := 6
def phaseCancelled : Int := 7

/-- `PHASES` of `wire.rs`. -/
def phases : List Int :=
  [phasePending, phaseAddingLearners, phaseChangingVoters, phaseCompleted, phaseFailed,
    phaseCancelRequested, phaseCancelled]

def isTerminalPhase (phase : Int) : Bool :=
  phase == phaseCompleted || phase == phaseFailed || phase == phaseCancelled

/-- `is_legal_transition`: forward one phase, from a requested to a done cancellation, or into
failure from anywhere that is not terminal. -/
def isLegalTransition (current next : Int) : Bool :=
  !isTerminalPhase current &&
    ((current == phasePending && next == phaseAddingLearners) ||
      (current == phaseAddingLearners && next == phaseChangingVoters) ||
      (current == phaseChangingVoters && next == phaseCompleted) ||
      (current == phaseCancelRequested && next == phaseCancelled) || next == phaseFailed)

/-! ### Requests and effects -/

structure ChangeMembershipAction where
  operationId : OperationId
  expectedMembershipLogId : Option LogId
  plan : MembershipPlan
deriving DecidableEq

structure CancelMembershipAction where
  operationId : OperationId
  expectedPhaseCode : Int
deriving DecidableEq

structure MembershipProgressCommand where
  operationId : OperationId
  expectedPhase : Int
  newPhase : Int
  observedMembershipLogId : Option LogId
  resultCode : Int
deriving DecidableEq

structure IntentEffect where
  operationId : OperationId
  intent : Intent
  outcome : Outcome
  evict : List OperationId
  routes : List (NodeId × Route)
  evictRoutes : List NodeId
deriving DecidableEq

inductive MembershipVerdict where
  | apply (effect : IntentEffect)
  | existing (phase : Int)
deriving DecidableEq

/-- `LogId::new(0, [0; 32], 0)`, the place holder that the writer stamps over. -/
def unstamped : LogId := ⟨0, FixedBytes.fill 32 0, 0⟩

/-! ### Bounded histories -/

/-- The largest `u64`, the place of an intent without a completion. -/
def u64Max : ℕ := 2 ^ 64 - 1

/-- Terminal intents, oldest completion first; the keys are all different, so `sort_unstable` has
one result. -/
def terminalByAge (s : State) : List ((ℕ × ℕ) × OperationId) :=
  sortAscending ((s.intents.toList.filter fun e => isTerminalPhase e.2.statusCode).map fun e =>
    ((e.2.completedLogId.map fun l => (l.term, l.index)).getD (u64Max, u64Max), e.1))

/-- `evictions`: the oldest terminal intents past the retained number. -/
def evictions (s : State) (incomingTerminal : ℕ) : List OperationId :=
  let terminal := terminalByAge s
  let excess := terminal.length + incomingTerminal - maxRetainedIntents
  (terminal.take excess).map Prod.snd

/-- Routes that may go: of no member and of no node of this plan, oldest first. -/
def routeCandidates (s : State) (incoming : List (NodeId × Route)) : List ((ℕ × ℕ) × NodeId) :=
  sortAscending
    (((s.routes.toList.filter fun e => !s.membership.contains e.1).filter fun e =>
      !incoming.any fun r => r.1 == e.1).map fun e =>
        ((e.2.introducedLogId.term, e.2.introducedLogId.index), e.1))

/-- `route_evictions`. -/
def routeEvictions (s : State) (incoming : List (NodeId × Route)) : List NodeId :=
  let newNodes := (incoming.filter fun r => !s.routes.contains r.1).length
  if newNodes = 0 then []
  else
    let excess := s.routes.size + newNodes - maxRetainedRoutes
    ((routeCandidates s incoming).take excess).map Prod.snd

/-- `routes_from`. -/
def routesFrom (action : ChangeMembershipAction) : List (NodeId × Route) :=
  (action.plan.memberSeeds.filter fun seed => !seed.ticket.isEmpty).map fun seed =>
    (seed.nodeId, ⟨seed.ticket, action.operationId, unstamped⟩)

/-- The evicted intents are terminal ones, each named once. -/
theorem evictions_subperm (s : State) (incomingTerminal : ℕ) :
    List.Subperm (evictions s incomingTerminal)
      ((s.intents.toList.filter fun e => isTerminalPhase e.2.statusCode).map Prod.fst) := by
  have hperm : ((terminalByAge s).map Prod.snd).Perm
      ((s.intents.toList.filter fun e => isTerminalPhase e.2.statusCode).map Prod.fst) := by
    refine ((sortAscending_perm _).map Prod.snd).trans ?_
    rw [map_map]
    exact List.Perm.refl _
  have htake : List.Sublist (evictions s incomingTerminal) ((terminalByAge s).map Prod.snd) :=
    (take_sublist _ _).map Prod.snd
  exact htake.subperm.trans hperm.subperm

theorem evictions_nodup (s : State) (incomingTerminal : ℕ) :
    (evictions s incomingTerminal).Nodup := by
  have hkeys := (Table.keys_nodup s.intents).sublist
    ((filter_sublist (p := fun e => isTerminalPhase e.2.statusCode)).map Prod.fst)
  exact nodup_of_subperm (evictions_subperm s incomingTerminal) hkeys

theorem evictions_terminal {incomingTerminal : ℕ} {id : OperationId}
    (h : id ∈ evictions s incomingTerminal) :
    ∃ intent, s.intents[id]? = some intent ∧ isTerminalPhase intent.statusCode = true := by
  obtain ⟨e, he, rfl⟩ := mem_map.mp ((evictions_subperm s incomingTerminal).subset h)
  obtain ⟨hmem, hterm⟩ := mem_filter.mp he
  exact ⟨e.2, Table.mem_toList.mp hmem, hterm⟩

/-- The evicted routes are of nodes that are no members and not in the plan, each named once. -/
theorem routeEvictions_subperm (s : State) (incoming : List (NodeId × Route)) :
    List.Subperm (routeEvictions s incoming)
      (((s.routes.toList.filter fun e => !s.membership.contains e.1).filter fun e =>
        !incoming.any fun r => r.1 == e.1).map Prod.fst) := by
  unfold routeEvictions
  dsimp only
  split_ifs
  · exact nil_subperm
  · refine (((take_sublist _ _).map Prod.snd).subperm).trans ?_
    refine (((sortAscending_perm _).map Prod.snd).trans ?_).subperm
    rw [map_map]
    exact List.Perm.refl _

theorem routeEvictions_nodup (s : State) (incoming : List (NodeId × Route)) :
    (routeEvictions s incoming).Nodup := by
  have hsub : List.Sublist ((s.routes.toList.filter fun e => !s.membership.contains e.1).filter
      fun e => !incoming.any fun r => r.1 == e.1) s.routes.toList :=
    filter_sublist.trans filter_sublist
  exact nodup_of_subperm (routeEvictions_subperm s incoming)
    ((Table.keys_nodup s.routes).sublist (hsub.map Prod.fst))

theorem routeEvictions_not_incoming {incoming : List (NodeId × Route)} {node : NodeId}
    (h : node ∈ routeEvictions s incoming) : node ∉ incoming.map Prod.fst := by
  obtain ⟨e, he, rfl⟩ := mem_map.mp ((routeEvictions_subperm s incoming).subset h)
  have hfilter := (mem_filter.mp he).2
  intro hmem
  obtain ⟨r, hr, heq⟩ := mem_map.mp hmem
  simp only [Bool.not_eq_true', any_eq_false, beq_iff_eq] at hfilter
  exact hfilter r hr heq

theorem routesFrom_sublist (action : ChangeMembershipAction) :
    List.Sublist ((routesFrom action).map Prod.fst) (action.plan.memberSeeds.map (·.nodeId)) := by
  rw [routesFrom, map_map]
  exact filter_sublist.map _

/-! ### Decisions -/

section Decisions

variable (ext : Externals) {s : State} {actor : NodeId} {requestHash : Hash}
  {action : ChangeMembershipAction} {e : IntentEffect}

/-- `growth_delta`: what the effect adds beyond what it frees. -/
def growthDelta (s : State) (e : IntentEffect) : ℕ :=
  let added := intentCharge ext e.operationId e.intent +
    (e.routes.map fun r => routeCharge r.1 r.2).sum
  let freed := s.intents.weightAt (intentCharge ext) e.operationId +
    (e.evict.map (s.intents.weightAt (intentCharge ext))).sum +
    (e.routes.map fun r => s.routes.weightAt routeCharge r.1).sum +
    (e.evictRoutes.map (s.routes.weightAt routeCharge)).sum
  added - freed

/-- The intent an accepted change starts as. -/
def newIntent (actor : NodeId) (requestHash : Hash) (action : ChangeMembershipAction) : Intent where
  actor := actor
  requestHash := requestHash
  expectedMembership := action.expectedMembershipLogId
  plan := action.plan
  statusCode := phasePending
  resultCode := 0
  acceptedLogId := unstamped
  completedLogId := none
  observedMembershipLogId := none

/-- The effect of an accepted change. -/
def changeEffect (s : State) (actor : NodeId) (requestHash : Hash)
    (action : ChangeMembershipAction) : IntentEffect where
  operationId := action.operationId
  intent := newIntent actor requestHash action
  outcome := .membershipAccepted
  evict := []
  routes := routesFrom action
  evictRoutes := routeEvictions s (routesFrom action)

/-- `decide_change` for an operation id the group has not seen. -/
def decideNewChange (s : State) (actor : NodeId) (requestHash : Hash)
    (action : ChangeMembershipAction) : Decision IntentEffect := do
  refuseIf (action.expectedMembershipLogId != s.membershipLogId)
    (.refuse .membershipRevisionMismatch)
  shapeless (planShape ext action.plan s.membership s.authority s.deploymentProfileCode)
  refuseIf (s.intents.toList.any fun e => !isTerminalPhase e.2.statusCode)
    (.refuse .membershipIntentActive)
  refuseIf (projectedLearners s.membership.learners s.membership.members
    action.plan.desiredVoters action.plan.retainedLearners > maxLearnerEnvelope)
    (.refuse .membershipLearnerEnvelope)
  let effect := changeEffect s actor requestHash action
  refuseIf (!s.growthFits (growthDelta ext s effect)) (.refuse .stateBudgetExhausted)
  .ok effect

/-- `decide_change`. -/
def decideChange (s : State) (actor : NodeId) (requestHash : Hash)
    (action : ChangeMembershipAction) : Decision MembershipVerdict := do
  refuseIf (!s.isAdministrator actor) (.refuse .permissionChanged)
  match s.intents[action.operationId]? with
  | some existing =>
    if existing.requestHash = requestHash then .ok (.existing existing.statusCode)
    else .error (.refuse .operationIdConflict)
  | none =>
    let effect ← decideNewChange ext s actor requestHash action
    .ok (.apply effect)

/-- The intent after a cancellation, and the intents it pushes out; `none` past the point where
cancelling is possible. -/
def cancelled (s : State) (existing : Intent) : Option (Intent × List OperationId) :=
  if existing.statusCode = phasePending then
    some ({ existing with statusCode := phaseCancelled, resultCode := sysMembershipAdvanced },
      evictions s 1)
  else if existing.statusCode = phaseAddingLearners then
    some ({ existing with statusCode := phaseCancelRequested }, [])
  else none

/-- `decide_cancel`. -/
def decideCancel (s : State) (actor : NodeId) (action : CancelMembershipAction) :
    Decision IntentEffect := do
  refuseIf (!s.isAdministrator actor) (.refuse .permissionChanged)
  let existing ← requireSome s.intents[action.operationId]? (.refuse .membershipCannotCancel)
  refuseIf (existing.statusCode != action.expectedPhaseCode) (.refuse .membershipRevisionMismatch)
  let (intent, evict) ← requireSome (cancelled s existing) (.refuse .membershipCannotCancel)
  .ok ⟨action.operationId, intent, .membershipCancelled, evict, [], []⟩

/-- `completion_is_observable`: the committed membership is the plan's. -/
def completionIsObservable (s : State) (intent : Intent) (command : MembershipProgressCommand) :
    Bool :=
  command.observedMembershipLogId == s.membershipLogId && !s.membership.joint &&
    s.membership.voters == intent.plan.desiredVoters.toFinset &&
    s.membership.learners == intent.plan.retainedLearners.toFinset

/-- The intent a progress report turns `existing` into. -/
def progressed (existing : Intent) (command : MembershipProgressCommand) : Intent :=
  { existing with
    statusCode := command.newPhase
    observedMembershipLogId := command.observedMembershipLogId
    resultCode := if isTerminalPhase command.newPhase then command.resultCode
      else existing.resultCode }

/-- `decide_progress`: `none` when the report does not fit the intent's phase. -/
def decideProgress (s : State) (command : MembershipProgressCommand) : Option IntentEffect :=
  match s.intents[command.operationId]? with
  | none => none
  | some existing =>
    if existing.statusCode ≠ command.expectedPhase then none
    else if !isLegalTransition existing.statusCode command.newPhase then none
    else if command.newPhase = phaseCompleted ∧ !completionIsObservable s existing command then none
    else
      some
        { operationId := command.operationId
          intent := progressed existing command
          outcome := .membershipAccepted
          evict := if isTerminalPhase command.newPhase then evictions s 1 else []
          routes := []
          evictRoutes := [] }

/-- `progress_result_code`. -/
def progressResultCode (applied : Bool) : Int :=
  if applied then sysMembershipAdvanced else sysMembershipPhaseMismatch

/-! ### What accepted requests and reports do -/

/-- Everything an accepted new change satisfies. -/
structure ChangeStep (s : State) (actor : NodeId) (requestHash : Hash)
    (action : ChangeMembershipAction) (e : IntentEffect) : Prop where
  admin : s.isAdministrator actor = true
  fresh : s.intents[action.operationId]? = none
  expected : action.expectedMembershipLogId = s.membershipLogId
  shape : planShape ext action.plan s.membership s.authority s.deploymentProfileCode = .ok ()
  idle : s.intents.AllRows fun _ intent => isTerminalPhase intent.statusCode = true
  envelope : projectedLearners s.membership.learners s.membership.members
    action.plan.desiredVoters action.plan.retainedLearners ≤ maxLearnerEnvelope
  fits : s.growthBytes + growthDelta ext s e ≤ growthBudget
  effect : e = changeEffect s actor requestHash action

theorem decideNewChange_ok (hadmin : s.isAdministrator actor = true)
    (hfresh : s.intents[action.operationId]? = none)
    (h : decideNewChange ext s actor requestHash action = .ok e) :
    ChangeStep ext s actor requestHash action e := by
  have hidle := Table.any_toList_eq_false (t := s.intents)
    (p := fun _ intent => !isTerminalPhase intent.statusCode)
  simp only [decideNewChange, accepts_iff, shapeless_eq_ok, hidle, State.growthFits_iff] at h
  obtain ⟨hexp, hshape, hidle, henv, hfits, rfl⟩ := h
  exact ⟨hadmin, hfresh, hexp, hshape, hidle, henv, hfits, rfl⟩

theorem decideChange_apply (h : decideChange ext s actor requestHash action = .ok (.apply e)) :
    ChangeStep ext s actor requestHash action e := by
  simp only [decideChange, accepts_iff] at h
  obtain ⟨hadmin, h⟩ := h
  cases hprev : s.intents[action.operationId]? with
  | some =>
    rw [hprev] at h
    dsimp only at h
    split_ifs at h
    cases h
  | none =>
    rw [hprev] at h
    simp only [accepts_iff, MembershipVerdict.apply.injEq, exists_eq_right] at h
    exact decideNewChange_ok ext hadmin hprev h

/-- The accepted cancellations: of a pending operation at once, of one that is adding learners as a
request to the controller. -/
inductive CancelStep (s : State) (action : CancelMembershipAction) : IntentEffect → Prop where
  | pending (existing : Intent) (hprev : s.intents[action.operationId]? = some existing)
      (hphase : existing.statusCode = phasePending) :
      CancelStep s action
        ⟨action.operationId,
          { existing with statusCode := phaseCancelled, resultCode := sysMembershipAdvanced },
          .membershipCancelled, evictions s 1, [], []⟩
  | adding (existing : Intent) (hprev : s.intents[action.operationId]? = some existing)
      (hphase : existing.statusCode = phaseAddingLearners) :
      CancelStep s action
        ⟨action.operationId, { existing with statusCode := phaseCancelRequested },
          .membershipCancelled, [], [], []⟩

theorem decideCancel_ok {action : CancelMembershipAction}
    (h : decideCancel s actor action = .ok e) : CancelStep s action e := by
  simp only [decideCancel, accepts_iff] at h
  obtain ⟨-, existing, hprev, -, intent, evict, hcancelled, rfl⟩ := h
  unfold cancelled at hcancelled
  split_ifs at hcancelled with hpend hadding
  · cases hcancelled
    exact .pending existing hprev hpend
  · cases hcancelled
    exact .adding existing hprev hadding

/-- An accepted progress report: the intent is there, in the phase the report expects, and moves on
legally; a completion is the one the committed membership shows. -/
structure ProgressStep (s : State) (command : MembershipProgressCommand) (existing : Intent)
    (e : IntentEffect) : Prop where
  found : s.intents[command.operationId]? = some existing
  phase : existing.statusCode = command.expectedPhase
  legal : isLegalTransition existing.statusCode command.newPhase = true
  observable : command.newPhase = phaseCompleted → completionIsObservable s existing command = true
  effect : e =
    { operationId := command.operationId
      intent := progressed existing command
      outcome := .membershipAccepted
      evict := if isTerminalPhase command.newPhase then evictions s 1 else []
      routes := []
      evictRoutes := [] }

theorem decideProgress_some {command : MembershipProgressCommand}
    (h : decideProgress s command = some e) : ∃ existing, ProgressStep s command existing e := by
  unfold decideProgress at h
  cases hprev : s.intents[command.operationId]? with
  | none =>
    rw [hprev] at h
    cases h
  | some existing =>
    rw [hprev] at h
    dsimp only at h
    generalize hevict : (if isTerminalPhase command.newPhase then evictions s 1 else []) =
      evict at h
    split_ifs at h with hphase hlegal hobs
    refine ⟨existing, hprev, not_not.mp hphase, by simpa using hlegal, ?_, ?_⟩
    · intro hcomp
      by_contra hno
      exact hobs ⟨hcomp, by simpa using hno⟩
    · rw [hevict]
      exact (Option.some.inj h).symm

end Decisions

end AsterRpc.Coordination

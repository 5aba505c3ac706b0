import AsterRpc.Storage.Caps
import AsterRpc.Storage.Stamps

/-!
# The life cycle of a membership intent

Three commands write intents: an administrator's change and cancellation, and
the leader's progress reports.  Whatever they carry, an intent only moves along
the legal transitions and the two cancellations, ends once, is completed only
when the committed membership is its plan's, and is forgotten only when it is the
oldest of the ended ones.
-/

namespace AsterRpc.Coordination

open AsterRpc.Foundation

/-! ### What one event may do to the intents -/

/-- The two steps of a cancellation. -/
def isCancelStep (current next : Int) : Bool :=
  (current == phasePending && next == phaseCancelled) ||
    (current == phaseAddingLearners && next == phaseCancelRequested)

/-- The term and index of an intent's completion; one without a completion counts as the newest. -/
def Intent.age (intent : Intent) : ℕ × ℕ :=
  (intent.completedLogId.map fun l => (l.term, l.index)).getD (u64Max, u64Max)

/-- The committed membership is uniform and the one the plan asks for. -/
structure MembershipAsPlanned (s : State) (plan : MembershipPlan) : Prop where
  uniform : s.membership.joint = false
  voters : s.membership.voters = plan.desiredVoters.toFinset
  learners : s.membership.learners = plan.retainedLearners.toFinset

/-- What may become of the intents of `s` in `s'`. -/
structure LifeCycle (s s' : State) : Prop where
  starts : ∀ (id : OperationId) (new : Intent),
    s.intents[id]? = none → s'.intents[id]? = some new → new.statusCode = phasePending
  moves : ∀ (id : OperationId) (old new : Intent),
    s.intents[id]? = some old → s'.intents[id]? = some new →
    new.statusCode = old.statusCode ∨ isLegalTransition old.statusCode new.statusCode = true ∨
      isCancelStep old.statusCode new.statusCode = true
  terminal : ∀ (id : OperationId) (old new : Intent),
    s.intents[id]? = some old → s'.intents[id]? = some new →
    isTerminalPhase old.statusCode = true → new = old
  completes : ∀ (id : OperationId) (old new : Intent),
    s.intents[id]? = some old → s'.intents[id]? = some new →
    old.statusCode ≠ phaseCompleted → new.statusCode = phaseCompleted →
    MembershipAsPlanned s' new.plan
  evicted : ∀ (id : OperationId) (old : Intent),
    s.intents[id]? = some old → s'.intents[id]? = none →
    isTerminalPhase old.statusCode = true ∧
      ∀ (other : OperationId) (kept : Intent), s.intents[other]? = some kept →
        isTerminalPhase kept.statusCode = true → s'.intents[other]?.isSome = true →
        compare old.age kept.age ≠ .gt
  /-- An intent that ends gets its completion. -/
  stamped : ∀ (id : OperationId) (new : Intent), s'.intents[id]? = some new →
    isTerminalPhase new.statusCode = true → new.completedLogId = none → s.intents[id]? = some new

/-- Where every intent that was there stands as it was, only the new ones have to be looked at. -/
theorem LifeCycle.of_kept {s s' : State}
    (hkept : ∀ {id : OperationId} {old}, s.intents[id]? = some old → s'.intents[id]? = some old)
    (hfresh : ∀ (id : OperationId) (new : Intent),
      s.intents[id]? = none → s'.intents[id]? = some new → new.statusCode = phasePending) :
    LifeCycle s s' := by
  refine ⟨hfresh, ?_, ?_, ?_, ?_, ?_⟩
  · intro id old new hold hnew
    cases (hkept hold).symm.trans hnew
    exact .inl rfl
  · intro id old new hold hnew _
    cases (hkept hold).symm.trans hnew
    rfl
  · intro id old new hold hnew hne heq
    cases (hkept hold).symm.trans hnew
    exact absurd heq hne
  · intro id old hold hgone
    cases (hkept hold).symm.trans hgone
  · intro id new hnew hended _
    cases hold : s.intents[id]? with
    | some => rw [← hnew, hkept hold]
    | none =>
      rw [hfresh id new hold hnew] at hended
      cases hended

/-- Nothing happens to the intents. -/
theorem LifeCycle.of_same {s s' : State} (h : s'.intents = s.intents) : LifeCycle s s' := by
  refine .of_kept (fun hold => h ▸ hold) fun id new hnone hnew => ?_
  rw [h, hnone] at hnew
  cases hnew

/-! ### Evictions -/

/-- **The oldest go first**: no ended intent that stays is older than one that is evicted. -/
theorem evictions_oldest {s : State} {incomingTerminal : ℕ} {id other : OperationId}
    {old kept : Intent} (hevicted : id ∈ evictions s incomingTerminal)
    (hold : s.intents[id]? = some old) (hstays : other ∉ evictions s incomingTerminal)
    (hkept : s.intents[other]? = some kept) (hterm : isTerminalPhase kept.statusCode = true) :
    compare old.age kept.age ≠ .gt := by
  obtain ⟨⟨age, id'⟩, htaken, rfl⟩ := List.mem_map.mp hevicted
  have hcandidate : ∀ {x : OperationId} {intent : Intent}, s.intents[x]? = some intent →
      isTerminalPhase intent.statusCode = true → (intent.age, x) ∈
        (s.intents.toList.filter fun e => isTerminalPhase e.2.statusCode).map
          fun e => (e.2.age, e.1) := by
    intro x intent hx hended
    exact List.mem_map.mpr ⟨(x, intent), List.mem_filter.mpr
      ⟨Table.mem_toList.mpr hx, hended⟩, rfl⟩
  -- the evicted entry carries the age of its own row
  have hage : age = old.age := by
    have hin := (sortAscending_perm _).mem_iff.mp (List.mem_of_mem_take htaken)
    obtain ⟨e, he, heq⟩ := List.mem_map.mp hin
    cases heq
    have hrow := Table.mem_toList.mp (List.mem_filter.mp he).1
    rw [hold] at hrow
    rw [Option.some.inj hrow]
    rfl
  subst hage
  have hle := sortAscending_take htaken (hcandidate hkept hterm) fun htaken' =>
    hstays (List.mem_map.mpr ⟨_, htaken', rfl⟩)
  intro hgt
  refine hle ?_
  have hlex : compare (old.age, id') (kept.age, other) =
      (compare old.age kept.age).then (compare id' other) := rfl
  rw [hlex, hgt]
  rfl

/-! ### Commands -/

section

variable {ext : Externals} {s s' : State} {logId : LogId} {e : IntentEffect} {existing : Intent}

theorem get?_intents (logId : LogId) (e : IntentEffect) (t : Table OperationId Intent)
    (id : OperationId) :
    ((RowChange.intent e).intents logId t)[id]? =
      if e.operationId = id then some (Working.stampIntent logId e.intent)
      else if id ∈ e.evict then none else t[id]? := by
  simp only [RowChange.intents]
  rw [Table.get?_insert]
  split_ifs with hid hmem
  · rfl
  · exact Table.get?_foldl_erase_of_mem t hmem
  · exact Table.get?_foldl_erase_of_notMem t hmem

/-- A new intent starts pending and touches no other. -/
theorem ChangeStep.lifeCycle {actor : NodeId} {requestHash : Hash}
    {action : ChangeMembershipAction} (h : ChangeStep ext s actor requestHash action e)
    (hintents : s'.intents = (RowChange.intent e).intents logId s.intents) : LifeCycle s s' := by
  have heffect := h.effect
  subst heffect
  have hget : ∀ id, s'.intents[id]? = if action.operationId = id then
      some (Working.stampIntent logId (newIntent actor requestHash action))
      else s.intents[id]? := by
    intro id
    rw [hintents, get?_intents]
    simp [changeEffect]
  refine .of_kept ?_ ?_
  · -- an intent that was there before is another one, and is untouched
    intro id old hid
    have hne : action.operationId ≠ id := by
      rintro rfl
      rw [h.fresh] at hid
      cases hid
    rw [hget, if_neg hne, hid]
  · intro id new hnone hnew
    rw [hget] at hnew
    split_ifs at hnew
    · cases hnew
      rfl
    · rw [hnone] at hnew
      cases hnew

/-- What a cancellation or a report does to the phase of an intent. -/
structure PhaseMove (s : State) (e : IntentEffect) (existing : Intent) : Prop where
  update : IntentUpdate s e existing
  moves : isLegalTransition existing.statusCode e.intent.statusCode = true ∨
    isCancelStep existing.statusCode e.intent.statusCode = true
  completes : e.intent.statusCode = phaseCompleted → MembershipAsPlanned s existing.plan

theorem CancelStep.phaseMove {action : CancelMembershipAction} (h : CancelStep s action e) :
    ∃ existing, PhaseMove s e existing := by
  obtain ⟨existing, hupd⟩ := h.update
  refine ⟨existing, hupd, .inr ?_, ?_⟩
  · cases h with
    | pending found hfound hphase =>
      have heq := Option.some.inj (hfound.symm.trans hupd.found)
      subst heq
      rw [hphase]
      exact (by decide : isCancelStep phasePending phaseCancelled = true)
    | adding found hfound hphase =>
      have heq := Option.some.inj (hfound.symm.trans hupd.found)
      subst heq
      rw [hphase]
      exact (by decide : isCancelStep phaseAddingLearners phaseCancelRequested = true)
  · intro hcomp
    cases h with
    | pending =>
      exact absurd hcomp (by decide : phaseCancelled ≠ phaseCompleted)
    | adding =>
      exact absurd hcomp (by decide : phaseCancelRequested ≠ phaseCompleted)

theorem ProgressStep.phaseMove {command : MembershipProgressCommand}
    (h : ProgressStep s command existing e) : PhaseMove s e existing := by
  refine ⟨h.update, .inl ?_, ?_⟩
  · rw [h.effect]
    exact h.legal
  · intro hcomp
    rw [h.effect] at hcomp
    have hobs := h.observable hcomp
    simp only [completionIsObservable, Bool.and_eq_true, Bool.not_eq_true', beq_iff_eq]
      at hobs
    exact ⟨hobs.1.1.2, hobs.1.2, hobs.2⟩

/-- A cancellation or a report moves its own intent, and forgets only the oldest ended ones. -/
theorem PhaseMove.lifeCycle (h : PhaseMove s e existing)
    (hintents : s'.intents = (RowChange.intent e).intents logId s.intents)
    (hmemb : s'.membership = s.membership) : LifeCycle s s' := by
  have hget : ∀ id, s'.intents[id]? = if e.operationId = id then
      some (Working.stampIntent logId e.intent)
      else if id ∈ e.evict then none else s.intents[id]? := by
    intro id
    rw [hintents, get?_intents]
  -- the row of an intent that is still there: the moved one, or an untouched one
  have hcases : ∀ {id : OperationId} {old new : Intent},
      s.intents[id]? = some old → s'.intents[id]? = some new →
      (old = existing ∧ new = Working.stampIntent logId e.intent) ∨ new = old := by
    intro id old new hold hnew
    rw [hget] at hnew
    split_ifs at hnew with hid hmem
    · subst hid
      rw [h.update.found] at hold
      exact .inl ⟨(Option.some.inj hold).symm, (Option.some.inj hnew).symm⟩
    · rw [hold] at hnew
      exact .inr (Option.some.inj hnew).symm
  refine ⟨?_, ?_, ?_, ?_, ?_, ?_⟩
  · intro id new hnone hnew
    rw [hget] at hnew
    split_ifs at hnew with hid hmem
    · subst hid
      rw [h.update.found] at hnone
      cases hnone
    · rw [hnone] at hnew
      cases hnew
  · intro id old new hold hnew
    rcases hcases hold hnew with ⟨rfl, rfl⟩ | rfl
    · exact .inr h.moves
    · exact .inl rfl
  · intro id old new hold hnew hended
    rcases hcases hold hnew with ⟨rfl, rfl⟩ | rfl
    · rw [h.update.live] at hended
      cases hended
    · rfl
  · intro id old new hold hnew hne heq
    rcases hcases hold hnew with ⟨rfl, rfl⟩ | rfl
    · have hplan : (Working.stampIntent logId e.intent).plan = old.plan := by
        rw [h.update.intent]
        rfl
      obtain ⟨huniform, hvoters, hlearn⟩ := h.completes heq
      rw [hplan]
      exact ⟨hmemb ▸ huniform, hmemb ▸ hvoters, hmemb ▸ hlearn⟩
    · exact absurd heq hne
  · intro id old hold hgone
    rw [hget] at hgone
    split_ifs at hgone with hid hmem
    · have hevict : e.evict = evictions s 1 := by
        have heq := h.update.evict
        split_ifs at heq
        · exact heq
        · rw [heq] at hmem
          cases hmem
      rw [hevict] at hmem
      obtain ⟨_, hintent, hterm⟩ := evictions_terminal hmem
      rw [hold] at hintent
      cases hintent
      refine ⟨hterm, fun other kept hkept hended hsome => ?_⟩
      refine evictions_oldest hmem hold (fun hother => ?_) hkept hended
      rw [hget] at hsome
      split_ifs at hsome with hopen hout
      · subst hopen
        rw [h.update.found] at hkept
        cases hkept
        rw [h.update.live] at hended
        cases hended
      · cases hsome
      · rw [hevict] at hout
        exact hout hother
    · rw [hold] at hgone
      cases hgone
  · intro id new hnew hended hunstamped
    rw [hget] at hnew
    split_ifs at hnew with hid hmem
    · cases hnew
      simp only [Working.stampIntent] at hended hunstamped
      split_ifs at hunstamped with hstamps
      exact absurd ⟨hended, hunstamped⟩ hstamps
    · exact hnew

/-- **One command and the life cycle of every intent**; the committed membership stays. -/
theorem deliver_lifeCycle (ext : Externals) (s : State) (d : Delivery) :
    LifeCycle s (deliver ext s d).1 ∧ (deliver ext s d).1.membership = s.membership ∧
      (deliver ext s d).1.membershipLogId = s.membershipLogId := by
  obtain ⟨_, command⟩ := d
  refine deliver_elim ext s _ (fun _ => ⟨.of_same rfl, rfl, rfl⟩) fun _ hstep hdone => ?_
  obtain ⟨_, _, _, -, rfl⟩ := hdone
  refine ⟨?_, rfl, rfl⟩
  rcases hstep.intents with ⟨hsame, -⟩ | ⟨e, rfl, hmove⟩
  · exact .of_same hsame
  · dsimp only at hmove
    cases hmove with
    | change client action e h => exact h.lifeCycle rfl
    | cancel client action e h =>
      obtain ⟨existing, hphase⟩ := h.phaseMove
      exact hphase.lifeCycle rfl rfl
    | progress command existing e hdec h => exact h.phaseMove.lifeCycle rfl rfl

/-! ### Runs -/

/-- **One event**: a native membership touches no intent. -/
theorem advance_lifeCycle (ext : Externals) (s : DurableState) (e : GroupEvent) :
    LifeCycle s.model (advance ext s e).1.model := by
  cases e with
  | command d => exact (deliver_lifeCycle ext s.model d).1
  | membership logId m =>
    simp only [advance]
    cases happ : applyMembership s logId m with
    | error => exact .of_same rfl
    | ok =>
      obtain ⟨-, -, -, rfl⟩ := applyMembership_eq_ok.mp happ
      exact .of_same rfl

theorem advance_activeIntents (ext : Externals) (s : DurableState) (e : GroupEvent)
    (h : activeIntents s.model ≤ 1) : activeIntents (advance ext s e).1.model ≤ 1 := by
  obtain ⟨_, _, _, hmodel⟩ | ⟨_, _, _, _, _, _, -, -, hstep,
    _, _, _, -, hmodel⟩ := advance_cases ext s e
  · rw [hmodel]
    exact h
  · rw [hmodel]
    exact hstep.activeIntents_le h

/-- **Intents follow their life cycle in every run** of commands and native memberships, begun with
at most one intent under way.  In every state the run reaches at most one is; every further event,
whatever it carries, respects the life cycle of every intent; and no command moves the committed
membership. -/
theorem intents_follow_life_cycle (ext : Externals) (s₀ : DurableState) (es : List GroupEvent)
    (hactive : activeIntents s₀.model ≤ 1) :
    let s := run (advance ext) s₀ es
    activeIntents s.model ≤ 1 ∧
      (∀ e, LifeCycle s.model (advance ext s e).1.model) ∧
      ∀ d, (advance ext s (.command d)).1.model.membership = s.model.membership ∧
        (advance ext s (.command d)).1.model.membershipLogId = s.model.membershipLogId ∧
        (advance ext s (.command d)).1.membership = s.membership := by
  intro s
  refine ⟨?_, fun e => advance_lifeCycle ext s e, fun d => ?_⟩
  · exact run_invariant (I := fun s : DurableState => activeIntents s.model ≤ 1)
      (fun s e h => advance_activeIntents ext s e h) hactive es
  · have hkept := (deliver_lifeCycle ext s.model d).2
    exact ⟨hkept.1, hkept.2, rfl⟩

open Sample

theorem intents_follow_life_cycle_keep :
    activeIntents (run (advance externals) state [.command keepMembership]).model ≤ 1 :=
  (intents_follow_life_cycle externals state [.command keepMembership]
    (by decide)).1

end

end AsterRpc.Coordination

import AsterRpc.Coordination.Effects
import AsterRpc.Storage.Valid

/-!
# Stamped log ids

Apply stamps the log id of the entry it applies onto intents and routes, and the
loader demands that every stamp lies in the applied past.  The stamps do, with
one exception: a progress report brings along the log id of the membership it
observed, and that one is copied as it comes.
-/

namespace AsterRpc.Coordination

open AsterRpc.Foundation Working

variable {lastApplied : Option LogId} {id logId : LogId} {intent : Intent} {current next : Int}

/-! ### The applied past -/

/-- The id lies in the applied past. -/
def Within (lastApplied : Option LogId) (id : LogId) : Prop :=
  ∃ last, lastApplied = some last ∧ id.index ≤ last.index

theorem checkWithin_eq_ok : checkWithin lastApplied id = .ok () ↔ Within lastApplied id := by
  cases lastApplied <;> simp [checkWithin, Within]

theorem Within.self (logId : LogId) : Within (some logId) logId := ⟨logId, rfl, Nat.le_refl _⟩

/-- What was in the past stays in it as the log advances. -/
theorem Within.later (h : Within lastApplied id)
    (hadvance : ∀ last, lastApplied = some last → last.index < logId.index) :
    Within (some logId) id := by
  obtain ⟨last, hlast, hle⟩ := h
  have hlt := hadvance last hlast
  exact ⟨logId, rfl, by omega⟩

/-- The stamps of an intent are in the applied past and in order. -/
@[mk_iff]
structure Intent.Stamped (lastApplied : Option LogId) (intent : Intent) : Prop where
  accepted : Within lastApplied intent.acceptedLogId
  completed : ∀ id, intent.completedLogId = some id →
    Within lastApplied id ∧ intent.acceptedLogId.index ≤ id.index
  observed : ∀ id, intent.observedMembershipLogId = some id → Within lastApplied id

theorem checkStampedIntent_eq_ok :
    checkStampedIntent lastApplied intent = .ok () ↔ intent.Stamped lastApplied := by
  simp only [checkStampedIntent, accepts_iff, checkOption_eq_ok, checkWithin_eq_ok,
    Intent.stamped_iff]

/-- Every stamp of a state is in its applied past. -/
structure StampsValid (s : State) : Prop where
  intents : s.intents.AllRows fun _ intent => intent.Stamped s.lastApplied
  routes : s.routes.AllRows fun _ route => Within s.lastApplied route.introducedLogId

theorem checkStampedLogIds_eq_ok {s : State} : checkStampedLogIds s = .ok () ↔ StampsValid s := by
  simp only [checkStampedLogIds, accepts_iff, Table.checkRows_eq_ok, checkStampedIntent_eq_ok,
    checkWithin_eq_ok]
  exact ⟨fun h => ⟨h.1, h.2⟩, fun h => ⟨h.intents, h.routes⟩⟩

/-! ### Coherent intents -/

/-- Every intent has a known phase, and a completion exactly when it is terminal. -/
def IntentsCoherent (s : State) : Prop := s.intents.AllRows fun _ intent => intent.Coherent

/-- An intent that is still under way has no completion. -/
theorem Intent.Coherent.open_of_not_terminal (h : intent.Coherent)
    (hphase : isTerminalPhase intent.statusCode = false) : intent.completedLogId = none := by
  have hcomp := h.completed
  rw [hphase] at hcomp
  exact Option.isNone_iff_eq_none.mp (by simpa using hcomp)

theorem mem_phases_of_legal (h : isLegalTransition current next = true) : next ∈ phases := by
  simp only [isLegalTransition, Bool.and_eq_true, Bool.or_eq_true, beq_iff_eq] at h
  obtain ⟨-, (((⟨-, rfl⟩ | ⟨-, rfl⟩) | ⟨-, rfl⟩) | ⟨-, rfl⟩) | rfl⟩ := h <;> decide

/-- The stamps of a written intent: its old acceptance, its own entry, and what it observed. -/
theorem stampIntent_stamped (hopen : intent.completedLogId = none)
    (hacc : intent.acceptedLogId.index ≤ logId.index)
    (hobs : ∀ id, intent.observedMembershipLogId = some id → id.index ≤ logId.index) :
    (stampIntent logId intent).Stamped (some logId) := by
  have hbound : (stampIntent logId intent).acceptedLogId.index ≤ logId.index := by
    simp only [stampIntent]
    split_ifs
    · exact Nat.le_refl _
    · exact hacc
  refine ⟨⟨logId, rfl, hbound⟩, ?_, fun id hid => ⟨logId, rfl, hobs id hid⟩⟩
  intro id hid
  have hself : id = logId := by
    simp only [stampIntent, hopen] at hid
    split_ifs at hid
    exact (Option.some.inj hid).symm
  rw [hself]
  exact ⟨Within.self logId, hbound⟩

/-! ### One step -/

/-- A progress report that applies has observed nothing past its own entry. -/
def reportInPast (s : State) (d : Delivery) : Bool :=
  match d.2 with
  | .membershipProgress command =>
    !(guardDelivery s d.1).isOk || (decideProgress s command).isNone ||
      command.observedMembershipLogId.all fun id => decide (id.index ≤ d.1.index)
  | _ => true

section

variable (ext : Externals) {s : State} {command : Command} {e : IntentEffect} {logId : LogId}
  {d : Delivery}

section

variable (h : IntentMove ext s command e)

include h

/-- What every written intent is, before it is stamped. -/
theorem IntentMove.opened (hcoh : IntentsCoherent s) :
    e.intent.statusCode ∈ phases ∧ e.intent.completedLogId = none := by
  cases h with
  | change client action e hstep =>
    have hmem : phasePending ∈ phases := by decide
    rw [hstep.effect]
    exact ⟨hmem, rfl⟩
  | cancel client action e hstep =>
    cases hstep with
    | pending existing hprev hphase =>
      have hmem : phaseCancelled ∈ phases := by decide
      refine ⟨hmem, (hcoh _ existing hprev).open_of_not_terminal ?_⟩
      rw [hphase]
      decide
    | adding existing hprev hphase =>
      have hmem : phaseCancelRequested ∈ phases := by decide
      refine ⟨hmem, (hcoh _ existing hprev).open_of_not_terminal ?_⟩
      rw [hphase]
      decide
  | progress command existing e hdec hstep =>
    rw [hstep.effect]
    exact ⟨mem_phases_of_legal hstep.legal,
      (hcoh _ existing hstep.found).open_of_not_terminal (isLegalTransition_live hstep.legal)⟩

/-- A written intent is new, or was accepted in the past. -/
theorem IntentMove.accepted (hs : StampsValid s) :
    e.intent.acceptedLogId = unstamped ∨ Within s.lastApplied e.intent.acceptedLogId := by
  cases h with
  | change client action e hstep =>
    rw [hstep.effect]
    exact .inl rfl
  | cancel client action e hstep =>
    cases hstep with
    | pending existing hprev | adding existing hprev =>
      exact .inr (hs.intents _ existing hprev).accepted
  | progress command existing e hdec hstep =>
    rw [hstep.effect]
    exact .inr (hs.intents _ existing hstep.found).accepted

/-- What a written intent has observed: what it had before, or what the report brings. -/
theorem IntentMove.observed (hs : StampsValid s) {id : LogId}
    (hid : e.intent.observedMembershipLogId = some id) :
    Within s.lastApplied id ∨ ∃ report, command = .membershipProgress report ∧
      decideProgress s report = some e ∧ report.observedMembershipLogId = some id := by
  cases h with
  | change client action e hstep =>
    rw [hstep.effect] at hid
    cases hid
  | cancel client action e hstep =>
    cases hstep with
    | pending existing hprev | adding existing hprev =>
      exact .inl ((hs.intents _ existing hprev).observed id hid)
  | progress report existing e hdec hstep =>
    rw [hstep.effect] at hid
    exact .inr ⟨report, rfl, hdec, hid⟩

/-- A new route has not been stamped yet. -/
theorem IntentMove.routes_unstamped : ∀ r ∈ e.routes, r.2.introducedLogId = unstamped := by
  intro r hr
  cases h with
  | change client action e hstep =>
    rw [hstep.effect] at hr
    simp only [changeEffect, routesFrom, List.mem_map] at hr
    obtain ⟨_, -, rfl⟩ := hr
    rfl
  | cancel client action e hstep => cases hstep <;> cases hr
  | progress report existing e hdec hstep =>
    rw [hstep.effect] at hr
    cases hr

end

/-- Intents stay coherent, whatever is delivered. -/
theorem deliver_intentsCoherent (d : Delivery) (h : IntentsCoherent s) :
    IntentsCoherent (deliver ext s d).1 := by
  refine deliver_elim ext s d (fun _ => h) fun _ hstep hdone => ?_
  obtain ⟨_, _, _, -, rfl⟩ := hdone
  rcases hstep.intents with ⟨hintents, -⟩ | ⟨e, rfl, hmove⟩
  · simp only [IntentsCoherent, hintents]
    exact h
  · obtain ⟨hphase, hopen⟩ := hmove.opened ext h
    refine Table.AllRows.insert (Table.AllRows.foldl_erase h e.evict) ⟨hphase, ?_⟩
    cases hterm : isTerminalPhase e.intent.statusCode <;> simp [stampIntent, hterm, hopen]

/-- Stamps stay in the past as the log advances. -/
theorem StampsValid.later (h : StampsValid s)
    (hadvance : ∀ last, s.lastApplied = some last → last.index < logId.index) :
    (s.intents.AllRows fun _ intent => intent.Stamped (some logId)) ∧
      s.routes.AllRows fun _ route => Within (some logId) route.introducedLogId := by
  refine ⟨fun id intent hintent => ?_, fun node route hroute => (h.routes node route hroute).later
    hadvance⟩
  have hstamped := h.intents id intent hintent
  exact ⟨hstamped.accepted.later hadvance,
    fun c hc => ⟨(hstamped.completed c hc).1.later hadvance, (hstamped.completed c hc).2⟩,
    fun o ho => (hstamped.observed o ho).later hadvance⟩

/-- A written intent and its routes are stamped no later than their entry. -/
theorem IntentMove.stamps (h : IntentMove ext s command e) (hs : StampsValid s)
    (hcoh : IntentsCoherent s)
    (hadvance : ∀ last, s.lastApplied = some last → last.index < logId.index)
    (hobs : ∀ id, e.intent.observedMembershipLogId = some id → id.index ≤ logId.index) :
    (RowChange.intents logId (.intent e) s.intents).AllRows
        (fun _ intent => intent.Stamped (some logId)) ∧
      (RowChange.routes logId (.intent e) s.routes).AllRows
        fun _ route => Within (some logId) route.introducedLogId := by
  obtain ⟨hintents, hroutes⟩ := hs.later hadvance
  constructor
  · refine (hintents.foldl_erase e.evict).insert
      (stampIntent_stamped (h.opened ext hcoh).2 ?_ hobs)
    rcases h.accepted ext hs with hnew | ⟨last, hlast, hle⟩
    · rw [hnew]
      exact Nat.zero_le _
    · have hlt := hadvance last hlast
      omega
  · refine (hroutes.foldl_erase e.evictRoutes).foldl_insert fun r hr => ?_
    simp only [stampRoute, h.routes_unstamped ext r hr, unstamped, if_true]
    exact Within.self logId

/-- One delivery whose report, if it applies, is in the past keeps the stamps there. -/
theorem deliver_stampsValid (hs : StampsValid s) (hcoh : IntentsCoherent s)
    (hpast : reportInPast s d = true) : StampsValid (deliver ext s d).1 := by
  refine deliver_elim ext s d (fun _ => hs) fun hguard hstep hdone => ?_
  have hadvance := (guardDelivery_eq_ok.mp hguard).1
  obtain ⟨_, _, _, -, rfl⟩ := hdone
  rcases hstep.intents with ⟨hintents, hroutes⟩ | ⟨e, rfl, hmove⟩
  · obtain ⟨hi, hr⟩ := hs.later hadvance
    exact ⟨by rw [hintents]; exact hi, by rw [hroutes]; exact hr⟩
  · obtain ⟨hi, hr⟩ := hmove.stamps ext hs hcoh hadvance fun id hid => by
      rcases hmove.observed ext hs hid with ⟨last, hlast, hle⟩ | ⟨_, hcmd, happly, hrep⟩
      · have hlt := hadvance last hlast
        omega
      · simpa [reportInPast, hcmd, hguard, happly, hrep, Except.isOk, Except.toBool] using hpast
    exact ⟨hi, hr⟩

/-- A report that applies is in the past if its stamps are. -/
theorem reportInPast_of_stampsValid (h : StampsValid (deliver ext s d).1) :
    reportInPast s d = true := by
  obtain ⟨logId, command⟩ := d
  cases command with
  | membershipProgress report =>
    cases hguard : guardDelivery s logId with
    | error => simp [reportInPast, hguard, Except.isOk, Except.toBool]
    | ok =>
      cases hdec : decideProgress s report with
      | none => simp [reportInPast, hdec]
      | some e =>
        obtain ⟨_, hstep⟩ := decideProgress_some hdec
        obtain ⟨_, _, _, -, hstate⟩ := (start s).perform_state ext logId
          (.intent e) none
          (systemAuditRow logId operationMembershipProgress none sysMembershipAdvanced 0)
        have hdeliver : (deliver ext s (logId, .membershipProgress report)).1 =
            (((start s).perform ext logId (.intent e) none (systemAuditRow logId
              operationMembershipProgress none sysMembershipAdvanced 0)).setLastApplied
                logId).state := by
          simp only [deliver, applyCommand, applyCommandRecording, start, hguard, dispatch,
            applyMembershipProgress, hdec]
          rfl
        rw [hdeliver, hstate] at h
        have hrow := (h.intents e.operationId (stampIntent logId e.intent)
          (by simp [RowChange.intents])).observed
        have hbound : ∀ id, report.observedMembershipLogId = some id →
            id.index ≤ logId.index := by
          intro id hid
          obtain ⟨_, hlast, hle⟩ := hrow id (by rw [hstep.effect]; exact hid)
          cases hlast
          exact hle
        simpa [reportInPast, Option.all_eq_true] using Or.inr hbound
  | _ => rfl

/-- **Stamps stay in the applied past** in every state a run reaches, exactly when no progress
report of the run that applies has observed a log id past its own entry. -/
theorem stamps_stay_in_past (s₀ : DurableState) (ds : List Delivery) (hs : Validated ext s₀) :
    (∀ pre, pre <+: ds → checkStampedLogIds (run (deliver ext) s₀.model pre) = .ok ()) ↔
      EveryStep (deliver ext) (fun s d => reportInPast s d = true) s₀.model ds := by
  have hstart := checkStampedLogIds_eq_ok.mp hs.rows.stamps
  simp only [checkStampedLogIds_eq_ok]
  refine reached_iff_everyStep (fun s d h => deliver_intentsCoherent ext d h) ?_
    (fun id intent hintent => ((narrows_iff.mp hs.narrow).2 id intent hintent).2) hstart ds
  intro s d hcoh hstamps
  exact ⟨reportInPast_of_stampsValid ext, deliver_stampsValid ext hstamps hcoh⟩

end

/-! ### A report from the future -/

namespace Sample

def operation : OperationId := FixedBytes.fill 16 3

/-- Ask for the membership the group already has. -/
def keepMembership : Delivery :=
  (entry 2, .client ⟨voter, client, 1, FixedBytes.fill 32 5⟩
    (.changeMembership ⟨operation, some (entry 1), ⟨[voter], [], []⟩⟩))

/-- The leader's report that it starts to add learners, with the membership it says it saw. -/
def addingLearners (observed : LogId) : Delivery :=
  (entry 3, .membershipProgress
    ⟨operation, phasePending, phaseAddingLearners, some observed, 0⟩)

end Sample

open Sample

theorem stamps_stay_in_past_progress :
    checkStampedLogIds (run (deliver externals) state.model
      [keepMembership, addingLearners (entry 1)]) = .ok () :=
  (stamps_stay_in_past externals state
    [keepMembership, addingLearners (entry 1)] state_validated).mpr
    ⟨by decide +kernel, by decide +kernel, trivial⟩ _ (List.prefix_refl _)

/-- A report at index 3 that claims to have observed a membership at index 9 is applied as it comes:
no delivery faults, and the state it leaves does not pass the loader's check. -/
theorem future_report_does_not_reopen :
    Validated externals state ∧
    (outputs (deliver externals) state.model [keepMembership, addingLearners (entry 9)]).all
      (fun reply => reply.isOk) = true ∧
    checkStampedLogIds (run (deliver externals) state.model
      [keepMembership, addingLearners (entry 9)]) = .error "stamped above last_applied" :=
  ⟨state_validated, by decide +kernel, by decide +kernel⟩

end AsterRpc.Coordination

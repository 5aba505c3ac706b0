import AsterRpc.Coordination.Sessions

/-!
# Preflight and apply

A leader answers a request before it proposes it.  What it answers is what the
log would have answered: a resolved answer is the journal's, a denial is the
rejection that applying would save, and a request that is let through is answered
with a success or with a rejection that only the log may give.
-/

namespace AsterRpc.Coordination

open AsterRpc.Foundation Working

section

variable {ext : Externals} {s : State} {client : ClientRef} {action : Action} {change : RowChange}
  {reply : SavedReply} {reason : RefusalReason} {limit : ShapeLimit}
  {decision : Decision ActionVerdict}

/-! ### What a decision leads to -/

theorem Decided.of_error {refusal : Refusal} (h : Decided ext s client action change reply)
    (hdecide : action.decide ext s client.actor client.requestHash = .error refusal) :
    change = .none ∧ reply = rejection s action.validatedResource
      (match refusal with | .refuse reason => reason.get | .refuseShapeless _ => .none) := by
  cases h with
  | refused a reason h | shapeless a limit h =>
    rw [h] at hdecide
    cases hdecide
    exact ⟨rfl, rfl⟩
  | resource a e h | grant a e h | grantNoOp a revision h | admin a e h | adminNoOp a revision h
  | change a e h | existing a phase h | cancel a e h =>
    simp only [Action.decide, h] at hdecide
    cases hdecide

theorem ResourceStep.outcome_ne_rejected {actor : NodeId} {key : ResourceKey} {a : ResourceAction}
    {e : ResourceEffect} (h : ResourceStep s actor key a e) : e.outcome ≠ .rejected := by
  cases h <;> simp

theorem CancelStep.outcome_ne_rejected {a : CancelMembershipAction} {e : IntentEffect}
    (h : CancelStep s a e) : e.outcome ≠ .rejected := by
  cases h <;> simp

/-- A verdict is answered with a success that carries no reason. -/
theorem Decided.of_verdict {verdict : ActionVerdict} (h : Decided ext s client action change reply)
    (hdecide : action.decide ext s client.actor client.requestHash = .ok verdict) :
    reply.outcome ≠ .rejected ∧ reply.reason = .none := by
  cases h with
  | resource a e h =>
    obtain ⟨_, -, -, -, -, hstep⟩ := decideResource_ok h
    exact ⟨hstep.outcome_ne_rejected, rfl⟩
  | change a e h =>
    have heffect := (decideChange_apply ext h).effect
    subst heffect
    exact ⟨Outcome.noConfusion, rfl⟩
  | cancel a e h => exact ⟨(decideCancel_ok h).outcome_ne_rejected, rfl⟩
  | grant a e h | grantNoOp a revision h | admin a e h | adminNoOp a revision h
  | existing => exact ⟨Outcome.noConfusion, rfl⟩
  | refused a reason h | shapeless a limit h =>
    rw [h] at hdecide
    cases hdecide

/-! ### What preflight says of a decision -/

/-- The refusals that preflight keeps from the log. -/
def RefusalReason.isDenied (reason : RefusalReason) : Bool :=
  reason == .permissionChanged || reason.isAdmissionDenial

theorem project_eq_deny (h : project decision = .deny reason) :
    decision = .error (.refuse reason) := by
  unfold project at h
  split at h
  · cases h
  · cases h
  · split_ifs at h
    cases h
    rfl

theorem project_eq_notAuthorized (h : project decision = .status .notAuthorized) :
    decision = .error (.refuse .permissionChanged) := by
  unfold project at h
  split at h
  · cases h
  · cases h
  · split_ifs at h with hreason
    rw [hreason]

theorem project_eq_shape (h : project decision = .status (.shape limit)) :
    decision = .error (.refuseShapeless limit) := by
  unfold project at h
  split at h
  · cases h
  · cases h
    rfl
  · split_ifs at h
    cases h

theorem project_eq_admitted (h : project decision = .admitted) :
    (∃ verdict, decision = .ok verdict) ∨
      ∃ reason, decision = .error (.refuse reason) ∧ reason.isDenied = false := by
  unfold project at h
  split at h
  · exact .inl ⟨_, rfl⟩
  · cases h
  · split_ifs at h with hpermission hdenial
    refine .inr ⟨_, rfl, ?_⟩
    simp [RefusalReason.isDenied, hpermission, hdenial]

theorem RefusalReason.isDenied_eq_false (h : reason.isDenied = false) :
    reason.get.isAdmissionDenial = false ∧ reason.get ≠ .permissionChanged := by
  simp only [isDenied, Bool.or_eq_false_iff, beq_eq_false_iff_ne] at h
  refine ⟨h.2, fun hget => h.1 ?_⟩
  cases reason with
  | mk =>
    cases hget
    rfl

end

section

variable (ext : Externals) {logId : LogId} {row : Row} {creates : Bool}

/-! ### What applying a request does -/

/-- Applying a request is one of the three steps of a client command. -/
theorem applyClient_performed (s : State) (logId : LogId) (client : ClientRef) (action : Action) :
    ∃ change entry row,
      Step ext s logId (.client client action) change entry row
        (.client (applyClient ext (start s) logId client action).2) ∧
      Performed s ((applyClient ext (start s) logId client action).1.setLastApplied
        logId).state logId change entry row := by
  obtain ⟨_, hfault⟩ | ⟨change, entry, row, _, hstep⟩ :=
    exists_step ext (start s) logId (.client client action)
  · cases hfault
  · obtain ⟨hwrite, rfl⟩ := Prod.mk.inj (Except.ok.inj hstep.dispatch)
    refine ⟨change, entry, row, hstep, ?_⟩
    rw [hwrite]
    exact (start s).perform_state ext logId change entry row

/-- A request whose reply is a fresh rejection with this reason, and that changed no row and no
growth byte. -/
def RejectsFresh (s : State) (logId : LogId) (client : ClientRef) (action : Action)
    (reason : Reason) : Prop :=
  let applied := applyClient ext (start s) logId client action
  (∃ reply, applied.2 = ⟨.consumed, reply, false⟩ ∧ reply.outcome = .rejected ∧
    reply.reason = reason) ∧
    SameRows s applied.1.state ∧ applied.1.state.growthBytes = s.growthBytes

/-- A refused decision is a fresh rejection. -/
theorem rejectsFresh_of {s : State} {client : ClientRef} {action : Action} {reason : Reason}
    (hclass : classifyClient s client = .unresolved row creates)
    (hrefused : ∀ change reply, Decided ext s client action change reply →
      change = .none ∧ reply = rejection s action.validatedResource reason) :
    RejectsFresh ext s logId client action reason := by
  obtain ⟨change, _, _, hstep, hdone⟩ :=
    applyClient_performed ext s logId client action
  generalize happ : applyClient ext (start s) logId client action = applied at *
  obtain ⟨w, _⟩ := applied
  unfold RejectsFresh
  rw [happ]
  cases hstep with
  | replay client action row' saved hclass' | refused client action row' reason' hclass' =>
    rw [hclass] at hclass'
    cases hclass'
  | decided client action change reply row' creates' hclass' hdec =>
    obtain ⟨rfl, rfl⟩ := hrefused change reply hdec
    have hsame := hdone.sameRows
    obtain ⟨_, _, _, hgrowth, hstate⟩ := hdone
    exact ⟨⟨_, rfl, rfl, rfl⟩, hsame, (congrArg State.growthBytes hstate).trans (hgrowth rfl)⟩

/-- A resolved request is answered by applying as preflight answers it, and leaves only an audit row
behind. -/
theorem applyClient_resolved {s : State} (logId : LogId) {client : ClientRef} {action : Action}
    {result : ClientResult} (h : preflight ext s client action = .resolved result) :
    (applyClient ext (start s) logId client action).2 = result ∧
      (applyClient ext (start s) logId client action).1.state.sessions = s.sessions ∧
      SameRows s (applyClient ext (start s) logId client action).1.state := by
  have haudit : ∀ row, ((start s).writeAuditRow logId row).state.sessions = s.sessions ∧
      SameRows s ((start s).writeAuditRow logId row).state := by
    intro row
    obtain ⟨_, _, hstate⟩ := (start s).writeAuditRow_state logId row
    rw [hstate]
    exact ⟨rfl, rfl, rfl, rfl, rfl, rfl⟩
  unfold preflight at h
  cases hclass : classifyClient s client with
  | replay row saved =>
    have hstart : classifyClient (start s).state client = .replay row saved := hclass
    rw [hclass] at h
    simp only [applyClient, hstart]
    exact ⟨Admission.resolved.inj h, haudit _⟩
  | refuse row reason =>
    have hstart : classifyClient (start s).state client = .refuse row reason := hclass
    rw [hclass] at h
    simp only [applyClient, hstart]
    exact ⟨Admission.resolved.inj h, haudit _⟩
  | unresolved =>
    rw [hclass] at h
    dsimp only at h
    unfold project at h
    split at h
    · cases h
    · cases h
    · split_ifs at h

/-! ### Agreement -/

/-- **Preflight and apply agree.**  On every state, for every request and every log id:

* a resolved answer is exactly what applying answers, and applying writes no journal and no row;
* a denial, a missing right and a malformed request are answered by applying with a fresh rejection
  under the reason that belongs to it, and no row and no growth byte changes;
* a request that is let through is answered afresh, with a success or with a rejection that
  preflight does not give;
* and where the log id passes the delivery guard, this is what `apply_command` does. -/
theorem preflight_agrees_with_apply (s : State) (client : ClientRef) (action : Action)
    (logId : LogId) :
    let applied := applyClient ext (start s) logId client action
    (∀ result, preflight ext s client action = .resolved result →
      applied.2 = result ∧ applied.1.state.sessions = s.sessions ∧ SameRows s applied.1.state) ∧
    (∀ reason, preflight ext s client action = .deny reason →
      RejectsFresh ext s logId client action reason.get) ∧
    (preflight ext s client action = .status .notAuthorized →
      RejectsFresh ext s logId client action .permissionChanged) ∧
    (∀ limit, preflight ext s client action = .status (.shape limit) →
      RejectsFresh ext s logId client action .none) ∧
    (preflight ext s client action = .admitted →
      ∃ reply, applied.2 = ⟨.consumed, reply, false⟩ ∧
        ((reply.outcome ≠ .rejected ∧ reply.reason = .none) ∨
          (reply.outcome = .rejected ∧ reply.reason.isRefusable = true ∧
            reply.reason.isAdmissionDenial = false ∧ reply.reason ≠ .permissionChanged))) ∧
    (guardDelivery s logId = .ok () →
      deliver ext s (logId, .client client action) =
        ((applied.1.setLastApplied logId).state, .ok (.client applied.2))) := by
  intro applied
  -- All but the first answer are given for a sequence the journal has no answer to.
  have hunresolved : ∀ admission, preflight ext s client action = admission →
      (∀ result, admission ≠ .resolved result) → ∃ row creates,
        classifyClient s client = .unresolved row creates ∧
        project (action.decide ext s client.actor client.requestHash) = admission := by
    intro admission h hother
    unfold preflight at h
    cases hclass : classifyClient s client with
    | replay | refuse =>
      rw [hclass] at h
      exact absurd h.symm (hother _)
    | unresolved row creates =>
      rw [hclass] at h
      exact ⟨row, creates, rfl, h⟩
  refine ⟨?_, ?_, ?_, ?_, ?_, fun hpasses => ?_⟩
  · intro result hresolved
    exact applyClient_resolved ext logId hresolved
  · intro reason hdeny
    obtain ⟨row, creates, hclass, hproj⟩ := hunresolved _ hdeny (by simp)
    exact rejectsFresh_of ext hclass fun change reply hdec =>
      hdec.of_error (project_eq_deny hproj)
  · intro hstat
    obtain ⟨row, creates, hclass, hproj⟩ := hunresolved _ hstat (by simp)
    exact rejectsFresh_of ext hclass fun change reply hdec =>
      hdec.of_error (project_eq_notAuthorized hproj)
  · intro limit hstat
    obtain ⟨row, creates, hclass, hproj⟩ := hunresolved _ hstat (by simp)
    exact rejectsFresh_of ext hclass fun change reply hdec =>
      hdec.of_error (project_eq_shape hproj)
  · intro hadm
    obtain ⟨_, _, hclass, hproj⟩ := hunresolved _ hadm (by simp)
    have hstart : classifyClient (start s).state client = _ := hclass
    obtain ⟨_, reply, hdec⟩ := exists_decided ext (start s).state client action
    have hreply : (applyClient ext (start s) logId client action).2 =
      ⟨.consumed, reply, false⟩ := by
      simp [applyClient, hstart, hdec.applyDecided ext logId]
    refine ⟨reply, hreply, ?_⟩
    rcases project_eq_admitted hproj with ⟨_, hverdict⟩ | ⟨reason, hreason, hdenied⟩
    · exact .inl (hdec.of_verdict hverdict)
    · obtain ⟨-, rfl⟩ := hdec.of_error hreason
      exact .inr ⟨rfl, reason.refusable, RefusalReason.isDenied_eq_false hdenied⟩
  · have hguard : guardDelivery (start s).state logId = .ok () := hpasses
    simp [deliver, applyCommand, applyCommandRecording, hguard, dispatch, applied]

end

end AsterRpc.Coordination

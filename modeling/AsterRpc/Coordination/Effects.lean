import AsterRpc.Coordination.Step

/-!
# What a step makes of each table

`Step` says which rows a command writes; here each table gets its own summary,
with the old row, the new row and every bound the decision checked.  The
invariants of the tables are proved from these summaries and never look at a
decision again.
-/

namespace AsterRpc.Coordination

open AsterRpc.Foundation

variable {actor : NodeId} {ext : Externals} {logId : LogId} {command : Command} {change : RowChange}
  {entry : Option (SessionKey × Session)} {row : AuditRow} {reply : CommandReply} {s : State}

/-! ### Resource rows -/

/-- The row of a resource, touched or not. -/
def State.rowOf (s : State) (key : ResourceKey) : ResourceRow := s.resources[key]?.getD default

/-- What one command may make of a resource row. -/
inductive RowMove : ResourceRow → ResourceRow → Prop where
  | acquired (row : ResourceRow) (actor : NodeId) (ttlMs : ℕ) (hfree : row.held = false)
      (httl : minTtlMs ≤ ttlMs ∧ ttlMs ≤ maxTtlMs) (hepoch : row.epoch < maxCounter)
      (hlease : row.leaseRevision < maxCounter) : RowMove row (row.acquired actor ttlMs)
  | renewed (row : ResourceRow) (hlease : row.leaseRevision < maxCounter) : RowMove row row.renewed
  | mutated (row : ResourceRow) (value : Bytes) (hvalue : value.length ≤ maxValue)
      (hrev : row.valueRevision < maxCounter) : RowMove row (row.mutated value)
  | ended (row : ResourceRow) (hepoch : row.epoch < maxCounter)
      (hlease : row.leaseRevision < maxCounter) : RowMove row row.ended
  | handedOver (row : ResourceRow) (value : Bytes) (hvalue : value.length ≤ maxValue)
      (hepoch : row.epoch < maxCounter) (hlease : row.leaseRevision < maxCounter)
      (hrev : row.valueRevision < maxCounter) : RowMove row (row.mutated value).ended
  | regranted (row : ResourceRow) (hacl : row.aclRevision < maxCounter) :
      RowMove row (row.regranted row.aclRevision false)
  | fenced (row : ResourceRow) (hacl : row.aclRevision < maxCounter)
      (hepoch : row.epoch < maxCounter) (hlease : row.leaseRevision < maxCounter) :
      RowMove row (row.regranted row.aclRevision true)

theorem checkValue_eq_ok {value : Bytes} : checkValue value = .ok () ↔ value.length ≤ maxValue := by
  simp [checkValue]

theorem decideResource_rowMove {action : ResourceAction} {e : ResourceEffect}
    (h : decideResource s actor action = .ok e) : RowMove (s.rowOf e.key) e.row := by
  obtain ⟨_, -, hshape, -, -, hstep⟩ := decideResource_ok h
  cases hstep with
  | acquire raw ttlMs row hrow hfree hslots hfits hepoch hlease =>
    subst hrow
    rw [ResourceAction.checkShape] at hshape
    exact .acquired _ actor ttlMs hfree (by simpa [checkTtl] using hshape) hepoch hlease
  | renew fence row hrow htenure hlease =>
    rw [State.rowOf, hrow]
    exact .renewed row hlease
  | compareAndSet fence newValue row hrow htenure hfits hrev =>
    rw [State.rowOf, hrow]
    exact .mutated row newValue (checkValue_eq_ok.mp hshape) hrev
  | release fence row hrow htenure hepoch hlease
  | revoke raw expectedEpoch row hrow hexp hepoch hlease =>
    rw [State.rowOf, hrow]
    exact .ended row hepoch hlease
  | releaseWithValue fence finalValue row hrow htenure hfits hepoch hlease hrev =>
    rw [State.rowOf, hrow]
    exact .handedOver row finalValue (checkValue_eq_ok.mp hshape) hepoch hlease hrev

theorem decideGrant_rowMove {action : GrantAction} {e : GrantEffect}
    (h : decideGrant s actor action = .ok (.apply e)) : RowMove (s.rowOf e.key) e.row := by
  have hstep := decideGrant_apply h
  rw [hstep.row]
  cases hfenced : e.fenced with
  | false => exact .regranted _ hstep.aclRoom
  | true => exact .fenced _ hstep.aclRoom (hstep.fenceRoom hfenced).1 (hstep.fenceRoom hfenced).2

theorem decideExpire_rowMove {command : ExpireCommand} {row : ResourceRow}
    (h : decideExpire s command = .apply row) : RowMove (s.rowOf command.resource) row := by
  obtain ⟨old, hold, -, -, -, hepoch, hlease, rfl⟩ := decideExpire_apply h
  rw [State.rowOf, hold]
  exact .ended old hepoch hlease

/-- **Resource rows**: a step leaves the table alone or moves one row of it. -/
theorem Step.resources (h : Step ext s logId command change entry row reply) :
    change.resources s.resources = s.resources ∨
      ∃ key new, RowMove (s.rowOf key) new ∧
        change.resources s.resources = s.resources.insert key new := by
  cases h with
  | decided client action change reply row creates hclass hdec =>
    cases hdec with
    | resource a e he => exact .inr ⟨e.key, e.row, decideResource_rowMove he, rfl⟩
    | grant a e he => exact .inr ⟨e.key, e.row, decideGrant_rowMove he, rfl⟩
    | _ => exact .inl rfl
  | expired command row he => exact .inr ⟨command.resource, row, decideExpire_rowMove he, rfl⟩
  | _ => exact .inl rfl

/-- **One row across one delivery**: it stays as it is or makes one move. -/
theorem deliver_rowOf (ext : Externals) (s : State) (d : Delivery) (key : ResourceKey) :
    (deliver ext s d).1.rowOf key = s.rowOf key ∨
      RowMove (s.rowOf key) ((deliver ext s d).1.rowOf key) := by
  refine deliver_elim ext s d (fun _ => .inl rfl) fun _ hstep hdone => ?_
  obtain ⟨_, _, _, -, rfl⟩ := hdone
  rcases hstep.resources with hsame | ⟨k, _, hmove, hins⟩
  · exact .inl (by simp only [State.rowOf, hsame])
  · by_cases hk : k = key
    · subst hk
      exact .inr (by
        simpa only [State.rowOf, hins, Table.get?_insert, if_true, Option.getD_some] using hmove)
    · exact .inl (by simp only [State.rowOf, hins, Table.get?_insert, if_neg hk])

/-! ### Grants -/

/-- **Grants**: a step leaves them alone or changes one as an administrator asked. -/
theorem Step.grants (h : Step ext s logId command change entry row reply) :
    change.acl s.acl = s.acl ∨
      ∃ actor action e, change = .grant e ∧ GrantStep s actor action e := by
  cases h with
  | decided client action change reply row creates hclass hdec =>
    cases hdec with
    | grant a e he => exact .inr ⟨client.actor, a, e, rfl, decideGrant_apply he⟩
    | _ => exact .inl rfl
  | _ => exact .inl rfl

/-! ### The administrators' revision -/

/-- **The administrators' revision** is left alone or raised by one, below its limit. -/
theorem Step.adminRevision (h : Step ext s logId command change entry row reply) :
    change.adminRevision s.adminRevision = s.adminRevision ∨
      (s.adminRevision < maxCounter ∧
        change.adminRevision s.adminRevision = s.adminRevision + 1) := by
  cases h with
  | decided client action change reply row creates hclass hdec =>
    cases hdec with
    | admin a e he =>
      have hstep := decideAdmin_apply he
      exact .inr ⟨hstep.room, hstep.revision⟩
    | _ => exact .inl rfl
  | genesisInstalled bytes verified hver hrev =>
    rw [hrev]
    exact .inr ⟨by decide, rfl⟩
  | _ => exact .inl rfl

/-! ### Intents and routes -/

/-- The three ways an intent is written. -/
inductive IntentMove (ext : Externals) (s : State) : Command → IntentEffect → Prop where
  | change (client : ClientRef) (action : ChangeMembershipAction) (e : IntentEffect)
      (h : ChangeStep ext s client.actor client.requestHash action e) :
      IntentMove ext s (.client client (.changeMembership action)) e
  | cancel (client : ClientRef) (action : CancelMembershipAction) (e : IntentEffect)
      (h : CancelStep s action e) : IntentMove ext s (.client client (.cancelMembership action)) e
  | progress (command : MembershipProgressCommand) (existing : Intent) (e : IntentEffect)
      (hdec : decideProgress s command = some e) (h : ProgressStep s command existing e) :
      IntentMove ext s (.membershipProgress command) e

/-- What a cancellation and a report have in common: an intent that is under way keeps its plan and
moves to another phase, and if that phase is terminal the oldest terminal intents make room. -/
structure IntentUpdate (s : State) (e : IntentEffect) (existing : Intent) : Prop where
  found : s.intents[e.operationId]? = some existing
  live : isTerminalPhase existing.statusCode = false
  intent : e.intent =
    { existing with
      statusCode := e.intent.statusCode
      resultCode := e.intent.resultCode
      observedMembershipLogId := e.intent.observedMembershipLogId }
  evict : e.evict = if isTerminalPhase e.intent.statusCode then evictions s 1 else []
  routes : e.routes = []
  evictRoutes : e.evictRoutes = []

theorem CancelStep.update {action : CancelMembershipAction} {e : IntentEffect}
    (h : CancelStep s action e) : ∃ existing, IntentUpdate s e existing := by
  cases h with
  | pending existing hprev hphase | adding existing hprev hphase =>
    exact ⟨existing, hprev, by rw [hphase]; decide, rfl, rfl, rfl, rfl⟩

theorem isLegalTransition_live {current next : Int} (h : isLegalTransition current next = true) :
    isTerminalPhase current = false := by
  simp only [isLegalTransition, Bool.and_eq_true, Bool.not_eq_true'] at h
  exact h.1

theorem ProgressStep.update {command : MembershipProgressCommand} {existing : Intent}
    {e : IntentEffect} (h : ProgressStep s command existing e) : IntentUpdate s e existing := by
  have heffect := h.effect
  subst heffect
  exact ⟨h.found, isLegalTransition_live h.legal, rfl, rfl, rfl, rfl⟩

namespace IntentUpdate

variable {e : IntentEffect} {existing : Intent}

theorem evict_nodup (h : IntentUpdate s e existing) : e.evict.Nodup := by
  rw [h.evict]
  split_ifs
  · exact evictions_nodup s 1
  · exact List.nodup_nil

/-- Only terminal intents are pushed out, and this one was not terminal. -/
theorem notMem_evict (h : IntentUpdate s e existing) : e.operationId ∉ e.evict := by
  rw [h.evict]
  split_ifs
  · intro hmem
    obtain ⟨_, hintent, hterm⟩ := evictions_terminal hmem
    rw [h.found] at hintent
    cases hintent
    rw [h.live] at hterm
    cases hterm
  · exact List.not_mem_nil

end IntentUpdate

/-- An intent is written as a new one, or as an update of one that is under way. -/
theorem IntentMove.cases {e : IntentEffect} (h : IntentMove ext s command e) :
    (∃ actor requestHash action, ChangeStep ext s actor requestHash action e) ∨
      ∃ existing, IntentUpdate s e existing := by
  cases h with
  | change client action e h => exact .inl ⟨_, _, action, h⟩
  | cancel client action e h => exact .inr h.update
  | progress command existing e hdec h => exact .inr ⟨existing, h.update⟩

/-- **Intents and routes**: a step leaves both tables alone or writes one intent with its routes. -/
theorem Step.intents (h : Step ext s logId command change entry row reply) :
    (change.intents logId s.intents = s.intents ∧ change.routes logId s.routes = s.routes) ∨
      ∃ e, change = .intent e ∧ IntentMove ext s command e := by
  cases h with
  | decided client action change reply row creates hclass hdec =>
    cases hdec with
    | change a e he => exact .inr ⟨e, rfl, .change client a e (decideChange_apply ext he)⟩
    | cancel a e he => exact .inr ⟨e, rfl, .cancel client a e (decideCancel_ok he)⟩
    | _ => exact .inl ⟨rfl, rfl⟩
  | progressed command e he =>
    obtain ⟨existing, hprog⟩ := decideProgress_some he
    exact .inr ⟨e, rfl, .progress command existing e he hprog⟩
  | _ => exact .inl ⟨rfl, rfl⟩

/-! ### Journals -/

/-- What writing a journal row demands: room for a new one, and an open journal to keep open. -/
structure JournalMove (s : State) (key : SessionKey) (row : Session) : Prop where
  retained : s.sessions[key]? = none → (s.capacityFor key.1).retainedExhausted = false
  active : s.sessions[key]? = none → row.retired = false →
    (s.capacityFor key.1).activeExhausted = false
  live : ∀ old, s.sessions[key]? = some old → row.retired = false → old.retired = false

theorem RetireStep.journalMove {command : RetireCommand} {row : Session}
    (h : RetireStep s command row) : JournalMove s command.target row := by
  cases h with
  | convert existing hprev =>
    refine ⟨fun hnone => ?_, fun _ hret => ?_, fun _ _ hret => ?_⟩
    · rw [hnone] at hprev
      cases hprev
    · cases hret
    · cases hret
  | tombstone hnone hroom =>
    refine ⟨fun _ => hroom, fun _ hret => ?_, fun _ _ hret => ?_⟩
    · cases hret
    · cases hret

/-- **Journals**: a step leaves them alone or writes one row that had room. -/
theorem Step.journal (h : Step ext s logId command change entry row reply) :
    entry = none ∨ ∃ key session, entry = some (key, session) ∧ JournalMove s key session := by
  cases h with
  | decided client action change reply row creates hclass
  | rejectedFresh client code resource row creates hclass =>
    have hadm := classify_unresolved hclass
    exact .inr ⟨_, _, rfl, fun hnone => (hadm.room hnone).1,
      fun hnone _ => (hadm.room hnone).2, fun old hold _ => hadm.live old hold⟩
  | retired command row hretire => exact .inr ⟨_, _, rfl, hretire.journalMove⟩
  | _ => exact .inl rfl

/-! ### Audit rows -/

/-- What holds of the old audit rows and of the new one holds of those that are kept. -/
theorem auditAfter_allRows {P : AuditKey → AuditRow → Prop} (h : s.audit.AllRows P)
    (hrow : P (logId.term, logId.index) row) : (Working.auditAfter s logId row).AllRows P := by
  unfold Working.auditAfter
  exact Table.AllRows.dropFirst (Table.AllRows.insert h hrow) _

end AsterRpc.Coordination

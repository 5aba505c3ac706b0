import AsterRpc.Coordination.Preflight
import AsterRpc.Storage.LifeCycle

/-!
# Refusals and authority

A command that faults changes nothing, and one that is answered without a success
changes nothing but its own journal and the bookkeeping of the log.  What does
change rows needs authority: before a genesis there is no row and nobody to write
one, and after it grants, administrators and new intents are the work of the root
or of an administrator.
-/

namespace AsterRpc.Coordination

open AsterRpc.Foundation

section

variable {ext : Externals} {s : State} {logId : LogId} {command : Command} {change : RowChange}
  {entry : Option (SessionKey × Session)} {row : AuditRow} {reply : CommandReply}

/-! ### Refusals -/

/-- The answers that are no success of their own: a rejection, a replay, and the system results
other than an expiry, a membership report that was taken and an installed genesis. -/
def CommandReply.isQuiet : CommandReply → Bool
  | .client result => result.replayed || result.reply.outcome == .rejected
  | .system result => result.systemResultCode ∉
      [sysExpired, sysMembershipAdvanced, sysGenesisInstalled]
  | .retirement result => result.outcome == .rejected

/-- Nothing differs but journals, the audit trail and its counter, and the last applied entry. -/
def BookkeepingOnly (s s' : State) : Prop :=
  s' = { s with
    sessions := s'.sessions
    auditTip := s'.auditTip
    audit := s'.audit
    reserveBytes := s'.reserveBytes
    auditFloor := s'.auditFloor
    lastApplied := s'.lastApplied }

/-- The key of the journal a command is recorded in. -/
def Command.journalKey? (command : Command) : Option SessionKey :=
  command.clientRef?.map ClientRef.key

theorem Decided.of_rejected {client : ClientRef} {action : Action} {saved : SavedReply}
    (h : Decided ext s client action change saved) (hrejected : saved.outcome = .rejected) :
    change = .none := by
  cases hdecide : action.decide ext s client.actor client.requestHash with
  | ok => exact absurd hrejected (h.of_verdict hdecide).1
  | error => exact (h.of_error hdecide).1

/-- A step that is no success writes no row, and no journal but its own. -/
theorem Step.quiet (h : Step ext s logId command change entry row reply)
    (hquiet : reply.isQuiet = true) :
    change = .none ∧ ∀ written ∈ entry, command.journalKey? = some written.1 := by
  cases h with
  | decided client action change saved row creates hclass hdec =>
    have hrejected : saved.outcome = .rejected := by simpa [CommandReply.isQuiet] using hquiet
    refine ⟨hdec.of_rejected hrejected, fun written hwrote => ?_⟩
    cases hwrote
    rfl
  | rejectedFresh =>
    refine ⟨rfl, fun written hwrote => ?_⟩
    cases hwrote
    rfl
  | expired | progressed | genesisInstalled | retired => cases hquiet
  | _ => exact ⟨rfl, fun written hwrote => nomatch hwrote⟩

theorem Performed.bookkeepingOnly {s' : State} (h : Performed s s' logId .none entry row) :
    BookkeepingOnly s s' := by
  obtain ⟨_, _, _, hgrowth, rfl⟩ := h
  unfold BookkeepingOnly
  dsimp only [RowChange.resources, RowChange.acl, RowChange.admins, RowChange.intents,
    RowChange.routes, RowChange.adminRevision]
  rw [hgrowth rfl]

/-- **Faults and refusals are atomic.**  A command that faults leaves state and recorded changes as
they were.  A command that is answered without a success of its own leaves every resource, grant,
administrator, intent and route, the membership and the growth counter as they were, and every
journal but the one it was issued in. -/
theorem faults_and_refusals_are_atomic (ext : Externals) (w : Working) (logId : LogId)
    (command : Command) :
    (∀ fault, (applyCommandRecording ext w logId command).2 = .error fault →
      (applyCommandRecording ext w logId command).1 = w) ∧
    ∀ reply, (applyCommandRecording ext w logId command).2 = .ok reply → reply.isQuiet = true →
      let s' := (applyCommandRecording ext w logId command).1.state
      BookkeepingOnly w.state s' ∧
        ∀ key, command.journalKey? ≠ some key → s'.sessions[key]? = w.state.sessions[key]? := by
  obtain ⟨fault, hfault⟩ | ⟨reply, _, entry, row, -, hstep, hrecorded⟩ :=
    applyCommandRecording_cases ext w logId command
  · rw [hfault]
    exact ⟨fun _ _ => rfl, fun reply h => nomatch h⟩
  · rw [hrecorded]
    refine ⟨fun fault h => (nomatch h), fun reply' h hquiet => ?_⟩
    cases h
    obtain ⟨rfl, hentry⟩ := hstep.quiet hquiet
    have hdone := w.perform_state ext logId .none entry row
    refine ⟨hdone.bookkeepingOnly, fun key hkey => ?_⟩
    rw [hdone.sessions]
    cases entry with
    | none => rfl
    | some written =>
      refine Table.get?_insert_of_ne _ _ fun heq => hkey ?_
      rw [hentry written rfl, heq]

/-! ### Authority -/

/-- Before a genesis: no row, and nobody to write one. -/
def State.Unfounded (s : State) : Prop :=
  s.adminRevision = 0 ∧ s.resources = ∅ ∧ s.acl = ∅ ∧ s.admins = ∅ ∧ s.intents = ∅ ∧ s.routes = ∅

/-- Before a genesis a step writes no row, unless it is the genesis. -/
theorem Step.unfounded (h : Step ext s logId command change entry row reply)
    (hs : s.Unfounded) :
    change = .none ∨ ∃ bytes verified, command = .genesis bytes ∧ change = .genesis verified ∧
      checkGenesis ext s bytes = .ok verified ∧ reply = .system ⟨sysGenesisInstalled, 0⟩ := by
  obtain ⟨hrev, hrows, hacl, -, hintents, -⟩ := hs
  have hnobody : ∀ actor, s.isAdministrator actor = false := by
    intro actor
    rw [State.isAdministrator, hrev]
    rfl
  cases h with
  | decided client action change saved row creates hclass hdec =>
    cases hdec with
    | resource a e he =>
      -- no grant, so no right, and every action needs one
      obtain ⟨key, -, -, hright, -, -⟩ := decideResource_ok he
      have hnone : grantedRights s key client.actor = 0 := by simp [grantedRights, hacl]
      rw [hnone] at hright
      cases a <;> exact absurd hright (by simp only [ResourceAction.requiredRights]; decide)
    | grant a e he => exact absurd (decideGrant_apply he).admin (by simp [hnobody])
    | admin a e he => exact absurd (decideAdmin_apply he).admin (by simp [hnobody])
    | change a e he => exact absurd (decideChange_apply ext he).admin (by simp [hnobody])
    | cancel a e he =>
      obtain ⟨_, hupd⟩ := (decideCancel_ok he).update
      have hfound := hupd.found
      simp [hintents] at hfound
    | _ => exact .inl rfl
  | expired command row he =>
    obtain ⟨_, hold, -⟩ := decideExpire_apply he
    simp [hrows] at hold
  | progressed command e he =>
    obtain ⟨_, hprog⟩ := decideProgress_some he
    have hfound := hprog.found
    simp [hintents] at hfound
  | genesisInstalled bytes verified hver =>
    exact .inr ⟨bytes, verified, rfl, rfl, hver, rfl⟩
  | _ => exact .inl rfl

/-- The tables that say who may do what, and the plans under way, are as they were. -/
def SameAuthority (s s' : State) : Prop :=
  s'.acl = s.acl ∧ s'.admins = s.admins ∧
    ∀ id : OperationId, s.intents[id]? = none → s'.intents[id]? = none

/-- A step that moves them is the genesis, or asked for by the root or an administrator. -/
theorem Step.authority {s' : State} (h : Step ext s logId command change entry row reply)
    (hdone : Performed s s' logId change entry row) :
    SameAuthority s s' ∨
    (∃ client action, command = .client client action ∧ s.isAdministrator client.actor = true) ∨
    (s.adminRevision = 0 ∧ reply = .system ⟨sysGenesisInstalled, 0⟩) := by
  obtain ⟨_, _, _, -, rfl⟩ := hdone
  have hupdates : ∀ e existing, IntentUpdate s e existing → ∀ id : OperationId,
      s.intents[id]? = none → ((RowChange.intent e).intents logId s.intents)[id]? = none := by
    intro e existing hupd id hnone
    have hne : e.operationId ≠ id := by
      rintro rfl
      rw [hupd.found] at hnone
      cases hnone
    rw [get?_intents, if_neg hne, hnone, ite_self]
  cases h with
  | decided client action change saved row creates hclass hdec =>
    cases hdec with
    | grant a e he => exact .inr (.inl ⟨client, _, rfl, (decideGrant_apply he).admin⟩)
    | admin a e he => exact .inr (.inl ⟨client, _, rfl, (decideAdmin_apply he).admin⟩)
    | change a e he => exact .inr (.inl ⟨client, _, rfl, (decideChange_apply ext he).admin⟩)
    | cancel a e he =>
      obtain ⟨existing, hupd⟩ := (decideCancel_ok he).update
      exact .inl ⟨rfl, rfl, hupdates e existing hupd⟩
    | _ => exact .inl ⟨rfl, rfl, fun id hnone => hnone⟩
  | progressed command e he =>
    obtain ⟨existing, hprog⟩ := decideProgress_some he
    exact .inl ⟨rfl, rfl, hupdates e existing hprog.update⟩
  | genesisInstalled bytes verified hver hrev =>
    exact .inr (.inr ⟨hrev, rfl⟩)
  | _ => exact .inl ⟨rfl, rfl, fun id hnone => hnone⟩

/-- What holds of a group of this authority from before its genesis on. -/
structure State.Chartered (authority : GroupAuthority) (s : State) : Prop where
  authority : s.authority = authority
  unfounded : s.adminRevision = 0 → s.Unfounded
  admins : s.AdminsValid
  few : s.admins.card ≤ maxAdminsPerGroup
  grants : s.GrantsValid

variable {authority : GroupAuthority}

theorem advance_chartered (ext : Externals) (s : DurableState) (e : GroupEvent)
    (h : s.model.Chartered authority) : (advance ext s e).1.model.Chartered authority := by
  obtain ⟨_, _, _, hmodel⟩ | ⟨_, _, _, change, _, _, -, -, hstep,
    _, _, _, -, hmodel⟩ := advance_cases ext s e
  · rw [hmodel]
    exact ⟨h.authority, h.unfounded, ⟨h.admins.revision, h.admins.started, h.admins.root⟩, h.few,
      h.grants⟩
  · rw [hmodel]
    obtain ⟨hstarted, hroot, hfew⟩ := hstep.adminsValid h.admins h.few
    have hpre := h.admins.revision
    have hrev : change.adminRevision s.model.adminRevision ≤ maxCounter ∧
        (change.adminRevision s.model.adminRevision = 0 → s.model.adminRevision = 0) := by
      rcases hstep.adminRevision with hsame | ⟨hroom, hnext⟩ <;> omega
    refine ⟨h.authority, fun hzero => ?_, ⟨hrev.1, hstarted, hroot⟩, hfew,
      hstep.grantsValid h.grants⟩
    have hs := h.unfounded (hrev.2 hzero)
    rcases hstep.unfounded hs with rfl | ⟨_, _, -, rfl, -⟩
    · exact hs
    · exact absurd hzero Nat.one_ne_zero

/-! ### Runs -/

/-- A group before its genesis, bound to its authority. -/
def DurableState.preGenesis (s : DurableState) : DurableState :=
  { s with model := { s.model with
      resources := ∅, acl := ∅, admins := ∅, intents := ∅, routes := ∅, adminRevision := 0 } }

variable (ext)

theorem run_chartered (s : DurableState) (es : List GroupEvent) :
    (run (advance ext) s.preGenesis es).model.Chartered s.model.authority := by
  refine run_invariant (I := fun s' : DurableState => s'.model.Chartered s.model.authority)
    (advance_chartered ext) ?_ es
  exact ⟨rfl, fun _ => ⟨rfl, rfl, rfl, rfl, rfl, rfl⟩,
    ⟨Nat.zero_le _, iff_of_true rfl rfl, Finset.notMem_empty _⟩, Nat.zero_le _,
    fun key rights h => by simp [DurableState.preGenesis] at h⟩

/-- A genesis that verifies under the bound root key was installed in this run. -/
def Installed (s : DurableState) (es : List GroupEvent) : Prop :=
  ∃ pre logId bytes post verified, es = pre ++ .command (logId, .genesis bytes) :: post ∧
    verifyGenesis ext s.model.authority.publicKey s.model.authority.domain bytes = .ok verified ∧
    (advance ext (run (advance ext) s pre) (.command (logId, .genesis bytes))).2 =
      .ok (some (.system ⟨sysGenesisInstalled, 0⟩))

/-- **A group has administrators exactly from its genesis on.** -/
theorem adminRevision_pos_iff (s : DurableState) (es : List GroupEvent) :
    0 < (run (advance ext) s.preGenesis es).model.adminRevision ↔
      Installed ext s.preGenesis es := by
  constructor
  · intro hpos
    -- the step at which the revision leaves zero is the genesis
    obtain ⟨pre, e, post, rfl, hpre, hafter⟩ :=
      run_leaves (I := fun s' : DurableState => s'.model.adminRevision = 0) rfl
        (Nat.pos_iff_ne_zero.mp hpos)
    have hchart := run_chartered ext s pre
    obtain ⟨_, _, _, hmodel⟩ | ⟨logId, _, _, _, _, _, rfl, hreply, hstep,
      hdone⟩ := advance_cases ext (run (advance ext) s.preGenesis pre) e
    · rw [hmodel] at hafter
      exact absurd hpre hafter
    · rcases hstep.unfounded (hchart.unfounded hpre) with
        rfl | ⟨bytes, verified, rfl, -, hver, rfl⟩
      · rw [hdone.adminRevision] at hafter
        exact absurd hpre hafter
      · have hverifies := checkGenesis_verifies hver
        rw [hchart.authority] at hverifies
        exact ⟨pre, logId, bytes, post, verified, rfl, hverifies, hreply⟩
  · rintro ⟨_, logId, bytes, post, verified, rfl, -, hreply⟩
    rw [run_append, run_cons]
    refine run_invariant (I := fun s' : DurableState => 0 < s'.model.adminRevision) ?_ ?_ post
    · intro s' e hpos
      obtain ⟨_, _, _, hmodel⟩ | ⟨logId, _, _, _, _, _, -, -, hstep,
        hdone⟩ := advance_cases ext s' e
      · rw [hmodel]
        exact hpos
      · rw [hdone.adminRevision]
        rcases hstep.adminRevision with hsame | ⟨-, hnext⟩ <;> omega
    · revert hreply
      simp only [advance]
      refine deliver_elim ext _ (logId, .genesis bytes) (fun _ h => by cases h)
        fun _ hstep hdone _ => ?_
      rw [hdone.adminRevision]
      cases hstep with
      | genesisAgain bytes verified h hrev => exact hrev
      | genesisInstalled => exact Nat.one_pos

/-- **Authority is only ever widened by authority.**  In any run from before the genesis: until one
that verifies under the bound root key is installed there is no resource, grant, administrator,
intent or route; from then on there are administrators, and a further genesis changes nothing but
the audit trail.  The root is no administrator, every grant is of known rights on a resource that is
there, and only the root, an administrator or the first genesis changes a grant or an administrator
or makes an intent. -/
theorem authority_widened_by_authority (s₀ : DurableState) (es : List GroupEvent) :
    let s := run (advance ext) s₀.preGenesis es
    (¬ Installed ext s₀.preGenesis es → s.model.Unfounded) ∧
    (Installed ext s₀.preGenesis es → s.model.admins ≠ ∅ ∧ ∀ logId bytes,
      BookkeepingOnly s.model (deliver ext s.model (logId, .genesis bytes)).1 ∧
        (deliver ext s.model (logId, .genesis bytes)).1.sessions = s.model.sessions) ∧
    s₀.model.authority.publicKey ∉ s.model.admins ∧ s.model.GrantsValid ∧
    ∀ e, SameAuthority s.model (advance ext s e).1.model ∨
      (∃ logId client action, e = .command (logId, .client client action) ∧
        s.model.isAdministrator client.actor = true) ∨
      (¬ Installed ext s₀.preGenesis es ∧
        (advance ext s e).2 = .ok (some (.system ⟨sysGenesisInstalled, 0⟩))) := by
  intro s
  have hchart := run_chartered ext s₀ es
  have hroot := hchart.admins.root
  rw [hchart.authority] at hroot
  rw [← adminRevision_pos_iff, Nat.not_lt, Nat.le_zero]
  refine ⟨hchart.unfounded, fun hpos => ⟨fun hempty => ?_, fun logId bytes => ?_⟩, hroot,
    hchart.grants, fun e => ?_⟩
  · exact Nat.pos_iff_ne_zero.mp hpos (hchart.admins.started.mpr hempty)
  · refine deliver_elim ext s.model _ (fun _ => ⟨rfl, rfl⟩) fun _ hstep hdone => ?_
    cases hstep with
    | genesisAgain => exact ⟨hdone.bookkeepingOnly, hdone.sessions⟩
    | genesisInstalled _ _ _ hrev => exact absurd hrev (Nat.ne_of_gt hpos)
  · obtain ⟨_, _, _, hmodel⟩ | ⟨logId, _, _, _, _, _, rfl, hreply, hstep,
      hdone⟩ := advance_cases ext s e
    · rw [hmodel]
      exact .inl ⟨rfl, rfl, fun id hnone => hnone⟩
    · rcases hstep.authority hdone with hsame | ⟨client, action, rfl, hadmin⟩ |
        ⟨hrev, rfl⟩
      · exact .inl hsame
      · exact .inr (.inl ⟨logId, client, action, rfl, hadmin⟩)
      · exact .inr (.inr ⟨hrev, hreply⟩)

end

end AsterRpc.Coordination

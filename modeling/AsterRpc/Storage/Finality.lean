import AsterRpc.Coordination.Preflight
import AsterRpc.Coordination.Revisions
import AsterRpc.Storage.AuditTrail
import AsterRpc.Storage.Machine
import AsterRpc.Storage.Slots

/-!
# Terminal refusals are final

Six reasons for not consuming a request are terminal: no command lowers a
counter, deletes a resource or a journal, or makes the root an ordinary node, and
a request that names a revision is past it once the revision has moved.  Each
reason is turned into a bar that stands in the state, every step leaves the bar
standing, and behind a bar nothing is ever applied.
-/

namespace AsterRpc.Coordination

open AsterRpc.Foundation Table

section

variable {actor : NodeId} {key : ResourceKey} {a : ResourceAction} {row old new : ResourceRow}
  {reason : RefusalReason} {requestHash : Hash} {s : State} {client : ClientRef} {action : Action}

/-! ### Shut journals -/

/-- The journal never takes this request: it is retired, it is not there and will never be, or the
sequence is past its ceiling. -/
inductive Shut (s : State) (client : ClientRef) : Prop where
  | retired (x : Session) (hx : s.sessions[client.key]? = some x) (hret : x.retired = true)
  | full (hnone : s.sessions[client.key]? = none)
      (hfull : (s.capacityFor client.actor).retainedExhausted = true)
  | ceiling (hseq : maxCounter < client.sequence)

theorem Shut.not_admitted (h : Shut s client) :
    ¬ Admitted s.sessions[client.key]? client.sequence (s.capacityFor client.actor) := by
  intro hadm
  cases h with
  | retired x hx hret =>
    rw [hadm.live x hx] at hret
    cases hret
  | full hnone hfull =>
    rw [(hadm.room hnone).1] at hfull
    cases hfull
  | ceiling =>
    have hbounded := hadm.bounded
    omega

/-- Journals are never dropped, so what is full stays full. -/
theorem retainedExhausted_insert {s s' : State} {key : SessionKey} {row : Session}
    (h : s'.sessions = s.sessions.insert key row) (actor : NodeId)
    (hfull : (s.capacityFor actor).retainedExhausted = true) :
    (s'.capacityFor actor).retainedExhausted = true := by
  have hgroup : s.sessions.size ≤ s'.sessions.size := by
    rw [h, size_eq_countWhere, size_eq_countWhere]
    exact countWhere_le_insert fun _ _ _ => rfl
  have hactor : s.sessions.countWhere (fun k _ => k.1 == actor) ≤
      s'.sessions.countWhere fun k _ => k.1 == actor := by
    rw [h]
    exact countWhere_le_insert fun _ _ hkey => hkey
  simp only [Capacity.retainedExhausted, State.capacityFor, Bool.or_eq_true, decide_eq_true_eq,
    ge_iff_le] at hfull ⊢
  rcases hfull with hfull | hfull
  · exact .inl (Nat.le_trans hfull hgroup)
  · exact .inr (Nat.le_trans hfull hactor)

section

variable (ext : Externals)

theorem Shut.full_insert {s s' : State} {key : SessionKey} {row : Session}
    (hsess : s'.sessions = s.sessions.insert key row) (hne : key ≠ client.key)
    (hnone : s.sessions[client.key]? = none)
    (hfull : (s.capacityFor client.actor).retainedExhausted = true) : Shut s' client := by
  refine .full ?_ (retainedExhausted_insert hsess client.actor hfull)
  rw [hsess, get?_insert_of_ne _ _ hne]
  exact hnone

/-- **A shut journal stays shut.** -/
theorem deliver_shut (h : Shut s client) (d : Delivery) :
    Shut (deliver ext s d).1 client := by
  cases h with
  | retired x hx hret =>
    obtain ⟨y, hy, -, hfrozen⟩ := deliver_sessionsAdvance ext s d client.key x hx
    exact .retired y hy (by rw [hfrozen hret]; exact hret)
  | full hnone hfull =>
    obtain hsame | ⟨c, r, -, hadm, hins⟩ | ⟨command, _, hretire, -, hins⟩ :=
      deliver_sessions ext s d
    · refine .full (by rw [hsame]; exact hnone) ?_
      have hcapacity : (deliver ext s d).1.capacityFor client.actor =
          s.capacityFor client.actor := by
        simp [State.capacityFor, hsame]
      rw [hcapacity]
      exact hfull
    · refine Shut.full_insert hins (fun hkey => ?_) hnone hfull
      -- a new journal under this key would have needed the room that is not there
      have hactor : c.actor = client.actor := congrArg Prod.fst hkey
      rw [hkey, hactor] at hadm
      rw [(hadm.room hnone).1] at hfull
      cases hfull
    · refine Shut.full_insert hins (fun hkey => ?_) hnone hfull
      have hactor : command.targetActor = client.actor := congrArg Prod.fst hkey
      cases hretire with
      | convert existing hprev =>
        rw [hkey, hnone] at hprev
        cases hprev
      | tombstone _ hroom =>
        rw [hactor, hfull] at hroom
        cases hroom
  | ceiling hseq => exact .ceiling hseq

end

/-! ### Barred actions -/

/-- The counters of its row that an action needs to raise. -/
def ResourceAction.counters (row : ResourceRow) : ResourceAction → List ℕ
  | .acquire _ _ => [row.epoch, row.leaseRevision]
  | .renew _ => [row.leaseRevision]
  | .compareAndSet _ _ _ => [row.valueRevision]
  | .release _ => [row.epoch, row.leaseRevision]
  | .releaseWithValue _ _ _ => [row.epoch, row.leaseRevision, row.valueRevision]
  | .revoke _ _ => [row.epoch, row.leaseRevision]

open ResourceAction

/-- What stands in the way of an action for good. -/
inductive Barred (s : State) : Action → Prop where
  /-- A counter the action needs to raise is at its limit. -/
  | counters (a : ResourceAction) (key : ResourceKey) (hkey : a.rawResource.validate = .ok key)
      (hspent : countersHaveRoom (a.counters (s.rowOf key)) = false) : Barred s (.resource a)
  /-- The resource is not there, and there is no slot for it. -/
  | slots (raw : RawResourceKey) (ttlMs : ℕ) (key : ResourceKey) (hkey : raw.validate = .ok key)
      (hnone : s.resources[key]? = none) (hfull : maxResourcesPerGroup ≤ s.resources.size) :
      Barred s (.resource (.acquire raw ttlMs))
  /-- The grants have moved past the revision the action names. -/
  | grantStale (a : GrantAction) (key : ResourceKey) (hkey : a.resource.validate = .ok key)
      (hstale : a.expectedAclRevision < (s.rowOf key).aclRevision) : Barred s (.grant a)
  /-- The grant would change something, and the grant revision is at its limit. -/
  | grantCeiling (a : GrantAction) (key : ResourceKey) (hkey : a.resource.validate = .ok key)
      (hrev : a.expectedAclRevision ≤ (s.rowOf key).aclRevision)
      (hmoves : grantChanges s.acl[(key, a.subject)]? a.rights = true)
      (hceil : maxCounter ≤ (s.rowOf key).aclRevision) : Barred s (.grant a)
  /-- The grant would end a tenure, and a counter of the tenure is at its limit. -/
  | grantFence (a : GrantAction) (key : ResourceKey) (hkey : a.resource.validate = .ok key)
      (hrev : a.expectedAclRevision ≤ (s.rowOf key).aclRevision)
      (hmoves : grantChanges s.acl[(key, a.subject)]? a.rights = true)
      (hfences : grantFences s.resources[key]? s.acl[(key, a.subject)]? a.subject a.rights = true)
      (hspent : maxCounter ≤ (s.rowOf key).epoch ∨ maxCounter ≤ (s.rowOf key).leaseRevision) :
      Barred s (.grant a)
  /-- The grant would change something on a resource that is not there and has no slot. -/
  | grantSlots (a : GrantAction) (key : ResourceKey) (hkey : a.resource.validate = .ok key)
      (hright : a.rights ≠ 0) (hmoves : grantChanges s.acl[(key, a.subject)]? a.rights = true)
      (hnone : s.resources[key]? = none) (hfull : maxResourcesPerGroup ≤ s.resources.size) :
      Barred s (.grant a)
  | root (a : AdminAction) (hroot : s.isRoot a.target = true) : Barred s (.admin a)
  /-- The administrators have moved past the revision the action names. -/
  | adminStale (a : AdminAction) (hstale : a.expectedAdminRevision < s.adminRevision) :
      Barred s (.admin a)
  | lastAdmin (a : AdminAction) (hrev : a.expectedAdminRevision ≤ s.adminRevision)
      (hmember : a.target ∈ s.admins) (hdisables : a.enabled = false) (hlast : s.admins.card ≤ 1) :
      Barred s (.admin a)
  | adminCeiling (a : AdminAction) (hrev : a.expectedAdminRevision ≤ s.adminRevision)
      (hmoves : decide (a.target ∈ s.admins) ≠ a.enabled)
      (hceil : maxCounter ≤ s.adminRevision) : Barred s (.admin a)

/-! ### Behind a bar nothing is accepted -/

theorem ResourceStep.counters_room {e : ResourceEffect}
    (h : ResourceStep s actor key a e) : countersHaveRoom (a.counters (s.rowOf key)) = true := by
  cases h with
  | acquire raw ttlMs row hrow hfree hslots hfits hepoch hlease =>
    subst hrow
    simp [counters, countersHaveRoom, State.rowOf, hepoch, hlease]
  | renew fence row hrow htenure hlease =>
    simp [counters, countersHaveRoom, State.rowOf, hrow, hlease]
  | compareAndSet fence newValue row hrow htenure hfits hrev =>
    simp [counters, countersHaveRoom, State.rowOf, hrow, hrev]
  | release fence row hrow htenure hepoch hlease
  | revoke raw expectedEpoch row hrow hexp hepoch hlease =>
    simp [counters, countersHaveRoom, State.rowOf, hrow, hepoch, hlease]
  | releaseWithValue fence finalValue row hrow htenure hfits hepoch hlease hrev =>
    simp [counters, countersHaveRoom, State.rowOf, hrow, hepoch, hlease, hrev]

section

variable {ext : Externals} {verdict : ActionVerdict}

theorem resource_decided
    (h : (Action.resource a).decide ext s actor requestHash = .ok verdict)
    (hkey : a.rawResource.validate = .ok key) : ∃ e, ResourceStep s actor key a e := by
  obtain ⟨e, he, -⟩ := map_eq_ok.mp h
  obtain ⟨_, hkey', -, -, -, hstep⟩ := decideResource_ok he
  cases hkey.symm.trans hkey'
  exact ⟨e, hstep⟩

/-- What an accepted grant, effective or not, was checked for. -/
theorem grant_decided {a : GrantAction}
    (h : (Action.grant a).decide ext s actor requestHash = .ok verdict)
    (hkey : a.resource.validate = .ok key) :
    a.expectedAclRevision = (s.rowOf key).aclRevision ∧
      (grantChanges s.acl[(key, a.subject)]? a.rights = true →
        ∃ e, e.key = key ∧ GrantStep s actor a e) := by
  obtain ⟨v, hv, -⟩ := map_eq_ok.mp h
  cases v with
  | apply e =>
    have hstep := decideGrant_apply hv
    cases hkey.symm.trans hstep.key
    exact ⟨hstep.revision, fun _ => ⟨e, rfl, hstep⟩⟩
  | noOp =>
    simp only [decideGrant, accepts_iff, shapeless_eq_ok] at hv
    obtain ⟨_, hkey', -, -, hrev, hv⟩ := hv
    cases hkey.symm.trans hkey'
    refine ⟨hrev, fun hmoves => ?_⟩
    rw [if_pos hmoves] at hv
    simp only [accepts_iff, reduceCtorEq, and_false, exists_false] at hv

/-- What an accepted change of an administrator, effective or not, was checked for. -/
theorem admin_decided {a : AdminAction}
    (h : (Action.admin a).decide ext s actor requestHash = .ok verdict) :
    s.isRoot a.target = false ∧ a.expectedAdminRevision = s.adminRevision ∧
      (decide (a.target ∈ s.admins) ≠ a.enabled → ∃ e, AdminStep s actor a e) := by
  obtain ⟨v, hv, -⟩ := map_eq_ok.mp h
  cases v with
  | apply e =>
    have hstep := decideAdmin_apply hv
    exact ⟨hstep.target ▸ hstep.notRoot, hstep.expected, fun _ => ⟨e, hstep⟩⟩
  | noOp =>
    simp only [decideAdmin, accepts_iff] at hv
    obtain ⟨-, hroot, hexp, hv⟩ := hv
    refine ⟨hroot, hexp, fun hmoves => ?_⟩
    rw [if_neg hmoves] at hv
    simp only [accepts_iff, reduceCtorEq, and_false, exists_false] at hv

/-- **Nothing is accepted behind a bar.** -/
theorem Barred.not_accepted (h : Barred s action) (actor : NodeId)
    (requestHash : Hash) (verdict : ActionVerdict) :
    action.decide ext s actor requestHash ≠ .ok verdict := by
  intro hok
  cases h with
  | counters a key hkey hspent =>
    obtain ⟨e, hstep⟩ := resource_decided hok hkey
    rw [hstep.counters_room] at hspent
    cases hspent
  | slots raw ttlMs key hkey hnone =>
    obtain ⟨e, hstep⟩ := resource_decided hok hkey
    cases hstep with
    | acquire raw ttlMs row hrow hfree hslots =>
      have hroom := hslots hnone
      omega
  | grantStale a key hkey =>
    have hrev := (grant_decided hok hkey).1
    omega
  | grantCeiling a key hkey hrev hmoves =>
    obtain ⟨e, rfl, hstep⟩ := (grant_decided hok hkey).2 hmoves
    have hroom : (s.rowOf e.key).aclRevision < maxCounter := hstep.aclRoom
    omega
  | grantFence a key hkey hrev hmoves hfences =>
    obtain ⟨e, rfl, hstep⟩ := (grant_decided hok hkey).2 hmoves
    have hroom : (s.rowOf e.key).epoch < maxCounter ∧ (s.rowOf e.key).leaseRevision < maxCounter :=
      hstep.fenceRoom (by rw [hstep.fenced, hstep.subject]; exact hfences)
    omega
  | grantSlots a key hkey hright hmoves hnone =>
    obtain ⟨e, rfl, hstep⟩ := (grant_decided hok hkey).2 hmoves
    have hcreates : e.createsResource = true := by
      rw [hstep.createsResource, hnone, hstep.rights, if_neg hright]
      rfl
    have hroom := hstep.resourceSlots hcreates
    omega
  | root a hroot =>
    rw [(admin_decided hok).1] at hroot
    cases hroot
  | adminStale =>
    have hexp := (admin_decided hok).2.1
    omega
  | lastAdmin a hrev hmember hdisables =>
    obtain ⟨e, hstep⟩ := (admin_decided hok).2.2 (by simp [hmember, hdisables])
    have hmore := hstep.keepsOne (by rw [hstep.enabled]; exact hdisables)
    omega
  | adminCeiling a hrev hmoves =>
    obtain ⟨e, hstep⟩ := (admin_decided hok).2.2 hmoves
    have hroom := hstep.room
    omega

end

/-! ### A terminal denial raises a bar -/

/-- A check that ends in a terminal refusal. -/
def Ends {α : Type} (x : Decision α) : Prop :=
  ∃ reason, x = .error (.refuse reason) ∧ reason.isTerminalWhenNotConsumed = true

/-- The simp set of a sequence of checks that ends in a terminal refusal. -/
theorem ends_iff :
    (∀ {α β : Type} (x : Decision α) (f : α → Decision β),
      Ends (x >>= f) ↔ Ends x ∨ ∃ a, x = .ok a ∧ Ends (f a)) ∧
    (∀ {α β : Type} (x : Decision α) (f : α → β), Ends (x.map f) ↔ Ends x) ∧
    (∀ (c : Bool) (reason : RefusalReason), Ends (refuseIf c (.refuse reason)) ↔
      c = true ∧ reason.isTerminalWhenNotConsumed = true) ∧
    (∀ {α : Type} (x : Option α) (reason : RefusalReason),
      Ends (requireSome x (.refuse reason)) ↔
        x = none ∧ reason.isTerminalWhenNotConsumed = true) ∧
    (∀ {α : Type} (check : Except ShapeLimit α), ¬ Ends (shapeless check)) ∧
    ∀ {α : Type} (a : α), ¬ Ends (.ok a) := by
  refine ⟨fun x f => ?_, fun x f => ?_, fun c => ?_, fun x => ?_, ?_, ?_⟩
  · cases x <;> simp [Ends, bind, Except.bind]
  · cases x <;> simp [Ends, Except.map]
  · cases c <;> simp [Ends, refuseIf]
  · cases x <;> simp [Ends, requireSome]
  · simp [Ends]
  · simp [Ends]

/-- A spent counter of the row that was found bars the action. -/
theorem barred_of_spent (hkey : a.rawResource.validate = .ok key)
    (hrow : s.resources[key]? = some row) (hspent : (!countersHaveRoom (a.counters row)) = true) :
    Barred s (.resource a) := by
  refine .counters a key hkey ?_
  rw [State.rowOf, hrow]
  simpa using hspent

theorem barred_of_transition (hkey : a.rawResource.validate = .ok key)
    (h : Ends (decideTransition s actor key a)) : Barred s (.resource a) := by
  cases a with
  | acquire raw ttlMs =>
    simp +decide only [decideTransition, decideAcquire, ends_iff, accepts_iff, and_true, and_false,
      false_or, or_false, Bool.and_eq_true, Option.isNone_iff_eq_none, decide_eq_true_eq] at h
    obtain ⟨-, ⟨hnone, hfull⟩ | ⟨-, -, hspent⟩⟩ := h
    · exact .slots raw ttlMs key hkey hnone hfull
    · exact .counters _ key hkey ((Bool.not_eq_true' _).mp hspent)
  | renew | release | revoke =>
    simp +decide only [decideTransition, decideRenew, decideRelease, decideRevoke, checkFence,
      ends_iff, accepts_iff, and_true, and_false, false_or, or_false] at h
    obtain ⟨row, hrow, -, hspent⟩ := h
    exact barred_of_spent hkey hrow hspent
  | compareAndSet | releaseWithValue =>
    simp +decide only [decideTransition, decideCompareAndSet, decideReleaseWithValue, checkFence,
      ends_iff, accepts_iff, and_true, and_false, false_or, or_false] at h
    obtain ⟨_, hrow, -, -, -, hspent⟩ := h
    exact barred_of_spent hkey hrow hspent

theorem barred_of_grant {a : GrantAction} (h : Ends (decideGrant s actor a)) :
    Barred s (.grant a) := by
  simp +decide only [decideGrant, ends_iff, accepts_iff, shapeless_eq_ok, and_false, false_or] at h
  obtain ⟨key, hkey, -, -, hrev, h⟩ := h
  split_ifs at h with hmoves
  · simp +decide only [decideGrantChange, ends_iff, accepts_iff, and_true, and_false, or_false,
      exists_false, Bool.and_eq_true, Option.isNone_iff_eq_none, decide_eq_true_eq] at h
    obtain hspent | ⟨-, ⟨hnone, hsome⟩, hfull⟩ := h
    · rw [Bool.not_eq_true', ← Bool.not_eq_true, countersHaveRoom_iff] at hspent
      by_cases hceil : maxCounter ≤ (s.rowOf key).aclRevision
      · exact .grantCeiling a key hkey (Nat.le_of_eq hrev) hmoves hceil
      · -- the grant revision has room, so it is a counter of the tenure that has none
        rw [Nat.not_le] at hceil
        have hacl : (s.resources[key]?.getD default).aclRevision < maxCounter := hceil
        split_ifs at hspent with hfences
        · refine .grantFence a key hkey (Nat.le_of_eq hrev) hmoves hfences ?_
          simp only [State.rowOf]
          simp only [List.mem_cons, List.not_mem_nil, or_false, forall_eq_or_imp, forall_eq, hacl,
            true_and] at hspent
          omega
        · simp [hacl] at hspent
    · refine .grantSlots a key hkey (fun hzero => ?_) hmoves hnone hfull
      rw [if_pos hzero] at hsome
      cases hsome
  · exact absurd h (ends_iff.2.2.2.2.2 _)

theorem barred_of_admin {a : AdminAction} (h : Ends (decideAdmin s actor a)) :
    Barred s (.admin a) := by
  simp +decide only [decideAdmin, ends_iff, accepts_iff, and_true, and_false, false_or] at h
  obtain ⟨-, hroot | ⟨-, hrev, h⟩⟩ := h
  · exact .root a hroot
  split_ifs at h with hsame
  · exact absurd h (ends_iff.2.2.2.2.2 _)
  simp +decide only [decideAdminChange, ends_iff, accepts_iff, and_true, and_false, or_false,
    false_or, exists_false, Bool.and_eq_true, Bool.not_eq_true', decide_eq_true_eq] at h
  obtain ⟨hdisables, hlast⟩ | ⟨-, -, -, hceil⟩ := h
  · have hmember : a.target ∈ s.admins := by
      rw [hdisables, decide_eq_false_iff_not, not_not] at hsame
      exact hsame
    exact .lastAdmin a (Nat.le_of_eq hrev) hmember hdisables hlast
  · exact .adminCeiling a (Nat.le_of_eq hrev) hsame (by simpa using hceil)

theorem decideChange_not_ends {ext : Externals} {a : ChangeMembershipAction} :
    ¬ Ends (decideChange ext s actor requestHash a) := by
  simp +decide only [decideChange, ends_iff, and_false, false_or, not_exists, not_and]
  intro _ _
  split
  · split_ifs <;> simp +decide [Ends]
  · simp +decide [decideNewChange, ends_iff]

/-- **A terminal denial raises a bar.** -/
theorem barred_of_denial {ext : Externals}
    (h : Ends (action.decide ext s actor requestHash)) : Barred s action := by
  cases action with
  | resource =>
    simp +decide only [Action.decide, decideResource, ends_iff, accepts_iff, shapeless_eq_ok,
      and_false, false_or] at h
    obtain ⟨_, hkey, -, -, -, htransition⟩ := h
    exact barred_of_transition hkey htransition
  | grant => exact barred_of_grant ((ends_iff.2.1 _ _).mp h)
  | admin => exact barred_of_admin ((ends_iff.2.1 _ _).mp h)
  | changeMembership => exact absurd ((ends_iff.2.1 _ _).mp h) decideChange_not_ends
  | cancelMembership => simp +decide [Action.decide, decideCancel, ends_iff] at h

/-! ### Bars stand -/

theorem RowMove.counters_le (h : RowMove old new) :
    old.epoch ≤ new.epoch ∧ old.leaseRevision ≤ new.leaseRevision ∧
      old.valueRevision ≤ new.valueRevision ∧ old.aclRevision ≤ new.aclRevision := by
  cases h <;> simp [ResourceRow.acquired, ResourceRow.renewed, ResourceRow.mutated,
    ResourceRow.ended, ResourceRow.regranted]

/-- With a spent counter of the tenure nobody takes the resource and nobody lets go of it. -/
theorem RowMove.tenure_stays (h : RowMove old new) (hheld : old.held = true)
    (hspent : maxCounter ≤ old.epoch ∨ maxCounter ≤ old.leaseRevision) :
    new.held = true ∧ new.holder = old.holder := by
  cases h with
  | acquired actor ttlMs hfree =>
    rw [hheld] at hfree
    cases hfree
  | renewed | mutated | regranted => exact ⟨hheld, rfl⟩
  | ended => omega
  | handedOver => omega
  | fenced => omega

theorem grantFences_iff {existingRights : Option Rights} {subject : NodeId}
    {after : Rights} :
    grantFences s.resources[key]? existingRights subject after = true ↔
      (s.rowOf key).held = true ∧ (s.rowOf key).holder = some subject ∧
        (existingRights.any fun before => before &&& leaseSustainingRights &&& ~~~after != 0) =
          true := by
  unfold grantFences State.rowOf
  cases s.resources[key]? with
  | none =>
    simp only [Option.any_none, Bool.false_eq_true, Option.getD_none, false_iff]
    rintro ⟨hheld, -⟩
    cases hheld
  | some =>
    simp only [Option.any_some, Bool.and_eq_true, beq_iff_eq, Option.getD_some, and_assoc]

section

variable (ext : Externals) {reply : SavedReply} {row : Row} {d : Delivery} {reason : Reason}

section

variable (s : State) (d : Delivery)

theorem deliver_counters_le (key : ResourceKey) :
    (s.rowOf key).epoch ≤ ((deliver ext s d).1.rowOf key).epoch ∧
      (s.rowOf key).leaseRevision ≤ ((deliver ext s d).1.rowOf key).leaseRevision ∧
      (s.rowOf key).valueRevision ≤ ((deliver ext s d).1.rowOf key).valueRevision ∧
      (s.rowOf key).aclRevision ≤ ((deliver ext s d).1.rowOf key).aclRevision := by
  rcases deliver_rowOf ext s d key with hsame | hmove
  · rw [hsame]
    exact ⟨Nat.le_refl _, Nat.le_refl _, Nat.le_refl _, Nat.le_refl _⟩
  · exact hmove.counters_le

/-- The grants on a resource stay, or their revision goes up. -/
theorem deliver_grants (key : ResourceKey) (subject : NodeId) :
    (s.rowOf key).aclRevision < ((deliver ext s d).1.rowOf key).aclRevision ∨
      (((deliver ext s d).1.rowOf key).aclRevision = (s.rowOf key).aclRevision ∧
        (deliver ext s d).1.acl[(key, subject)]? = s.acl[(key, subject)]?) :=
  (deliver_aclStamp ext key s d).lt_or_eq.imp_right fun h =>
    ⟨congrArg Fenced.epoch h, congrFun (congrArg Fenced.tenant h) subject⟩

/-- The administrators stay, or their revision goes up. -/
theorem deliver_admins :
    s.adminRevision < (deliver ext s d).1.adminRevision ∨
      ((deliver ext s d).1.adminRevision = s.adminRevision ∧
        (deliver ext s d).1.admins = s.admins) :=
  (deliver_adminStamp ext s d).lt_or_eq.imp_right fun h =>
    ⟨congrArg Fenced.epoch h, congrArg Fenced.tenant h⟩

theorem deliver_isRoot (node : NodeId) : (deliver ext s d).1.isRoot node = s.isRoot node := by
  refine deliver_elim ext s d (fun _ => rfl) fun _ _ hdone => ?_
  obtain ⟨_, _, _, -, rfl⟩ := hdone
  rfl

end

theorem deliver_grantsValid (d : Delivery) (h : s.GrantsValid) :
    (deliver ext s d).1.GrantsValid := by
  refine deliver_elim ext s d (fun _ => h) fun _ hstep hdone => ?_
  obtain ⟨_, _, _, -, rfl⟩ := hdone
  exact hstep.grantsValid h

/-- A full table stays full, and takes no resource it does not have. -/
theorem deliver_full (d : Delivery) {key : ResourceKey} (hgrants : s.GrantsValid)
    (hnone : s.resources[key]? = none) (hfull : maxResourcesPerGroup ≤ s.resources.size) :
    (deliver ext s d).1.resources[key]? = none ∧
      maxResourcesPerGroup ≤ (deliver ext s d).1.resources.size := by
  refine deliver_elim ext s d (fun _ => ⟨hnone, hfull⟩) fun _ hstep hdone => ?_
  rw [hdone.resources]
  rcases hstep.resources_room hgrants with hsame | ⟨k, _, hins, hroom⟩
  · rw [hsame]
    exact ⟨hnone, hfull⟩
  · have hne : k ≠ key := by
      rintro rfl
      have hlt := hroom hnone
      omega
    rw [hins, get?_insert_of_ne _ _ hne, size_eq_countWhere]
    refine ⟨hnone, Nat.le_trans hfull ?_⟩
    rw [size_eq_countWhere]
    exact countWhere_le_insert fun _ _ _ => rfl

/-- **A bar stands** across every command. -/
theorem deliver_barred (h : Barred s action) (d : Delivery)
    (hgrants : s.GrantsValid) : Barred (deliver ext s d).1 action := by
  cases h with
  | counters a key hkey hspent =>
    -- counters only grow, so one that is spent stays spent
    have hle := deliver_counters_le ext s d key
    refine .counters a key hkey ?_
    rw [← Bool.not_eq_true] at hspent ⊢
    refine fun hroom => hspent ?_
    cases a <;> simp [counters, countersHaveRoom] at hroom ⊢ <;> omega
  | slots raw ttlMs key hkey hnone hfull =>
    obtain ⟨hnone', hfull'⟩ := deliver_full ext d hgrants hnone hfull
    exact .slots raw ttlMs key hkey hnone' hfull'
  | grantStale a key hkey hstale =>
    have hle := (deliver_counters_le ext s d key).2.2.2
    exact .grantStale a key hkey (Nat.lt_of_lt_of_le hstale hle)
  | grantCeiling a key hkey hrev hmoves hceil =>
    rcases deliver_grants ext s d key a.subject with hlt | ⟨heq, hacl⟩
    · exact .grantStale a key hkey (Nat.lt_of_le_of_lt hrev hlt)
    · exact .grantCeiling a key hkey (heq ▸ hrev) (hacl ▸ hmoves) (heq ▸ hceil)
  | grantFence a key hkey hrev hmoves hfences hspent =>
    rcases deliver_grants ext s d key a.subject with hlt | ⟨heq, hacl⟩
    · exact .grantStale a key hkey (Nat.lt_of_le_of_lt hrev hlt)
    · obtain ⟨hheld, hholder, hloses⟩ := grantFences_iff.mp hfences
      have htenure : ((deliver ext s d).1.rowOf key).held = true ∧
          ((deliver ext s d).1.rowOf key).holder = (s.rowOf key).holder := by
        rcases deliver_rowOf ext s d key with hsame | hmove
        · rw [hsame]
          exact ⟨hheld, rfl⟩
        · exact hmove.tenure_stays hheld hspent
      have hle := deliver_counters_le ext s d key
      refine .grantFence a key hkey (heq ▸ hrev) (hacl ▸ hmoves)
        (grantFences_iff.mpr ⟨htenure.1, htenure.2.trans hholder, hacl ▸ hloses⟩) ?_
      omega
  | grantSlots a key hkey hright hmoves hnone hfull =>
    obtain ⟨hnone', hfull'⟩ := deliver_full ext d hgrants hnone hfull
    rcases deliver_grants ext s d key a.subject with hlt | ⟨-, hacl⟩
    · -- the row is still not there, so its revision cannot have moved
      simp only [State.rowOf, hnone, hnone', Option.getD_none, Nat.lt_irrefl] at hlt
    · exact .grantSlots a key hkey hright (hacl ▸ hmoves) hnone' hfull'
  | root a hroot => exact .root a (by rw [deliver_isRoot]; exact hroot)
  | adminStale a hstale =>
    rcases deliver_admins ext s d with hlt | ⟨heq, -⟩
    · exact .adminStale a (Nat.lt_trans hstale hlt)
    · exact .adminStale a (heq ▸ hstale)
  | lastAdmin a hrev hmember hdisables hlast =>
    rcases deliver_admins ext s d with hlt | ⟨heq, hadmins⟩
    · exact .adminStale a (Nat.lt_of_le_of_lt hrev hlt)
    · exact .lastAdmin a (heq ▸ hrev) (hadmins ▸ hmember) hdisables (hadmins ▸ hlast)
  | adminCeiling a hrev hmoves hceil =>
    rcases deliver_admins ext s d with hlt | ⟨heq, hadmins⟩
    · exact .adminStale a (Nat.lt_of_le_of_lt hrev hlt)
    · exact .adminCeiling a (heq ▸ hrev) (hadmins ▸ hmoves) (heq ▸ hceil)

/-! ### Dead requests -/

/-- A request that is never applied: nothing but a rejection is saved for it, and the journal is
shut to it or its action is barred. -/
structure Dead (s : State) (client : ClientRef) (action : Action) : Prop where
  grants : s.GrantsValid
  saved : ∀ reply, Answered client reply s → reply.outcome = .rejected
  bar : Shut s client ∨ Barred s action

variable {ext}

section

variable (h : Dead s client action)

include h

/-- A dead request that is decided is rejected. -/
theorem Dead.decided {change : RowChange} {creates : Bool}
    (hclass : classifyClient s client = .unresolved row creates)
    (hdec : Decided ext s client action change reply) :
    change = .none ∧ reply.outcome = .rejected := by
  have hbarred : Barred s action := by
    rcases h.bar with hshut | hbarred
    · exact absurd (classify_unresolved hclass) hshut.not_admitted
    · exact hbarred
  cases hdecide : action.decide ext s client.actor client.requestHash with
  | ok => exact absurd hdecide (hbarred.not_accepted _ _ _)
  | error =>
    obtain ⟨rfl, rfl⟩ := hdec.of_error hdecide
    exact ⟨rfl, rfl⟩

/-- **A dead request changes no row and is answered with a rejection.** -/
theorem Dead.rejected (logId : LogId) :
    SameRows s (deliver ext s (logId, .client client action)).1 ∧
      ∀ reply, (deliver ext s (logId, .client client action)).2 = .ok reply →
        reply.outcome = some .rejected := by
  refine deliver_elim ext s _ (fun _ => ⟨SameRows.refl s, fun _ h => by cases h⟩)
    @fun _ reply change _ _ _ hstep hdone => ?_
  suffices hrejected : change = .none ∧ reply.outcome = some .rejected by
    obtain ⟨rfl, hreply⟩ := hrejected
    refine ⟨hdone.sameRows, fun reply' hreply' => ?_⟩
    cases hreply'
    exact hreply
  cases hstep with
  | replay client action journal saved hclass =>
    obtain ⟨-, -, hanswered⟩ := classify_replay_iff.mp hclass
    exact ⟨rfl, congrArg some (h.saved saved hanswered)⟩
  | refused => exact ⟨rfl, rfl⟩
  | decided client action change reply journal creates hclass hdec =>
    obtain ⟨hchange, hreply⟩ := h.decided hclass hdec
    exact ⟨hchange, congrArg some hreply⟩

/-- A fresh answer under a dead request's reference is a rejection. -/
theorem Dead.consumes (hsame : ∀ a, d.2 = .client client a → a = action)
    (hcons : Consumes ext s d client reply) : reply.outcome = .rejected := by
  obtain ⟨hcli, hreply⟩ := hcons
  obtain ⟨_, _⟩ := d
  revert hreply
  refine deliver_elim ext s _ (fun _ => nofun) fun _ hstep _ hreply => ?_
  cases hstep with
  | decided client' action' change reply journal creates hclass hdec =>
    cases hcli
    cases hreply
    cases hsame action' rfl
    exact (h.decided hclass hdec).2
  | rejectedFresh =>
    cases hreply
    rfl
  | shapeless => cases hcli
  | _ => cases hreply

/-- **A dead request stays dead**, as long as its reference is not used for another action. -/
theorem deliver_dead (hsame : ∀ a, d.2 = .client client a → a = action) :
    Dead (deliver ext s d).1 client action := by
  refine ⟨deliver_grantsValid ext d h.grants, ?_, ?_⟩
  · rintro reply ⟨x, hx, hseq, hhash, hlast⟩
    obtain hkept | ⟨c, r, hcons, -, hins⟩ | ⟨_, _, hretire, -, hins⟩ :=
      deliver_sessions ext s d
    · rw [hkept] at hx
      exact h.saved reply ⟨x, hx, hseq, hhash, hlast⟩
    · rw [hins, get?_insert] at hx
      split_ifs at hx with hkey
      · -- the new answer is to this very request
        cases hx
        cases hlast
        have hcli : c = client := by
          obtain ⟨_, _, _, _⟩ := c
          obtain ⟨_, _, _, _⟩ := client
          cases hkey
          cases hseq
          cases hhash
          rfl
        subst hcli
        exact h.consumes hsame hcons
      · exact h.saved reply ⟨x, hx, hseq, hhash, hlast⟩
    · rw [hins, get?_insert] at hx
      split_ifs at hx with hkey
      · cases hx
        cases hretire with
        | convert existing hprev =>
          rw [hkey] at hprev
          exact h.saved reply ⟨existing, hprev, hseq, hhash, hlast⟩
        | tombstone => cases hlast
      · exact h.saved reply ⟨x, hx, hseq, hhash, hlast⟩
  · rcases h.bar with hshut | hbarred
    · exact .inl (deliver_shut ext hshut d)
    · exact .inr (deliver_barred ext hbarred d h.grants)

end

/-! ### From the refusal to the bar -/

/-- The reason of an answer that consumes nothing. -/
def Admission.notConsumedReason : Admission → Option Reason
  | .resolved result =>
    if result.disposition = .notConsumed then some result.reply.reason else none
  | .deny reason => some reason.get
  | _ => none

/-- A terminal refusal of the classifier shuts the journal. -/
theorem shut_of_refuse (h : classifyClient s client = .refuse row reason)
    (hterm : reason.isTerminalWhenNotConsumed = true) : Shut s client := by
  unfold classifyClient classify at h
  split_ifs at h with hzero
  · cases h
    cases hterm
  have hfresh : ∀ x, s.sessions[client.key]? = some x →
      classifyFresh x client.sequence = .refuse row reason → Shut s client := by
    intro x hx h
    unfold classifyFresh at h
    split_ifs at h with hret _ _ hceil _
    · exact .retired x hx hret
    · cases h
      cases hterm
    · cases h
      cases hterm
    · refine .ceiling ?_
      simp only [Bool.or_eq_true, decide_eq_true_eq] at hceil
      omega
    · cases h
      cases hterm
  cases hsess : s.sessions[client.key]? with
  | none =>
    rw [hsess] at h
    unfold classifyAbsent at h
    split_ifs at h with hfull hactive hceil hfirst
    · exact .full hsess hfull
    · cases h
      cases hterm
    · exact .ceiling hceil
    · cases h
      cases hterm
  | some x =>
    rw [hsess] at h
    dsimp only at h
    split_ifs at h
    · cases hlast : x.lastResult with
      | some =>
        rw [hlast] at h
        cases h
      | none =>
        rw [hlast] at h
        exact hfresh x hsess h
    · exact hfresh x hsess h

/-- A request that is not answered from its journal has no answer there. -/
theorem not_answered (hpos : client.sequence ≠ 0)
    (hclass : ∀ row saved, classifyClient s client ≠ .replay row saved) (reply : SavedReply) :
    ¬ Answered client reply s :=
  fun hanswered => hclass _ _ (classify_replay_iff.mpr ⟨rfl, hpos, hanswered⟩)

/-- **A terminal refusal kills the request.** -/
theorem dead_of_preflight (hgrants : s.GrantsValid)
    (h : (preflight ext s client action).notConsumedReason = some reason)
    (hterm : reason.isTerminalWhenNotConsumed = true) : Dead s client action := by
  have hzero : client.sequence = 0 →
      classifyClient s client = .refuse .sequenceZero .sequenceTooOld := by
    intro hseq
    unfold classifyClient classify
    rw [if_pos hseq]
  unfold preflight at h
  cases hclass : classifyClient s client with
  | replay =>
    rw [hclass] at h
    cases h
  | refuse =>
    rw [hclass] at h
    cases h
    have hpos : client.sequence ≠ 0 := by
      intro hseq
      rw [hzero hseq] at hclass
      cases hclass
      cases hterm
    refine ⟨hgrants, fun reply hanswered => ?_, .inl (shut_of_refuse hclass hterm)⟩
    exact absurd hanswered (not_answered hpos (by simp [hclass]) reply)
  | unresolved =>
    rw [hclass] at h
    have hpos : client.sequence ≠ 0 := by
      intro hseq
      rw [hzero hseq] at hclass
      cases hclass
    have hbarred : Barred s action := by
      cases hproj : project (action.decide ext s client.actor client.requestHash) with
      | deny =>
        rw [hproj] at h
        cases h
        exact barred_of_denial ⟨_, project_eq_deny hproj, hterm⟩
      | resolved =>
        unfold project at hproj
        split at hproj
        · cases hproj
        · cases hproj
        · split_ifs at hproj
      | status | admitted =>
        rw [hproj] at h
        cases h
    refine ⟨hgrants, fun reply hanswered => ?_, .inr hbarred⟩
    exact absurd hanswered (not_answered hpos (by simp [hclass]) reply)

/-! ### Runs -/

theorem run_dead (h : Dead s client action) {ds : List Delivery}
    (hsame : ∀ d ∈ ds, ∀ a, d.2 = .client client a → a = action) :
    Dead (run (deliver ext) s ds) client action :=
  run_invariant_of (I := fun s => Dead s client action)
    (P := fun _ (d : Delivery) => ∀ a, d.2 = .client client a → a = action)
    (fun _ _ hs hd => deliver_dead hs hd) h (everyStep_of_forall hsame)

theorem advance_grantsValid (ext : Externals) {s : DurableState} (e : GroupEvent)
    (h : s.model.GrantsValid) : (advance ext s e).1.model.GrantsValid := by
  cases e with
  | command d => exact deliver_grantsValid ext d h
  | membership logId m =>
    simp only [advance]
    cases happ : applyMembership s logId m with
    | error => exact h
    | ok =>
      obtain ⟨-, -, -, rfl⟩ := applyMembership_eq_ok.mp happ
      exact h

variable (ext) in
/-- Delivered now, the request changes no resource, grant, administrator, intent or route, and is
answered with nothing but a rejection. -/
def Refused (s : State) (client : ClientRef) (action : Action) : Prop :=
  ∀ logId, SameRows s (deliver ext s (logId, .client client action)).1 ∧
    ∀ reply, (deliver ext s (logId, .client client action)).2 = .ok reply →
      reply.outcome = some .rejected

/-- **Terminal refusals are final.**  Take any state a run of commands and native memberships leads
to from a state that a store accepts, and any request that preflight there answers as not consumed
with a terminal reason.  It is refused after every further run of commands in which its reference
stands for no other action, and after every run of wire commands in which no other action has the
digest of its own. -/
theorem terminal_refusals_are_final (s₀ : DurableState) (es : List GroupEvent)
    (client : ClientRef) (action : Action) (reason : Reason) (hvalidated : Validated ext s₀)
    (hrefused : (preflight ext (run (advance ext) s₀ es).model client action).notConsumedReason =
      some reason)
    (hterm : reason.isTerminalWhenNotConsumed = true) :
    let s := (run (advance ext) s₀ es).model
    (∀ ds : List Delivery, (∀ d ∈ ds, ∀ a, d.2 = .client client a → a = action) →
      Refused ext (run (deliver ext) s ds) client action) ∧
    ∀ (request : ClientCommandV1) (ds : List WireDelivery),
      modelCommand ext (.client request) = .client client action →
      CollisionFree ext request.action ds →
      Refused ext (run (deliverWire ext) s ds) client action := by
  intro s
  have hgrants : s.GrantsValid :=
    run_invariant (I := fun s : DurableState => s.model.GrantsValid)
      (fun s e hs => advance_grantsValid ext e hs)
      (checkGrantRows_eq_ok.mp hvalidated.rows.acl) es
  have hdead := dead_of_preflight hgrants hrefused hterm
  constructor
  · intro ds hsame
    exact (run_dead hdead hsame).rejected
  · intro request ds hreq hfree
    rw [run_deliverWire]
    exact (run_dead hdead (hfree.same ext hreq)).rejected

end

end

namespace Sample

/-- The voter asks to make the root an administrator. -/
def raiseRoot : ClientRef × Action :=
  (⟨voter, client, 1, FixedBytes.fill 32 8⟩, .admin ⟨root, true, 1⟩)

/-- The same request on the wire. -/
def raiseRootSent : ClientCommandV1 :=
  ⟨voter.bytes, client.bytes, 1, raiseRoot.1.requestHash.bytes, .setAdmin root.bytes true 1⟩

/-- An acquisition on the wire, by the same client. -/
def acquireSent : WireDelivery :=
  (entry 2, .client ⟨voter.bytes, client.bytes, 1, (FixedBytes.fill 32 1 : Hash).bytes,
    .acquire resource.toWire minTtlMs⟩)

end Sample

open Sample

theorem terminal_refusals_are_final_root :
    (preflight externals model raiseRoot.1
        raiseRoot.2).notConsumedReason = some .rootAuthorityImmutable ∧
      Refused externals (run (deliver externals) model [acquireResource]) raiseRoot.1 raiseRoot.2 ∧
      Refused externals (run (deliverWire externals) model [acquireSent]) raiseRoot.1
        raiseRoot.2 := by
  have hrefused : (preflight externals model raiseRoot.1
      raiseRoot.2).notConsumedReason = some .rootAuthorityImmutable := by decide +kernel
  obtain ⟨hcommands, hwire⟩ := terminal_refusals_are_final state [] raiseRoot.1 raiseRoot.2
    .rootAuthorityImmutable state_validated hrefused rfl
  refine ⟨hrefused, hcommands [acquireResource] fun d hd a ha => ?_,
    hwire raiseRootSent [acquireSent] (by decide +kernel) fun d hd c hc hsame => ?_⟩
  · rw [List.mem_singleton.mp hd] at ha
    simp [acquireResource, raiseRoot] at ha
    exact absurd ha.1 (by decide)
  · rw [List.mem_singleton.mp hd] at hc
    cases hc
    exact absurd hsame (by decide +kernel)

end AsterRpc.Coordination

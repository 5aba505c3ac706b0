import AsterRpc.Storage.Histories
import AsterRpc.Storage.Ledger
import AsterRpc.Storage.Machine

/-!
# Every cap holds

A group's rows and counters stay under the limits of `limits.rs` along every run
of commands and native memberships.  Commands keep the caps table by table; a
native membership writes no row, and matters only because routes of members are
never evicted.
-/

namespace AsterRpc.Coordination

open AsterRpc.Foundation

/-! ### The invariant -/

/-- Everything the caps of one state rest on. -/
structure State.Kept (s : State) : Prop where
  shapes : ShapesValid s
  grants : s.GrantsValid
  admins : s.AdminsValid
  tables : s.TablesCapped
  perResource : ∀ key, grantsOn s key ≤ maxGrantsPerResource
  sessions : s.SessionsCapped
  intents : s.IntentsCapped
  members : s.membership.members.card ≤ maxMembers

theorem checkGrantsPerResource_eq_ok {s : State} :
    checkGrantsPerResource s = .ok () ↔ ∀ key, grantsOn s key ≤ maxGrantsPerResource := by
  have hrows := Table.any_toList_eq_false (t := s.acl)
    (p := fun key _ => decide (grantsOn s key.1 > maxGrantsPerResource))
  simp only [checkGrantsPerResource, refuseIf_eq_ok]
  rw [hrows]
  simp only [Table.AllRows, decide_eq_false_iff_not, gt_iff_lt, Nat.not_lt]
  refine ⟨fun h key => ?_, fun h key _ _ => h key.1⟩
  rcases Nat.eq_zero_or_pos (grantsOn s key) with hzero | hpos
  · omega
  · obtain ⟨grant, rights, hgrant, hkey⟩ := Table.countWhere_pos_iff.mp hpos
    rw [← beq_iff_eq.mp hkey]
    exact h grant rights hgrant

/-- A membership with few voters and learners has few members. -/
theorem members_card_le {m : Membership} (hvoters : m.voterIds.card ≤ 2 * maxVoters)
    (hlearn : (projectMembership m).learners.card ≤ maxLearnerEnvelope) :
    (projectMembership m).members.card ≤ maxMembers := by
  have hunion := Finset.card_union_le (projectMembership m).voters (projectMembership m).learners
  have hsame : (projectMembership m).voters = m.voterIds := rfl
  rw [hsame] at hunion
  simp only [CommittedMembership.members, maxMembers]
  rw [hsame]
  omega

theorem voterIds_card_le {m : Membership} {limit : ℕ}
    (h : ∀ config ∈ m.configs, config.card ≤ limit) :
    m.voterIds.card ≤ m.configs.length * limit := by
  unfold Membership.voterIds
  revert h
  induction m.configs with
  | nil => simp
  | cons config rest ih =>
    intro h
    have hrest := ih fun c hc => h c (List.mem_cons_of_mem config hc)
    have hfirst := h config List.mem_cons_self
    have hunion := Finset.card_union_le config (rest.foldr (· ∪ ·) ∅)
    rw [List.foldr_cons, List.length_cons, Nat.add_mul, Nat.one_mul]
    omega

theorem Validated.kept {ext : Externals} {s : DurableState} (h : Validated ext s) :
    s.model.Kept where
  shapes := h.shapes
  grants := checkGrantRows_eq_ok.mp h.rows.acl
  admins := checkAdminRevision_eq_ok.mp h.rows.admins
  tables := checkTableCaps_eq_ok.mp h.rows.caps
  perResource := checkGrantsPerResource_eq_ok.mp h.rows.grants
  sessions := checkSessions_eq_ok.mp ⟨h.rows.retained, h.rows.active⟩
  intents := (checkIntentRows_eq_ok.mp h.rows.intents).1
  members := by
    have hmeta := h.metaValid
    rw [hmeta.projection]
    refine members_card_le ?_ (hmeta.projection ▸ hmeta.learners)
    have hconf := voterIds_card_le (m := s.membership.membership) fun config hconfig =>
      voters_le_of_permitted (by simpa [profilePermitsVoters] using hmeta.permitted config hconfig)
    exact Nat.le_trans hconf (Nat.mul_le_mul_right maxVoters hmeta.joint)

/-! ### Commands -/

section

variable (ext : Externals)

theorem Step.sessionsCapped {s : State} {logId : LogId} {command : Command} {change : RowChange}
    {entry : Option (SessionKey × Session)} {row : AuditRow} {reply : CommandReply}
    (h : Step ext s logId command change entry row reply) (hcap : s.SessionsCapped) :
    ({ s with sessions := journalled entry s.sessions } : State).SessionsCapped := by
  rcases h.journal with rfl | ⟨_, _, rfl, hmove⟩
  · exact hcap
  · exact hmove.sessionsCapped hcap

/-- **A command keeps every cap.** -/
theorem State.Kept.deliver {s : State} (h : s.Kept) (d : Delivery) :
    (deliver ext s d).1.Kept := by
  have hshapes := deliver_shapesValid ext d h.shapes
  revert hshapes
  refine deliver_elim ext s d (fun _ _ => h) @fun s' _ _ _ row _ hstep hp hshapes => ?_
  have hsess := retained_sessions_le hstep hp h.tables.sessions
  obtain ⟨hstarted, hroot, hadmins⟩ := hstep.adminsValid h.admins h.tables.admins
  have hcapped := hstep.sessionsCapped ext h.sessions
  have hintents := hstep.intentsCapped h.intents
  have haudit : s'.audit.size ≤ maxAuditRows := by
    rw [hp.audit]
    exact auditAfter_size_le s d.1 row
  obtain ⟨_, _, _, -, rfl⟩ := hp
  refine ⟨hshapes, hstep.grantsValid h.grants, ⟨hshapes.adminRevision, hstarted, hroot⟩, ?_,
    fun key => hstep.grantsOn_le key (h.perResource key),
    ⟨hcapped.retained, hcapped.active, hcapped.group⟩, ⟨hintents.active, hintents.terminal⟩,
    h.members⟩
  exact ⟨hstep.resources_size_le h.grants h.tables.resources, hstep.acl_size_le h.tables.acl,
    hadmins, hsess, hintents.size_le, hstep.routes_size_le h.members h.tables.routes, haudit⟩

/-! ### Native memberships -/

/-- The union of the voters of a native membership is at most ten nodes. -/
def GroupEvent.FewVoters : GroupEvent → Prop
  | .command _ => True
  | .membership _ m => m.voterIds.card ≤ 10

/-- **A native membership of few voters keeps every cap**: it writes no row. -/
theorem State.Kept.withMembership {s : DurableState} (h : s.model.Kept) {logId : LogId}
    {m : Membership} (hvoters : m.voterIds.card ≤ 10)
    (hlearn : (projectMembership m).learners.card ≤ maxLearnerEnvelope) :
    (s.withMembership logId m).model.Kept :=
  ⟨⟨h.shapes.resources, h.shapes.sessions, h.shapes.adminRevision⟩, h.grants,
    ⟨h.admins.revision, h.admins.started, h.admins.root⟩,
    ⟨h.tables.resources, h.tables.acl, h.tables.admins, h.tables.sessions, h.tables.intents,
      h.tables.routes, h.tables.audit⟩,
    h.perResource, ⟨h.sessions.retained, h.sessions.active, h.sessions.group⟩,
    ⟨h.intents.active, h.intents.terminal⟩, members_card_le hvoters hlearn⟩

theorem advance_kept {s : DurableState} (e : GroupEvent) (h : s.model.Kept) (hfew : e.FewVoters) :
    (advance ext s e).1.model.Kept := by
  cases e with
  | command d => exact h.deliver ext d
  | membership logId m =>
    simp only [advance]
    cases happ : applyMembership s logId m with
    | error => exact h
    | ok =>
      obtain ⟨-, -, hlearn, rfl⟩ := applyMembership_eq_ok.mp happ
      exact h.withMembership hfew hlearn

/-! ### Runs -/

/-- The caps of `limits.rs`, on rows and on counters, and room for every plan's routes. -/
structure State.Capped (s : State) : Prop where
  resources : s.resources.size ≤ maxResourcesPerGroup
  acl : s.acl.size ≤ maxAclRowsPerGroup
  grants : ∀ key, grantsOn s key ≤ maxGrantsPerResource
  admins : s.admins.card ≤ maxAdminsPerGroup
  retained : ∀ actor, (s.capacityFor actor).retainedGroup ≤ maxRetainedSessionsPerGroup ∧
    (s.capacityFor actor).retainedActor ≤ maxRetainedSessionsPerActor
  active : ∀ actor, (s.capacityFor actor).activeGroup ≤ maxActiveClientsPerGroup ∧
    (s.capacityFor actor).activeActor ≤ maxActiveClientsPerActor
  audit : s.audit.size ≤ maxAuditRows
  routes : s.routes.size ≤ maxRetainedRoutes
  activeIntents : activeIntents s ≤ 1
  terminalIntents : terminalIntents s ≤ maxRetainedIntents
  rows : s.resources.AllRows fun _ row => row.epoch ≤ maxCounter ∧
    row.leaseRevision ≤ maxCounter ∧ row.valueRevision ≤ maxCounter ∧ row.aclRevision ≤ maxCounter
  adminRevision : s.adminRevision ≤ maxCounter
  sequences : s.sessions.AllRows fun _ session => session.lastSequence ≤ maxCounter
  candidates : ∀ action : ChangeMembershipAction,
    planShape ext action.plan s.membership s.authority s.deploymentProfileCode = .ok () →
      s.routes.size + newRoutes s (routesFrom action) - maxRetainedRoutes ≤
        (routeCandidates s (routesFrom action)).length

theorem State.Kept.capped {s : State} (h : s.Kept) : s.Capped ext where
  resources := h.tables.resources
  acl := h.tables.acl
  grants := h.perResource
  admins := h.tables.admins
  retained actor := ⟨h.tables.sessions, h.sessions.retained actor⟩
  active actor := ⟨h.sessions.group, h.sessions.active actor⟩
  audit := h.tables.audit
  routes := h.tables.routes
  activeIntents := h.intents.active
  terminalIntents := h.intents.terminal
  rows := h.shapes.resources.mono fun _ _ hrow =>
    ⟨hrow.epoch, hrow.lease, hrow.valueRevision, hrow.acl⟩
  adminRevision := h.shapes.adminRevision
  sequences := h.shapes.sessions.mono fun _ _ hsess => hsess.sequence
  candidates _ hplan :=
    routeCandidates_suffice (members_and_plan_fit h.members (planShape_ok ext hplan))

/-- **Every cap holds in every reachable state**, from a state that a store accepts, along every run
of commands and native memberships whose voters are at most ten nodes. -/
theorem slot_caps_hold (s₀ : DurableState) (es : List GroupEvent) (h : Validated ext s₀)
    (hfew : ∀ e ∈ es, e.FewVoters) : (run (advance ext) s₀ es).model.Capped ext := by
  have hkept : (run (advance ext) s₀ es).model.Kept := by
    refine run_invariant_of (I := fun s : DurableState => s.model.Kept)
      (P := fun _ e => e.FewVoters) (fun s e hs he => advance_kept ext e hs he) h.kept ?_
    exact everyStep_of_forall hfew
  exact hkept.capped ext

end

open Sample

theorem slot_caps_hold_acquire :
    (run (advance externals) state [.command acquireResource,
      .membership (entry 3) membership]).model.Capped externals :=
  slot_caps_hold externals state _ state_validated fun e he => by
    rcases List.mem_pair.mp he with rfl | rfl
    · trivial
    · exact (by decide : membership.voterIds.card ≤ 10)

end AsterRpc.Coordination

import AsterRpc.Coordination.Budget
import AsterRpc.Storage.Shapes

/-!
# Slots

Resources, grants, administrators and journals are capped, and every cap is kept
by the decision that would fill the next slot.  One cap leans on another table: a
grant that is taken away may write a resource row without asking for a slot, and
does not create one because a grant never stands without its resource.
-/

namespace AsterRpc.Coordination

open AsterRpc.Foundation Table

section

variable {ext : Externals} {s : State} {logId : LogId} {command : Command} {change : RowChange}
  {entry : Option (SessionKey × Session)} {row : AuditRow} {reply : CommandReply} {actor : NodeId}
  {key : SessionKey} {session : Session}

/-! ### Grants -/

/-- What `check_grant_rows` accepts: rights that mean something, on a resource that is there. -/
def State.GrantsValid (s : State) : Prop :=
  s.acl.AllRows fun key rights =>
    rights ≠ 0 ∧ rightsAreKnown rights = true ∧ s.resources.contains key.1 = true

theorem checkGrantRows_eq_ok {s : State} : checkGrantRows s = .ok () ↔ s.GrantsValid := by
  simp only [checkGrantRows, checkRows_eq_ok, accepts_iff, beq_eq_false_iff_ne,
    State.GrantsValid, ne_eq]

section

variable (h : Step ext s logId command change entry row reply)

include h

theorem Step.grantsValid (hgrants : s.GrantsValid) :
    (change.acl s.acl).AllRows fun key rights =>
      rights ≠ 0 ∧ rightsAreKnown rights = true ∧
        (change.resources s.resources).contains key.1 = true := by
  have hkept : s.acl.AllRows fun key rights => rights ≠ 0 ∧ rightsAreKnown rights = true ∧
      (change.resources s.resources).contains key.1 = true :=
    -- no step takes a resource row away
    Table.AllRows.mono hgrants fun _ _ ⟨hzero, hknown, hhosted⟩ =>
      ⟨hzero, hknown, by cases change <;> simp [RowChange.resources, hhosted]⟩
  rcases h.grants with hsame | ⟨_, _, e, rfl, hstep⟩
  · rw [hsame]
    exact hkept
  · have hright := hstep.rights
    simp only [RowChange.acl]
    split_ifs at hright with hzero
    · rw [hright]
      exact Table.AllRows.erase hkept _
    · rw [hright]
      exact Table.AllRows.insert hkept ⟨hzero, hstep.known, by simp [RowChange.resources]⟩

theorem Step.acl_size_le (hcap : s.acl.size ≤ maxAclRowsPerGroup) :
    (change.acl s.acl).size ≤ maxAclRowsPerGroup := by
  rcases h.grants with hsame | ⟨_, _, e, rfl, hstep⟩
  · rw [hsame]
    exact hcap
  · simp only [RowChange.acl]
    cases hright : e.rights with
    | none => exact Nat.le_trans (size_erase_le s.acl _) hcap
    | some rights =>
      refine size_insert_le rights hcap fun hnone => ?_
      exact (hstep.aclSlots (by rw [hstep.createsAclRow, hnone, hright]; rfl)).1

theorem Step.grantsOn_le (key : ResourceKey) (hcap : grantsOn s key ≤ maxGrantsPerResource) :
    (change.acl s.acl).countWhere (fun k _ => k.1 == key) ≤ maxGrantsPerResource := by
  rcases h.grants with hsame | ⟨_, _, e, rfl, hstep⟩
  · rw [hsame]
    exact hcap
  · simp only [RowChange.acl]
    cases hright : e.rights with
    | none => exact countWhere_erase_le_of _ hcap
    | some =>
      refine countWhere_insert_le hcap fun hkey hnew => ?_
      have hnone : s.acl[(e.key, e.subject)]? = none := by
        cases hold : s.acl[(e.key, e.subject)]? with
        | none => rfl
        | some old =>
          rw [hnew old hold] at hkey
          cases hkey
      rw [← beq_iff_eq.mp hkey]
      exact (hstep.aclSlots (by rw [hstep.createsAclRow, hnone, hright]; rfl)).2

end

/-! ### Resources -/

theorem decideResource_room {action : ResourceAction} {e : ResourceEffect}
    (h : decideResource s actor action = .ok e) (hnone : s.resources[e.key]? = none) :
    s.resources.size < maxResourcesPerGroup := by
  obtain ⟨_, -, -, -, -, hstep⟩ := decideResource_ok h
  cases hstep with
  | acquire raw ttlMs row hrow hfree hslots => exact hslots hnone
  | renew fence row hrow | compareAndSet fence newValue row hrow | release fence row hrow
  | releaseWithValue fence finalValue row hrow | revoke raw expectedEpoch row hrow =>
    rw [hnone] at hrow
    cases hrow

/-- A grant that is given has a slot for its resource, one that is taken away needs none. -/
theorem GrantStep.room {action : GrantAction} {e : GrantEffect} (h : GrantStep s actor action e)
    (hgrants : s.GrantsValid) (hnone : s.resources[e.key]? = none) :
    s.resources.size < maxResourcesPerGroup := by
  cases hright : e.rights with
  | some => exact h.resourceSlots (by rw [h.createsResource, hnone, hright]; rfl)
  | none =>
    cases hold : s.acl[(e.key, e.subject)]? with
    | none => exact absurd (hold.trans hright.symm) h.changes
    | some rights =>
      have hhosted := (hgrants _ rights hold).2.2
      rw [contains_eq_isSome, hnone] at hhosted
      cases hhosted

section

variable (h : Step ext s logId command change entry row reply)

include h

/-- A step that writes a resource row had a slot for it. -/
theorem Step.resources_room (hgrants : s.GrantsValid) :
    change.resources s.resources = s.resources ∨
      ∃ key new, change.resources s.resources = s.resources.insert key new ∧
        (s.resources[key]? = none → s.resources.size < maxResourcesPerGroup) := by
  cases h with
  | decided client action change reply row creates hclass hdec =>
    cases hdec with
    | resource a e he => exact .inr ⟨e.key, e.row, rfl, decideResource_room he⟩
    | grant a e he => exact .inr ⟨e.key, e.row, rfl, (decideGrant_apply he).room hgrants⟩
    | _ => exact .inl rfl
  | expired command row he =>
    obtain ⟨_, hold, -⟩ := decideExpire_apply he
    refine .inr ⟨command.resource, row, rfl, fun hnone => ?_⟩
    rw [hnone] at hold
    cases hold
  | _ => exact .inl rfl

theorem Step.resources_size_le (hgrants : s.GrantsValid)
    (hcap : s.resources.size ≤ maxResourcesPerGroup) :
    (change.resources s.resources).size ≤ maxResourcesPerGroup := by
  rcases h.resources_room hgrants with hsame | ⟨_, new, hins, hroom⟩
  · rw [hsame]
    exact hcap
  · rw [hins]
    exact size_insert_le new hcap hroom

/-! ### Administrators -/

/-- **Administrators** stay valid: there are some exactly from the first genesis on, never more than
their cap, and the root key is not among them. -/
theorem Step.adminsValid (hvalid : s.AdminsValid) (hcap : s.admins.card ≤ maxAdminsPerGroup) :
    (change.adminRevision s.adminRevision = 0 ↔ change.admins s.admins = ∅) ∧
      s.authority.publicKey ∉ change.admins s.admins ∧
      (change.admins s.admins).card ≤ maxAdminsPerGroup := by
  cases h with
  | decided client action change reply row creates hclass hdec =>
    cases hdec with
    | admin a e he =>
      have hstep := decideAdmin_apply he
      have hrev : e.adminRevision ≠ 0 := by rw [hstep.revision]; omega
      simp only [RowChange.adminRevision, RowChange.admins]
      cases hon : e.enabled with
      | true =>
        have hroot : s.authority.publicKey ≠ e.target := by
          intro heq
          have hnot := hstep.notRoot
          rw [State.isRoot, ← heq, beq_self_eq_true] at hnot
          cases hnot
        have hroom := (hstep.fits hon).2
        have hcard := Finset.card_insert_le e.target s.admins
        simp only [if_true, Finset.mem_insert, not_or]
        exact ⟨⟨fun hzero => absurd hzero hrev, fun hempty => absurd hempty (by simp)⟩,
          ⟨hroot, hvalid.root⟩, by omega⟩
      | false =>
        have hsome := hstep.keepsOne hon
        have hcard := Finset.pred_card_le_card_erase (s := s.admins) (a := e.target)
        have hne : s.admins.erase e.target ≠ ∅ := by
          rw [← Finset.card_pos.trans Finset.nonempty_iff_ne_empty]
          omega
        exact ⟨⟨fun hzero => absurd hzero hrev, fun hempty => absurd hempty hne⟩,
          fun hmem => hvalid.root (Finset.mem_of_mem_erase hmem),
          Nat.le_trans Finset.card_erase_le hcap⟩
    | _ => exact ⟨hvalid.started, hvalid.root, hcap⟩
  | genesisInstalled bytes verified hver hrev =>
    have hempty := hvalid.started.mp hrev
    obtain ⟨hsome, hfew, hroot⟩ := checkGenesis_admins hver
    simp only [RowChange.adminRevision, RowChange.admins, hempty, Finset.empty_union,
      List.mem_toFinset, List.toFinset_eq_empty_iff]
    exact ⟨⟨fun h => absurd h Nat.one_ne_zero, fun h => absurd h hsome⟩, hroot,
      Nat.le_trans (List.toFinset_card_le _) hfew⟩
  | _ => exact ⟨hvalid.started, hvalid.root, hcap⟩

end

/-! ### Journals -/

/-- The caps on journals, per actor and on the open ones of the group. -/
@[mk_iff]
structure State.SessionsCapped (s : State) : Prop where
  retained : ∀ actor, (s.capacityFor actor).retainedActor ≤ maxRetainedSessionsPerActor
  active : ∀ actor, (s.capacityFor actor).activeActor ≤ maxActiveClientsPerActor
  group : (s.sessions.countWhere fun _ session => !session.retired) ≤ maxActiveClientsPerGroup

/-- A rule that counts each actor that has a journal counts every actor. -/
theorem perActor_iff (s : State) (count : NodeId → ℕ) (limit : ℕ)
    (hcount : ∀ actor, 0 < count actor →
      ∃ (key : SessionKey) (session : Session), s.sessions[key]? = some session ∧ key.1 = actor) :
    (s.sessions.toList.any fun e => decide (count e.1.1 > limit)) = false ↔
      ∀ actor, count actor ≤ limit := by
  have hrows := any_toList_eq_false (t := s.sessions)
    (p := fun key _ => decide (count key.1 > limit))
  rw [hrows]
  simp only [Table.AllRows, decide_eq_false_iff_not, gt_iff_lt, Nat.not_lt]
  refine ⟨fun h actor => ?_, fun h key _ _ => h key.1⟩
  rcases Nat.eq_zero_or_pos (count actor) with hzero | hpos
  · omega
  · obtain ⟨key, session, hsess, rfl⟩ := hcount actor hpos
    exact h key session hsess

theorem checkSessions_eq_ok :
    checkSessionsPerActor s = .ok () ∧ checkActiveClients s = .ok () ↔ s.SessionsCapped := by
  have hkeep := perActor_iff s (fun actor => (s.capacityFor actor).retainedActor)
    maxRetainedSessionsPerActor fun actor hpos => by
      simp only [State.capacityFor] at hpos
      obtain ⟨key, session, hsess, hkey⟩ := countWhere_pos_iff.mp hpos
      exact ⟨key, session, hsess, beq_iff_eq.mp hkey⟩
  have hactive := perActor_iff s (fun actor => (s.capacityFor actor).activeActor)
    maxActiveClientsPerActor fun actor hpos => by
      simp only [State.capacityFor] at hpos
      obtain ⟨key, session, hsess, hkey⟩ := countWhere_pos_iff.mp hpos
      exact ⟨key, session, hsess, beq_iff_eq.mp (Bool.and_eq_true_iff.mp hkey).1⟩
  simp only [checkSessionsPerActor, checkActiveClients, accepts_iff, hkeep, hactive,
    State.sessionsCapped_iff]

/-- An open row stands where there was none, if not where there was an open one. -/
theorem JournalMove.fresh (h : JournalMove s key session) (hopen : session.retired = false)
    (hnew : ∀ old, s.sessions[key]? = some old → old.retired = true) : s.sessions[key]? = none := by
  refine Option.eq_none_iff_forall_ne_some.mpr fun old hold => ?_
  have hret := hnew old hold
  rw [h.live old hold hopen] at hret
  cases hret

/-- A journal row that would fill a slot had room: per actor, and per group and actor if it is open.
A row that replaces another fills no slot, since a closed journal is never opened again. -/
theorem JournalMove.sessionsCapped (h : JournalMove s key session) (hcap : s.SessionsCapped) :
    ({ s with sessions := s.sessions.insert key session } : State).SessionsCapped := by
  have hkeep : s.sessions[key]? = none →
      (s.capacityFor key.1).retainedActor < maxRetainedSessionsPerActor := by
    intro hnone
    have hroom := h.retained hnone
    simp only [Capacity.retainedExhausted, Bool.or_eq_false_iff, decide_eq_false_iff_not,
      ge_iff_le, Nat.not_le] at hroom
    exact hroom.2
  have hactive : s.sessions[key]? = none → session.retired = false →
      (s.capacityFor key.1).activeGroup < maxActiveClientsPerGroup ∧
      (s.capacityFor key.1).activeActor < maxActiveClientsPerActor := by
    intro hnone hopen
    have hroom := h.active hnone hopen
    simp only [Capacity.activeExhausted, Bool.or_eq_false_iff, decide_eq_false_iff_not,
      ge_iff_le, Nat.not_le] at hroom
    exact hroom
  refine ⟨fun actor => ?_, fun actor => ?_, ?_⟩
  · have hbound := hcap.retained actor
    simp only [State.capacityFor] at hbound ⊢
    refine countWhere_insert_le hbound fun hkey hnew => ?_
    have hnone : s.sessions[key]? = none := by
      refine Option.eq_none_iff_forall_ne_some.mpr fun old hold => ?_
      rw [hnew old hold] at hkey
      cases hkey
    rw [← beq_iff_eq.mp hkey]
    exact hkeep hnone
  · have hbound := hcap.active actor
    simp only [State.capacityFor] at hbound ⊢
    refine countWhere_insert_le hbound fun hkey hnew => ?_
    obtain ⟨hactor, hopen⟩ := Bool.and_eq_true_iff.mp hkey
    have hlive : session.retired = false := by simpa using hopen
    have hnone := h.fresh hlive fun old hold => by simpa [hactor] using hnew old hold
    rw [← beq_iff_eq.mp hactor]
    exact (hactive hnone hlive).2
  · refine countWhere_insert_le hcap.group fun hopen hnew => ?_
    have hlive : session.retired = false := by simpa using hopen
    have hnone := h.fresh hlive fun old hold => by simpa using hnew old hold
    exact (hactive hnone hlive).1

end

end AsterRpc.Coordination

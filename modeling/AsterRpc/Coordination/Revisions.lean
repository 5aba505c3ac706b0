import AsterRpc.Foundation.Fencing
import AsterRpc.Coordination.Effects
import AsterRpc.Coordination.Sessions

/-!
# Revisions are version stamps

Four counters stand for data: the value revision for a resource's value, the
lease revision for its tenure, the grant revision for the grants on it, and the
administrators' revision for the administrators.  Each pair is a fenced register:
the counter goes up whenever the data is written, so equal counters mean equal
data, and a command that names the revision it expects changes the data at most
once.
-/

namespace AsterRpc.Coordination

open AsterRpc.Foundation RowChange

variable {old new : ResourceRow}

/-! ### The registers -/

/-- A resource's value under its value revision. -/
def ResourceRow.valueStamp (row : ResourceRow) : Fenced Bytes := ⟨row.valueRevision, row.value⟩

/-- A resource's tenure under its lease revision. -/
def ResourceRow.leaseStamp (row : ResourceRow) : Fenced (ℕ × Bool × Option NodeId × ℕ) :=
  ⟨row.leaseRevision, (row.epoch, row.held, row.holder, row.ttlMs)⟩

/-- The grants on a resource under its grant revision. -/
def State.aclStamp (s : State) (key : ResourceKey) : Fenced (NodeId → Option Rights) :=
  ⟨(s.rowOf key).aclRevision, fun subject => s.acl[(key, subject)]?⟩

/-- The administrators under their revision. -/
def State.adminStamp (s : State) : Fenced (Finset NodeId) := ⟨s.adminRevision, s.admins⟩

theorem RowMove.valueStamp_step (h : RowMove old new) :
    Fenced.Step old.valueStamp new.valueStamp := by
  cases h with
  | mutated value => exact .replace old.valueStamp value
  | handedOver value => exact .replace old.valueStamp value
  | acquired | renewed | ended | regranted | fenced => exact .stay old.valueStamp

theorem RowMove.leaseStamp_step (h : RowMove old new) :
    Fenced.Step old.leaseStamp new.leaseStamp := by
  cases h with
  | mutated | regranted => exact .stay old.leaseStamp
  | acquired | renewed | ended | handedOver | fenced => exact .replace old.leaseStamp _

section

variable (ext : Externals) {s : State} {actor : NodeId} {action : ResourceAction}
  {e : ResourceEffect} {key : ResourceKey}

theorem deliver_valueStamp (key : ResourceKey) (s : State) (d : Delivery) :
    Fenced.Step (s.rowOf key).valueStamp ((deliver ext s d).1.rowOf key).valueStamp := by
  rcases deliver_rowOf ext s d key with hsame | hmove
  · rw [hsame]
    exact .stay _
  · exact hmove.valueStamp_step

theorem deliver_leaseStamp (key : ResourceKey) (s : State) (d : Delivery) :
    Fenced.Step (s.rowOf key).leaseStamp ((deliver ext s d).1.rowOf key).leaseStamp := by
  rcases deliver_rowOf ext s d key with hsame | hmove
  · rw [hsame]
    exact .stay _
  · exact hmove.leaseStamp_step

/-- A row that keeps its grant revision leaves the grants' register of every resource alone. -/
theorem aclStamp_stay {k : ResourceKey} {row : ResourceRow}
    (h : row.aclRevision = (s.rowOf k).aclRevision) (key : ResourceKey) :
    ({ s with resources := s.resources.insert k row } : State).aclStamp key = s.aclStamp key := by
  by_cases hk : k = key
  · subst hk
    simp only [State.aclStamp, State.rowOf, Table.get?_insert, if_true, Option.getD_some]
    rw [h]
    rfl
  · simp [State.aclStamp, State.rowOf, Table.get?_insert, if_neg hk]

theorem decideResource_aclRevision (h : decideResource s actor action = .ok e) :
    e.row.aclRevision = (s.rowOf e.key).aclRevision := by
  obtain ⟨_, -, -, -, -, hstep⟩ := decideResource_ok h
  cases hstep with
  | acquire raw ttlMs row hrow =>
    subst hrow
    rfl
  | renew fence row hrow | compareAndSet fence newValue row hrow | release fence row hrow
  | releaseWithValue fence finalValue row hrow | revoke raw expectedEpoch row hrow =>
    simp only [State.rowOf, hrow]
    rfl

/-- An effective grant takes the next grant revision of its resource, and touches no other
resource's grants. -/
theorem GrantStep.aclStamp_step {action : GrantAction} {e : GrantEffect}
    (h : GrantStep s actor action e) (key : ResourceKey) :
    Fenced.Step (s.aclStamp key)
      (({ s with
        resources := (grant e).resources s.resources
        acl := (grant e).acl s.acl } : State).aclStamp key) := by
  by_cases hk : e.key = key
  · subst hk
    have hrev : e.row.aclRevision = (s.rowOf e.key).aclRevision + 1 := by
      rw [h.row]
      cases e.fenced <;> rfl
    simp only [State.aclStamp, State.rowOf, resources, Table.get?_insert, if_true,
      Option.getD_some, hrev]
    exact .replace (s.aclStamp e.key) _
  · have hother : ∀ subject : NodeId, ((grant e).acl s.acl)[(key, subject)]? =
        s.acl[(key, subject)]? := by
      intro subject
      have hne : (e.key, e.subject) ≠ (key, subject) := fun heq => hk (Prod.mk.inj heq).1
      simp only [acl]
      cases e.rights with
      | none => exact Table.get?_erase_of_ne s.acl hne
      | some rights => exact Table.get?_insert_of_ne s.acl rights hne
    simp only [State.aclStamp, State.rowOf, resources, Table.get?_insert, if_neg hk,
      hother]
    exact .stay (s.aclStamp key)

theorem deliver_aclStamp (key : ResourceKey) (s : State) (d : Delivery) :
    Fenced.Step (s.aclStamp key) ((deliver ext s d).1.aclStamp key) := by
  obtain ⟨_, command⟩ := d
  refine deliver_elim ext s _ (fun _ => .stay _) @fun s' _ change _ _ _ hstep hdone => ?_
  have hstamp : s'.aclStamp key =
      ({ s with
        resources := change.resources s.resources
        acl := change.acl s.acl } : State).aclStamp key := by
    obtain ⟨_, _, _, -, rfl⟩ := hdone
    rfl
  simp only [hstamp]
  dsimp only at hstep
  cases hstep with
  | decided client action change reply row creates hclass hdec =>
    cases hdec with
    | resource a e he =>
      have hstay := aclStamp_stay (decideResource_aclRevision he) key
      simp only [resources, acl, hstay]
      exact .stay _
    | grant a e he => exact (decideGrant_apply he).aclStamp_step key
    | _ => exact .stay _
  | expired command row he =>
    obtain ⟨old, hold, -, -, -, -, -, rfl⟩ := decideExpire_apply he
    have hsame : old.ended.aclRevision = (s.rowOf command.resource).aclRevision := by
      rw [State.rowOf, hold]
      rfl
    have hstay := aclStamp_stay hsame key
    simp only [resources, acl, hstay]
    exact .stay _
  | _ => exact .stay _

theorem deliver_adminStamp (s : State) (d : Delivery) :
    Fenced.Step s.adminStamp (deliver ext s d).1.adminStamp := by
  obtain ⟨_, _⟩ := d
  refine deliver_elim ext s _ (fun _ => .stay _) @fun s' _ change _ _ _ hstep hdone => ?_
  have hstamp : s'.adminStamp =
      ⟨change.adminRevision s.adminRevision, change.admins s.admins⟩ := by
    obtain ⟨_, _, _, -, rfl⟩ := hdone
    rfl
  simp only [hstamp]
  dsimp only at hstep
  cases hstep with
  | decided client action change reply row creates hclass hdec =>
    cases hdec with
    | admin a e he =>
      simp only [adminRevision, (decideAdmin_apply he).revision]
      exact .replace s.adminStamp _
    | _ => exact .stay s.adminStamp
  | genesisInstalled bytes verified hver hrev =>
    have hnext : adminRevision (.genesis verified) s.adminRevision =
        s.adminStamp.epoch + 1 := by
      simp [adminRevision, State.adminStamp, hrev]
    rw [hnext]
    exact .replace s.adminStamp _
  | _ => exact .stay s.adminStamp

/-! ### Commands that name a revision -/

/-- The value revision that a resource action expects to replace. -/
def ResourceAction.expectedValueRevision : ResourceAction → Option ℕ
  | .compareAndSet _ expected _ => some expected
  | .releaseWithValue _ expected _ => some expected
  | _ => none

/-- The revision of `key`'s value that a command expects to replace. -/
def Command.expectedValueRevision (key : ResourceKey) : Command → Option ℕ
  | .client _ (.resource action) =>
    if action.rawResource.validate.toOption = some key then action.expectedValueRevision else none
  | _ => none

/-- The revision of the grants on `key` that a command expects to replace. -/
def Command.expectedAclRevision (key : ResourceKey) : Command → Option ℕ
  | .client _ (.grant action) =>
    if action.resource.validate.toOption = some key then some action.expectedAclRevision else none
  | _ => none

/-- The lease revision of `key` that a command expects to end. -/
def Command.expectedLeaseRevision (key : ResourceKey) : Command → Option ℕ
  | .expire command => if command.resource = key then some command.leaseRevision else none
  | _ => none

/-- The administrators' revision that a command expects to replace. -/
def Command.expectedAdminRevision : Command → Option ℕ
  | .client _ (.admin action) => some action.expectedAdminRevision
  | _ => none

/-- A request that changes a row is decided, and the rows are what the decision makes of them. -/
theorem deliver_client_rows (s : State) (logId : LogId) (client : ClientRef) (action : Action) :
    SameRows s (deliver ext s (logId, .client client action)).1 ∨
      ∃ change reply, Decided ext s client action change reply ∧ change ≠ .none := by
  refine deliver_elim ext s _ (fun _ => .inl (SameRows.refl s))
    @fun _ _ change _ _ _ hstep hdone => ?_
  dsimp only at hstep hdone ⊢
  cases hstep with
  | replay | refused => exact .inl hdone.sameRows
  | decided client action change reply row creates hclass hdec =>
    by_cases hnone : change = .none
    · subst hnone
      exact .inl hdone.sameRows
    · exact .inr ⟨change, reply, hdec, hnone⟩

theorem toOption_eq_some {α β : Type} {x : Except α β} {b : β} (h : x.toOption = some b) :
    x = .ok b := by
  cases x with
  | error => cases h
  | ok => exact congrArg Except.ok (Option.some.inj h)

theorem SameRows.rowOf {s' : State} (h : SameRows s s') (key : ResourceKey) :
    s'.rowOf key = s.rowOf key := by
  rw [State.rowOf, State.rowOf, h.1]

/-- An accepted action found the value revision it expects. -/
theorem ResourceStep.expectedValueRevision {r : ℕ} (h : ResourceStep s actor key action e)
    (hexp : action.expectedValueRevision = some r) : (s.rowOf key).valueRevision = r := by
  cases h with
  | compareAndSet fence newValue row hrow | releaseWithValue fence finalValue row hrow =>
    cases hexp
    rw [State.rowOf, hrow]
    rfl
  | acquire | renew | release | revoke => cases hexp

section

variable (s : State) (d : Delivery) (r : ℕ)

theorem expectedValueRevision_met (hexp : d.2.expectedValueRevision key = some r)
    (hchanged : (s.rowOf key).value ≠ ((deliver ext s d).1.rowOf key).value) :
    (s.rowOf key).valueRevision = r := by
  obtain ⟨logId, _⟩ := d
  unfold Command.expectedValueRevision at hexp
  split at hexp
  · rename_i client action hcmd
    cases hcmd
    split_ifs at hexp with hkey
    rcases deliver_client_rows ext s logId client (.resource action) with
      hsame | ⟨_, _, hdec, hwrites⟩
    · exact absurd (congrArg ResourceRow.value (hsame.rowOf key)).symm hchanged
    cases hdec with
    | resource a e he =>
      obtain ⟨_, hvalid, -, -, -, hstep⟩ := decideResource_ok he
      rw [toOption_eq_some hkey] at hvalid
      cases hvalid
      exact hstep.expectedValueRevision hexp
    | refused | shapeless => exact absurd rfl hwrites
  · cases hexp

theorem expectedAclRevision_met (hexp : d.2.expectedAclRevision key = some r)
    (hchanged : (s.aclStamp key).tenant ≠ ((deliver ext s d).1.aclStamp key).tenant) :
    (s.aclStamp key).epoch = r := by
  obtain ⟨logId, _⟩ := d
  unfold Command.expectedAclRevision at hexp
  split at hexp
  · rename_i client action hcmd
    cases hcmd
    split_ifs at hexp with hkey
    cases hexp
    rcases deliver_client_rows ext s logId client (.grant action) with
      hsame | ⟨_, _, hdec, hwrites⟩
    · refine absurd ?_ hchanged
      simp [State.aclStamp, hsame.2.1]
    cases hdec with
    | grant a e he =>
      have hstep := decideGrant_apply he
      have hvalid := hstep.key
      rw [toOption_eq_some hkey] at hvalid
      cases hvalid
      exact hstep.revision.symm
    | grantNoOp | refused | shapeless => exact absurd rfl hwrites
  · cases hexp

theorem expectedLeaseRevision_met (hexp : d.2.expectedLeaseRevision key = some r)
    (hchanged : (s.rowOf key).leaseStamp.tenant ≠
      ((deliver ext s d).1.rowOf key).leaseStamp.tenant) :
    (s.rowOf key).leaseStamp.epoch = r := by
  obtain ⟨_, command⟩ := d
  unfold Command.expectedLeaseRevision at hexp
  split at hexp
  · rename_i command hcmd
    cases hcmd
    split_ifs at hexp with hkey
    cases hexp
    revert hchanged
    refine deliver_elim ext s _ (fun _ => absurd rfl) fun _ hstep hdone hchanged => ?_
    dsimp only at hstep
    cases hstep with
    | expired command row he =>
      obtain ⟨_, hold, -, -, hlease, -, -, -⟩ := decideExpire_apply he
      rw [← hkey, State.rowOf, hold]
      exact hlease
    | expiryStale =>
      exact absurd (congrArg (fun row => row.leaseStamp.tenant)
        (hdone.sameRows.rowOf key)).symm hchanged
  · cases hexp

theorem expectedAdminRevision_met (hexp : d.2.expectedAdminRevision = some r)
    (hchanged : s.adminStamp.tenant ≠ (deliver ext s d).1.adminStamp.tenant) :
    s.adminStamp.epoch = r := by
  obtain ⟨logId, _⟩ := d
  unfold Command.expectedAdminRevision at hexp
  split at hexp
  · rename_i client action hcmd
    cases hcmd
    cases hexp
    rcases deliver_client_rows ext s logId client (.admin action) with
      hsame | ⟨_, _, hdec, hwrites⟩
    · exact absurd hsame.2.2.1.symm hchanged
    cases hdec with
    | admin a e he => exact (decideAdmin_apply he).expected.symm
    | adminNoOp | refused | shapeless => exact absurd rfl hwrites
  · cases hexp

end

/-! ### Runs -/

/-- **Revisions are faithful version stamps.**  In every run and for every resource (an untouched
one counts with its default row):

* at two moments with the same value, grant, lease or administrators' revision the value, the
  grants, the tenure or the administrators are the same;
* of two commands of the run that expect the same revision, at most one changes what the revision
  stands for. -/
theorem revisions_are_version_stamps (s₀ : State) (es : List Delivery) :
    (∀ pre mid post, es = pre ++ mid ++ post →
      let s := run (deliver ext) s₀ pre
      let t := run (deliver ext) s₀ (pre ++ mid)
      (∀ key, (s.rowOf key).valueRevision = (t.rowOf key).valueRevision →
        (s.rowOf key).value = (t.rowOf key).value) ∧
      (∀ key, (s.rowOf key).aclRevision = (t.rowOf key).aclRevision →
        ∀ subject : NodeId, s.acl[(key, subject)]? = t.acl[(key, subject)]?) ∧
      (∀ key, (s.rowOf key).leaseRevision = (t.rowOf key).leaseRevision →
        (s.rowOf key).epoch = (t.rowOf key).epoch ∧ (s.rowOf key).held = (t.rowOf key).held ∧
        (s.rowOf key).holder = (t.rowOf key).holder ∧ (s.rowOf key).ttlMs = (t.rowOf key).ttlMs) ∧
      (s.adminRevision = t.adminRevision → s.admins = t.admins)) ∧
    (∀ pre d₁ mid d₂ post r, es = pre ++ d₁ :: (mid ++ d₂ :: post) →
      let a := run (deliver ext) s₀ pre
      let a' := run (deliver ext) s₀ (pre ++ [d₁])
      let b := run (deliver ext) s₀ (pre ++ d₁ :: mid)
      let b' := run (deliver ext) s₀ (pre ++ d₁ :: (mid ++ [d₂]))
      (∀ key, d₁.2.expectedValueRevision key = some r → d₂.2.expectedValueRevision key = some r →
        (a.rowOf key).value = (a'.rowOf key).value ∨
          (b.rowOf key).value = (b'.rowOf key).value) ∧
      (∀ key, d₁.2.expectedAclRevision key = some r → d₂.2.expectedAclRevision key = some r →
        (∀ subject : NodeId, a.acl[(key, subject)]? = a'.acl[(key, subject)]?) ∨
          ∀ subject : NodeId, b.acl[(key, subject)]? = b'.acl[(key, subject)]?) ∧
      (∀ key, d₁.2.expectedLeaseRevision key = some r → d₂.2.expectedLeaseRevision key = some r →
        (a.rowOf key).leaseStamp.tenant = (a'.rowOf key).leaseStamp.tenant ∨
          (b.rowOf key).leaseStamp.tenant = (b'.rowOf key).leaseStamp.tenant) ∧
      (d₁.2.expectedAdminRevision = some r → d₂.2.expectedAdminRevision = some r →
        a.admins = a'.admins ∨ b.admins = b'.admins)) := by
  refine ⟨?_, ?_⟩
  · intro pre mid post _ s t
    have hlater : t = run (deliver ext) s mid := by simp only [s, t, run_append]
    rw [hlater]
    refine ⟨fun key heq => ?_, fun key heq subject => ?_, fun key heq => ?_, fun heq => ?_⟩
    · exact (Fenced.run_precedes (fun s => (s.rowOf key).valueStamp) (deliver_valueStamp ext key)
        s mid).2 heq
    · exact congrFun ((Fenced.run_precedes (fun s => s.aclStamp key) (deliver_aclStamp ext key)
        s mid).2 heq) subject
    · have hsame := (Fenced.run_precedes (fun s => (s.rowOf key).leaseStamp)
        (deliver_leaseStamp ext key) s mid).2 heq
      simpa only [ResourceRow.leaseStamp, Prod.mk.injEq] using hsame
    · exact (Fenced.run_precedes State.adminStamp (deliver_adminStamp ext) s mid).2 heq
  · intro pre d₁ mid d₂ post r _ a a' b b'
    have ha' : a' = (deliver ext a d₁).1 := by simp only [a, a', run_append, run_cons, run_nil]
    have hb : b = run (deliver ext) (deliver ext a d₁).1 mid := by
      simp [a, b, run_append, run_cons]
    have hb' : b' = (deliver ext b d₂).1 := by
      simp [b, b', run_append, run_cons, run_nil]
    rw [hb', hb, ha']
    refine ⟨fun key h₁ h₂ => ?_, fun key h₁ h₂ => ?_, fun key h₁ h₂ => ?_, fun h₁ h₂ => ?_⟩
    · exact Fenced.replaces_once (fun s => (s.rowOf key).valueStamp) (deliver_valueStamp ext key)
        (fun d : Delivery => d.2.expectedValueRevision key)
          (expectedValueRevision_met ext) a mid h₁ h₂
    · exact (Fenced.replaces_once (fun s => s.aclStamp key) (deliver_aclStamp ext key)
        (fun d : Delivery => d.2.expectedAclRevision key)
          (expectedAclRevision_met ext) a mid h₁ h₂).imp congrFun congrFun
    · exact Fenced.replaces_once (fun s => (s.rowOf key).leaseStamp) (deliver_leaseStamp ext key)
        (fun d : Delivery => d.2.expectedLeaseRevision key)
          (expectedLeaseRevision_met ext) a mid h₁ h₂
    · exact Fenced.replaces_once State.adminStamp (deliver_adminStamp ext)
        (fun d : Delivery => d.2.expectedAdminRevision) (expectedAdminRevision_met ext) a mid h₁ h₂

end

end AsterRpc.Coordination

import AsterRpc.Coordination.Resource

/-!
# Grants and administrators

`model/grant.rs` and `model/admin.rs`: who may do what to a resource, and who
may change that.  Both are fenced on a revision, and both answer a request that
changes nothing with a success that writes nothing.
-/

namespace AsterRpc.Coordination

open AsterRpc.Foundation

variable {s : State} {actor : NodeId} {revision : ℕ}

/-! ### Setting a grant -/

structure GrantAction where
  resource : RawResourceKey
  subject : NodeId
  rights : Rights
  expectedAclRevision : ℕ
deriving DecidableEq

structure GrantEffect where
  key : ResourceKey
  subject : NodeId
  row : ResourceRow
  createsResource : Bool
  /-- The rights to write; `none` removes the grant. -/
  rights : Option Rights
  createsAclRow : Bool
  fenced : Bool

inductive GrantVerdict where
  | apply (effect : GrantEffect)
  | noOp (aclRevision : ℕ)

/-- `grants_on`. -/
def grantsOn (s : State) (key : ResourceKey) : ℕ := s.acl.countWhere fun k _ => k.1 == key

/-- What a new resource row and a new grant row would add. -/
def grantGrowth (key : ResourceKey) (createsResource createsAclRow : Bool) : ℕ :=
  (if createsResource then chargeResource key 0 else 0) +
    (if createsAclRow then chargeAcl key else 0)

/-- `growth_fits` of a grant; nothing added always fits. -/
def grantGrowthFits (s : State) (key : ResourceKey) (createsResource createsAclRow : Bool) : Bool :=
  let added := grantGrowth key createsResource createsAclRow
  if added = 0 then true else s.growthFits added

/-- The grant takes a lease-sustaining right away from the present holder. -/
def grantFences (existing : Option ResourceRow) (existingRights : Option Rights)
    (subject : NodeId) (after : Rights) : Bool :=
  existing.any fun row =>
    row.held && row.holder == some subject &&
      existingRights.any fun before => before &&& leaseSustainingRights &&& ~~~after != 0

namespace ResourceRow

/-- The row a grant writes: a new ACL revision, and the end of the tenure when it fences. -/
def regranted (row : ResourceRow) (currentRevision : ℕ) (fences : Bool) : ResourceRow :=
  let next := { row with aclRevision := currentRevision + 1 }
  if fences then next.ended else next

end ResourceRow

/-- Whether the grant row would differ afterwards; rights of zero remove the row. -/
def grantChanges (existingRights : Option Rights) (rights : Rights) : Bool :=
  if rights = 0 then existingRights.isSome else existingRights != some rights

/-- The part of `grant::decide` behind the no-op: ceilings, slots, budget, and the effect. -/
def decideGrantChange (s : State) (key : ResourceKey) (action : GrantAction) :
    Decision GrantEffect := do
  let existing := s.resources[key]?
  let row := existing.getD default
  let existingRights := s.acl[(key, action.subject)]?
  let rights := if action.rights = 0 then none else some action.rights
  let fences := grantFences existing existingRights action.subject action.rights
  refuseIf (!countersHaveRoom (if fences then [row.aclRevision, row.epoch, row.leaseRevision]
    else [row.aclRevision])) (.refuse .counterExhausted)
  let createsResource := existing.isNone && rights.isSome
  let createsAclRow := existingRights.isNone && rights.isSome
  refuseIf (createsResource && s.resources.size ≥ maxResourcesPerGroup)
    (.refuse .resourceSlotsExhausted)
  refuseIf (createsAclRow &&
    (s.acl.size ≥ maxAclRowsPerGroup || grantsOn s key ≥ maxGrantsPerResource))
    (.refuse .aclSlotsExhausted)
  refuseIf (rights.isSome && !grantGrowthFits s key createsResource createsAclRow)
    (.refuse .stateBudgetExhausted)
  .ok
    { key := key
      subject := action.subject
      row := row.regranted row.aclRevision fences
      createsResource := createsResource
      rights := rights
      createsAclRow := createsAclRow
      fenced := fences }

/-- `grant::decide`. -/
def decideGrant (s : State) (actor : NodeId) (action : GrantAction) : Decision GrantVerdict := do
  let key ← shapeless action.resource.validate
  shapeless (checkRights action.rights)
  refuseIf (!s.isAdministrator actor) (.refuse .permissionChanged)
  let currentRevision := (s.resources[key]?.getD default).aclRevision
  refuseIf (action.expectedAclRevision != currentRevision) (.refuse .aclRevisionMismatch)
  if grantChanges s.acl[(key, action.subject)]? action.rights then
    let effect ← decideGrantChange s key action
    .ok (.apply effect)
  else .ok (.noOp currentRevision)

/-- Everything an accepted, effective grant satisfies. -/
structure GrantStep (s : State) (actor : NodeId) (action : GrantAction) (e : GrantEffect) :
    Prop where
  key : action.resource.validate = .ok e.key
  known : rightsAreKnown action.rights = true
  admin : s.isAdministrator actor = true
  revision : action.expectedAclRevision = (s.resources[e.key]?.getD default).aclRevision
  subject : e.subject = action.subject
  rights : e.rights = if action.rights = 0 then none else some action.rights
  changes : s.acl[(e.key, e.subject)]? ≠ e.rights
  fenced : e.fenced =
    grantFences s.resources[e.key]? s.acl[(e.key, e.subject)]? action.subject action.rights
  row : e.row = (s.resources[e.key]?.getD default).regranted
    (s.resources[e.key]?.getD default).aclRevision e.fenced
  aclRoom : (s.resources[e.key]?.getD default).aclRevision < maxCounter
  fenceRoom : e.fenced = true → (s.resources[e.key]?.getD default).epoch < maxCounter ∧
    (s.resources[e.key]?.getD default).leaseRevision < maxCounter
  createsResource : e.createsResource = (s.resources[e.key]?.isNone && e.rights.isSome)
  createsAclRow : e.createsAclRow = (s.acl[(e.key, e.subject)]?.isNone && e.rights.isSome)
  resourceSlots : e.createsResource = true → s.resources.size < maxResourcesPerGroup
  aclSlots : e.createsAclRow = true →
    s.acl.size < maxAclRowsPerGroup ∧ grantsOn s e.key < maxGrantsPerResource
  fits : e.rights ≠ none → grantGrowthFits s e.key e.createsResource e.createsAclRow = true

theorem grantChanges_iff {existingRights : Option Rights} {rights : Rights} :
    grantChanges existingRights rights = true ↔
      existingRights ≠ if rights = 0 then none else some rights := by
  unfold grantChanges
  split_ifs <;> simp [Option.isSome_iff_ne_none]

variable {action : GrantAction}

theorem decideGrant_apply {e : GrantEffect} (h : decideGrant s actor action = .ok (.apply e)) :
    GrantStep s actor action e := by
  simp only [decideGrant, accepts_iff, shapeless_eq_ok, checkRights] at h
  obtain ⟨key, hkey, hknown, hadmin, hrev, h⟩ := h
  split_ifs at h with hmoves
  · simp only [accepts_iff, GrantVerdict.apply.injEq, exists_eq_right] at h
    simp only [decideGrantChange, accepts_iff, countersHaveRoom_iff, Bool.and_eq_false_iff,
      Bool.or_eq_false_iff, ge_iff_le, Nat.not_le] at h
    obtain ⟨hroom, hrows, hacl, hfits, rfl⟩ := h
    refine ⟨hkey, hknown, hadmin, hrev, rfl, rfl, grantChanges_iff.mp hmoves, rfl, rfl,
      ?_, ?_, rfl, rfl, ?_, ?_, ?_⟩
    · refine hroom _ ?_
      split <;> simp
    · intro hfenced
      dsimp only at hfenced
      rw [hfenced] at hroom
      exact ⟨hroom _ (by simp), hroom _ (by simp)⟩
    · intro hcreates
      simp only [Bool.and_eq_true] at hcreates
      rcases hrows with hno | hlt
      · rcases hno with hno | hno <;> simp_all
      · exact hlt
    · intro hcreates
      simp only [Bool.and_eq_true] at hcreates
      rcases hacl with hno | hlt
      · rcases hno with hno | hno <;> simp_all
      · exact hlt
    · intro hright
      rcases hfits with hremoving | hfits
      · simp_all
      · exact hfits
  · cases h

/-- A grant that changes nothing reports the revision it was fenced on. -/
theorem decideGrant_noOp (h : decideGrant s actor action = .ok (.noOp revision)) :
    ∃ key, action.resource.validate = .ok key ∧
      revision = (s.resources[key]?.getD default).aclRevision := by
  simp only [decideGrant, accepts_iff, shapeless_eq_ok] at h
  obtain ⟨key, hkey, -, -, -, h⟩ := h
  split_ifs at h
  · simp only [accepts_iff, reduceCtorEq, and_false, exists_false] at h
  · cases h
    exact ⟨key, hkey, rfl⟩

/-! ### Setting an administrator -/

structure AdminAction where
  target : NodeId
  enabled : Bool
  expectedAdminRevision : ℕ
deriving DecidableEq

structure AdminEffect where
  target : NodeId
  enabled : Bool
  adminRevision : ℕ

inductive AdminVerdict where
  | apply (effect : AdminEffect)
  | noOp (adminRevision : ℕ)

/-- The part of `admin::decide` behind the no-op. -/
def decideAdminChange (s : State) (action : AdminAction) : Decision AdminEffect := do
  refuseIf (!action.enabled && s.admins.card ≤ 1) (.refuse .lastAdministrator)
  refuseIf (action.enabled && !s.growthFits chargeAdmin) (.refuse .stateBudgetExhausted)
  refuseIf (action.enabled && s.admins.card ≥ maxAdminsPerGroup) (.refuse .aclSlotsExhausted)
  refuseIf (s.adminRevision ≥ maxCounter) (.refuse .counterExhausted)
  .ok ⟨action.target, action.enabled, s.adminRevision + 1⟩

/-- `admin::decide`. -/
def decideAdmin (s : State) (actor : NodeId) (action : AdminAction) : Decision AdminVerdict := do
  refuseIf (!s.isAdministrator actor) (.refuse .permissionChanged)
  refuseIf (s.isRoot action.target) (.refuse .rootAuthorityImmutable)
  refuseIf (action.expectedAdminRevision != s.adminRevision) (.refuse .adminRevisionMismatch)
  if decide (action.target ∈ s.admins) = action.enabled then .ok (.noOp s.adminRevision)
  else
    let effect ← decideAdminChange s action
    .ok (.apply effect)

/-- Everything an accepted, effective change of an administrator satisfies. -/
structure AdminStep (s : State) (actor : NodeId) (action : AdminAction) (e : AdminEffect) :
    Prop where
  admin : s.isAdministrator actor = true
  target : e.target = action.target
  enabled : e.enabled = action.enabled
  notRoot : s.isRoot e.target = false
  expected : action.expectedAdminRevision = s.adminRevision
  revision : e.adminRevision = s.adminRevision + 1
  room : s.adminRevision < maxCounter
  changes : e.target ∈ s.admins ↔ e.enabled = false
  keepsOne : e.enabled = false → 1 < s.admins.card
  fits : e.enabled = true → s.growthFits chargeAdmin = true ∧ s.admins.card < maxAdminsPerGroup

theorem decideAdmin_apply {action : AdminAction} {e : AdminEffect}
    (h : decideAdmin s actor action = .ok (.apply e)) : AdminStep s actor action e := by
  simp only [decideAdmin, accepts_iff] at h
  obtain ⟨hadmin, hroot, hexp, h⟩ := h
  split_ifs at h with hsame
  · cases h
  · simp only [accepts_iff, AdminVerdict.apply.injEq, exists_eq_right] at h
    simp only [decideAdminChange, accepts_iff, Bool.and_eq_false_iff, ge_iff_le, Nat.not_le] at h
    obtain ⟨hlast, hgrowth, hslots, hroom, rfl⟩ := h
    refine ⟨hadmin, rfl, rfl, hroot, hexp, rfl, hroom, ?_, ?_, ?_⟩
    · by_cases hmem : action.target ∈ s.admins <;> simp_all
    · intro hon
      dsimp only at hon
      rw [hon] at hlast
      simpa using hlast
    · intro hon
      dsimp only at hon
      rw [hon] at hgrowth hslots
      exact ⟨by simpa using hgrowth, by simpa using hslots⟩

/-- A change of an administrator that changes nothing reports the present revision. -/
theorem decideAdmin_noOp {action : AdminAction}
    (h : decideAdmin s actor action = .ok (.noOp revision)) : revision = s.adminRevision := by
  simp only [decideAdmin, accepts_iff] at h
  obtain ⟨-, -, -, h⟩ := h
  split_ifs at h
  · cases h
    rfl
  · simp only [accepts_iff, reduceCtorEq, and_false, exists_false] at h

end AsterRpc.Coordination

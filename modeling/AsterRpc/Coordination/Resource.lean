import AsterRpc.Coordination.Shape

/-!
# Lease and value decisions

`model/resource.rs`: the six resource actions.  A decision reads the state and
answers either the row to write or why the action is refused; it writes nothing.
`Decision::Apply` is `ok`, `Decision::Refuse` and `Decision::RefuseShapeless`
are the two kinds of `Refusal`.
-/

namespace AsterRpc.Coordination

open AsterRpc.Foundation

variable {α : Type} {check : Except ShapeLimit α} {actor : NodeId} {s : State} {key : ResourceKey}

/-- How a decision refuses: for a reason of the state, or for the request's own shape. -/
inductive Refusal where
  | refuse (reason : RefusalReason)
  | refuseShapeless (limit : ShapeLimit)
deriving DecidableEq

abbrev Decision (α : Type) := Except Refusal α

/-- A static check inside a decision. -/
def shapeless {α : Type} (check : Except ShapeLimit α) : Decision α :=
  match check with
  | .ok a => .ok a
  | .error limit => .error (.refuseShapeless limit)

@[simp] theorem shapeless_eq_ok {a : α} : shapeless check = .ok a ↔ check = .ok a := by
  cases check <;> simp [shapeless]

@[simp] theorem shapeless_ne_refuse {r : RefusalReason} : shapeless check ≠ .error (.refuse r) := by
  cases check <;> simp [shapeless]

/-! ### Actions -/

structure RawResourceKey where
  ns : Bytes
  key : Bytes
deriving DecidableEq

def RawResourceKey.validate (raw : RawResourceKey) : Except ShapeLimit ResourceKey :=
  validateResourceKey raw.ns raw.key

/-- What a holder presents to act under its tenure. -/
structure Fence where
  group : GroupId
  resource : RawResourceKey
  epoch : ℕ
  holder : NodeId
deriving DecidableEq

inductive ResourceAction where
  | acquire (resource : RawResourceKey) (ttlMs : ℕ)
  | renew (fence : Fence)
  | compareAndSet (fence : Fence) (expectedValueRevision : ℕ) (newValue : Bytes)
  | release (fence : Fence)
  | releaseWithValue (fence : Fence) (expectedValueRevision : ℕ) (finalValue : Bytes)
  | revoke (resource : RawResourceKey) (expectedEpoch : Option ℕ)
deriving DecidableEq

namespace ResourceAction

def fence : ResourceAction → Option Fence
  | renew fence => some fence
  | compareAndSet fence _ _ => some fence
  | release fence => some fence
  | releaseWithValue fence _ _ => some fence
  | acquire _ _ => none
  | revoke _ _ => none

def rawResource : ResourceAction → RawResourceKey
  | acquire resource _ => resource
  | revoke resource _ => resource
  | renew fence => fence.resource
  | compareAndSet fence _ _ => fence.resource
  | release fence => fence.resource
  | releaseWithValue fence _ _ => fence.resource

/-- An action that cannot grow the state is admitted past the budget. -/
def isSafetyReducing (currentValueLen : ℕ) : ResourceAction → Bool
  | release _ => true
  | revoke _ _ => true
  | releaseWithValue _ _ finalValue => finalValue.length ≤ currentValueLen
  | acquire _ _ => false
  | renew _ => false
  | compareAndSet _ _ _ => false

def requiredRights : ResourceAction → Rights
  | acquire _ _ => rightAcquire
  | renew _ => rightRenew
  | compareAndSet _ _ _ => rightMutate
  | release _ => rightRelease
  | releaseWithValue _ _ _ => rightRelease ||| rightMutate
  | revoke _ _ => rightRevoke

/-- `check_shape`: the value's size, and the time to live of an acquisition. -/
def checkShape : ResourceAction → Except ShapeLimit Unit
  | acquire _ ttlMs => checkTtl ttlMs
  | compareAndSet _ _ newValue => checkValue newValue
  | releaseWithValue _ _ finalValue => checkValue finalValue
  | renew _ => .ok ()
  | release _ => .ok ()
  | revoke _ _ => .ok ()

end ResourceAction

structure ResourceEffect where
  key : ResourceKey
  row : ResourceRow
  outcome : Outcome
  createsResource : Bool

/-! ### Shared checks -/

/-- `granted_rights`. -/
def grantedRights (s : State) (resource : ResourceKey) (actor : NodeId) : Rights :=
  (s.acl[(resource, actor)]?).getD 0

/-- `counters_have_room`. -/
def countersHaveRoom (counters : List ℕ) : Bool := counters.all fun c => c < maxCounter

/-- `growth_fits` of one resource row whose value changes length. -/
def resourceGrowthFits (s : State) (key : ResourceKey) (oldLen : Option ℕ) (newLen : ℕ) : Bool :=
  let old := (oldLen.map (chargeResource key)).getD 0
  let new := chargeResource key newLen
  if new ≤ old then true else s.growthFits (new - old)

/-- `check_fence`: held, by this actor, in this epoch. -/
def checkFence (actor : NodeId) (row : ResourceRow) (fence : Fence) : Decision Unit := do
  refuseIf (!row.held) (.refuse .notHeld)
  refuseIf (fence.holder != actor || row.holder != some actor) (.refuse .notHolder)
  refuseIf (row.epoch != fence.epoch) (.refuse .epochMismatch)

/-! ### The six transitions of a row -/

namespace ResourceRow

def acquired (row : ResourceRow) (actor : NodeId) (ttlMs : ℕ) : ResourceRow :=
  { row with
    epoch := row.epoch + 1
    leaseRevision := row.leaseRevision + 1
    held := true
    holder := some actor
    ttlMs := ttlMs }

def renewed (row : ResourceRow) : ResourceRow :=
  { row with leaseRevision := row.leaseRevision + 1 }

def mutated (row : ResourceRow) (newValue : Bytes) : ResourceRow :=
  { row with value := newValue, valueRevision := row.valueRevision + 1 }

/-- The tenure ends: nobody holds the row, and its epoch is spent. -/
def ended (row : ResourceRow) : ResourceRow :=
  { row with
    held := false
    holder := none
    epoch := row.epoch + 1
    leaseRevision := row.leaseRevision + 1 }

end ResourceRow

/-! ### Decisions -/

def decideAcquire (s : State) (actor : NodeId) (key : ResourceKey) (ttlMs : ℕ) :
    Decision ResourceEffect := do
  let existing := s.resources[key]?
  let row := existing.getD default
  refuseIf row.held (.refuse .heldByOther)
  refuseIf (existing.isNone && s.resources.size ≥ maxResourcesPerGroup)
    (.refuse .resourceSlotsExhausted)
  refuseIf (existing.isNone && !resourceGrowthFits s key none 0) (.refuse .stateBudgetExhausted)
  refuseIf (!countersHaveRoom [row.epoch, row.leaseRevision]) (.refuse .counterExhausted)
  .ok ⟨key, row.acquired actor ttlMs, .granted, existing.isNone⟩

def decideRenew (s : State) (actor : NodeId) (key : ResourceKey) (fence : Fence) :
    Decision ResourceEffect := do
  let row ← requireSome s.resources[key]? (.refuse .notHeld)
  checkFence actor row fence
  refuseIf (!countersHaveRoom [row.leaseRevision]) (.refuse .counterExhausted)
  .ok ⟨key, row.renewed, .renewed, false⟩

def decideCompareAndSet (s : State) (actor : NodeId) (key : ResourceKey) (fence : Fence)
    (expectedValueRevision : ℕ) (newValue : Bytes) : Decision ResourceEffect := do
  let row ← requireSome s.resources[key]? (.refuse .notHeld)
  checkFence actor row fence
  refuseIf (row.valueRevision != expectedValueRevision) (.refuse .valueRevisionMismatch)
  refuseIf (!resourceGrowthFits s key (some row.value.length) newValue.length)
    (.refuse .stateBudgetExhausted)
  refuseIf (!countersHaveRoom [row.valueRevision]) (.refuse .counterExhausted)
  .ok ⟨key, row.mutated newValue, .mutated, false⟩

def decideRelease (s : State) (actor : NodeId) (key : ResourceKey) (fence : Fence) :
    Decision ResourceEffect := do
  let row ← requireSome s.resources[key]? (.refuse .notHeld)
  checkFence actor row fence
  refuseIf (!countersHaveRoom [row.epoch, row.leaseRevision]) (.refuse .counterExhausted)
  .ok ⟨key, row.ended, .released, false⟩

def decideReleaseWithValue (s : State) (actor : NodeId) (key : ResourceKey) (fence : Fence)
    (expectedValueRevision : ℕ) (finalValue : Bytes) (action : ResourceAction) :
    Decision ResourceEffect := do
  let row ← requireSome s.resources[key]? (.refuse .notHeld)
  checkFence actor row fence
  refuseIf (row.valueRevision != expectedValueRevision) (.refuse .valueRevisionMismatch)
  refuseIf (!action.isSafetyReducing row.value.length &&
    !resourceGrowthFits s key (some row.value.length) finalValue.length)
    (.refuse .stateBudgetExhausted)
  refuseIf (!countersHaveRoom [row.epoch, row.leaseRevision, row.valueRevision])
    (.refuse .counterExhausted)
  .ok ⟨key, (row.mutated finalValue).ended, .released, false⟩

def decideRevoke (s : State) (key : ResourceKey) (expectedEpoch : Option ℕ) :
    Decision ResourceEffect := do
  let row ← requireSome s.resources[key]? (.refuse .notHeld)
  refuseIf (expectedEpoch.any fun expected => row.epoch != expected) (.refuse .epochMismatch)
  refuseIf (!countersHaveRoom [row.epoch, row.leaseRevision]) (.refuse .counterExhausted)
  .ok ⟨key, row.ended, .revoked, false⟩

/-- The match at the end of `resource::decide`. -/
def decideTransition (s : State) (actor : NodeId) (key : ResourceKey) (action : ResourceAction) :
    Decision ResourceEffect :=
  match action with
  | .acquire _ ttlMs => decideAcquire s actor key ttlMs
  | .renew fence => decideRenew s actor key fence
  | .compareAndSet fence expected newValue =>
    decideCompareAndSet s actor key fence expected newValue
  | .release fence => decideRelease s actor key fence
  | .releaseWithValue fence expected finalValue =>
    decideReleaseWithValue s actor key fence expected finalValue action
  | .revoke _ expectedEpoch => decideRevoke s key expectedEpoch

/-- `resource::decide`. -/
def decideResource (s : State) (actor : NodeId) (action : ResourceAction) :
    Decision ResourceEffect := do
  let key ← shapeless action.rawResource.validate
  shapeless action.checkShape
  refuseIf (grantedRights s key actor &&& action.requiredRights != action.requiredRights)
    (.refuse .permissionChanged)
  refuseIf (action.fence.any fun fence => fence.group != s.authority.groupId)
    (.refuse .epochMismatch)
  decideTransition s actor key action

/-! ### What an accepted action does -/

/-- The tenure a fence names: the row is held by the actor in the fence's epoch. -/
@[mk_iff]
structure Tenure (actor : NodeId) (row : ResourceRow) (fence : Fence) : Prop where
  held : row.held = true
  claims : fence.holder = actor
  holder : row.holder = some actor
  epoch : row.epoch = fence.epoch

theorem checkFence_eq_ok {row : ResourceRow} {fence : Fence} :
    checkFence actor row fence = .ok () ↔ Tenure actor row fence := by
  simp only [checkFence, accepts_iff, Bool.or_eq_false_iff, tenure_iff, and_assoc]

theorem countersHaveRoom_iff {counters : List ℕ} :
    countersHaveRoom counters = true ↔ ∀ c ∈ counters, c < maxCounter := by
  simp [countersHaveRoom]

/-- The accepted resource actions, one case per transition, with everything the decision checked. -/
inductive ResourceStep (s : State) (actor : NodeId) (key : ResourceKey) :
    ResourceAction → ResourceEffect → Prop where
  | acquire (raw : RawResourceKey) (ttlMs : ℕ) (row : ResourceRow)
      (hrow : s.resources[key]?.getD default = row)
      (hfree : row.held = false)
      (hslots : s.resources[key]? = none → s.resources.size < maxResourcesPerGroup)
      (hfits : s.resources[key]? = none → resourceGrowthFits s key none 0 = true)
      (hepoch : row.epoch < maxCounter) (hlease : row.leaseRevision < maxCounter) :
      ResourceStep s actor key (.acquire raw ttlMs)
        ⟨key, row.acquired actor ttlMs, .granted, s.resources[key]?.isNone⟩
  | renew (fence : Fence) (row : ResourceRow) (hrow : s.resources[key]? = some row)
      (htenure : Tenure actor row fence) (hlease : row.leaseRevision < maxCounter) :
      ResourceStep s actor key (.renew fence) ⟨key, row.renewed, .renewed, false⟩
  | compareAndSet (fence : Fence) (newValue : Bytes) (row : ResourceRow)
      (hrow : s.resources[key]? = some row) (htenure : Tenure actor row fence)
      (hfits : resourceGrowthFits s key (some row.value.length) newValue.length = true)
      (hrev : row.valueRevision < maxCounter) :
      ResourceStep s actor key (.compareAndSet fence row.valueRevision newValue)
        ⟨key, row.mutated newValue, .mutated, false⟩
  | release (fence : Fence) (row : ResourceRow) (hrow : s.resources[key]? = some row)
      (htenure : Tenure actor row fence) (hepoch : row.epoch < maxCounter)
      (hlease : row.leaseRevision < maxCounter) :
      ResourceStep s actor key (.release fence) ⟨key, row.ended, .released, false⟩
  | releaseWithValue (fence : Fence) (finalValue : Bytes) (row : ResourceRow)
      (hrow : s.resources[key]? = some row) (htenure : Tenure actor row fence)
      (hfits : finalValue.length ≤ row.value.length ∨
        resourceGrowthFits s key (some row.value.length) finalValue.length = true)
      (hepoch : row.epoch < maxCounter) (hlease : row.leaseRevision < maxCounter)
      (hrev : row.valueRevision < maxCounter) :
      ResourceStep s actor key (.releaseWithValue fence row.valueRevision finalValue)
        ⟨key, (row.mutated finalValue).ended, .released, false⟩
  | revoke (raw : RawResourceKey) (expectedEpoch : Option ℕ) (row : ResourceRow)
      (hrow : s.resources[key]? = some row)
      (hexp : ∀ e, expectedEpoch = some e → row.epoch = e)
      (hepoch : row.epoch < maxCounter) (hlease : row.leaseRevision < maxCounter) :
      ResourceStep s actor key (.revoke raw expectedEpoch) ⟨key, row.ended, .revoked, false⟩

variable {e : ResourceEffect}

theorem decideAcquire_ok {raw : RawResourceKey} {ttlMs : ℕ}
    (h : decideAcquire s actor key ttlMs = .ok e) :
    ResourceStep s actor key (.acquire raw ttlMs) e := by
  simp only [decideAcquire, accepts_iff, Bool.and_eq_false_iff, countersHaveRoom_iff, ge_iff_le,
    Nat.not_le] at h
  obtain ⟨hfree, hslots, hfits, hroom, rfl⟩ := h
  refine .acquire raw ttlMs _ rfl hfree ?_ ?_ (hroom _ (by simp)) (hroom _ (by simp))
  · intro hnone
    rcases hslots with hsome | hlt
    · simp [hnone] at hsome
    · exact hlt
  · intro hnone
    rcases hfits with hsome | hfits
    · simp [hnone] at hsome
    · exact hfits

variable {action : ResourceAction}

theorem decideTransition_ok (h : decideTransition s actor key action = .ok e) :
    ResourceStep s actor key action e := by
  cases action with
  | acquire => exact decideAcquire_ok h
  | renew fence =>
    simp only [decideTransition, decideRenew, accepts_iff, checkFence_eq_ok,
      countersHaveRoom_iff] at h
    obtain ⟨row, hrow, htenure, hroom, rfl⟩ := h
    exact .renew fence row hrow htenure (hroom _ (by simp))
  | compareAndSet fence expected newValue =>
    simp only [decideTransition, decideCompareAndSet, accepts_iff, checkFence_eq_ok,
      countersHaveRoom_iff] at h
    obtain ⟨row, hrow, htenure, rfl, hfits, hroom, rfl⟩ := h
    exact .compareAndSet fence newValue row hrow htenure hfits (hroom _ (by simp))
  | release fence =>
    simp only [decideTransition, decideRelease, accepts_iff, checkFence_eq_ok,
      countersHaveRoom_iff] at h
    obtain ⟨row, hrow, htenure, hroom, rfl⟩ := h
    exact .release fence row hrow htenure (hroom _ (by simp)) (hroom _ (by simp))
  | releaseWithValue fence expected finalValue =>
    simp only [decideTransition, decideReleaseWithValue, accepts_iff, checkFence_eq_ok,
      countersHaveRoom_iff, Bool.and_eq_false_iff, ResourceAction.isSafetyReducing,
      decide_eq_true_eq] at h
    obtain ⟨row, hrow, htenure, rfl, hfits, hroom, rfl⟩ := h
    exact .releaseWithValue fence finalValue row hrow htenure hfits (hroom _ (by simp))
      (hroom _ (by simp)) (hroom _ (by simp))
  | revoke raw expectedEpoch =>
    simp only [decideTransition, decideRevoke, accepts_iff, countersHaveRoom_iff] at h
    obtain ⟨row, hrow, hexp, hroom, rfl⟩ := h
    refine .revoke raw expectedEpoch row hrow ?_ (hroom _ (by simp)) (hroom _ (by simp))
    intro e he
    simpa [he] using hexp

/-- **What an accepted resource action is**: a validated key, the rights it needs, a fence of this
group, and one of the six transitions. -/
theorem decideResource_ok (h : decideResource s actor action = .ok e) :
    ∃ key, action.rawResource.validate = .ok key ∧ action.checkShape = .ok () ∧
      grantedRights s key actor &&& action.requiredRights = action.requiredRights ∧
      (∀ fence, action.fence = some fence → fence.group = s.authority.groupId) ∧
      ResourceStep s actor key action e := by
  simp only [decideResource, accepts_iff, shapeless_eq_ok] at h
  obtain ⟨key, hkey, hshape, hright, hgroup, hstep⟩ := h
  refine ⟨key, hkey, hshape, hright, ?_, decideTransition_ok hstep⟩
  intro fence hfence
  simpa [hfence] using hgroup

end AsterRpc.Coordination

import AsterRpc.Storage.Store
import AsterRpc.Storage.Valid

/-!
# The writer and the reader of native memberships

A native membership entry is written after two checks, that it does not name the
deployment root and that its learners fit the envelope.  The reader of the
metadata asks for more: no more than two configurations, each of a size the
deployment profile permits, and a membership that names someone.  What the
writer accepts and the reader refuses is exactly what breaks one of these.
-/

namespace AsterRpc.Coordination

open AsterRpc.Foundation

/-- What the reader demands of a membership and the writer does not check. -/
def Membership.readable (m : Membership) (profileCode : Int) : Bool :=
  decide (m.configs.length ≤ 2) &&
    (m.configs.all fun config => !profilePermitsVoters profileCode config.card) && m.named

section

variable {codecs : RowCodecs} {ext : Externals}

/-- A batch of one membership entry, inverted. -/
theorem Store.apply_membership {store store' : Store} {logId : LogId} {m : Membership}
    {replies : List CommandReplyV1}
    (h : store.apply codecs ext [⟨logId, .membership m⟩] = .ok (store', replies)) :
    applyMembership store.state logId m = .ok store'.state := by
  simp only [Store.apply, List.isEmpty_cons, Bool.false_eq_true, if_false, applyEntries, applyEntry,
    accepts_iff, Prod.mk.injEq, Batch.start] at h
  obtain ⟨_, _, ⟨_, _, ⟨_, happly, hnext, -⟩, _, _, ⟨hb', -⟩, hbatch, -⟩,
    _, -, hstore, -⟩ := h
  subst hstore hbatch hb' hnext
  exact happly

/-- **The metadata a membership entry leaves** is valid exactly when the membership is readable. -/
theorem withMembership_metaValid {s : DurableState} {logId : LogId} {m : Membership}
    (hs : MetaValid ext s) (hguard : guardDelivery s.model logId = .ok ())
    (hlearn : (projectMembership m).learners.card ≤ maxLearnerEnvelope) :
    MetaValid ext (s.withMembership logId m) ↔
      m.readable s.model.deploymentProfileCode = true := by
  simp only [Membership.readable, Bool.and_eq_true, decide_eq_true_eq, List.all_eq_true,
    Bool.not_eq_true']
  constructor
  · intro h
    exact ⟨⟨h.joint, h.permitted⟩, h.named⟩
  · rintro ⟨⟨hjoint, hpermitted⟩, hnamed⟩
    have hself : checkMembershipApplied (some logId) (some logId) = .ok () := by
      simp [checkMembershipApplied]
    refine ⟨hs.key, hs.domain, hs.growth, hs.reserve, hs.profile, hjoint, hpermitted, hlearn,
      hnamed, hself, rfl, rfl, ?_⟩
    -- log indices only grow, so what was applied before is behind this entry
    show checkFloorApplied (some logId) s.model.auditFloor = .ok ()
    have hfloor := hs.floor
    cases hmark : s.model.auditFloor with
    | none => rfl
    | some =>
      rw [hmark] at hfloor
      cases hlast : s.model.lastApplied with
      | none => simp [hlast, checkFloorApplied] at hfloor
      | some last =>
        have hlt := (guardDelivery_eq_ok.mp hguard).1 last hlast
        simp only [hlast, checkFloorApplied, refuseIf_eq_ok, decide_eq_false_iff_not] at hfloor ⊢
        omega

/-- **A membership entry that a validated store applies leaves metadata that reopens**, exactly
when the membership has at most two configurations, each permitted by the profile, and names
someone; the root is never a member of it. -/
theorem native_membership_reopens (codecs : RowCodecs) (ext : Externals) (store store' : Store)
    (logId : LogId) (m : Membership) (replies : List CommandReplyV1)
    (hvalid : validate ext store.state = .ok ())
    (happly : store.apply codecs ext [⟨logId, .membership m⟩] = .ok (store', replies)) :
    (validateMeta ext store'.state = .ok () ∧ checkRootNotAMember store'.state = .ok ()) ↔
      m.readable store.state.model.deploymentProfileCode = true := by
  obtain ⟨hguard, hroot, hlearn, hstate⟩ :=
    applyMembership_eq_ok.mp (Store.apply_membership happly)
  have hmeta := validateMeta_eq_ok.mp (validate_eq_ok.mp hvalid).1
  have hnotRoot : checkRootNotAMember store'.state = .ok () := by
    rw [← hstate]
    exact refuseIf_eq_ok.mpr hroot
  rw [← hstate, validateMeta_eq_ok, withMembership_metaValid hmeta hguard hlearn]
  rw [← hstate] at hnotRoot
  exact and_iff_left hnotRoot

end

/-! ### Two voters in a group of one -/

namespace Sample

/-- Codecs that write nothing; no commit fails. -/
def codecs : RowCodecs :=
  ⟨blankCodec _, blankCodec _, blankCodec _, blankCodec _, blankCodec _, blankCodec _⟩

/-- The sample group over empty tables. -/
def store : Store := ⟨⟨∅, ∅, ∅, ∅, ∅, ∅, ∅, none⟩, state⟩

def newcomer : NodeId := FixedBytes.fill 32 4

/-- One voter, and the newcomer as a learner. -/
def learnerMembership : Membership := ⟨[{voter}], {voter, newcomer}, by simp⟩

/-- Two voters, which the profile of the sample group does not permit. -/
def pairMembership : Membership := ⟨[{voter, newcomer}], {voter, newcomer}, by simp⟩

end Sample

open Sample

theorem native_membership_reopens_learner :
    validateMeta externals (state.withMembership (entry 2) learnerMembership) = .ok () :=
  ((native_membership_reopens codecs externals store
    ⟨_, state.withMembership (entry 2) learnerMembership⟩ (entry 2)
    learnerMembership [.nonCommand] state_validated.accepted rfl).mpr
      (by decide +kernel)).1

/-- The group of one voter is handed a native entry of two.  The state machine applies it, and the
metadata it commits is not metadata the store opens. -/
theorem unpermitted_membership_does_not_reopen :
    validate externals state = .ok () ∧
    (store.apply codecs externals [⟨entry 2, .membership pairMembership⟩]).isOk = true ∧
    (match store.apply codecs externals [⟨entry 2, .membership pairMembership⟩] with
    | .ok applied => validateMeta externals applied.1.state
    | .error _ => .ok ()) = .error ⟨"membership", "a configuration the profile does not permit"⟩ :=
  ⟨state_validated.accepted, by decide +kernel, by decide +kernel⟩

end AsterRpc.Coordination

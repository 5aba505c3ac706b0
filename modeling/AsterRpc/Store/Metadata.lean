import AsterRpc.Store.Host
import AsterRpc.Coordination.Noninterference
import AsterRpc.Storage.Valid

/-!
# What a stranger learns about a resource

Two groups that differ only in the row of one resource, and an actor that has no
grant on it and no authority over the group.  The decisions keep the row from
this actor: its rights are checked before anything is read.  Two answers do not
go through a decision's checks first.  A request that the journal refuses is
answered with a snapshot of the resource it names, and the acquisition of a new
resource is answered with whether the group has a slot left.  The host's answers
are equal exactly when neither shows the row.
-/

namespace AsterRpc.Coordination

open AsterRpc.Foundation Working Option SavedSnapshot ResourceAction

/-! ### Two groups and an actor -/

/-- `t` is `s` except in the row of `k`. -/
structure AgreeExcept (k : ResourceKey) (s t : State) : Prop where
  rest : t = s.withResources t.resources
  rows : ∀ key : ResourceKey, key ≠ k → t.resources[key]? = s.resources[key]?

/-- `x` has no grant on `k`, and is neither ROOT nor an administrator. -/
structure Stranger (s : State) (k : ResourceKey) (x : NodeId) : Prop where
  grant : s.acl[(k, x)]? = none
  root : s.isRoot x = false
  admin : x ∉ s.admins

/-- Whether the group has no slot left for another resource. -/
def State.slotsFull (s : State) : Bool := s.resources.size ≥ maxResourcesPerGroup

section

variable {k : ResourceKey} {s t : State} {x : NodeId}

namespace AgreeExcept

/-- Whatever is written to the row. -/
theorem insert (s : State) (k : ResourceKey) (row : ResourceRow) :
    AgreeExcept k s (s.withResources (s.resources.insert k row)) := by
  refine ⟨rfl, fun key hkey => ?_⟩
  rw [State.withResources, Std.ExtTreeMap.getElem?_insert, if_neg]
  rw [Std.LawfulEqCmp.compare_eq_iff_eq]
  exact fun heq => hkey heq.symm

variable (h : AgreeExcept k s t)

include h

theorem acl : t.acl = s.acl := by rw [h.rest]; rfl

theorem authority : t.authority = s.authority := by rw [h.rest]; rfl

theorem adminRevision : t.adminRevision = s.adminRevision := by rw [h.rest]; rfl

theorem classifyClient (client : ClientRef) :
    classifyClient t client = Coordination.classifyClient s client := by
  rw [h.rest]
  rfl

theorem grantedRights (key : ResourceKey) (x : NodeId) :
    grantedRights t key x = Coordination.grantedRights s key x := by
  rw [h.rest]
  rfl

theorem resourceGrowthFits (key : ResourceKey) (oldLen : Option ℕ) (newLen : ℕ) :
    resourceGrowthFits t key oldLen newLen =
      Coordination.resourceGrowthFits s key oldLen newLen := by
  rw [h.rest]
  rfl

theorem stranger (hx : Stranger s k x) : Stranger t k x := by
  rw [h.rest]
  exact ⟨hx.grant, hx.root, hx.admin⟩

end AgreeExcept

namespace Stranger

theorem isAdministrator (hx : Stranger s k x) : s.isAdministrator x = false := by
  simp [State.isAdministrator, hx.root, hx.admin]

/-- Every action asks for a right. -/
theorem lacks (hx : Stranger s k x) (a : ResourceAction) :
    (grantedRights s k x &&& a.requiredRights != a.requiredRights) = true := by
  have hasked : a.requiredRights ≠ 0 := by
    cases a with
    | acquire => exact (by decide : rightAcquire ≠ 0)
    | renew => exact (by decide : rightRenew ≠ 0)
    | compareAndSet => exact (by decide : rightMutate ≠ 0)
    | release => exact (by decide : rightRelease ≠ 0)
    | releaseWithValue =>
      exact (by decide : rightRelease ||| rightMutate ≠ 0)
    | revoke => exact (by decide : rightRevoke ≠ 0)
  have hgranted : grantedRights s k x &&& a.requiredRights = 0 := by
    rw [grantedRights, hx.grant, getD_none]
    exact BitVec.zero_and
  rw [hgranted, bne_iff_ne]
  exact hasked.symm

end Stranger

/-! ### Decisions -/

/-- The action would create a resource, so that its decision counts the resources there are. -/
def AsksForSlot (s : State) (x : NodeId) (action : Action) : Prop :=
  ∃ raw ttlMs key, action = .resource (.acquire raw ttlMs) ∧ raw.validate = .ok key ∧
    checkTtl ttlMs = .ok () ∧ grantedRights s key x &&& rightAcquire = rightAcquire ∧
    s.resources[key]? = none

/-- **A stranger's action on `k` never reaches the log.** -/
theorem Action.not_admitted (ext : Externals) (hx : Stranger s k x) (requestHash : Hash)
    {action : Action} (hnamed : action.validatedResource = some k) :
    project (action.decide ext s x requestHash) ≠ .admitted := by
  have hvalid : ∀ raw : RawResourceKey, raw.validate.toOption = some k → raw.validate = .ok k := by
    intro raw h
    cases hraw : raw.validate with
    | error =>
      rw [hraw] at h
      cases h
    | ok =>
      rw [hraw] at h
      cases h
      rfl
  cases action with
  | resource a =>
    simp only [Action.decide, decideResource, hvalid _ hnamed, shapeless, ok_bind, hx.lacks a]
    cases a.checkShape with
    | error | ok => exact Admission.noConfusion
  | grant a =>
    simp only [Action.decide, decideGrant, hvalid _ hnamed, shapeless, ok_bind,
      hx.isAdministrator]
    cases checkRights a.rights with
    | error | ok => exact Admission.noConfusion
  | admin | changeMembership | cancelMembership => cases hnamed

section

variable (h : AgreeExcept k s t)

include h

/-- The transition of another resource reads nothing of `k` but whether there is a slot. -/
theorem decideTransition_agree {key : ResourceKey} (hkey : key ≠ k) (a : ResourceAction)
    (hslots : ∀ raw ttlMs, a = .acquire raw ttlMs → s.resources[key]? = none →
      t.slotsFull = s.slotsFull) : decideTransition t x key a = decideTransition s x key a := by
  have hrow := h.rows key hkey
  have hfits := h.resourceGrowthFits key
  cases a with
  | acquire raw ttlMs =>
    simp only [decideTransition, decideAcquire, hrow, hfits]
    cases hprev : s.resources[key]? with
    | some => rfl
    | none =>
      have hfull : (t.resources.size ≥ maxResourcesPerGroup : Bool) =
          (s.resources.size ≥ maxResourcesPerGroup : Bool) := hslots raw ttlMs rfl hprev
      rw [hfull]
  | renew => simp only [decideTransition, decideRenew, hrow]
  | compareAndSet =>
    simp [decideTransition, decideCompareAndSet, hrow, hfits]
  | release => simp only [decideTransition, decideRelease, hrow]
  | releaseWithValue =>
    simp [decideTransition, decideReleaseWithValue, hrow, hfits]
  | revoke => simp only [decideTransition, decideRevoke, hrow]

/-- A rejection shows the row it names. -/
theorem rejection_agree {resource : Option ResourceKey} (reason : Reason)
    (hrow : resource = some k → of k (t.resources[k]?.getD default) =
      of k (s.resources[k]?.getD default)) :
    rejection t resource reason = rejection s resource reason := by
  cases resource with
  | none => simp only [rejection, h.adminRevision, map_none]
  | some key =>
    have hsnap : of key (t.resources[key]?.getD default) =
        of key (s.resources[key]?.getD default) := by
      by_cases hkey : key = k
      · subst hkey
        exact hrow rfl
      · rw [h.rows key hkey]
    simp [rejection, h.adminRevision, hsnap]

variable (hx : Stranger s k x)

include hx

theorem decideResource_agree (a : ResourceAction)
    (hslots : AsksForSlot s x (.resource a) → t.slotsFull = s.slotsFull) :
    decideResource t x a = decideResource s x a := by
  unfold decideResource
  cases hvalid : a.rawResource.validate with
  | error => rfl
  | ok key =>
    cases hshape : a.checkShape with
    | error => rfl
    | ok =>
      simp only [shapeless, ok_bind, h.grantedRights, h.authority]
      cases hlack : grantedRights s key x &&& a.requiredRights != a.requiredRights with
      | true => rfl
      | false =>
        have hkey : key ≠ k := by
          rintro rfl
          rw [hx.lacks a] at hlack
          cases hlack
        rw [decideTransition_agree h hkey a]
        rintro raw ttlMs rfl hnone
        exact hslots ⟨raw, ttlMs, key, rfl, hvalid, hshape, bne_eq_false_iff_eq.mp hlack, hnone⟩

theorem decideGrant_agree (a : GrantAction) : decideGrant t x a = decideGrant s x a := by
  simp only [decideGrant, hx.isAdministrator, (h.stranger hx).isAdministrator]
  cases a.resource.validate with
  | error => rfl
  | ok => cases checkRights a.rights <;> rfl

/-- **A stranger's action is decided alike**, but for the slot that a new resource asks for. -/
theorem Action.decide_agree (ext : Externals) (requestHash : Hash) (action : Action)
    (hslots : AsksForSlot s x action → t.slotsFull = s.slotsFull) :
    action.decide ext t x requestHash = action.decide ext s x requestHash := by
  cases action with
  | resource a => simp only [Action.decide, decideResource_agree h hx a hslots]
  | grant a => simp only [Action.decide, decideGrant_agree h hx a]
  | admin | changeMembership | cancelMembership =>
    rw [h.rest]
    rfl

end

end

/-! ### Applying -/

/-- The same grants, and the same rows of every resource but `k`. -/
structure SameElsewhere (k : ResourceKey) (s t : State) : Prop where
  acl : t.acl = s.acl
  rows : ∀ key : ResourceKey, key ≠ k → t.resources[key]? = s.resources[key]?

section

variable (ext : Externals) {k : ResourceKey} {s t s' t' : State} {x : NodeId} {action : Action}
  {client : ClientRef} {row : Row} {creates : Bool}

/-- A reply about another resource reads no value of `k`. -/
theorem replyToWire_agree (h : SameElsewhere k s t) (groupId : Bytes) (command : Command)
    {result : ClientResult} (hnamed : result.reply.resource ≠ some k) :
    replyToWire t groupId command (.client result) =
      replyToWire s groupId command (.client result) := by
  have hvalue : readableValue t command result.reply = readableValue s command result.reply := by
    unfold readableValue
    cases hresource : result.reply.resource with
    | none => rfl
    | some key =>
      have hkey : key ≠ k := fun heq => hnamed (by rw [hresource, heq])
      simp only [bind_some, grantedRights, h.acl, h.rows key hkey]
      rfl
  simp [replyToWire, clientReplyFor, hvalue]

theorem map_congr_ok {ε α β : Type} {r : Except ε α} {f g : α → β}
    (h : ∀ a, r = .ok a → f a = g a) : r.map f = r.map g := by
  cases r with
  | error => rfl
  | ok a => exact congrArg Except.ok (h a rfl)

variable (h : AgreeExcept k s t)

include h

section

variable (hx : Stranger s k client.actor) (hnamed : action.validatedResource ≠ some k)
  (hslots : AsksForSlot s client.actor action → t.slotsFull = s.slotsFull)

include hx hnamed hslots

/-- A stranger's action on another resource is decided alike, and answered alike. -/
theorem Decided.agree {change : RowChange} {reply : SavedReply}
    (hdec : Decided ext s client action change reply) :
    Decided ext t client action change reply := by
  have hdecide := action.decide_agree h hx ext client.requestHash hslots
  have hrej := fun reason => rejection_agree h reason (fun heq => absurd heq hnamed)
  cases hdec with
  | resource a e hd =>
    rw [← decideResource_agree h hx a hslots] at hd
    exact .resource a e hd
  | grant a e hd =>
    rw [← decideGrant_agree h hx a] at hd
    exact .grant a e hd
  | grantNoOp a revision hd =>
    have hreply : noOpGrantReply t (Action.grant a).validatedResource revision =
        noOpGrantReply s (Action.grant a).validatedResource revision := by
      cases hresource : (Action.grant a).validatedResource with
      | none => rfl
      | some key =>
        have hkey : key ≠ k := fun heq => hnamed (by rw [hresource, heq])
        simp [noOpGrantReply, h.rows key hkey]
    rw [← decideGrant_agree h hx a] at hd
    rw [← hreply]
    exact .grantNoOp a revision hd
  | refused _ reason hd =>
    rw [← hrej]
    exact .refused action reason (hdecide.trans hd)
  | shapeless _ limit hd =>
    rw [← hrej]
    exact .shapeless action limit (hdecide.trans hd)
  | admin a e hd | adminNoOp a e hd | change a e hd | existing a e hd | cancel a e hd =>
    rw [h.rest]
    constructor
    exact hd

/-- **A stranger's new request on another resource takes the same step in both groups.** -/
theorem exists_step_agree (hclass : classifyClient s client = .unresolved row creates)
    (logId : LogId) {command : Command} {code : Int}
    (hshape : command = .client client action ∨
      command = .rejectedClient client code action.validatedResource) :
    ∃ change entry row reply, Step ext s logId command change entry row reply ∧
      Step ext t logId command change entry row reply := by
  have hclass' : classifyClient t client = .unresolved row creates := by
    rw [h.classifyClient, hclass]
  have hsess : t.sessions = s.sessions := by
    rw [h.rest]
    rfl
  rcases hshape with rfl | rfl
  · obtain ⟨change, reply, hdec⟩ := exists_decided ext s client action
    have hdec' := hdec.agree ext h hx hnamed hslots
    have hstep : Step ext t logId _ _ _ _ _ :=
      .decided client action change reply row creates hclass' hdec'
    rw [hsess] at hstep
    exact ⟨_, _, _, _, .decided client action change reply row creates hclass hdec, hstep⟩
  · have hstep : Step ext t logId _ _ _ _ _ :=
      .rejectedFresh client code action.validatedResource row creates hclass'
    rw [hsess, rejection_agree h .none (fun heq => absurd heq hnamed)] at hstep
    exact ⟨_, _, _, _, .rejectedFresh client code action.validatedResource row creates hclass,
      hstep⟩

end

theorem SameElsewhere.performed {logId : LogId} {change : RowChange}
    {entry : Option (SessionKey × Session)} {row : AuditRow}
    (hs : Performed s s' logId change entry row) (ht : Performed t t' logId change entry row) :
    SameElsewhere k s' t' := by
  have hins : ∀ (written : ResourceKey) (row : ResourceRow) (key : ResourceKey), key ≠ k →
      (t.resources.insert written row)[key]? = (s.resources.insert written row)[key]? := by
    intro written row key hkey
    rw [Std.ExtTreeMap.getElem?_insert, Std.ExtTreeMap.getElem?_insert, h.rows key hkey]
  refine ⟨by rw [hs.acl, ht.acl, h.acl], ?_⟩
  rw [hs.resources, ht.resources]
  cases change with
  | resource key row | expired key row => exact hins key row
  | grant e => exact hins e.key e.row
  | none | admin | intent | genesis => exact h.rows

/-- A delivery that takes the same step on both sides is answered alike. -/
theorem deliver_agree {logId : LogId} {command : Command} {change : RowChange}
    {entry : Option (SessionKey × Session)} {row : AuditRow} {reply : CommandReply}
    (hs : Step ext s logId command change entry row reply)
    (ht : Step ext t logId command change entry row reply) :
    (deliver ext t (logId, command)).2 = (deliver ext s (logId, command)).2 ∧
      SameElsewhere k (deliver ext s (logId, command)).1 (deliver ext t (logId, command)).1 := by
  have hguard : guardDelivery (start t).state logId =
      guardDelivery (start s).state logId := by
    rw [h.rest]
    rfl
  have hdispatch := Step.dispatch ext (w := start s) hs
  have hdispatch' := Step.dispatch ext (w := start t) ht
  simp only [deliver, applyCommand, applyCommandRecording, hguard, hdispatch, hdispatch']
  cases guardDelivery (start s).state logId with
  | error => exact ⟨rfl, h.acl, h.rows⟩
  | ok =>
    exact ⟨rfl, .performed h ((start s).perform_state ext logId change entry row)
      ((start t).perform_state ext logId change entry row)⟩

/-- **What is proposed for another resource is answered alike.** -/
theorem propose_agree (hx : Stranger s k x) (group : GroupId) (logId : LogId) {m : DecodedMutation}
    {hash : Hash} (hhash : requestHash ext m.wireAction = .ok hash)
    (haction : actionFromWire m.wireAction = .ok action)
    (hclass : classifyClient s (m.client x hash) = .unresolved row creates)
    (hnamed : action.validatedResource ≠ some k)
    (hslots : AsksForSlot s x action → t.slotsFull = s.slotsFull) :
    propose ext group t logId (m.command x hash) =
      propose ext group s logId (m.command x hash) := by
  obtain ⟨command, hcmd, hshape⟩ := commandForApply_command ext x hhash haction
  obtain ⟨_, _, _, _, hs, ht⟩ := exists_step_agree ext h hx hnamed hslots hclass logId hshape
  obtain ⟨hanswer, hstates⟩ := deliver_agree ext h hs ht
  unfold propose
  rw [applyWireCommand_reply ext t logId group.bytes hcmd,
    applyWireCommand_reply ext s logId group.bytes hcmd, hanswer]
  rw [map_congr_ok]
  intro reply hreply
  obtain ⟨_, rfl, hnames⟩ := deliver_fresh ext hshape hclass hreply
  exact replyToWire_agree hstates group.bytes command fun hk => hnamed (hnames k hk)

end

/-! ### The host's answer -/

section

variable (ext : Externals) (group : GroupId) (s t : State) (k : ResourceKey) (x : NodeId)
  (m : DecodedMutation) {action : Action} {hash : Hash} {row : Row} {creates : Bool}

/-- The request is for this group, its action hashes and narrows. -/
structure Asks (hash : Hash) (action : Action) : Prop where
  group : m.identity.groupId = group
  hash : requestHash ext m.wireAction = .ok hash
  action : actionFromWire m.wireAction = .ok action

/-- The journal refuses a request that names `k`, and its row, but for the value, is not the same
in `s` and `t`. -/
def RevealsRow : Prop :=
  ∃ hash action row reason, Asks ext group m hash action ∧
    classifyClient s (m.client x hash) = .refuse row reason ∧
    action.validatedResource = some k ∧
    of k (s.resources[k]?.getD default) ≠
      of k (t.resources[k]?.getD default)

/-- The request is new and would create a resource, and the row of `k` takes the last slot. -/
def RevealsSlot : Prop :=
  ∃ hash action row creates, Asks ext group m hash action ∧
    classifyClient s (m.client x hash) = .unresolved row creates ∧ AsksForSlot s x action ∧
    s.slotsFull ≠ t.slotsFull

variable {ext group s t k x m}

/-- A refusal of the journal shows the row that the request names. -/
theorem RevealsRow.differs (h : AgreeExcept k s t) (hreveals : RevealsRow ext group s t k x m)
    (gates : HostGates) (logId : LogId) :
    mutation ext group gates s s logId x m ≠ mutation ext group gates t t logId x m := by
  obtain ⟨hash, action, row, reason, hasks, hclass, hnamed, hrow⟩ := hreveals
  have hclass' : classifyClient t (m.client x hash) = .refuse row reason := by
    rw [h.classifyClient, hclass]
  intro heq
  rw [mutation_eq_respond ext gates s s logId x hasks.group hasks.hash,
    mutation_eq_respond ext gates t t logId x hasks.group hasks.hash] at heq
  simp only [hasks.action, Except.toOption, preflightAnswer, preflight, hclass, hclass', respond,
    Except.ok.injEq] at heq
  have hsnap := congrArg MutationReplyWireV1.snapshot heq
  simp only [mutationReply, resolvedReply, clientReply, rejection, hnamed, map_some,
    some.injEq] at hsnap
  -- on the wire a snapshot keeps everything it shows
  refine hrow ?_
  simp only [snapshotReply, SavedSnapshot.of, ResourceSnapshotV1.mk.injEq, SavedSnapshot.mk.injEq,
    true_and, and_true] at hsnap ⊢
  obtain ⟨hepoch, hholder, hrest⟩ := hsnap
  exact ⟨hepoch, map_injective FixedBytes.bytes_injective hholder, hrest⟩

/-- The decision of a request for a slot, past its rights. -/
theorem AsksForSlot.decide_eq (ext : Externals) (hash : Hash) (hasks : AsksForSlot s x action) :
    ∃ (effect : ActionVerdict) (fits : Bool), action.decide ext s x hash =
      if s.slotsFull then .error (.refuse .resourceSlotsExhausted)
      else if fits then .ok effect else .error (.refuse .stateBudgetExhausted) := by
  obtain ⟨_, ttlMs, key, rfl, hvalid, hshape, hright, hnone⟩ := hasks
  have hlacks : (grantedRights s key x &&& rightAcquire != rightAcquire) = false := by
    rw [hright, bne_self_eq_false]
  have hroom : countersHaveRoom [(default : ResourceRow).epoch,
      (default : ResourceRow).leaseRevision] = true := by decide
  refine ⟨.resource ⟨key, (default : ResourceRow).acquired x ttlMs, .granted, true⟩,
    resourceGrowthFits s key none 0, ?_⟩
  simp only [Action.decide, decideResource, rawResource, hvalid, shapeless, ok_bind,
    checkShape, hshape, requiredRights, hlacks, refuseIf_false,
    fence, any_none, decideTransition, decideAcquire, hnone,
    getD_none, isNone_none, Bool.true_and, hroom, Bool.not_true]
  rw [show (decide (s.resources.size ≥ maxResourcesPerGroup)) = s.slotsFull from rfl]
  cases s.slotsFull with
  | true => rfl
  | false => cases resourceGrowthFits s key none 0 <;> rfl

/-- A stranger asks for a slot in both groups or in neither. -/
theorem AsksForSlot.agree (h : AgreeExcept k s t) (hx : Stranger s k x)
    (hasks : AsksForSlot s x action) : AsksForSlot t x action := by
  obtain ⟨raw, ttlMs, key, haction, hvalid, hshape, hright, hnone⟩ := hasks
  have hkey : key ≠ k := by
    rintro rfl
    have hlacks := hx.lacks (.acquire raw ttlMs)
    rw [requiredRights, hright, bne_self_eq_false] at hlacks
    cases hlacks
  refine ⟨raw, ttlMs, key, haction, hvalid, hshape, ?_, ?_⟩
  · rw [h.grantedRights, hright]
  · rw [h.rows key hkey, hnone]

section

variable (hasks : Asks ext group m hash action)
  (hclass : classifyClient s (m.client x hash) = .unresolved row creates)

include hasks hclass

/-- What the log answers to a new request consumes its sequence. -/
theorem propose_consumed {logId : LogId} {reply : ClientReplyV1}
    (h : propose ext group s logId (m.command x hash) = .ok reply) :
    reply.dispositionCode = Disposition.consumed.code := by
  obtain ⟨command, hcmd, hshape⟩ := commandForApply_command ext x hasks.hash hasks.action
  unfold propose at h
  rw [applyWireCommand_reply ext s logId group.bytes hcmd] at h
  cases hdeliver : (deliver ext s (logId, command)).2 with
  | error =>
    rw [hdeliver] at h
    cases h
  | ok =>
    obtain ⟨_, rfl, -⟩ := deliver_fresh ext hshape hclass hdeliver
    rw [hdeliver] at h
    cases h
    rfl

/-- **The denial of a slot tells whether there is one**: the answer to a new request for a slot is
the denial exactly when the group is full. -/
theorem mutation_slot_denied_iff (gates : HostGates) (logId : LogId)
    (hslot : AsksForSlot s x action) :
    mutation ext group gates s s logId x m =
        .ok (mutationReply group m.identity hash (denialReply .resourceSlotsExhausted)) ↔
      s.slotsFull = true := by
  obtain ⟨_, fits, hdecide⟩ := hslot.decide_eq ext hash
  rw [mutation_eq_respond ext gates s s logId x hasks.group hasks.hash]
  simp only [hasks.action, Except.toOption, preflightAnswer, preflight, hclass]
  rw [show (m.client x hash).actor = x from rfl, show (m.client x hash).requestHash = hash from rfl,
    hdecide]
  cases hfull : s.slotsFull with
  | true => exact ⟨fun _ => rfl, fun _ => rfl⟩
  | false =>
    simp only [Bool.false_eq_true, if_false, iff_false]
    intro heq
    cases fits with
    | false =>
      have hreason : Reason.stateBudgetExhausted.code = Reason.resourceSlotsExhausted.code :=
        congrArg MutationReplyWireV1.reasonCode (Except.ok.inj heq)
      exact absurd hreason (by decide)
    | true =>
      simp only [if_true, project, respond, accepts_iff] at heq
      obtain ⟨-, reply, hpropose, hreply⟩ := heq
      have hdisposition : reply.dispositionCode = 2 :=
        congrArg MutationReplyWireV1.dispositionCode hreply
      rw [propose_consumed hasks hclass hpropose] at hdisposition
      exact absurd hdisposition (by decide)

end

theorem RevealsSlot.differs (h : AgreeExcept k s t) (hx : Stranger s k x)
    (hreveals : RevealsSlot ext group s t x m) (gates : HostGates) (logId : LogId) :
    mutation ext group gates s s logId x m ≠ mutation ext group gates t t logId x m := by
  obtain ⟨hash, _, row, creates, hasks, hclass, hslot, hfull⟩ := hreveals
  have hclass' : classifyClient t (m.client x hash) = .unresolved row creates := by
    rw [h.classifyClient, hclass]
  have hs := mutation_slot_denied_iff hasks hclass gates logId hslot
  have ht := mutation_slot_denied_iff hasks hclass' gates logId (hslot.agree h hx)
  intro heq
  rw [heq, ht] at hs
  exact hfull (Bool.eq_iff_iff.mpr hs.symm)

end

section

variable (ext : Externals) (group : GroupId) (gates : HostGates)

/-- The journal's answers, the denials and the statuses do not apply anything. -/
theorem respond_agree {s t : State} {logId : LogId} {actor : NodeId} {m : DecodedMutation}
    {hash : Hash} {creates : Bool} {answer : Option Admission}
    (h : answer = some .admitted → propose ext group t logId (m.command actor hash) =
      propose ext group s logId (m.command actor hash)) :
    respond ext group gates t logId actor m hash creates answer =
      respond ext group gates s logId actor m hash creates answer := by
  rcases answer with _ | (result | reason | denial | _)
  · rfl
  · rfl
  · rfl
  · rfl
  · simp [respond, h rfl]

theorem preflightShapeless_agree {k : ResourceKey} {s t : State} (h : AgreeExcept k s t)
    (client : ClientRef) : preflightShapeless t client = preflightShapeless s client := by
  have hrej : ∀ reason, rejection t none reason = rejection s none reason :=
    fun reason => rejection_agree h reason (by simp)
  simp [preflightShapeless, h.classifyClient, hrej]

/-- **What a stranger learns.**  Take two groups that agree except in the row of `k`, and an actor
without a grant on `k` that is neither ROOT nor an administrator.  The host answers its request
alike in both, whatever the request, exactly when it is neither a request on `k` that the journal
refuses while the row, but for its value, differs, nor a new request for a slot that only one of the
groups has. -/
theorem stranger_answered_alike_iff (s t : State) (k : ResourceKey) (x : NodeId) (logId : LogId)
    (m : DecodedMutation) (h : AgreeExcept k s t) (hx : Stranger s k x) :
    mutation ext group gates s s logId x m = mutation ext group gates t t logId x m ↔
      ¬ RevealsRow ext group s t k x m ∧ ¬ RevealsSlot ext group s t x m := by
  refine ⟨fun heq => ⟨fun hrow => hrow.differs h gates logId heq,
    fun hslot => hslot.differs h hx gates logId heq⟩, ?_⟩
  rintro ⟨hrow, hslot⟩
  by_cases hread : m.identity.groupId = group ∧ ∃ hash, requestHash ext m.wireAction = .ok hash
  swap
  · -- a request of another group, or whose action does not hash, never looks at the state
    unfold mutation
    by_cases hgroup : m.identity.groupId = group
    · cases hhash : requestHash ext m.wireAction with
      | ok hash => exact absurd ⟨hgroup, hash, hhash⟩ hread
      | error => rfl
    · have hother : (m.identity.groupId != group) = true := by simpa using hgroup
      rw [hother]
      rfl
  obtain ⟨hgroup, hash, hhash⟩ := hread
  have hcreates : createsSession t (m.client x hash) = createsSession s (m.client x hash) := by
    simp [createsSession, h.classifyClient]
  rw [mutation_eq_respond ext gates s s logId x hgroup hhash,
    mutation_eq_respond ext gates t t logId x hgroup hhash, hcreates]
  cases haction : actionFromWire m.wireAction with
  | error =>
    have hanswer : preflightAnswer ext t (m.client x hash) none =
        preflightAnswer ext s (m.client x hash) none := preflightShapeless_agree h _
    simp only [Except.toOption]
    rw [hanswer]
    refine (respond_agree ext group gates ?_).symm
    intro hadm
    simp only [preflightAnswer, preflightShapeless] at hadm
    cases hclass : classifyClient s (m.client x hash) <;> rw [hclass] at hadm <;>
      cases hadm
  | ok action =>
    have hasks : Asks ext group m hash action := ⟨hgroup, hhash, haction⟩
    simp only [Except.toOption, preflightAnswer]
    cases hclass : classifyClient s (m.client x hash) with
    | replay =>
      simp [preflight, h.classifyClient, hclass, respond]
    | refuse row reason =>
      have hrej : rejection t action.validatedResource reason =
          rejection s action.validatedResource reason := by
        refine rejection_agree h reason fun hnamed => ?_
        by_contra hdiffers
        exact hrow ⟨hash, action, row, reason, hasks, hclass, hnamed, Ne.symm hdiffers⟩
      simp [preflight, h.classifyClient, hclass, hrej, respond]
    | unresolved row creates =>
      have hslots : AsksForSlot s x action → t.slotsFull = s.slotsFull := by
        intro hasked
        by_contra hdiffers
        exact hslot ⟨hash, action, row, creates, hasks, hclass, hasked, Ne.symm hdiffers⟩
      have hpreflight : preflight ext t (m.client x hash) action =
          preflight ext s (m.client x hash) action := by
        simp only [preflight, h.classifyClient, hclass]
        exact congrArg project (action.decide_agree h hx ext hash hslots)
      rw [hpreflight]
      refine (respond_agree ext group gates fun hadm => ?_).symm
      have hproj : project (action.decide ext s x hash) = .admitted := by
        simp only [preflight, hclass, some.injEq] at hadm
        exact hadm
      exact propose_agree ext h hx group logId hhash haction hclass
        (fun hnamed => action.not_admitted ext hx hash hnamed hproj) hslots

end

namespace Sample

/-- An actor without any grant. -/
def stranger : NodeId := FixedBytes.fill 32 3

/-- The group once the voter holds the resource. -/
def heldModel : State :=
  model.withResources (model.resources.insert resource
    { epoch := 5, held := true, holder := some voter, ttlMs := 5000, leaseRevision := 9
      aclRevision := 1 })

/-- The stranger asks for the resource, in this place of its journal. -/
def strangersRequest (sequence : ℕ) : DecodedMutation :=
  ⟨⟨model.authority.groupId, client, sequence⟩, .acquire ⟨resource.ns, resource.key⟩ 5000⟩

def openGates : HostGates := ⟨false, false, false⟩

theorem stranger_model : Stranger model resource stranger :=
  ⟨by decide +kernel, by decide +kernel, by decide +kernel⟩

end Sample

open Sample

/-- In its place the stranger's request is answered alike: it lacks the right. -/
theorem stranger_answered_alike_iff_first :
    ¬ RevealsRow externals model.authority.groupId model heldModel
        resource stranger (strangersRequest 1) ∧
      ¬ RevealsSlot externals model.authority.groupId model heldModel
        stranger (strangersRequest 1) :=
  (stranger_answered_alike_iff externals model.authority.groupId openGates
    model heldModel resource stranger (entry 2)
    (strangersRequest 1) (.insert _ _ _) stranger_model).mp (by decide +kernel)

/-- Out of place it is answered with the holder, the epoch and the revisions. -/
theorem gap_reveals_row :
    AgreeExcept resource model heldModel ∧ Stranger model resource stranger ∧
      mutation externals model.authority.groupId openGates model
          model (entry 2) stranger (strangersRequest 2) ≠
        mutation externals model.authority.groupId openGates heldModel
          heldModel (entry 2) stranger (strangersRequest 2) :=
  ⟨.insert _ _ _, stranger_model, by decide +kernel⟩

end AsterRpc.Coordination

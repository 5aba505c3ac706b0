import AsterRpc.Coordination.Accounting

/-!
# Budgets

The growth budget is kept by the decisions: whatever adds to the growth tables
first asks whether it fits, and whatever does not ask adds nothing.  One step is
exempt, the first genesis, which installs its administrators unasked; it is
covered by room that a group without a genesis cannot have used.  The reserve
budget is kept by the caps on journals and audit rows.
-/

namespace AsterRpc.Coordination

open AsterRpc.Foundation Table Option Working
open RowChange (resources acl admins intents routes)

section

variable (ext : Externals) {s s' : State} {logId : LogId} {change : RowChange}
  {entry : Option (SessionKey × Session)} {row : AuditRow} {key : ResourceKey} {actor : NodeId}
  {action : ResourceAction} {e : IntentEffect} {verified : VerifiedGenesis} {command : Command}
  {reply : CommandReply}

/-! ### What a step does to the growth tables -/

/-- What the growth tables weigh once a change is written. -/
def growthAfter (s : State) (logId : LogId) (change : RowChange) : ℕ :=
  (change.resources s.resources).total resourceCharge + (change.acl s.acl).total grantCharge +
    (change.admins s.admins).card * chargeAdmin +
    (change.intents logId s.intents).total (intentCharge ext) +
    (change.routes logId s.routes).total routeCharge

variable {ext}

theorem Performed.recomputeGrowth (h : Performed s s' logId change entry row) :
    s'.recomputeGrowth ext = growthAfter ext s logId change := by
  obtain ⟨_, _, _, -, rfl⟩ := h
  rfl

/-- A change that adds nothing, or asked whether what it adds fits. -/
def Fits (s : State) (before after : ℕ) : Prop :=
  after ≤ before ∨ (s.growthBytes = before → after ≤ growthBudget)

theorem resourceGrowthFits_iff {oldLen : Option ℕ} {newLen : ℕ} :
    resourceGrowthFits s key oldLen newLen = true ↔
      chargeResource key newLen ≤ (oldLen.map (chargeResource key)).getD 0 ∨
      s.growthBytes + (chargeResource key newLen - (oldLen.map (chargeResource key)).getD 0) ≤
        growthBudget := by
  unfold resourceGrowthFits
  dsimp only
  split_ifs with hle
  · simp [hle]
  · simp [hle, State.growthFits_iff]

/-- One resource row is replaced. -/
theorem resource_fits {row : ResourceRow}
    (h : resourceGrowthFits s key (s.resources[key]?.map (·.value.length)) row.value.length =
      true) :
    Fits s (s.recomputeGrowth ext) (growthAfter ext s logId (.resource key row)) := by
  have hsum := total_insert resourceCharge s.resources key row
  have hweight : s.resources.weightAt resourceCharge key =
      ((s.resources[key]?.map (·.value.length)).map (chargeResource key)).getD 0 := by
    rw [weightAt, map_map]
    rfl
  have hafter : growthAfter ext s logId (.resource key row) +
      s.resources.weightAt resourceCharge key =
        s.recomputeGrowth ext + chargeResource key row.value.length := by
    simp only [growthAfter, State.recomputeGrowth, resources, acl, admins, intents, routes]
    simp only [resourceCharge] at hsum ⊢
    omega
  rw [resourceGrowthFits_iff, ← hweight] at h
  rcases h with hle | hfits
  · exact .inl (by omega)
  · exact .inr (by omega)

/-- A row whose value has the length it had fits. -/
theorem resourceGrowthFits_same (s : State) (key : ResourceKey) (len : ℕ) :
    resourceGrowthFits s key (some len) len = true :=
  resourceGrowthFits_iff.mpr (Or.inl (Nat.le_refl _))

theorem decideResource_fits {e : ResourceEffect} (h : decideResource s actor action = .ok e) :
    Fits s (s.recomputeGrowth ext) (growthAfter ext s logId (.resource e.key e.row)) := by
  obtain ⟨key, -, -, -, -, hstep⟩ := decideResource_ok h
  refine resource_fits ?_
  cases hstep with
  | acquire raw ttlMs row hrow hfree hslots hfits =>
    subst hrow
    cases hold : s.resources[key]? with
    | none => exact hfits hold
    | some => exact resourceGrowthFits_same s key _
  | renew fence row hrow | release fence row hrow | revoke raw expectedEpoch row hrow =>
    rw [hrow]
    exact resourceGrowthFits_same s key _
  | compareAndSet fence newValue row hrow htenure hfits =>
    rw [hrow]
    exact hfits
  | releaseWithValue fence finalValue row hrow htenure hfits =>
    rw [hrow]
    rcases hfits with hshorter | hfits
    · refine resourceGrowthFits_iff.mpr (.inl ?_)
      exact Nat.add_le_add_left hshorter _
    · exact hfits

/-- A grant keeps the value of its resource, so only a new resource row adds to the resources. -/
theorem GrantStep.resources_total {action : GrantAction} {e : GrantEffect}
    (h : GrantStep s actor action e) :
    total resourceCharge (s.resources.insert e.key e.row) =
      s.resources.total resourceCharge +
        if s.resources[e.key]?.isNone then chargeResource e.key 0 else 0 := by
  have hvalue : e.row.value = (s.resources[e.key]?.getD default).value := by
    rw [h.row]
    cases e.fenced <;> rfl
  cases hold : s.resources[e.key]? with
  | none =>
    have hrow : resourceCharge e.key e.row = chargeResource e.key 0 := by
      rw [resourceCharge, hvalue, hold]
      rfl
    have hsum := total_insert_of_none resourceCharge hold e.row
    simp only [isNone_none, if_true]
    omega
  | some old =>
    have hrow : resourceCharge e.key e.row = resourceCharge e.key old := by
      rw [resourceCharge, hvalue, hold]
      rfl
    have hsum := total_insert_of_some resourceCharge hold e.row
    simp only [isNone_some, Bool.false_eq_true, if_false]
    omega

/-- A grant asks for the rows it adds; taking one away frees at least what it may add. -/
theorem decideGrant_fits {action : GrantAction} {e : GrantEffect}
    (h : decideGrant s actor action = .ok (.apply e)) :
    Fits s (s.recomputeGrowth ext) (growthAfter ext s logId (.grant e)) := by
  have hstep := decideGrant_apply h
  have hrows := hstep.resources_total
  cases hright : e.rights with
  | some rights =>
    have hsum := total_insert grantCharge s.acl (e.key, e.subject) rights
    have hafter : growthAfter ext s logId (.grant e) =
        s.recomputeGrowth ext + grantGrowth e.key e.createsResource e.createsAclRow := by
      simp only [growthAfter, State.recomputeGrowth, resources, acl, hright, admins, intents,
        routes, hrows, grantGrowth, hstep.createsResource, hstep.createsAclRow,
        isSome_some, Bool.and_true]
      cases hold : s.acl[(e.key, e.subject)]? <;>
        simp only [weightAt, hold, map_none, map_some, getD_none,
          getD_some, grantCharge] at hsum <;>
        simp only [isNone_none, isNone_some, Bool.false_eq_true, if_true, if_false] <;>
        omega
    have hfits := hstep.fits (by rw [hright]; exact some_ne_none rights)
    unfold grantGrowthFits at hfits
    dsimp only at hfits
    split_ifs at hfits with hzero
    · exact .inl (by omega)
    · rw [State.growthFits_iff] at hfits
      exact .inr (by omega)
  | none =>
    obtain ⟨_, hold⟩ := ne_none_iff_exists'.mp (hright ▸ hstep.changes)
    have hsum := total_erase_of_some grantCharge hold
    refine .inl ?_
    simp only [growthAfter, State.recomputeGrowth, resources, acl, hright, admins, intents,
      routes, hrows]
    split_ifs
    · simp only [grantCharge, chargeResource, chargeAcl] at hsum ⊢
      omega
    · omega

theorem decideAdmin_fits {action : AdminAction} {e : AdminEffect}
    (h : decideAdmin s actor action = .ok (.apply e)) :
    Fits s (s.recomputeGrowth ext) (growthAfter ext s logId (.admin e)) := by
  have hstep := decideAdmin_apply h
  cases hon : e.enabled with
  | true =>
    have hnew : e.target ∉ s.admins := by
      rw [hstep.changes, hon]
      simp
    have hfits := State.growthFits_iff s chargeAdmin |>.mp (hstep.fits hon).1
    refine .inr fun hmatch => ?_
    simp only [growthAfter, resources, acl, admins, hon, if_true,
      intents, routes, Finset.card_insert_of_notMem hnew, Nat.add_mul,
      Nat.one_mul]
    simp only [State.recomputeGrowth] at hmatch
    omega
  | false =>
    refine .inl ?_
    have hcard := Nat.mul_le_mul_right chargeAdmin (Finset.card_erase_le (s := s.admins)
      (a := e.target))
    simp only [growthAfter, State.recomputeGrowth, resources, acl, admins, hon,
      Bool.false_eq_true, if_false, intents, routes]
    omega

/-! ### Intents -/

@[simp] theorem intentCharge_stampIntent (logId : LogId) (id : OperationId) (intent : Intent) :
    intentCharge ext id (stampIntent logId intent) = intentCharge ext id intent := rfl

@[simp] theorem routeCharge_stampRoute (logId : LogId) (node : NodeId) (route : Route) :
    routeCharge node (stampRoute logId route) = routeCharge node route := rfl

variable (ext) in
/-- What an intent effect adds to the growth tables and frees of them, when what it evicts is none
of what it writes. -/
theorem growthAfter_intent (s : State) (logId : LogId) (hevict : e.evict.Nodup)
    (hkept : e.operationId ∉ e.evict) (hroutes : (e.routes.map Prod.fst).Nodup)
    (hevictRoutes : e.evictRoutes.Nodup)
    (hincoming : ∀ node ∈ e.evictRoutes, node ∉ e.routes.map Prod.fst) :
    growthAfter ext s logId (.intent e) + (s.intents.weightAt (intentCharge ext) e.operationId +
        (e.evict.map (s.intents.weightAt (intentCharge ext))).sum +
        (e.routes.map fun r => s.routes.weightAt routeCharge r.1).sum +
        (e.evictRoutes.map (s.routes.weightAt routeCharge)).sum) =
      s.recomputeGrowth ext + (intentCharge ext e.operationId e.intent +
        (e.routes.map fun r => routeCharge r.1 r.2).sum) := by
  have hintents := total_foldl_erase (intentCharge ext) hevict s.intents
  have hintent := total_insert (intentCharge ext)
    (e.evict.foldl (fun t id => t.erase id) s.intents) e.operationId
    (stampIntent logId e.intent)
  rw [weightAt_congr (get?_foldl_erase_of_notMem s.intents hkept),
    intentCharge_stampIntent] at hintent
  have hpruned := total_foldl_erase routeCharge hevictRoutes s.routes
  have hwrote := total_foldl_insert routeCharge
    (fun r : NodeId × Route => stampRoute logId r.2) hroutes
      (e.evictRoutes.foldl (fun t node => t.erase node) s.routes)
  -- A written route is not an evicted one, so its old row is still there when it is replaced.
  have hweights : (e.routes.map fun r => weightAt routeCharge
      (e.evictRoutes.foldl (fun t node => t.erase node) s.routes) r.1) =
      e.routes.map fun r => s.routes.weightAt routeCharge r.1 := by
    refine List.map_congr_left fun r hr => weightAt_congr ?_
    refine get?_foldl_erase_of_notMem s.routes fun hmem => ?_
    exact hincoming r.1 hmem (List.mem_map_of_mem hr)
  rw [hweights] at hwrote
  simp only [routeCharge_stampRoute] at hwrote
  simp only [growthAfter, State.recomputeGrowth, resources, acl, admins, intents, routes]
  omega

/-- A change asks for its intent and its routes, less what they replace. -/
theorem ChangeStep.fits_growth {requestHash : Hash} {action : ChangeMembershipAction}
    (h : ChangeStep ext s actor requestHash action e) :
    Fits s (s.recomputeGrowth ext) (growthAfter ext s logId (.intent e)) := by
  have hfits := h.fits
  have heffect := h.effect
  subst heffect
  have hgrowth := growthAfter_intent ext s logId (e := changeEffect s actor requestHash action)
    List.nodup_nil List.not_mem_nil
    ((nodup_of_sortedUnique (planShape_ok ext h.shape).seeds).sublist (routesFrom_sublist action))
    (routeEvictions_nodup s _) (fun node hnode => routeEvictions_not_incoming hnode)
  refine .inr fun hmatch => ?_
  simp only [growthDelta] at hfits
  omega

/-- An intent whose plan is kept costs what it did, and what it pushes out is freed. -/
theorem IntentUpdate.growth_le {existing : Intent} (h : IntentUpdate s e existing) :
    growthAfter ext s logId (.intent e) ≤ s.recomputeGrowth ext := by
  have hgrowth := growthAfter_intent ext s logId h.evict_nodup h.notMem_evict
    (by rw [h.routes]; exact List.nodup_nil) (by rw [h.evictRoutes]; exact List.nodup_nil)
    (by rw [h.evictRoutes]; exact fun node hnode => absurd hnode List.not_mem_nil)
  have hcharge : intentCharge ext e.operationId e.intent =
      intentCharge ext e.operationId existing := by
    rw [h.intent]
    rfl
  rw [h.routes, h.evictRoutes, weightAt, h.found, hcharge] at hgrowth
  simp only [List.map_nil, List.sum_nil, map_some, getD_some] at hgrowth
  omega

/-! ### The first genesis -/

/-- The administrators of a genesis are few. -/
theorem genesis_growth_le (h : verified.initialAdmins.length ≤ maxAdminsPerGroup) :
    growthAfter ext s logId (.genesis verified) ≤
      s.recomputeGrowth ext + maxAdminsPerGroup * chargeAdmin := by
  have hunion := Finset.card_union_le s.admins verified.initialAdmins.toFinset
  have hnew := List.toFinset_card_le verified.initialAdmins
  have hcard : (s.admins ∪ verified.initialAdmins.toFinset).card ≤
      s.admins.card + maxAdminsPerGroup := by omega
  have hcharge := Nat.mul_le_mul_right chargeAdmin hcard
  rw [Nat.add_mul] at hcharge
  simp only [growthAfter, State.recomputeGrowth, resources, acl, admins, intents, routes]
  omega

theorem checkGenesis_verifies {bytes : Bytes} (h : checkGenesis ext s bytes = .ok verified) :
    verifyGenesis ext s.authority.publicKey s.authority.domain bytes = .ok verified := by
  unfold checkGenesis at h
  cases hverify : verifyGenesis ext s.authority.publicKey s.authority.domain bytes with
  | error =>
    rw [hverify] at h
    cases h
  | ok =>
    rw [hverify] at h
    simp only [accepts_iff] at h
    obtain ⟨_, rfl, -, -, -, rfl⟩ := h
    rfl

theorem checkGenesis_admins {bytes : Bytes} (h : checkGenesis ext s bytes = .ok verified) :
    verified.initialAdmins ≠ [] ∧ verified.initialAdmins.length ≤ maxAdminsPerGroup ∧
      s.authority.publicKey ∉ verified.initialAdmins :=
  verifyGenesis_admins ext (checkGenesis_verifies h)

/-- Someone has rights in the group: it has a grant, or administrators. -/
def State.Governed (s : State) : Prop := s.acl ≠ ∅ ∨ 0 < s.adminRevision

theorem governed_of_isAdministrator (h : s.isAdministrator actor = true) : s.Governed := by
  simp only [State.isAdministrator, Bool.and_eq_true, decide_eq_true_eq] at h
  exact .inr h.1

theorem requiredRights_ne_zero (action : ResourceAction) : action.requiredRights ≠ 0 := by
  cases action <;> simp only [ResourceAction.requiredRights] <;> decide

theorem governed_of_decideResource {e : ResourceEffect}
    (h : decideResource s actor action = .ok e) : s.Governed := by
  obtain ⟨key, -, -, hright, -, -⟩ := decideResource_ok h
  refine .inl fun hempty => requiredRights_ne_zero action ?_
  have hnone : grantedRights s key actor = 0 := by simp [grantedRights, hempty]
  rw [hnone] at hright
  exact hright.symm.trans BitVec.zero_and

/-! ### Every step keeps the growth budget -/

/-- A step adds nothing and gives no grant, or asked in a governed group whether what it adds
fits, or is the first genesis. -/
theorem Step.growth (h : Step ext s logId command change entry row reply) :
    (growthAfter ext s logId change ≤ s.recomputeGrowth ext ∧ change.acl s.acl = s.acl) ∨
      (s.Governed ∧ Fits s (s.recomputeGrowth ext) (growthAfter ext s logId change)) ∨
      (s.adminRevision = 0 ∧ 0 < change.adminRevision s.adminRevision ∧
        growthAfter ext s logId change ≤
          s.recomputeGrowth ext + maxAdminsPerGroup * chargeAdmin) := by
  cases h with
  | decided client action change reply row creates hclass hdec =>
    cases hdec with
    | resource a e he =>
      exact .inr (.inl ⟨governed_of_decideResource he, decideResource_fits he⟩)
    | grant a e he =>
      have hadmin := (decideGrant_apply he).admin
      exact .inr (.inl ⟨governed_of_isAdministrator hadmin, decideGrant_fits he⟩)
    | admin a e he =>
      have hadmin := (decideAdmin_apply he).admin
      exact .inr (.inl ⟨governed_of_isAdministrator hadmin, decideAdmin_fits he⟩)
    | change a e he =>
      have hchange := decideChange_apply ext he
      exact .inr (.inl ⟨governed_of_isAdministrator hchange.admin, hchange.fits_growth⟩)
    | cancel a e he =>
      obtain ⟨existing, hupd⟩ := (decideCancel_ok he).update
      exact .inl ⟨hupd.growth_le, rfl⟩
    | _ => exact .inl ⟨Nat.le_refl _, rfl⟩
  | expired command row he =>
    obtain ⟨old, hold, -, -, -, -, -, rfl⟩ := decideExpire_apply he
    refine .inl ⟨?_, rfl⟩
    have hsum := total_insert_of_some resourceCharge hold old.ended
    have hkept := Nat.add_right_cancel hsum
    simp only [growthAfter, State.recomputeGrowth, RowChange.resources, acl, admins,
      RowChange.intents, routes]
    omega
  | progressed command e he =>
    obtain ⟨_, hprog⟩ := decideProgress_some he
    exact .inl ⟨hprog.update.growth_le, rfl⟩
  | genesisInstalled bytes verified hver hrev =>
    exact .inr (.inr ⟨hrev, Nat.one_pos,
      genesis_growth_le (checkGenesis_admins hver).2.1⟩)
  | _ => exact .inl ⟨Nat.le_refl _, rfl⟩

/-! ### The invariant of a run -/

/-- A group without a genesis has no grants, and room for the administrators of one. -/
def GenesisRoom (s : State) : Prop :=
  s.adminRevision = 0 →
    s.acl = ∅ ∧ s.growthBytes + maxAdminsPerGroup * chargeAdmin ≤ growthBudget

/-- No audit row is of an entry still to come. -/
def AuditInPast (s : State) : Prop :=
  s.audit.AllRows fun key _ => ∃ last, s.lastApplied = some last ∧ key.2 ≤ last.index

variable (ext) in
/-- The counters are exact and within their budgets, and stay so. -/
structure Accounted (s : State) : Prop where
  counters : CountersMatch ext s
  growth : s.growthBytes ≤ growthBudget
  reserve : s.reserveBytes ≤ reserveBudget
  sessions : s.sessions.size ≤ maxRetainedSessionsPerGroup
  audit : AuditInPast s
  room : GenesisRoom s

/-- An entry past the last one has no audit row yet. -/
theorem AuditInPast.fresh (h : AuditInPast s) (hguard : guardDelivery s logId = .ok ()) :
    s.audit[(logId.term, logId.index)]? = none := by
  cases hrow : s.audit[(logId.term, logId.index)]? with
  | none => rfl
  | some row =>
    obtain ⟨last, hlast, hle⟩ := h _ row hrow
    have hlt := (guardDelivery_eq_ok.mp hguard).1 last hlast
    exact absurd hle (Nat.not_le.mpr hlt)

theorem AuditInPast.performed (h : AuditInPast s) (hguard : guardDelivery s logId = .ok ())
    (hp : Performed s s' logId change entry row) : AuditInPast s' := by
  unfold AuditInPast
  rw [hp.audit, hp.lastApplied]
  refine auditAfter_allRows (h.mono fun key _ hkey => ?_) ⟨logId, rfl, Nat.le_refl _⟩
  obtain ⟨last, hlast, hle⟩ := hkey
  have hlt := (guardDelivery_eq_ok.mp hguard).1 last hlast
  exact ⟨logId, rfl, by omega⟩

theorem retained_sessions_le (hstep : Step ext s logId command change entry row reply)
    (hp : Performed s s' logId change entry row)
    (h : s.sessions.size ≤ maxRetainedSessionsPerGroup) :
    s'.sessions.size ≤ maxRetainedSessionsPerGroup := by
  rw [hp.sessions]
  rcases hstep.journal with rfl | ⟨key, session, rfl, hmove⟩
  · exact h
  · simp only [journalled]
    cases hold : s.sessions[key]? with
    | some =>
      rw [size_insert_of_some session hold]
      exact h
    | none =>
      have hroom := hmove.retained hold
      simp only [Capacity.retainedExhausted, State.capacityFor, Bool.or_eq_false_iff,
        decide_eq_false_iff_not, ge_iff_le, Nat.not_le] at hroom
      rw [size_insert_of_none session hold]
      exact hroom.1

theorem auditAfter_size_le (s : State) (logId : LogId) (row : AuditRow) :
    (auditAfter s logId row).size ≤ maxAuditRows := by
  unfold auditAfter
  rw [size_dropFirst]
  omega

/-- The reserve is funded: its rows are counted and each is small. -/
theorem recomputeReserve_le (hsess : s.sessions.size ≤ maxRetainedSessionsPerGroup)
    (haudit : s.audit.size ≤ maxAuditRows) : s.recomputeReserve ≤ reserveBudget := by
  have hjournals : s.sessions.total sessionCharge ≤ s.sessions.size * maxReserveRowCharge :=
    total_le_mul_size fun _ session _ => chargeSession_le _
  have htrail : s.audit.total auditCharge ≤ s.audit.size * maxReserveRowCharge :=
    total_le_mul_size fun _ row _ => chargeAudit_le row.resource
  have hsum := Nat.mul_le_mul_right maxReserveRowCharge (Nat.add_le_add haudit hsess)
  have hfunded := reserve_fits
  rw [Nat.add_mul] at hsum
  unfold State.recomputeReserve
  omega

/-- The budget of a whole step: what it adds is asked for, or covered by the room a group without a
genesis has. -/
theorem Accounted.growth_le (h : Accounted ext s)
    (hstep : Step ext s logId command change entry row reply) :
    growthAfter ext s logId change ≤ growthBudget := by
  have hgrowth := h.growth
  have hexact := h.counters.growth
  rcases hstep.growth with ⟨hle, -⟩ | ⟨-, hfits⟩ | ⟨hrev, -, hle⟩
  · omega
  · exact hfits.elim (fun hle => by omega) fun hasked => hasked hexact
  · have hroom := (h.room hrev).2
    omega

/-- Before a genesis nothing can be added, so the room for its administrators stays. -/
theorem Accounted.genesisRoom (h : Accounted ext s)
    (hstep : Step ext s logId command change entry row reply)
    (hp : Performed s s' logId change entry row) (hcounters : CountersMatch ext s') :
    GenesisRoom s' := by
  intro hrev
  rw [hp.adminRevision] at hrev
  have hpre := h.counters.growth
  have hold : s.adminRevision = 0 := by
    rcases hstep.adminRevision with hsame | ⟨-, hnext⟩ <;> omega
  obtain ⟨hacl, hroom⟩ := h.room hold
  have hexact := hcounters.growth.trans hp.recomputeGrowth
  rw [hp.acl]
  rcases hstep.growth with ⟨hle, hkept⟩ | ⟨hgoverned, -⟩ | ⟨-, hinstalled, -⟩
  · exact ⟨hkept.trans hacl, by omega⟩
  · exact absurd hgoverned (not_or.mpr ⟨not_not.mpr hacl, by omega⟩)
  · omega

/-- **One delivery**: an accounted state stays accounted, and no subtraction goes below zero. -/
theorem Accounted.deliver (h : Accounted ext s) (d : Delivery) :
    Accounted ext (deliver ext s d).1 ∧
      (applyCommandRecording ext (start s) d.1 d.2).1.underflowed = false := by
  simp only [AsterRpc.Coordination.deliver, applyCommand]
  obtain ⟨_, hfault⟩ | ⟨_, change, entry, row, hguard, hstep, hrecorded⟩ :=
    applyCommandRecording_cases ext (start s) d.1 d.2
  · rw [hfault]
    exact ⟨h, rfl⟩
  · rw [hrecorded]
    have hp := (start s).perform_state ext d.1 change entry row
    have hexact := (Working.Exact.start h.counters).perform entry row hstep.charged
      (h.audit.fresh hguard)
    have hsess := retained_sessions_le hstep hp h.sessions
    have haudit := auditAfter_size_le s d.1 row
    refine ⟨⟨hexact.counters, ?_, ?_, hsess, h.audit.performed hguard hp,
      h.genesisRoom hstep hp hexact.counters⟩, hexact.clean⟩
    · rw [hexact.counters.growth, hp.recomputeGrowth]
      exact h.growth_le hstep
    · rw [hexact.counters.reserve]
      exact recomputeReserve_le hsess (by rw [hp.audit]; exact haudit)

end

end AsterRpc.Coordination

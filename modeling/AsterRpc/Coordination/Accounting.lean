import AsterRpc.Coordination.Effects

/-!
# Byte accounting

Two counters stand for two sums: the growth counter for what the resource, grant,
administrator, intent and route rows weigh, the reserve counter for the journals
and the audit trail.  The counters are moved write by write; here every writer is
shown to move its counter by exactly what it does to the sum, and the budgets are
shown to hold.  The reserve fits because its rows are counted and small, the
growth because every decision that adds to it asks first.
-/

namespace AsterRpc.Coordination

open AsterRpc.Foundation Table State

section

variable (ext : Externals)

/-- `counters_match_recomputation`. -/
structure CountersMatch (s : State) : Prop where
  growth : s.growthBytes = s.recomputeGrowth ext
  reserve : s.reserveBytes = s.recomputeReserve

/-- The counters match, and no subtraction has gone below zero on the way. -/
structure Working.Exact (w : Working) : Prop where
  counters : CountersMatch ext w.state
  clean : w.underflowed = false

namespace Working.Exact

variable {ext} {w w' : Working}

theorem start {s : State} (h : CountersMatch ext s) : (Working.start s).Exact ext := ⟨h, rfl⟩

/-- What one write keeps, a loop of writes keeps. -/
theorem foldl {α : Type} {f : Working → α → Working}
    (hf : ∀ {w} (a : α), w.Exact ext → (f w a).Exact ext) (h : w.Exact ext) (as : List α) :
    (as.foldl f w).Exact ext := by
  induction as generalizing w with
  | nil => exact h
  | cons a rest ih => exact ih (hf a h)

section

variable (h : w.Exact ext)

include h

/-- A write that moves the growth counter by what it does to the sum keeps it exact. -/
theorem of_growth (added freed : ℕ)
    (hgrowth : w'.state.growthBytes = wrappingSub (w.state.growthBytes + added) freed)
    (hflag : w'.underflowed = (w.underflowed || decide (w.state.growthBytes + added < freed)))
    (hsum : w'.state.recomputeGrowth ext + freed = w.state.recomputeGrowth ext + added)
    (hreserve : w'.state.reserveBytes = w.state.reserveBytes)
    (hrows : w'.state.recomputeReserve = w.state.recomputeReserve) : w'.Exact ext := by
  have hexact := h.counters.growth
  have hle : freed ≤ w.state.growthBytes + added := by omega
  refine ⟨⟨?_, by rw [hreserve, hrows]; exact h.counters.reserve⟩, ?_⟩
  · rw [hgrowth, wrappingSub_of_le hle]
    omega
  · rw [hflag, h.clean, Bool.false_or, decide_eq_false_iff_not]
    omega

/-- The same for the reserve counter. -/
theorem of_reserve (added freed : ℕ)
    (hreserve : w'.state.reserveBytes = wrappingSub (w.state.reserveBytes + added) freed)
    (hflag : w'.underflowed = (w.underflowed || decide (w.state.reserveBytes + added < freed)))
    (hsum : w'.state.recomputeReserve + freed = w.state.recomputeReserve + added)
    (hgrowth : w'.state.growthBytes = w.state.growthBytes)
    (hrows : w'.state.recomputeGrowth ext = w.state.recomputeGrowth ext) : w'.Exact ext := by
  have hexact := h.counters.reserve
  have hle : freed ≤ w.state.reserveBytes + added := by omega
  refine ⟨⟨by rw [hgrowth, hrows]; exact h.counters.growth, ?_⟩, ?_⟩
  · rw [hreserve, wrappingSub_of_le hle]
    omega
  · rw [hflag, h.clean, Bool.false_or, decide_eq_false_iff_not]
    omega

/-- A write that moves no counter and no sum keeps both exact. -/
theorem of_same (hgrowth : w'.state.growthBytes = w.state.growthBytes)
    (hflag : w'.underflowed = w.underflowed)
    (hsum : w'.state.recomputeGrowth ext = w.state.recomputeGrowth ext)
    (hreserve : w'.state.reserveBytes = w.state.reserveBytes)
    (hrows : w'.state.recomputeReserve = w.state.recomputeReserve) : w'.Exact ext :=
  ⟨⟨by rw [hgrowth, hsum]; exact h.counters.growth,
    by rw [hreserve, hrows]; exact h.counters.reserve⟩, by rw [hflag]; exact h.clean⟩

/-! ### Resources, grants and administrators -/

theorem writeResource (key : ResourceKey) (row : ResourceRow) :
    (w.writeResource key row).Exact ext := by
  refine h.of_growth _ _ rfl rfl ?_ rfl rfl
  have hsum := total_insert resourceCharge w.state.resources key row
  simp only [recomputeGrowth, Working.writeResource, putResource, moveGrowth]
  omega

/-- An expired row is written without being charged again: its value is the one it had. -/
theorem putResource {key : ResourceKey} {old row : ResourceRow}
    (hold : w.state.resources[key]? = some old) (hsame : row.value = old.value) :
    (w.putResource key row).Exact ext := by
  refine h.of_same rfl rfl ?_ rfl rfl
  have hsum := total_insert_of_some resourceCharge hold row
  simp only [resourceCharge, hsame] at hsum
  simp only [recomputeGrowth, Working.putResource]
  omega

theorem writeGrant {e : GrantEffect}
    (hcreates : e.createsAclRow = (w.state.acl[(e.key, e.subject)]?.isNone && e.rights.isSome)) :
    (w.writeGrant e).Exact ext := by
  cases hright : e.rights with
  | some rights =>
    cases hold : w.state.acl[(e.key, e.subject)]? with
    | none =>
      have hcreate : e.createsAclRow = true := by simp [hcreates, hold, hright]
      have hsum := total_insert_of_none grantCharge hold rights
      simp only [Working.writeGrant, hright, hcreate, if_true]
      refine h.of_growth (chargeAcl e.key) 0 rfl rfl ?_ rfl rfl
      simp only [recomputeGrowth, putGrant, moveGrowth]
      simp only [grantCharge] at hsum ⊢
      omega
    | some =>
      have hcreate : e.createsAclRow = false := by simp [hcreates, hold]
      have hsum := total_insert_of_some grantCharge hold rights
      simp only [Working.writeGrant, hright, hcreate, Bool.false_eq_true, if_false]
      refine h.of_same rfl rfl ?_ rfl rfl
      simp only [recomputeGrowth, putGrant]
      simp only [grantCharge] at hsum ⊢
      omega
  | none =>
    cases hold : w.state.acl[(e.key, e.subject)]? with
    | none =>
      have hcontains : w.state.acl.contains (e.key, e.subject) = false := by
        rw [contains_eq_isSome, hold]
        rfl
      simp only [Working.writeGrant, hright, hcontains, Bool.false_eq_true, if_false]
      refine h.of_same rfl rfl ?_ rfl rfl
      simp [recomputeGrowth, removeGrant, erase_eq_self hold]
    | some =>
      have hcontains : w.state.acl.contains (e.key, e.subject) = true := by
        rw [contains_eq_isSome, hold]
        rfl
      have hsum := total_erase_of_some grantCharge hold
      simp only [grantCharge] at hsum
      simp only [Working.writeGrant, hright, hcontains, if_true]
      refine h.of_growth 0 (chargeAcl e.key) rfl rfl ?_ rfl rfl
      simp only [recomputeGrowth, removeGrant, moveGrowth]
      omega

theorem writeAdmin (e : AdminEffect) : (w.writeAdmin e).Exact ext := by
  cases hon : e.enabled with
  | true =>
    by_cases hmem : e.target ∈ w.state.admins
    · simp only [Working.writeAdmin, hon, hmem, if_true]
      refine h.of_same rfl rfl ?_ rfl rfl
      simp [recomputeGrowth, putAdmin, Finset.insert_eq_self.mpr hmem]
    · simp only [Working.writeAdmin, hon, hmem, if_true, if_false]
      refine h.of_growth chargeAdmin 0 rfl rfl ?_ rfl rfl
      simp only [recomputeGrowth, putAdmin, moveGrowth, Finset.card_insert_of_notMem hmem]
      ring
  | false =>
    by_cases hmem : e.target ∈ w.state.admins
    · simp only [Working.writeAdmin, hon, hmem, Bool.false_eq_true, if_true, if_false]
      refine h.of_growth 0 chargeAdmin rfl rfl ?_ rfl rfl
      have hcard := Finset.card_erase_add_one hmem
      simp only [recomputeGrowth, removeAdmin, moveGrowth, ← hcard]
      ring
    · simp only [Working.writeAdmin, hon, hmem, Bool.false_eq_true, if_false]
      refine h.of_same rfl rfl ?_ rfl rfl
      simp [recomputeGrowth, removeAdmin, Finset.erase_eq_self.mpr hmem]

/-! ### Intents and routes -/

theorem evictIntent (id : OperationId) : (w.evictIntent ext id).Exact ext := by
  cases hold : w.state.intents[id]? with
  | some old =>
    have hsum := total_erase_of_some (intentCharge ext) hold
    simp only [Working.evictIntent, hold]
    refine h.of_growth 0 (intentCharge ext id old) rfl rfl ?_ rfl rfl
    simp only [recomputeGrowth, removeIntent, moveGrowth]
    omega
  | none =>
    simp only [Working.evictIntent, hold]
    refine h.of_same rfl rfl ?_ rfl rfl
    simp [recomputeGrowth, removeIntent, erase_eq_self hold]

theorem writeIntentRow (id : OperationId) (intent : Intent) :
    (w.writeIntentRow ext id intent).Exact ext := by
  refine h.of_growth _ _ rfl rfl ?_ rfl rfl
  have hsum := total_insert (intentCharge ext) w.state.intents id intent
  simp only [recomputeGrowth, Working.writeIntentRow, putIntent, moveGrowth]
  omega

theorem evictRoute (node : NodeId) : (w.evictRoute node).Exact ext := by
  cases hold : w.state.routes[node]? with
  | some old =>
    have hsum := total_erase_of_some routeCharge hold
    simp only [Working.evictRoute, hold]
    refine h.of_growth 0 (routeCharge node old) rfl rfl ?_ rfl rfl
    simp only [recomputeGrowth, removeRoute, moveGrowth]
    omega
  | none =>
    simp only [Working.evictRoute, hold]
    refine h.of_same rfl rfl ?_ rfl rfl
    simp [recomputeGrowth, removeRoute, erase_eq_self hold]

theorem writeRoute (logId : LogId) (entry : NodeId × Route) :
    (w.writeRoute logId entry).Exact ext := by
  refine h.of_growth _ _ rfl rfl ?_ rfl rfl
  have hsum := total_insert routeCharge w.state.routes entry.1 (stampRoute logId entry.2)
  simp only [recomputeGrowth, Working.writeRoute, putRoute, moveGrowth]
  omega

theorem writeIntent (logId : LogId) (e : IntentEffect) : (w.writeIntent ext logId e).Exact ext := by
  have hevicted := foldl (fun id h => h.evictIntent id) h e.evict
  have hwrote := hevicted.writeIntentRow e.operationId (stampIntent logId e.intent)
  have hpruned := foldl (fun node h => h.evictRoute node) hwrote e.evictRoutes
  exact foldl (fun entry h => h.writeRoute logId entry) hpruned e.routes

/-- The first genesis sets the growth counter to the sum. -/
theorem installGenesis (verified : VerifiedGenesis) :
    (installGenesis ext w verified).Exact ext := by
  have hflag : (verified.initialAdmins.foldl putAdmin w).underflowed = w.underflowed := by
    have hput : ∀ (targets : List NodeId) (w : Working),
        (targets.foldl putAdmin w).underflowed = w.underflowed := by
      intro targets
      induction targets with
      | nil => exact fun _ => rfl
      | cons target rest ih => exact fun w => ih (w.putAdmin target)
    exact hput _ w
  refine ⟨⟨rfl, ?_⟩, hflag.trans h.clean⟩
  have hreserve := h.counters.reserve
  simp only [AsterRpc.Coordination.installGenesis, putAdmins_state]
  exact hreserve

/-! ### Journals and the audit trail -/

theorem writeSessionRow (key : SessionKey) (row : Session) :
    (w.writeSessionRow key row).Exact ext := by
  refine h.of_reserve _ _ rfl rfl ?_ rfl rfl
  have hsum := total_insert sessionCharge w.state.sessions key row
  simp only [recomputeReserve, Working.writeSessionRow, putSession, moveReserve]
  omega

theorem pruneOldest {oldest : AuditKey × AuditRow} (hold : oldestAudit w.state = some oldest) :
    (w.pruneOldest oldest).Exact ext := by
  have hsum := total_erase_of_some auditCharge (get?_of_head? hold)
  refine h.of_reserve 0 (auditCharge oldest.1 oldest.2) rfl rfl ?_ rfl rfl
  simp only [recomputeReserve, Working.pruneOldest, removeAudit, moveReserve]
  omega

theorem pruneLoop (fuel : ℕ) : (pruneLoop fuel w).Exact ext := by
  induction fuel generalizing w with
  | zero => exact h
  | succ fuel ih =>
    rw [Working.pruneLoop]
    split_ifs with hover
    · cases hold : oldestAudit w.state with
      | none => exact h
      | some => exact ih (h.pruneOldest hold)
    · exact h

/-- An audit row adds its charge to the reserve, which is right if no row stood under its key. -/
theorem writeAuditRow {logId : LogId} (row : AuditRow)
    (hfresh : w.state.audit[(logId.term, logId.index)]? = none) :
    (w.writeAuditRow logId row).Exact ext := by
  refine pruneLoop ?_ _
  have hsum := total_insert_of_none auditCharge hfresh row
  refine h.of_reserve (auditCharge (logId.term, logId.index) row) 0 rfl rfl ?_ rfl rfl
  simp only [recomputeReserve, putAudit, moveReserve]
  omega

end

end Working.Exact

/-! ### One step -/

/-- What the uncharged writers rely on: an expired row keeps its value, and a grant knows whether
its row is new. -/
def RowChange.Charged (s : State) : RowChange → Prop
  | expired key row => ∃ old, s.resources[key]? = some old ∧ row.value = old.value
  | grant e => e.createsAclRow = (s.acl[(e.key, e.subject)]?.isNone && e.rights.isSome)
  | _ => True

variable {ext}

theorem Step.charged {s : State} {logId : LogId} {command : Command} {change : RowChange}
    {entry : Option (SessionKey × Session)} {row : AuditRow} {reply : CommandReply}
    (h : Step ext s logId command change entry row reply) : change.Charged s := by
  cases h with
  | decided client action change reply row creates hclass hdec =>
    cases hdec with
    | grant a e he => exact (decideGrant_apply he).createsAclRow
    | _ => trivial
  | expired command row he =>
    obtain ⟨old, hold, -, -, -, -, -, rfl⟩ := decideExpire_apply he
    exact ⟨old, hold, rfl⟩
  | _ => trivial

theorem Working.Exact.write {w : Working} (h : w.Exact ext) (logId : LogId) {change : RowChange}
    (hcharged : change.Charged w.state) : (w.write ext logId change).Exact ext := by
  cases change with
  | none => exact h
  | resource key row => exact h.writeResource key row
  | expired =>
    obtain ⟨old, hold, hsame⟩ := hcharged
    exact h.putResource hold hsame
  | grant e => exact (h.writeResource e.key e.row).writeGrant hcharged
  | admin e => exact h.writeAdmin e
  | intent e => exact h.writeIntent logId e
  | genesis verified => exact h.installGenesis verified

/-- **A step keeps both counters exact**, provided no audit row stands under its log id. -/
theorem Working.Exact.perform {w : Working} (h : w.Exact ext) {logId : LogId} {change : RowChange}
    (entry : Option (SessionKey × Session)) (row : AuditRow) (hcharged : change.Charged w.state)
    (hfresh : w.state.audit[(logId.term, logId.index)]? = none) :
    ((w.perform ext logId change entry row).setLastApplied logId).Exact ext := by
  have hwrite := h.write logId hcharged
  obtain ⟨growth, hstate⟩ := w.write_state ext logId change
  have hjournal : ((w.write ext logId change).journal entry).Exact ext := by
    cases entry with
    | none => exact hwrite
    | some entry => exact hwrite.writeSessionRow entry.1 entry.2
  have hkept : (w.write ext logId change).state.audit = w.state.audit := by rw [hstate]
  have haudit : ((w.write ext logId change).journal entry).state.audit = w.state.audit := by
    cases entry with
    | none => exact hkept
    | some => exact hkept
  have hwrote : (w.perform ext logId change entry row).Exact ext :=
    hjournal.writeAuditRow row (by rw [haudit]; exact hfresh)
  exact hwrote.of_same rfl rfl rfl rfl rfl

end

end AsterRpc.Coordination

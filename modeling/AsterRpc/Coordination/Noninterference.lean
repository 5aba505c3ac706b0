import AsterRpc.Coordination.Boundary
import AsterRpc.Coordination.Fencing

/-!
# Values are read only with the right to read

Two groups that differ only in values that an actor may not read, of the same
lengths, cannot be told apart by it.  The proof runs both groups side by side:
whatever a command does, it does to both, except that the rows it leaves carry
their own hidden values; nothing but the length of a value is ever looked at, and
a reply shows a value only to who may read it.
-/

namespace AsterRpc.Coordination

open AsterRpc.Foundation Table Working

/-! ### Twins -/

/-- The row with another value. -/
def ResourceRow.withValue (row : ResourceRow) (value : Bytes) : ResourceRow :=
  { row with value := value }

open ResourceRow

/-- `row'` is `row` up to a value of the same length, and the same value where it is `visible`. -/
def RowTwin (visible : Prop) (row row' : ResourceRow) : Prop :=
  ∃ value, row' = row.withValue value ∧ value.length = row.value.length ∧
    (visible → value = row.value)

/-- The same rows up to hidden values. -/
def TableTwin (visible : ResourceKey → Prop) (t t' : Table ResourceKey ResourceRow) : Prop :=
  ∀ key : ResourceKey, (t[key]? = none ∧ t'[key]? = none) ∨
    ∃ row row' : ResourceRow, t[key]? = some row ∧ t'[key]? = some row' ∧
      RowTwin (visible key) row row'

theorem RowTwin.refl (visible : Prop) (row : ResourceRow) : RowTwin visible row row :=
  ⟨row.value, rfl, rfl, fun _ => rfl⟩

/-- The state with other resource rows. -/
def State.withResources (s : State) (t : Table ResourceKey ResourceRow) : State :=
  { s with resources := t }

/-- The working state with other resource rows. -/
def Working.withResources (w : Working) (t : Table ResourceKey ResourceRow) : Working :=
  { w with state := w.state.withResources t }

section

variable {visible : ResourceKey → Prop} {t t' : Table ResourceKey ResourceRow}
  (h : TableTwin visible t t') (key : ResourceKey)

include h

theorem TableTwin.insert {key : ResourceKey} {row row' : ResourceRow}
    (hrow : RowTwin (visible key) row row') :
    TableTwin visible (t.insert key row) (t'.insert key row') := by
  intro k
  by_cases hk : key = k
  · subst hk
    exact .inr ⟨row, row', get?_insert_self _ _ _, get?_insert_self _ _ _, hrow⟩
  · rw [get?_insert_of_ne _ _ hk, get?_insert_of_ne _ _ hk]
    exact h k

theorem TableTwin.isSome : t'[key]?.isSome = t[key]?.isSome := by
  rcases h key with ⟨hnone, hnone'⟩ | ⟨_, _, hrow, hrow', -⟩
  · rw [hnone, hnone']
  · rw [hrow, hrow']
    rfl

theorem TableTwin.isNone : t'[key]?.isNone = t[key]?.isNone := by
  rw [← Option.not_isSome, ← Option.not_isSome, h.isSome]

/-- An untouched row is its own twin. -/
theorem TableTwin.getD : RowTwin (visible key) (t[key]?.getD default) (t'[key]?.getD default) := by
  rcases h key with ⟨hnone, hnone'⟩ | ⟨_, _, hrow, hrow', htwin⟩
  · rw [hnone, hnone']
    exact .refl _ _
  · rw [hrow, hrow']
    exact htwin

theorem TableTwin.weightAt :
    Table.weightAt resourceCharge t' key = Table.weightAt resourceCharge t key := by
  unfold Table.weightAt
  rcases h key with ⟨hnone, hnone'⟩ | ⟨_, _, hrow, hrow', _, rfl, hlen, -⟩
  · rw [hnone, hnone']
  · rw [hrow, hrow']
    simp [resourceCharge, withValue, hlen]

theorem TableTwin.size : t'.size = t.size :=
  size_eq_of_keys h.isSome

theorem TableTwin.total : total resourceCharge t' = total resourceCharge t :=
  total_eq_of_weightAt h.isSome h.weightAt

end

/-! ### Decisions -/

/-- The same effect on twin rows. -/
def EffectTwin (visible : ResourceKey → Prop) (e e' : ResourceEffect) : Prop :=
  ∃ row', RowTwin (visible e.key) e.row row' ∧ e' = { e with row := row' }

/-- The same verdict on a grant, on twin rows. -/
inductive GrantTwin (visible : ResourceKey → Prop) : GrantVerdict → GrantVerdict → Prop where
  | apply (e : GrantEffect) (row' : ResourceRow) (h : RowTwin (visible e.key) e.row row') :
      GrantTwin visible (.apply e) (.apply { e with row := row' })
  | noOp (revision : ℕ) : GrantTwin visible (.noOp revision) (.noOp revision)

section

variable {visible : ResourceKey → Prop} {s : State} {t' : Table ResourceKey ResourceRow}
  (h : TableTwin visible s.resources t')

include h

/-- A lookup that must succeed fails on both sides or finds twins. -/
theorem TableTwin.requireSome (key : ResourceKey) (refusal : Refusal) :
    Alike (RowTwin (visible key)) (requireSome s.resources[key]? refusal)
      (requireSome t'[key]? refusal) := by
  rcases h key with ⟨hnone, hnone'⟩ | ⟨_, _, hrow, hrow', htwin⟩
  · rw [hnone, hnone']
    exact .error refusal
  · rw [hrow, hrow']
    exact .ok htwin

theorem decideAcquire_twin (actor : NodeId) (key : ResourceKey) (ttlMs : ℕ) :
    Alike (EffectTwin visible) (decideAcquire s actor key ttlMs)
      (decideAcquire (s.withResources t') actor key ttlMs) := by
  obtain ⟨value, hrow, hlen, hvisible⟩ := h.getD key
  unfold decideAcquire
  simp only [State.withResources, hrow, h.isNone, h.size]
  refine .after _ fun _ => .after _ fun _ => .after _ fun _ => .after _ fun _ => .ok ?_
  exact ⟨_, ⟨value, rfl, hlen, hvisible⟩, rfl⟩

theorem decideTransition_twin (actor : NodeId) (key : ResourceKey) (a : ResourceAction) :
    Alike (EffectTwin visible) (decideTransition s actor key a)
      (decideTransition (s.withResources t') actor key a) := by
  cases a with
  | acquire raw ttlMs => exact decideAcquire_twin h actor key ttlMs
  | renew fence | release fence =>
    refine (h.requireSome key _).bind ?_
    rintro row _ ⟨value, rfl, hlen, hvisible⟩
    refine .after (checkFence actor row fence) fun _ => .after _ fun _ => .ok ?_
    exact ⟨_, ⟨value, rfl, hlen, hvisible⟩, rfl⟩
  | compareAndSet fence expected value | releaseWithValue fence expected value =>
    refine (h.requireSome key _).bind ?_
    rintro row _ ⟨value, rfl, hlen, hvisible⟩
    simp only [withValue, hlen]
    refine .after (checkFence actor row fence) fun _ => .after _ fun _ => .after _ fun _ =>
      .after _ fun _ => .ok ?_
    exact ⟨_, .refl _ _, rfl⟩
  | revoke =>
    refine (h.requireSome key _).bind ?_
    rintro row _ ⟨value, rfl, hlen, hvisible⟩
    refine .after _ fun _ => .after _ fun _ => .ok ?_
    exact ⟨_, ⟨value, rfl, hlen, hvisible⟩, rfl⟩

theorem decideResource_twin (actor : NodeId) (a : ResourceAction) :
    Alike (EffectTwin visible) (decideResource s actor a)
      (decideResource (s.withResources t') actor a) :=
  .after _ fun key => .after _ fun _ => .after _ fun _ => .after _ fun _ =>
    decideTransition_twin h actor key a

theorem grantFences_twin (key : ResourceKey)
    (existingRights : Option Rights) (subject : NodeId) (after : Rights) :
    grantFences t'[key]? existingRights subject after =
      grantFences s.resources[key]? existingRights subject after := by
  rcases h key with ⟨hnone, hnone'⟩ | ⟨_, _, hrow, hrow', _, rfl, -, -⟩
  · rw [hnone, hnone']
  · rw [hrow, hrow']
    rfl

theorem decideGrantChange_twin (key : ResourceKey) (a : GrantAction) :
    Alike (fun e e' : GrantEffect => ∃ row', RowTwin (visible e.key) e.row row' ∧
        e' = { e with row := row' })
      (decideGrantChange s key a) (decideGrantChange (s.withResources t') key a) := by
  obtain ⟨value, hrow, hlen, hvisible⟩ := h.getD key
  unfold decideGrantChange
  simp only [State.withResources, hrow, h.isNone, h.size, grantFences_twin h]
  refine .after _ fun _ => .after _ fun _ => .after _ fun _ => .after _ fun _ => .ok ?_
  refine ⟨_, ⟨value, ?_, ?_, ?_⟩, rfl⟩
  · simp only [regranted]
    split_ifs <;> rfl
  · simp only [regranted]
    split_ifs <;> exact hlen
  · simp only [regranted]
    split_ifs <;> exact hvisible

theorem decideGrant_twin (actor : NodeId) (a : GrantAction) :
    Alike (GrantTwin visible) (decideGrant s actor a)
      (decideGrant (s.withResources t') actor a) := by
  refine .after (shapeless a.resource.validate) fun key => ?_
  obtain ⟨_, hrow, -, -⟩ := h.getD key
  refine .after (shapeless (checkRights a.rights)) fun _ => .after _ fun _ => ?_
  simp only [State.withResources, hrow]
  refine .after _ fun _ => ?_
  split_ifs with hmoves
  · refine (decideGrantChange_twin h key a).bind ?_
    rintro e _ ⟨row', htwin, rfl⟩
    exact .ok (.apply e row' htwin)
  · exact .ok (.noOp _)

theorem decideExpire_twin (command : ExpireCommand) :
    (decideExpire s command = .stale ∧ decideExpire (s.withResources t') command = .stale) ∨
      ∃ row row', decideExpire s command = .apply row ∧
        decideExpire (s.withResources t') command = .apply row' ∧
        RowTwin (visible command.resource) row row' := by
  unfold decideExpire
  simp only [State.withResources]
  rcases h command.resource with ⟨hnone, hnone'⟩ |
    ⟨_, _, hrow, hrow', value, rfl, hlen, hvisible⟩
  · rw [hnone, hnone']
    exact .inl ⟨rfl, rfl⟩
  · rw [hrow, hrow']
    dsimp only [withValue]
    split_ifs
    · exact .inl ⟨rfl, rfl⟩
    · exact .inl ⟨rfl, rfl⟩
    · exact .inr ⟨_, _, rfl, rfl, value, rfl, hlen, hvisible⟩

/-- Twins refuse an action alike. -/
theorem Action.decide_twin (ext : Externals)
    (actor : NodeId) (requestHash : Hash) (action : Action) :
    Alike (fun _ _ => True) (action.decide ext s actor requestHash)
      (action.decide ext (s.withResources t') actor requestHash) := by
  have hsame : ∀ d : Decision ActionVerdict, Alike (fun _ _ => True) d d := by
    intro d
    cases d with
    | error refusal => exact .error refusal
    | ok => exact .ok trivial
  cases action with
  | resource a => exact (decideResource_twin h actor a).map fun _ _ _ => trivial
  | grant a => exact (decideGrant_twin h actor a).map fun _ _ _ => trivial
  | admin | changeMembership | cancelMembership => exact hsame _

end

/-! ### Writers -/

namespace Working

variable (ext : Externals) (w : Working) (t : Table ResourceKey ResourceRow)

theorem foldl_withResources {α : Type} {f : Working → α → Working}
    (h : ∀ (w : Working) a, f (w.withResources t) a = (f w a).withResources t) (xs : List α) :
    xs.foldl f (w.withResources t) = (xs.foldl f w).withResources t := by
  induction xs generalizing w with
  | nil => rfl
  | cons a rest ih => rw [List.foldl_cons, List.foldl_cons, h, ih]

theorem writeGrant_withResources (e : GrantEffect) :
    (w.withResources t).writeGrant e = (w.writeGrant e).withResources t := by
  unfold writeGrant
  cases e.rights with
  | some =>
    dsimp only
    split_ifs <;> rfl
  | none =>
    cases hmem : w.state.acl.contains (e.key, e.subject) <;>
      simp only [withResources, State.withResources, hmem, Bool.false_eq_true, if_false,
        if_true] <;>
      rfl

theorem writeAdmin_withResources (e : AdminEffect) :
    (w.withResources t).writeAdmin e = (w.writeAdmin e).withResources t := by
  by_cases hmem : e.target ∈ w.state.admins <;> cases hon : e.enabled <;>
    simp only [writeAdmin, withResources, State.withResources, hon, hmem, Bool.false_eq_true,
      if_false, if_true] <;>
    rfl

theorem evictIntent_withResources (id : OperationId) :
    (w.withResources t).evictIntent ext id = (w.evictIntent ext id).withResources t := by
  unfold evictIntent
  dsimp only [withResources, State.withResources]
  cases w.state.intents[id]? <;> rfl

theorem evictRoute_withResources (node : NodeId) :
    (w.withResources t).evictRoute node = (w.evictRoute node).withResources t := by
  unfold evictRoute
  dsimp only [withResources, State.withResources]
  cases w.state.routes[node]? <;> rfl

theorem writeIntent_withResources (logId : LogId) (e : IntentEffect) :
    (w.withResources t).writeIntent ext logId e = (w.writeIntent ext logId e).withResources t := by
  unfold writeIntent
  dsimp only
  rw [foldl_withResources w t (fun w id => evictIntent_withResources ext w t id)]
  have hrow : ∀ w : Working, (w.withResources t).writeIntentRow ext e.operationId
      (stampIntent logId e.intent) =
        (w.writeIntentRow ext e.operationId (stampIntent logId e.intent)).withResources t :=
    fun _ => rfl
  rw [hrow, foldl_withResources _ t (fun w node => evictRoute_withResources w t node)]
  exact foldl_withResources _ t (fun _ _ => rfl) _

theorem pruneLoop_withResources (fuel : ℕ) :
    pruneLoop fuel (w.withResources t) = (pruneLoop fuel w).withResources t := by
  induction fuel generalizing w with
  | zero => rfl
  | succ fuel ih =>
    unfold pruneLoop
    have hoversize : (w.withResources t).state.audit = w.state.audit := rfl
    have holdest : oldestAudit (w.withResources t).state = oldestAudit w.state := rfl
    rw [hoversize, holdest]
    split_ifs
    · cases oldestAudit w.state with
      | none => rfl
      | some oldest => exact ih (w.pruneOldest oldest)
    · rfl

theorem writeAuditRow_withResources (logId : LogId) (row : AuditRow) :
    (w.withResources t).writeAuditRow logId row = (w.writeAuditRow logId row).withResources t := by
  let key := (logId.term, logId.index)
  let put := (w.moveReserve (auditCharge key row) 0).putAudit key row
  let tipped : Working := { put with state := { put.state with auditTip := some logId } }
  exact pruneLoop_withResources tipped t tipped.state.audit.size

/-- A resource row and its twin are charged alike. -/
theorem writeResource_withResources {visible : ResourceKey → Prop} {w : Working}
    {t : Table ResourceKey ResourceRow} (h : TableTwin visible w.state.resources t)
    {key : ResourceKey} {row row' : ResourceRow} (hrow : RowTwin (visible key) row row') :
    (w.withResources t).writeResource key row' =
      (w.writeResource key row).withResources (t.insert key row') := by
  obtain ⟨value, rfl, hlen, -⟩ := hrow
  have hcharge : resourceCharge key (row.withValue value) = resourceCharge key row := by
    simp [resourceCharge, withValue, hlen]
  have hweight : weightAt resourceCharge (w.withResources t).state.resources key =
      weightAt resourceCharge w.state.resources key := h.weightAt key
  unfold writeResource
  rw [hcharge, hweight]
  rfl

end Working

/-! ### Applying a command -/

/-- The same row change, of twin rows. -/
inductive ChangeTwin (visible : ResourceKey → Prop) : RowChange → RowChange → Prop where
  | none : ChangeTwin visible .none .none
  | resource (key : ResourceKey) {row row' : ResourceRow} (h : RowTwin (visible key) row row') :
      ChangeTwin visible (.resource key row) (.resource key row')
  | expired (key : ResourceKey) {row row' : ResourceRow} (h : RowTwin (visible key) row row') :
      ChangeTwin visible (.expired key row) (.expired key row')
  | grant (e : GrantEffect) {row' : ResourceRow} (h : RowTwin (visible e.key) e.row row') :
      ChangeTwin visible (.grant e) (.grant { e with row := row' })
  | admin (e : AdminEffect) : ChangeTwin visible (.admin e) (.admin e)
  | intent (e : IntentEffect) : ChangeTwin visible (.intent e) (.intent e)
  | genesis (verified : VerifiedGenesis) : ChangeTwin visible (.genesis verified)
    (.genesis verified)

section

variable (ext : Externals) {visible : ResourceKey → Prop} {s : State}
  {t : Table ResourceKey ResourceRow} (h : TableTwin visible s.resources t)

include h

theorem rejection_twin (resource : Option ResourceKey) (reason : Reason) :
    rejection (s.withResources t) resource reason = rejection s resource reason := by
  cases resource with
  | none => rfl
  | some key =>
    obtain ⟨_, hrow, -, -⟩ := h.getD key
    simp only [rejection, State.withResources, Option.map_some, hrow]
    rfl

theorem noOpGrantReply_twin (resource : Option ResourceKey) (aclRevision : ℕ) :
    noOpGrantReply (s.withResources t) resource aclRevision =
      noOpGrantReply s resource aclRevision := by
  cases resource with
  | none => rfl
  | some key =>
    rcases h key with ⟨hnone, hnone'⟩ | ⟨_, _, hrow, hrow', _, rfl, -, -⟩
    · simp [noOpGrantReply, State.withResources, hnone, hnone']
    · simp only [noOpGrantReply, State.withResources, Option.bind_some, hrow, hrow']
      rfl

theorem shapelessReply_twin (command : ShapelessCommand) :
    shapelessReply (s.withResources t) command = shapelessReply s command := by
  unfold shapelessReply
  rw [rejection_twin h]

/-- **Decisions look at no value**: on twins an action is decided alike, with twin rows. -/
theorem Decided.twin {client : ClientRef} {action : Action} {change : RowChange}
    {reply : SavedReply} (hdec : Decided ext s client action change reply) :
    ∃ change', ChangeTwin visible change change' ∧
      Decided ext (s.withResources t) client action change' reply := by
  cases hdec with
  | resource a e hd =>
    have htwin := decideResource_twin h client.actor a
    rw [hd] at htwin
    obtain ⟨_, hd', row', hrow, rfl⟩ := htwin.ok_left
    have hres : Decided ext (s.withResources t) client _ _ _ := .resource a _ hd'
    obtain ⟨value, rfl, -, -⟩ := id hrow
    exact ⟨_, .resource e.key hrow, hres⟩
  | grant a e hd =>
    have htwin := decideGrant_twin h client.actor a
    rw [hd] at htwin
    obtain ⟨_, hd', hgrant⟩ := htwin.ok_left
    cases hgrant with
    | apply _ row' hrow =>
      have hres : Decided ext (s.withResources t) client _ _ _ := .grant a _ hd'
      obtain ⟨_, rfl, -, -⟩ := id hrow
      exact ⟨_, .grant e hrow, hres⟩
  | grantNoOp a revision hd =>
    have htwin := decideGrant_twin h client.actor a
    rw [hd] at htwin
    obtain ⟨_, hd', hgrant⟩ := htwin.ok_left
    cases hgrant with
    | noOp =>
      rw [← noOpGrantReply_twin h]
      exact ⟨_, .none, .grantNoOp a revision hd'⟩
  | admin a e hd => exact ⟨_, .admin e, .admin a e hd⟩
  | adminNoOp a revision hd => exact ⟨_, .none, .adminNoOp a revision hd⟩
  | change a e hd => exact ⟨_, .intent e, .change a e hd⟩
  | existing a phase hd => exact ⟨_, .none, .existing a phase hd⟩
  | cancel a e hd => exact ⟨_, .intent e, .cancel a e hd⟩
  | refused _ reason hd =>
    have htwin := action.decide_twin h ext client.actor client.requestHash
    rw [hd] at htwin
    rw [← rejection_twin h]
    exact ⟨_, .none, .refused action reason htwin.error_left⟩
  | shapeless _ limit hd =>
    have htwin := action.decide_twin h ext client.actor client.requestHash
    rw [hd] at htwin
    rw [← rejection_twin h]
    exact ⟨_, .none, .shapeless action limit htwin.error_left⟩

/-- Twins take the same step, with twin rows. -/
theorem Step.twin {logId : LogId} {command : Command} {change : RowChange}
    {entry : Option (SessionKey × Session)} {row : AuditRow} {reply : CommandReply}
    (hstep : Step ext s logId command change entry row reply) :
    ∃ change', ChangeTwin visible change change' ∧
      Step ext (s.withResources t) logId command change' entry row reply := by
  cases hstep with
  | replay client action row saved hclass =>
    exact ⟨_, .none, .replay client action row saved hclass⟩
  | refused client action row reason hclass =>
    rw [← rejection_twin h]
    exact ⟨_, .none, .refused client action row reason hclass⟩
  | decided client action change reply row creates hclass hdec =>
    obtain ⟨change', htwin, hdec'⟩ := hdec.twin ext h
    exact ⟨_, htwin, .decided client action change' reply row creates hclass hdec'⟩
  | rejectedReplay client code resource row saved hclass =>
    exact ⟨_, .none, .rejectedReplay client code resource row saved hclass⟩
  | rejectedRefused client code resource row reason hclass =>
    rw [← rejection_twin h]
    exact ⟨_, .none, .rejectedRefused client code resource row reason hclass⟩
  | rejectedFresh client code resource row creates hclass =>
    rw [← rejection_twin h]
    exact ⟨_, .none, .rejectedFresh client code resource row creates hclass⟩
  | shapeless command =>
    rw [← shapelessReply_twin h]
    exact ⟨_, .none, .shapeless command⟩
  | expired command row hd =>
    rcases decideExpire_twin h command with ⟨hstale, -⟩ | ⟨_, _, happly, happly', hrow⟩
    · rw [hd] at hstale
      cases hstale
    · rw [hd] at happly
      cases happly
      obtain ⟨value, rfl, -, -⟩ := id hrow
      exact ⟨_, .expired command.resource hrow, .expired command _ happly'⟩
  | expiryStale command hd =>
    rcases decideExpire_twin h command with ⟨-, hstale⟩ | ⟨_, _, happly, -, -⟩
    · have hres : Step ext (s.withResources t) logId _ _ _ _ _ := .expiryStale command hstale
      obtain ⟨_, hrow, -, -⟩ := h.getD command.resource
      simp only [State.withResources, hrow] at hres
      exact ⟨_, .none, hres⟩
    · rw [hd] at happly
      cases happly
  | progressed command e hd => exact ⟨_, .intent e, .progressed command e hd⟩
  | progressMismatch command hd => exact ⟨_, .none, .progressMismatch command hd⟩
  | retired command row hretire =>
    cases hretire with
    | convert existing hprev hlive hmay =>
      exact ⟨_, .none, .retired command _ (.convert existing hprev hlive hmay)⟩
    | tombstone hnone hroom hmay =>
      exact ⟨_, .none, .retired command _ (.tombstone hnone hroom hmay)⟩
  | retiredAlready command hd => exact ⟨_, .none, .retiredAlready command hd⟩
  | retireRefused command reason hd => exact ⟨_, .none, .retireRefused command reason hd⟩
  | genesisAgain bytes verified hcheck hrev =>
    exact ⟨_, .none, .genesisAgain bytes verified hcheck hrev⟩
  | genesisInstalled bytes verified hcheck hrev hinstall =>
    exact ⟨_, .genesis verified, .genesisInstalled bytes verified hcheck hrev hinstall⟩

end

section

variable (ext : Externals) {visible : ResourceKey → Prop} {w : Working}
  {t : Table ResourceKey ResourceRow} (h : TableTwin visible w.state.resources t) (logId : LogId)

/-- A fault comes from no resource row. -/
theorem dispatch_fault_withResources {command : Command} {fault : Fault}
    (hfault : dispatch ext w logId command = .error fault) :
    dispatch ext (w.withResources t) logId command = .error fault := by
  cases command with
  | genesis bytes =>
    have hcheck : checkGenesis ext (w.withResources t).state bytes =
        checkGenesis ext w.state bytes := rfl
    have hinstall : ∀ verified, checkInstall (w.withResources t).state verified =
        checkInstall w.state verified := fun _ => rfl
    have hrev : (w.withResources t).state.adminRevision = w.state.adminRevision := rfl
    simp only [dispatch, applyGenesis, hcheck, hrev, hinstall] at hfault ⊢
    cases hchk : checkGenesis ext w.state bytes with
    | error =>
      rw [hchk] at hfault
      exact hfault
    | ok verified =>
      rw [hchk] at hfault
      dsimp only at hfault ⊢
      split_ifs at hfault ⊢
      · cases hfault
      · cases hinstalled : checkInstall w.state verified with
        | error =>
          rw [hinstalled] at hfault
          exact hfault
        | ok =>
          rw [hinstalled] at hfault
          cases hfault
  | unknown => exact hfault
  | client | rejectedClient | shapeless | expire | membershipProgress | retireClient => cases hfault

include h

theorem installGenesis_twin (verified : VerifiedGenesis) :
    installGenesis ext (w.withResources t) verified =
      (installGenesis ext w verified).withResources t := by
  have hput : verified.initialAdmins.foldl putAdmin (w.withResources t) =
      (verified.initialAdmins.foldl putAdmin w).withResources t :=
    foldl_withResources w t (fun _ _ => rfl) _
  have hrows : (verified.initialAdmins.foldl putAdmin w).state.resources =
      w.state.resources := by
    rw [putAdmins_state]
  unfold installGenesis
  rw [hput]
  simp [withResources, State.withResources, State.recomputeGrowth, hrows, h.total]

section

variable {change change' : RowChange} (hchange : ChangeTwin visible change change')

include hchange

/-- Twin rows are written alike. -/
theorem ChangeTwin.write :
    (w.withResources t).write ext logId change' =
      (w.write ext logId change).withResources (change'.resources t) := by
  cases hchange with
  | none => rfl
  | resource key hrow => exact writeResource_withResources h hrow
  | expired => rfl
  | grant e hrow =>
    simp only [Working.write]
    rw [writeResource_withResources h hrow, writeGrant_withResources]
    rfl
  | admin e => exact writeAdmin_withResources w t e
  | intent e => exact writeIntent_withResources ext w t logId e
  | genesis verified => exact installGenesis_twin ext h verified

theorem ChangeTwin.resources :
    TableTwin visible (change.resources w.state.resources) (change'.resources t) := by
  cases hchange with
  | resource _ hrow | expired _ hrow | grant _ hrow => exact h.insert hrow
  | none | admin | intent | genesis => exact h

/-- Twin steps lead to twins. -/
theorem ChangeTwin.perform (entry : Option (SessionKey × Session)) (row : AuditRow) :
    (w.withResources t).perform ext logId change' entry row =
      (w.perform ext logId change entry row).withResources (change'.resources t) := by
  have hjournal : ∀ (w : Working) (t : Table ResourceKey ResourceRow),
      (w.withResources t).journal entry = (w.journal entry).withResources t := by
    intro w t
    cases entry with
    | none => rfl
    | some => rfl
  unfold Working.perform
  rw [hchange.write ext h, hjournal, writeAuditRow_withResources]

end

/-- **A command on twins**: the same answer or the same fault, and twins again. -/
theorem applyCommandRecording_twin (command : Command) :
    ∃ t', TableTwin visible (applyCommandRecording ext w logId command).1.state.resources t' ∧
      applyCommandRecording ext (w.withResources t) logId command =
        ((applyCommandRecording ext w logId command).1.withResources t',
          (applyCommandRecording ext w logId command).2) := by
  have hguard : guardDelivery (w.withResources t).state logId = guardDelivery w.state logId := rfl
  unfold applyCommandRecording
  rw [hguard]
  cases guardDelivery w.state logId with
  | error => exact ⟨t, h, rfl⟩
  | ok =>
    dsimp only
    rcases exists_step ext w logId command with ⟨_, hfault⟩ |
      ⟨change, entry, row, _, hstep⟩
    · rw [hfault, dispatch_fault_withResources ext logId hfault]
      exact ⟨t, h, rfl⟩
    · obtain ⟨change', hchange, hstep'⟩ := hstep.twin ext h
      have hdispatch := Step.dispatch ext (w := w.withResources t) hstep'
      rw [hstep.dispatch ext, hdispatch, hchange.perform ext h]
      refine ⟨change'.resources t, ?_, rfl⟩
      rw [(w.perform_state ext logId change entry row).resources]
      exact hchange.resources h

end

/-! ### The right to read -/

/-- The actor holds READ on the resource. -/
def State.mayRead (s : State) (x : NodeId) (key : ResourceKey) : Prop :=
  grantedRights s key x &&& rightRead ≠ 0

/-- **The groups `x` cannot tell apart**: `t` is `s` up to values, of the same lengths, of
resources that `x` holds no READ on. -/
def HiddenTwin (x : NodeId) (s t : State) : Prop :=
  ∃ table, TableTwin (s.mayRead x) s.resources table ∧ t = s.withResources table

/-- A client's command, readable or not, in the name of `x`. -/
def Command.sentBy (x : NodeId) : Command → Bool
  | .client ref _ => ref.actor == x
  | .rejectedClient ref _ _ => ref.actor == x
  | _ => false

/-- Fewer visible values are still twins. -/
theorem TableTwin.weaken {visible visible' : ResourceKey → Prop}
    {t t' : Table ResourceKey ResourceRow} (h : TableTwin visible t t')
    (hless : ∀ key, visible' key → visible key) : TableTwin visible' t t' := by
  intro key
  rcases h key with hnone | ⟨row, _, hrow, hrow', value, rfl, hlen, hvisible⟩
  · exact .inl hnone
  · exact .inr ⟨row, _, hrow, hrow', value, rfl, hlen, fun hkey => hvisible (hless key hkey)⟩

section

variable {visible : ResourceKey → Prop} {s : State} {t : Table ResourceKey ResourceRow}
  {command : Command} {x : NodeId} (h : TableTwin visible s.resources t)
  (hread : ∀ key, s.mayRead x key → visible key) (hsent : command.sentBy x = true)

include h hread hsent

/-- A value shown to an actor is one that it may read in the state the reply is made from. -/
theorem readableValue_twin (reply : SavedReply) :
    readableValue (s.withResources t) command reply = readableValue s command reply := by
  unfold readableValue
  congr 1
  funext key
  cases command with
  | client ref =>
    have hactor : ref.actor = x := by simpa [Command.sentBy] using hsent
    have hrights : grantedRights (s.withResources t) key ref.actor =
        grantedRights s key ref.actor := rfl
    dsimp only
    rw [hrights]
    split_ifs with hright
    · rw [bne_iff_ne, hactor] at hright
      rcases h key with ⟨hnone, hnone'⟩ | ⟨_, _, hrow, hrow', _, rfl, -, hvisible⟩
      · rw [State.withResources, hnone, hnone']
      · rw [State.withResources, hrow, hrow', hvisible (hread key hright)]
        rfl
    · rfl
  | _ => rfl

theorem replyToWire_twin (groupId : Bytes) (reply : CommandReply) :
    replyToWire (s.withResources t) groupId command reply =
      replyToWire s groupId command reply := by
  cases reply with
  | client =>
    simp [replyToWire, clientReplyFor, readableValue_twin h hread hsent]
  | system => rfl
  | retirement => rfl

end

section

variable (ext : Externals) (x : NodeId)

/-- The command gives `x` a READ that it did not hold. -/
def GrantsRead (s : State) (d : WireDelivery) : Prop :=
  ∃ key, ¬ s.mayRead x key ∧ (deliver ext s (d.1, modelCommand ext d.2)).1.mayRead x key

/-- An administrator's command grants `x` these rights on the resource, and right after it `x` has
them. -/
def GrantTo (s : State) (d : Delivery) (key : ResourceKey) (rights : Rights) : Prop :=
  ∃ ref action, d.2 = .client ref (.grant action) ∧ s.isAdministrator ref.actor = true ∧
    action.resource.validate = .ok key ∧ action.subject = x ∧ action.rights = rights ∧
    grantedRights (deliver ext s d).1 key x = rights

theorem deliver_grantedRights (s : State) (d : Delivery) (key : ResourceKey) :
    grantedRights (deliver ext s d).1 key x = grantedRights s key x ∨
      GrantTo ext x s d key (grantedRights (deliver ext s d).1 key x) := by
  simp only [GrantTo, eq_self, and_true]
  refine deliver_elim ext s d (fun _ => .inl rfl) fun _ hstep hdone => ?_
  generalize d.2 = command at hstep ⊢
  cases hstep with
  | decided ref action change reply row creates hclass hdec =>
    cases hdec with
    | grant a e he =>
      have hgrant := decideGrant_apply he
      by_cases hkey : (e.key, e.subject) = (key, x)
      · obtain ⟨rfl, rfl⟩ := Prod.mk.inj hkey
        refine .inr ⟨ref, a, rfl, hgrant.admin, hgrant.key, hgrant.subject.symm, ?_⟩
        rw [← hgrant.grantedRights_after, ← hdone.acl, grantedRights]
      · left
        rw [grantedRights, hdone.acl, RowChange.grant_acl_of_ne s.acl hkey, grantedRights]
    | _ => exact .inl (congrArg (fun acl => (acl[(key, x)]?).getD 0) hdone.acl)
  | _ => exact .inl (congrArg (fun acl => (acl[(key, x)]?).getD 0) hdone.acl)

/-- **Rights come from grants.**  After a run an actor has the rights it had, or those that a grant
of the run gave it. -/
theorem rights_come_from_grants (s : State) (ds : List Delivery) (key : ResourceKey) :
    grantedRights (run (deliver ext) s ds) key x = grantedRights s key x ∨
      ∃ pre d post, ds = pre ++ d :: post ∧ GrantTo ext x (run (deliver ext) s pre) d key
        (grantedRights (run (deliver ext) s ds) key x) := by
  induction ds generalizing s with
  | nil => exact .inl rfl
  | cons d rest ih =>
    obtain hsame | ⟨pre, d', post, rfl, hgrant⟩ := ih (deliver ext s d).1
    · rw [run_cons, hsame]
      exact (deliver_grantedRights ext x s d key).imp_right fun hgrant => ⟨[], d, rest, rfl, hgrant⟩
    · exact .inr ⟨d :: pre, d', post, rfl, hgrant⟩

/-- A wire command on twins leaves twins. -/
theorem applyWireCommand_twin {visible : ResourceKey → Prop} {s : State}
    {t : Table ResourceKey ResourceRow} (h : TableTwin visible s.resources t) (logId : LogId)
    (groupId : Bytes) (command : CommandV1) :
    ∃ t', TableTwin visible (applyWireCommand ext s logId groupId command).1.resources t' ∧
      (applyWireCommand ext (s.withResources t) logId groupId command).1 =
        (applyWireCommand ext s logId groupId command).1.withResources t' ∧
      ((modelCommand ext command).sentBy x = true →
        (∀ key, (applyWireCommand ext s logId groupId command).1.mayRead x key → visible key) →
        (applyWireCommand ext (s.withResources t) logId groupId command).2 =
          (applyWireCommand ext s logId groupId command).2) := by
  simp only [applyWireCommand, applyWireCommandRecording, modelCommand]
  cases commandForApply ext command with
  | error => exact ⟨t, h, rfl, fun _ _ => rfl⟩
  | ok model =>
    have hstart : TableTwin visible (start s).state.resources t := h
    obtain ⟨t', ht', heq⟩ := applyCommandRecording_twin ext hstart logId model
    have hsame : start (s.withResources t) = (start s).withResources t := rfl
    dsimp only
    rw [hsame, heq]
    generalize applyCommandRecording ext (start s) logId model = applied at ht' ⊢
    obtain ⟨w, result⟩ := applied
    cases result with
    | error => exact ⟨t', ht', rfl, fun _ _ => rfl⟩
    | ok reply =>
      refine ⟨t', ht', rfl, fun hsent hread => ?_⟩
      exact congrArg Except.ok (replyToWire_twin ht' hread hsent groupId reply)

/-- The replies that `x` gets in a run, in order. -/
def heardBy (s : State) : List WireDelivery → List (Except Fault CommandReplyV1)
  | [] => []
  | d :: rest =>
    (if (modelCommand ext d.2).sentBy x then [(deliverWire ext s d).2] else []) ++
      heardBy (deliverWire ext s d).1 rest

/-- **One command on groups that `x` cannot tell apart**: they stay so unless the command gives
`x` a READ, and if `x` sent it, then `x` gets the same reply from both. -/
theorem applyWireCommand_hidden {s t : State} (h : HiddenTwin x s t) (logId : LogId)
    (groupId : Bytes) (command : CommandV1) (hgrants : ¬ GrantsRead ext x s (logId, command)) :
    HiddenTwin x (applyWireCommand ext s logId groupId command).1
        (applyWireCommand ext t logId groupId command).1 ∧
      ((modelCommand ext command).sentBy x = true →
        (applyWireCommand ext t logId groupId command).2 =
          (applyWireCommand ext s logId groupId command).2) := by
  obtain ⟨_, htwin, rfl⟩ := h
  obtain ⟨t', ht', hstate, hreply⟩ := applyWireCommand_twin ext x htwin logId groupId command
  have hread : ∀ key, (applyWireCommand ext s logId groupId command).1.mayRead x key →
      s.mayRead x key := by
    intro key hafter
    rw [applyWireCommand_state] at hafter
    by_contra hpre
    exact hgrants ⟨key, hpre, hafter⟩
  exact ⟨⟨t', ht'.weaken hread, hstate⟩, fun hsent => hreply hsent hread⟩

/-- **A value is learned only with the right to read it.**  Take two groups that differ only in
values, of the same lengths, of resources that `x` holds no READ on.  A client command of `x` that
gives `x` no READ is answered alike and leaves two such groups.  So does every run, whoever sends
its commands, none of which gives `x` a READ: `x` hears the same replies in both. -/
theorem values_need_read :
    (∀ (s t : State) (logId : LogId) (groupId : Bytes) (command : CommandV1), HiddenTwin x s t →
      (modelCommand ext command).sentBy x = true → ¬ GrantsRead ext x s (logId, command) →
        (applyWireCommand ext s logId groupId command).2 =
            (applyWireCommand ext t logId groupId command).2 ∧
          HiddenTwin x (applyWireCommand ext s logId groupId command).1
            (applyWireCommand ext t logId groupId command).1) ∧
    ∀ (s t : State) (ds : List WireDelivery), HiddenTwin x s t →
      EveryStep (deliverWire ext) (fun s d => ¬ GrantsRead ext x s d) s ds →
        heardBy ext x s ds = heardBy ext x t ds ∧
          HiddenTwin x (run (deliverWire ext) s ds) (run (deliverWire ext) t ds) := by
  constructor
  · intro s t logId groupId command htwin hsent hgrants
    obtain ⟨hafter, hreply⟩ := applyWireCommand_hidden ext x htwin logId groupId command hgrants
    exact ⟨(hreply hsent).symm, hafter⟩
  · intro s t ds htwin hsteps
    induction ds generalizing s t with
    | nil => exact ⟨rfl, htwin⟩
    | cons d rest ih =>
      obtain ⟨hgrants, hrest⟩ := hsteps
      have hgroup : t.authority = s.authority := by
        obtain ⟨_, -, rfl⟩ := htwin
        rfl
      have hone := applyWireCommand_hidden ext x htwin d.1 s.authority.groupId.bytes d.2 hgrants
      obtain ⟨hafter, hreply⟩ : HiddenTwin x (deliverWire ext s d).1 (deliverWire ext t d).1 ∧
          ((modelCommand ext d.2).sentBy x = true →
            (deliverWire ext t d).2 = (deliverWire ext s d).2) := by
        rw [deliverWire, deliverWire, hgroup]
        exact hone
      obtain ⟨hheard, hfinal⟩ := ih _ _ hafter hrest
      refine ⟨?_, hfinal⟩
      rw [heardBy, heardBy, hheard]
      split_ifs with hsent
      · rw [hreply hsent]
      · rfl

end

end AsterRpc.Coordination

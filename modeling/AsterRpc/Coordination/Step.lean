import AsterRpc.Foundation.Run
import AsterRpc.Coordination.Apply

/-!
# What one command can do

A command that is not a fault changes the replicated state in three places, each
optional but the last: one group of rows (`RowChange`), one journal row, and one
audit row.  `Step` lists every combination the source can produce together with
everything it checked on the way, and `dispatch_ok` says that the list is
complete.  Every later property of a run is a property of this list.
-/

namespace AsterRpc.Coordination

open AsterRpc.Foundation Working

/-! ### Row changes -/

/-- The rows a command asks to be written, besides its journal and its audit row. -/
inductive RowChange where
  | none
  | resource (key : ResourceKey) (row : ResourceRow)
  | expired (key : ResourceKey) (row : ResourceRow)
  | grant (effect : GrantEffect)
  | admin (effect : AdminEffect)
  | intent (effect : IntentEffect)
  | genesis (verified : VerifiedGenesis)

namespace RowChange

def resources : RowChange → Table ResourceKey ResourceRow → Table ResourceKey ResourceRow
  | resource key row, t => t.insert key row
  | expired key row, t => t.insert key row
  | grant e, t => t.insert e.key e.row
  | _, t => t

def acl : RowChange → Table GrantKey Rights → Table GrantKey Rights
  | grant e, t =>
    match e.rights with
    | some rights => t.insert (e.key, e.subject) rights
    | Option.none => t.erase (e.key, e.subject)
  | _, t => t

def admins : RowChange → Finset NodeId → Finset NodeId
  | admin e, t => if e.enabled then insert e.target t else t.erase e.target
  | genesis verified, t => t ∪ verified.initialAdmins.toFinset
  | _, t => t

def adminRevision : RowChange → ℕ → ℕ
  | admin e, _ => e.adminRevision
  | genesis _, _ => 1
  | _, revision => revision

def intents (logId : LogId) : RowChange → Table OperationId Intent → Table OperationId Intent
  | intent e, t =>
    (e.evict.foldl (fun t id => t.erase id) t).insert e.operationId
      (stampIntent logId e.intent)
  | _, t => t

def routes (logId : LogId) : RowChange → Table NodeId Route → Table NodeId Route
  | intent e, t =>
    e.routes.foldl (fun t r => t.insert r.1 (stampRoute logId r.2))
      (e.evictRoutes.foldl (fun t node => t.erase node) t)
  | _, t => t

end RowChange

namespace Working

/-- Write a row change the way the source does. -/
def write (ext : Externals) (logId : LogId) (w : Working) : RowChange → Working
  | .none => w
  | .resource key row => w.writeResource key row
  | .expired key row => w.putResource key row
  | .grant e => (w.writeResource e.key e.row).writeGrant e
  | .admin e => w.writeAdmin e
  | .intent e => w.writeIntent ext logId e
  | .genesis verified => installGenesis ext w verified

/-- Write the journal row, if there is one. -/
def journal (w : Working) : Option (SessionKey × Session) → Working
  | Option.none => w
  | some (key, row) => w.writeSessionRow key row

/-! ### Writers as structure updates -/

theorem writeGrant_state (w : Working) (e : GrantEffect) :
    ∃ growth, (w.writeGrant e).state =
      { w.state with acl := RowChange.acl (.grant e) w.state.acl, growthBytes := growth } := by
  cases hright : e.rights with
  | some | none =>
    simp only [writeGrant, RowChange.acl, hright]
    split
    · exact ⟨_, rfl⟩
    · exact ⟨_, rfl⟩

theorem writeAdmin_state (w : Working) (e : AdminEffect) :
    ∃ growth, (w.writeAdmin e).state =
      { w.state with
        admins := RowChange.admins (.admin e) w.state.admins
        adminRevision := e.adminRevision
        growthBytes := growth } := by
  simp only [writeAdmin, RowChange.admins]
  by_cases hon : e.enabled = true
  · by_cases hmem : e.target ∈ w.state.admins
    · exact ⟨_, by simp [hon, hmem, putAdmin]; rfl⟩
    · exact ⟨_, by simp [hon, hmem, putAdmin, moveGrowth]; rfl⟩
  · by_cases hmem : e.target ∈ w.state.admins
    · exact ⟨_, by simp [hon, hmem, removeAdmin, moveGrowth]; rfl⟩
    · exact ⟨_, by simp [hon, hmem, removeAdmin]; rfl⟩

/-- A loop whose turns write intents and routes. -/
theorem foldl_state {α : Type} (f : Working → α → Working)
    (intents : Table OperationId Intent → α → Table OperationId Intent)
    (routes : Table NodeId Route → α → Table NodeId Route)
    (h : ∀ w a, ∃ growth, (f w a).state =
      { w.state with
        intents := intents w.state.intents a
        routes := routes w.state.routes a
        growthBytes := growth })
    (as : List α) (w : Working) :
    ∃ growth, (as.foldl f w).state =
      { w.state with
        intents := as.foldl intents w.state.intents
        routes := as.foldl routes w.state.routes
        growthBytes := growth } := by
  induction as generalizing w with
  | nil => exact ⟨_, rfl⟩
  | cons a rest ih =>
    obtain ⟨growth, hgrowth⟩ := ih (f w a)
    obtain ⟨_, hturn⟩ := h w a
    refine ⟨growth, ?_⟩
    rw [List.foldl_cons, hgrowth, hturn]
    rfl

theorem writeIntent_state (ext : Externals) (logId : LogId) (w : Working) (e : IntentEffect) :
    ∃ growth, (w.writeIntent ext logId e).state =
      { w.state with
        intents := RowChange.intents logId (.intent e) w.state.intents
        routes := RowChange.routes logId (.intent e) w.state.routes
        growthBytes := growth } := by
  obtain ⟨_, h₁⟩ := foldl_state (evictIntent ext) (fun t id => t.erase id) (fun t _ => t)
    (fun _ _ => by unfold evictIntent; split <;> exact ⟨_, rfl⟩) e.evict w
  obtain ⟨_, h₂⟩ := foldl_state evictRoute (fun t _ => t) (fun t node => t.erase node)
    (fun _ _ => by unfold evictRoute; split <;> exact ⟨_, rfl⟩) e.evictRoutes
    ((e.evict.foldl (evictIntent ext) w).writeIntentRow ext e.operationId
      (stampIntent logId e.intent))
  obtain ⟨g₃, h₃⟩ := foldl_state (writeRoute logId) (fun t _ => t)
    (fun t r => t.insert r.1 (stampRoute logId r.2)) (fun _ _ => ⟨_, rfl⟩) e.routes
    (e.evictRoutes.foldl evictRoute ((e.evict.foldl (evictIntent ext) w).writeIntentRow ext
      e.operationId (stampIntent logId e.intent)))
  refine ⟨g₃, ?_⟩
  rw [writeIntent, h₃, h₂]
  simp [writeIntentRow, putIntent, moveGrowth, h₁, RowChange.intents, RowChange.routes]

theorem putAdmins_state (targets : List NodeId) (w : Working) :
    (targets.foldl putAdmin w).state =
      { w.state with admins := w.state.admins ∪ targets.toFinset } := by
  induction targets generalizing w with
  | nil => simp
  | cons target rest ih =>
    rw [List.foldl_cons, ih]
    simp only [putAdmin, List.toFinset_cons]
    congr 1
    ext a
    simp only [Finset.mem_union, Finset.mem_insert]
    tauto

/-- **A row change as one structure update**, whichever writers it goes through. -/
theorem write_state (ext : Externals) (logId : LogId) (w : Working) (change : RowChange) :
    ∃ growth, (w.write ext logId change).state =
      { w.state with
        resources := change.resources w.state.resources
        acl := change.acl w.state.acl
        admins := change.admins w.state.admins
        adminRevision := change.adminRevision w.state.adminRevision
        intents := change.intents logId w.state.intents
        routes := change.routes logId w.state.routes
        growthBytes := growth } := by
  cases change with
  | none => exact ⟨_, rfl⟩
  | resource => exact ⟨_, rfl⟩
  | expired => exact ⟨_, rfl⟩
  | grant e =>
    obtain ⟨growth, hgrowth⟩ := writeGrant_state (w.writeResource e.key e.row) e
    exact ⟨growth, hgrowth⟩
  | admin e =>
    obtain ⟨growth, hgrowth⟩ := writeAdmin_state w e
    exact ⟨growth, hgrowth⟩
  | intent e =>
    obtain ⟨growth, hgrowth⟩ := writeIntent_state ext logId w e
    exact ⟨growth, hgrowth⟩
  | genesis verified =>
    refine ⟨(installGenesis ext w verified).state.growthBytes, ?_⟩
    simp only [write, installGenesis, putAdmins_state]
    rfl

theorem pruneOldest_state (w : Working) {oldest : AuditKey × AuditRow}
    (h : oldestAudit w.state = some oldest) :
    ∃ reserve floor, (w.pruneOldest oldest).state =
      { w.state with
        audit := w.state.audit.eraseFirst
        reserveBytes := reserve
        auditFloor := floor } := by
  have herase : w.state.audit.eraseFirst = w.state.audit.erase oldest.1 := by
    rw [Table.eraseFirst]
    rw [oldestAudit] at h
    rw [h]
  exact ⟨_, _, by rw [herase]; rfl⟩

theorem pruneOldest_size (w : Working) {oldest : AuditKey × AuditRow}
    (h : oldestAudit w.state = some oldest) :
    (w.pruneOldest oldest).state.audit.size = w.state.audit.size - 1 := by
  obtain ⟨_, _, hstate⟩ := pruneOldest_state w h
  rw [hstate]
  exact Table.size_dropFirst 1 w.state.audit

theorem size_of_oldestAudit {s : State} (h : oldestAudit s = none) : s.audit.size = 0 := by
  rw [oldestAudit, List.head?_eq_none_iff] at h
  rw [← Std.ExtTreeMap.length_toList, h]
  rfl

/-- The loop removes as many of the oldest rows as there are past the cap. -/
theorem pruneLoop_state (fuel : ℕ) (w : Working) (hfuel : w.state.audit.size ≤ fuel) :
    ∃ reserve floor, (pruneLoop fuel w).state =
      { w.state with
        audit := w.state.audit.dropFirst (w.state.audit.size - maxAuditRows)
        reserveBytes := reserve
        auditFloor := floor } := by
  induction fuel generalizing w with
  | zero =>
    have hzero : w.state.audit.size - maxAuditRows = 0 := by omega
    rw [pruneLoop, hzero]
    exact ⟨_, _, rfl⟩
  | succ fuel ih =>
    rw [pruneLoop]
    split_ifs with hover
    · cases hold : oldestAudit w.state with
      | none =>
        have hempty := size_of_oldestAudit hold
        omega
      | some oldest =>
        dsimp only
        obtain ⟨_, _, h₁⟩ := pruneOldest_state w hold
        have hsize := pruneOldest_size w hold
        obtain ⟨r₂, f₂, h₂⟩ := ih (w.pruneOldest oldest) (by omega)
        refine ⟨r₂, f₂, ?_⟩
        have hcount : w.state.audit.size - maxAuditRows =
            (w.state.audit.size - 1 - maxAuditRows) + 1 := by omega
        rw [h₂, hsize, hcount, Table.dropFirst, h₁]
    · have hzero : w.state.audit.size - maxAuditRows = 0 := by omega
      rw [hzero]
      exact ⟨_, _, rfl⟩

/-- The audit table after one more row. -/
def auditAfter (s : State) (logId : LogId) (row : AuditRow) : Table AuditKey AuditRow :=
  let put : Table AuditKey AuditRow := s.audit.insert (logId.term, logId.index) row
  Table.dropFirst (put.size - maxAuditRows) put

theorem writeAuditRow_state (w : Working) (logId : LogId) (row : AuditRow) :
    ∃ reserve floor, (w.writeAuditRow logId row).state =
      { w.state with
        audit := auditAfter w.state logId row
        auditTip := some logId
        reserveBytes := reserve
        auditFloor := floor } := by
  obtain ⟨reserve, floor, h⟩ := pruneLoop_state _ _ (Nat.le_refl _)
  refine ⟨reserve, floor, ?_⟩
  rw [writeAuditRow, pruneAudit, h]
  simp [putAudit, moveReserve, auditAfter]

end Working

/-! ### The list of steps -/

section Steps

variable (ext : Externals)

/-- What deciding a client's action leads to: the rows it writes and the reply it saves. -/
inductive Decided (s : State) (client : ClientRef) : Action → RowChange → SavedReply → Prop where
  | resource (a : ResourceAction) (e : ResourceEffect)
      (h : decideResource s client.actor a = .ok e) :
      Decided s client (.resource a) (.resource e.key e.row) (successReply e.outcome e.key e.row)
  | grant (a : GrantAction) (e : GrantEffect) (h : decideGrant s client.actor a = .ok (.apply e)) :
      Decided s client (.grant a) (.grant e) (successReply .grantUpdated e.key e.row)
  | grantNoOp (a : GrantAction) (revision : ℕ)
      (h : decideGrant s client.actor a = .ok (.noOp revision)) :
      Decided s client (.grant a) .none
        (noOpGrantReply s (Action.grant a).validatedResource revision)
  | admin (a : AdminAction) (e : AdminEffect) (h : decideAdmin s client.actor a = .ok (.apply e)) :
      Decided s client (.admin a) (.admin e) (adminReply e.adminRevision)
  | adminNoOp (a : AdminAction) (revision : ℕ)
      (h : decideAdmin s client.actor a = .ok (.noOp revision)) :
      Decided s client (.admin a) .none (adminReply revision)
  | change (a : ChangeMembershipAction) (e : IntentEffect)
      (h : decideChange ext s client.actor client.requestHash a = .ok (.apply e)) :
      Decided s client (.changeMembership a) (.intent e)
        (membershipReply e.outcome (some e.operationId) s.membershipLogId)
  | existing (a : ChangeMembershipAction) (phase : Int)
      (h : decideChange ext s client.actor client.requestHash a = .ok (.existing phase)) :
      Decided s client (.changeMembership a) .none
        (membershipReply .membershipAccepted (some a.operationId) s.membershipLogId)
  | cancel (a : CancelMembershipAction) (e : IntentEffect)
      (h : decideCancel s client.actor a = .ok e) :
      Decided s client (.cancelMembership a) (.intent e)
        (membershipReply e.outcome (some e.operationId) s.membershipLogId)
  | refused (a : Action) (reason : RefusalReason)
      (h : a.decide ext s client.actor client.requestHash = .error (.refuse reason)) :
      Decided s client a .none (rejection s a.validatedResource reason.get)
  | shapeless (a : Action) (limit : ShapeLimit)
      (h : a.decide ext s client.actor client.requestHash = .error (.refuseShapeless limit)) :
      Decided s client a .none (rejection s a.validatedResource .none)

/-- Every decision of an action is listed. -/
theorem exists_decided (s : State) (client : ClientRef) (action : Action) :
    ∃ change reply, Decided ext s client action change reply := by
  cases hd : action.decide ext s client.actor client.requestHash with
  | error refusal =>
    cases refusal with
    | refuse reason => exact ⟨_, _, .refused action reason hd⟩
    | refuseShapeless limit => exact ⟨_, _, .shapeless action limit hd⟩
  | ok =>
    cases action with
    | resource a =>
      obtain ⟨e, he, -⟩ := map_eq_ok.mp hd
      exact ⟨_, _, .resource a e he⟩
    | grant a =>
      obtain ⟨v, hv, -⟩ := map_eq_ok.mp hd
      cases v with
      | apply e => exact ⟨_, _, .grant a e hv⟩
      | noOp revision => exact ⟨_, _, .grantNoOp a revision hv⟩
    | admin a =>
      obtain ⟨v, hv, -⟩ := map_eq_ok.mp hd
      cases v with
      | apply e => exact ⟨_, _, .admin a e hv⟩
      | noOp revision => exact ⟨_, _, .adminNoOp a revision hv⟩
    | changeMembership a =>
      obtain ⟨v, hv, -⟩ := map_eq_ok.mp hd
      cases v with
      | apply e => exact ⟨_, _, .change a e hv⟩
      | existing phase => exact ⟨_, _, .existing a phase hv⟩
    | cancelMembership a =>
      obtain ⟨e, he, -⟩ := map_eq_ok.mp hd
      exact ⟨_, _, .cancel a e he⟩

/-- What is listed is what `apply_decided` does. -/
theorem Decided.applyDecided {w : Working} {client : ClientRef} {action : Action}
    {change : RowChange} {reply : SavedReply} (h : Decided ext w.state client action change reply)
    (logId : LogId) :
    applyDecided ext w logId client action = (w.write ext logId change, reply) := by
  cases h with
  | refused a reason h | shapeless a limit h =>
    simp only [Coordination.applyDecided, h]
    rfl
  | resource a e h | grant a e h | grantNoOp a revision h | admin a e h | adminNoOp a revision h
  | change a e h | existing a phase h | cancel a e h =>
    simp only [Coordination.applyDecided, Action.decide, h]
    rfl

/-- **Every way a command goes through**: the rows it writes, the journal row, the audit row and
the reply, with what was checked. -/
inductive Step (s : State) (logId : LogId) :
    Command → RowChange → Option (SessionKey × Session) → AuditRow → CommandReply → Prop where
  | replay (client : ClientRef) (action : Action) (row : Row) (saved : SavedReply)
      (h : classifyClient s client = .replay row saved) :
      Step s logId (.client client action) .none none
        (clientAuditRow logId client saved action) (.client ⟨.consumed, saved, true⟩)
  | refused (client : ClientRef) (action : Action) (row : Row) (reason : Reason)
      (h : classifyClient s client = .refuse row reason) :
      Step s logId (.client client action) .none none
        (clientAuditRow logId client (rejection s action.validatedResource reason) action)
        (.client ⟨.notConsumed, rejection s action.validatedResource reason, false⟩)
  | decided (client : ClientRef) (action : Action) (change : RowChange) (reply : SavedReply)
      (row : Row) (creates : Bool) (h : classifyClient s client = .unresolved row creates)
      (hdec : Decided ext s client action change reply) :
      Step s logId (.client client action) change
        (some (client.key, sessionRow s.sessions[client.key]? client.sequence
          client.requestHash reply))
        (clientAuditRow logId client reply action) (.client ⟨.consumed, reply, false⟩)
  | rejectedReplay (client : ClientRef) (code : Int) (resource : Option ResourceKey) (row : Row)
      (saved : SavedReply) (h : classifyClient s client = .replay row saved) :
      Step s logId (.rejectedClient client code resource) .none none
        (rejectedAuditRow logId client code saved) (.client ⟨.consumed, saved, true⟩)
  | rejectedRefused (client : ClientRef) (code : Int) (resource : Option ResourceKey) (row : Row)
      (reason : Reason) (h : classifyClient s client = .refuse row reason) :
      Step s logId (.rejectedClient client code resource) .none none
        (rejectedAuditRow logId client code (rejection s resource reason))
        (.client ⟨.notConsumed, rejection s resource reason, false⟩)
  | rejectedFresh (client : ClientRef) (code : Int) (resource : Option ResourceKey) (row : Row)
      (creates : Bool) (h : classifyClient s client = .unresolved row creates) :
      Step s logId (.rejectedClient client code resource) .none
        (some (client.key, sessionRow s.sessions[client.key]? client.sequence
          client.requestHash (rejection s resource .none)))
        (rejectedAuditRow logId client code (rejection s resource .none))
        (.client ⟨.consumed, rejection s resource .none, false⟩)
  | shapeless (command : ShapelessCommand) :
      Step s logId (.shapeless command) .none none (shapelessAuditRow logId command)
        (shapelessReply s command)
  | expired (command : ExpireCommand) (row : ResourceRow)
      (h : decideExpire s command = .apply row) :
      Step s logId (.expire command) (.expired command.resource row) none
        (systemAuditRow logId operationExpire (some command.resource) sysExpired row.epoch)
        (.system ⟨sysExpired, row.leaseRevision⟩)
  | expiryStale (command : ExpireCommand) (h : decideExpire s command = .stale) :
      Step s logId (.expire command) .none none
        (systemAuditRow logId operationExpire (some command.resource) sysExpiryStale
          (s.resources[command.resource]?.getD default).epoch)
        (.system ⟨sysExpiryStale, (s.resources[command.resource]?.getD default).leaseRevision⟩)
  | progressed (command : MembershipProgressCommand) (e : IntentEffect)
      (h : decideProgress s command = some e) :
      Step s logId (.membershipProgress command) (.intent e) none
        (systemAuditRow logId operationMembershipProgress none sysMembershipAdvanced 0)
        (.system ⟨sysMembershipAdvanced, 0⟩)
  | progressMismatch (command : MembershipProgressCommand) (h : decideProgress s command = none) :
      Step s logId (.membershipProgress command) .none none
        (systemAuditRow logId operationMembershipProgress none sysMembershipPhaseMismatch 0)
        (.system ⟨sysMembershipPhaseMismatch, 0⟩)
  | retired (command : RetireCommand) (row : Session) (h : RetireStep s command row) :
      Step s logId (.retireClient command) .none (some (command.target, row))
        (retireAuditRow logId command .clientRetired) (.retirement ⟨.clientRetired, .none⟩)
  | retiredAlready (command : RetireCommand) (h : decideRetire s command = .ok .alreadyRetired) :
      Step s logId (.retireClient command) .none none
        (retireAuditRow logId command .clientRetired) (.retirement ⟨.clientRetired, .none⟩)
  | retireRefused (command : RetireCommand) (reason : RefusalReason)
      (h : decideRetire s command = .error reason) :
      Step s logId (.retireClient command) .none none
        (retireAuditRow logId command .rejected) (.retirement ⟨.rejected, reason.get⟩)
  | genesisAgain (bytes : Bytes) (verified : VerifiedGenesis)
      (h : checkGenesis ext s bytes = .ok verified) (hrev : 0 < s.adminRevision) :
      Step s logId (.genesis bytes) .none none
        (systemAuditRow logId operationGenesis none sysGenesisAlreadyInstalled 0)
        (.system ⟨sysGenesisAlreadyInstalled, 0⟩)
  | genesisInstalled (bytes : Bytes) (verified : VerifiedGenesis)
      (h : checkGenesis ext s bytes = .ok verified) (hrev : s.adminRevision = 0)
      (hinstall : checkInstall s verified = .ok ()) :
      Step s logId (.genesis bytes) (.genesis verified) none
        (systemAuditRow logId operationGenesis none sysGenesisInstalled 0)
        (.system ⟨sysGenesisInstalled, 0⟩)

/-- What a step makes of the working state. -/
def Working.perform (w : Working) (logId : LogId) (change : RowChange)
    (journalled : Option (SessionKey × Session)) (row : AuditRow) : Working :=
  ((w.write ext logId change).journal journalled).writeAuditRow logId row

/-- **The list of steps is complete.** -/
theorem exists_step (w : Working) (logId : LogId) (command : Command) :
    (∃ fault, dispatch ext w logId command = .error fault) ∨
      ∃ change entry row reply, Step ext w.state logId command change entry row reply := by
  cases command with
  | unknown => exact .inl ⟨_, rfl⟩
  | client client action =>
    right
    cases hclass : classifyClient w.state client with
    | replay row saved => exact ⟨_, _, _, _, .replay client action row saved hclass⟩
    | refuse row reason => exact ⟨_, _, _, _, .refused client action row reason hclass⟩
    | unresolved row creates =>
      obtain ⟨change, reply, hdec⟩ := exists_decided ext w.state client action
      exact ⟨_, _, _, _, .decided client action change reply row creates hclass hdec⟩
  | rejectedClient client code resource =>
    right
    cases hclass : classifyClient w.state client with
    | replay row saved => exact ⟨_, _, _, _, .rejectedReplay client code resource row saved hclass⟩
    | refuse row reason =>
      exact ⟨_, _, _, _, .rejectedRefused client code resource row reason hclass⟩
    | unresolved row creates =>
      exact ⟨_, _, _, _, .rejectedFresh client code resource row creates hclass⟩
  | shapeless command => exact .inr ⟨_, _, _, _, .shapeless command⟩
  | expire command =>
    right
    cases hdecision : decideExpire w.state command with
    | stale => exact ⟨_, _, _, _, .expiryStale command hdecision⟩
    | apply row => exact ⟨_, _, _, _, .expired command row hdecision⟩
  | membershipProgress command =>
    right
    cases hdecision : decideProgress w.state command with
    | none => exact ⟨_, _, _, _, .progressMismatch command hdecision⟩
    | some e => exact ⟨_, _, _, _, .progressed command e hdecision⟩
  | retireClient command =>
    right
    cases hdecision : decideRetire w.state command with
    | error reason => exact ⟨_, _, _, _, .retireRefused command reason hdecision⟩
    | ok =>
      rcases decideRetire_step hdecision with rfl | ⟨row, hrow⟩
      · exact ⟨_, _, _, _, .retiredAlready command hdecision⟩
      · exact ⟨_, _, _, _, .retired command row hrow⟩
  | genesis bytes =>
    cases hcheck : checkGenesis ext w.state bytes with
    | error => exact .inl ⟨_, by simp only [dispatch, applyGenesis, hcheck]; rfl⟩
    | ok verified =>
      by_cases hrev : w.state.adminRevision > 0
      · exact .inr ⟨_, _, _, _, .genesisAgain bytes verified hcheck hrev⟩
      · cases hinstall : checkInstall w.state verified with
        | error refusal =>
          refine .inl ⟨.genesisRefused refusal, ?_⟩
          simp only [dispatch, applyGenesis, hcheck, if_neg hrev, hinstall]
          rfl
        | ok =>
          exact .inr ⟨_, _, _, _,
            .genesisInstalled bytes verified hcheck (by omega) hinstall⟩

/-- **The list of steps is sound**: what is listed is what happens. -/
theorem Step.dispatch {w : Working} {logId : LogId} {command : Command} {change : RowChange}
    {entry : Option (SessionKey × Session)} {row : AuditRow} {reply : CommandReply}
    (h : Step ext w.state logId command change entry row reply) :
    dispatch ext w logId command = .ok (w.perform ext logId change entry row, reply) := by
  cases h with
  | replay client action row saved h | refused client action row reason h =>
    simp only [Coordination.dispatch, applyClient, h]
    rfl
  | decided client action change reply row creates h hdec =>
    obtain ⟨_, hstate⟩ := w.write_state ext logId change
    simp [Coordination.dispatch, applyClient, h, hdec.applyDecided ext logId, perform, journal,
      writeSession, hstate]
  | rejectedReplay client code resource row saved h
  | rejectedRefused client code resource row reason h
  | rejectedFresh client code resource row creates h =>
    simp only [Coordination.dispatch, applyRejectedClient, h]
    rfl
  | shapeless => rfl
  | expired command row h =>
    have hrow : (w.putResource command.resource row).state.resources[command.resource]? =
        some row := by
      simp [putResource]
    simp only [Coordination.dispatch, applyExpire, h, hrow]
    rfl
  | expiryStale command h =>
    simp only [Coordination.dispatch, applyExpire, h]
    rfl
  | progressed command e h | progressMismatch command h =>
    simp only [Coordination.dispatch, applyMembershipProgress, h]
    rfl
  | retired command row h =>
    obtain ⟨_, hdecide, hrow⟩ := h.decideRetire
    simp only [Coordination.dispatch, applyRetire, writeRetirement, hdecide, hrow]
    rfl
  | retiredAlready command h | retireRefused command reason h =>
    simp only [Coordination.dispatch, applyRetire, writeRetirement, h]
    rfl
  | genesisAgain bytes verified h hrev =>
    simp only [Coordination.dispatch, applyGenesis, h, if_pos hrev]
    rfl
  | genesisInstalled bytes verified h hrev hinstall =>
    simp only [Coordination.dispatch, applyGenesis, h, hrev, hinstall]
    rfl

/-! ### Deliveries and runs -/

/-- The journal table after the optional journal row. -/
def journalled (entry : Option (SessionKey × Session)) (t : Table SessionKey Session) :
    Table SessionKey Session :=
  match entry with
  | none => t
  | some (key, row) => t.insert key row

/-- The state after a step, up to the two byte counters and the audit floor; the growth counter
moves only with rows. -/
def Performed (s s' : State) (logId : LogId) (change : RowChange)
    (entry : Option (SessionKey × Session)) (row : AuditRow) : Prop :=
  ∃ growth reserve floor, (change = .none → growth = s.growthBytes) ∧ s' =
    { s with
      resources := change.resources s.resources
      acl := change.acl s.acl
      admins := change.admins s.admins
      sessions := journalled entry s.sessions
      intents := change.intents logId s.intents
      routes := change.routes logId s.routes
      auditTip := some logId
      audit := auditAfter s logId row
      growthBytes := growth
      reserveBytes := reserve
      adminRevision := change.adminRevision s.adminRevision
      auditFloor := floor
      lastApplied := some logId }

namespace Performed

variable {s s' : State} {logId : LogId} {change : RowChange}
  {entry : Option (SessionKey × Session)} {row : AuditRow}
  (h : Performed s s' logId change entry row)

include h

theorem resources : s'.resources = change.resources s.resources := by
  obtain ⟨_, _, _, -, rfl⟩ := h
  rfl

theorem acl : s'.acl = change.acl s.acl := by
  obtain ⟨_, _, _, -, rfl⟩ := h
  rfl

theorem sessions : s'.sessions = journalled entry s.sessions := by
  obtain ⟨_, _, _, -, rfl⟩ := h
  rfl

theorem audit : s'.audit = auditAfter s logId row := by
  obtain ⟨_, _, _, -, rfl⟩ := h
  dsimp only

theorem adminRevision : s'.adminRevision = change.adminRevision s.adminRevision := by
  obtain ⟨_, _, _, -, rfl⟩ := h
  rfl

theorem lastApplied : s'.lastApplied = some logId := by
  obtain ⟨_, _, _, -, rfl⟩ := h
  rfl

end Performed

theorem Working.perform_state (w : Working) (logId : LogId) (change : RowChange)
    (entry : Option (SessionKey × Session)) (row : AuditRow) :
    Performed w.state ((w.perform ext logId change entry row).setLastApplied logId).state logId
      change entry row := by
  obtain ⟨growth, hwrite⟩ := w.write_state ext logId change
  have hjournal : ∃ reserve, ((w.write ext logId change).journal entry).state =
      { (w.write ext logId change).state with
        sessions := journalled entry (w.write ext logId change).state.sessions
        reserveBytes := reserve } := by
    cases entry with
    | none => exact ⟨_, rfl⟩
    | some => exact ⟨_, rfl⟩
  obtain ⟨_, hjournal⟩ := hjournal
  obtain ⟨r₂, floor, haudit⟩ :=
    ((w.write ext logId change).journal entry).writeAuditRow_state logId row
  refine ⟨growth, r₂, floor, ?_, ?_⟩
  · rintro rfl
    exact (congrArg State.growthBytes hwrite).symm
  · simp [setLastApplied, perform, haudit, hjournal, hwrite, auditAfter]

/-- **One recorded command**: a fault that changes nothing, or one of the listed steps. -/
theorem applyCommandRecording_cases (w : Working) (logId : LogId) (command : Command) :
    (∃ fault, applyCommandRecording ext w logId command = (w, .error fault)) ∨
      ∃ reply change entry row, guardDelivery w.state logId = .ok () ∧
        Step ext w.state logId command change entry row reply ∧
        applyCommandRecording ext w logId command =
          ((w.perform ext logId change entry row).setLastApplied logId, .ok reply) := by
  unfold applyCommandRecording
  cases hguard : guardDelivery w.state logId with
  | error fault => exact .inl ⟨fault, rfl⟩
  | ok =>
    rcases exists_step ext w logId command with
      ⟨fault, hfault⟩ | ⟨change, entry, row, reply, hstep⟩
    · rw [hfault]
      exact .inl ⟨fault, rfl⟩
    · rw [hstep.dispatch]
      exact .inr ⟨reply, change, entry, row, rfl, hstep, rfl⟩

/-- A delivered entry: its log id and its command. -/
abbrev Delivery := LogId × Command

/-- `apply_command` as a machine over deliveries; a fault leaves the state as it was. -/
def deliver (s : State) (d : Delivery) : State × Except Fault CommandReply :=
  applyCommand ext s d.1 d.2

/-- **One delivery**: a fault that changes nothing, or one of the listed steps. -/
@[elab_as_elim]
theorem deliver_elim {motive : State × Except Fault CommandReply → Prop} (s : State) (d : Delivery)
    (fault : ∀ fault, motive (s, .error fault))
    (step : ∀ {s' reply change entry row}, guardDelivery s d.1 = .ok () →
      Step ext s d.1 d.2 change entry row reply → Performed s s' d.1 change entry row →
      motive (s', .ok reply)) : motive (deliver ext s d) := by
  simp only [deliver, applyCommand]
  obtain ⟨code, hfault⟩ | ⟨_, change, entry, row, hguard, hstep, hrecorded⟩ :=
    applyCommandRecording_cases ext (start s) d.1 d.2
  · rw [hfault]
    exact fault code
  · rw [hrecorded]
    exact step hguard hstep ((start s).perform_state ext d.1 change entry row)

/-! ### Which deliveries pass the guard -/

/-- The audit trail is no further than the log. -/
def AuditBehind (s : State) : Prop :=
  ∀ tip, s.auditTip = some tip → ∃ last, s.lastApplied = some last ∧
    (tip.index < last.index ∨ tip = last)

theorem guardDelivery_eq_ok {s : State} {logId : LogId} :
    guardDelivery s logId = .ok () ↔
      (∀ last, s.lastApplied = some last → last.index < logId.index) ∧ AuditBehind s := by
  unfold guardDelivery AuditBehind
  cases s.lastApplied <;> cases s.auditTip <;>
    simp [or_iff_not_imp_left]

/-- A delivery is recorded as the last one applied, or changes nothing. -/
theorem deliver_lastApplied (s : State) (d : Delivery) :
    (deliver ext s d).1 = s ∨
      ((deliver ext s d).1.lastApplied = some d.1 ∧ (deliver ext s d).1.auditTip = some d.1) := by
  refine deliver_elim ext s d (fun _ => .inl rfl) fun _ _ hdone => ?_
  obtain ⟨_, _, _, -, rfl⟩ := hdone
  exact .inr ⟨rfl, rfl⟩

theorem deliver_auditBehind {s : State} (d : Delivery) (h : AuditBehind s) :
    AuditBehind (deliver ext s d).1 := by
  rcases deliver_lastApplied ext s d with hsame | ⟨hlast, htip⟩
  · rw [hsame]
    exact h
  · intro tip h'
    rw [htip] at h'
    exact ⟨d.1, hlast, .inr (Option.some.inj h').symm⟩

/-- **Increasing log indices always pass the guard.** -/
theorem run_guardDelivery {s : State} {pre : List Delivery} {d : Delivery} (h : AuditBehind s)
    (hlast : ∀ last, s.lastApplied = some last → last.index < d.1.index)
    (hpre : ∀ e ∈ pre, e.1.index < d.1.index) :
    guardDelivery (run (deliver ext) s pre) d.1 = .ok () := by
  induction pre generalizing s with
  | nil => exact guardDelivery_eq_ok.mpr ⟨hlast, h⟩
  | cons e rest ih =>
    refine ih (deliver_auditBehind ext e h) ?_ fun x hx => hpre x (List.mem_cons_of_mem _ hx)
    intro last hlast'
    rcases deliver_lastApplied ext s e with hsame | ⟨happ, -⟩
    · rw [hsame] at hlast'
      exact hlast last hlast'
    · rw [happ] at hlast'
      cases hlast'
      exact hpre e List.mem_cons_self

end Steps

end AsterRpc.Coordination

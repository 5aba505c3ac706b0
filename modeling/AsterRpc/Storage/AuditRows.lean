import AsterRpc.Storage.Shapes

/-!
# Audit rows and the loader

The loader accepts an audit row only if its operation can produce its result.
A row written for a fresh answer always qualifies.  A row written for an answer
out of the journal pairs the operation of the *delivered* command with the
outcome that was *saved*, and the two need not belong together: a command whose
request hash is not the digest of its action is forced through the log under
the hash it claims.
-/

namespace AsterRpc.Coordination

open AsterRpc.Foundation

variable {row : AuditRow}

/-! ### Pairs of operation and outcome -/

/-- The operation can produce the outcome, by `AUDIT_RESULTS`. -/
def auditAllows (operation : Int) (outcome : Outcome) : Bool :=
  (auditResultsFor operation).any fun allowed => allowed.contains outcome.code

/-- A system operation that can produce the result. -/
def systemAllows (operation code : Int) : Bool :=
  isSystemOperation operation && (auditResultsFor operation).any fun allowed =>
    allowed.contains code

/-- A client method: not a system operation, and one that can be rejected. -/
def isClientOperation (operation : Int) : Bool :=
  !isSystemOperation operation && auditAllows operation .rejected

/-- A client result of an operation that can produce it, with counters in range, is a valid row. -/
theorem AuditRow.valid_of_client {outcome : Outcome} (hres : row.result = .client outcome)
    (hcli : isClientOperation row.operationCode = true)
    (hallows : auditAllows row.operationCode outcome = true) (hepoch : row.epoch ≤ maxCounter)
    (hrev : row.valueRevision ≤ maxCounter) : row.Valid where
  paired := by
    rw [auditAllows, Option.any_eq_true] at hallows
    obtain ⟨allowed, hmay, hmem⟩ := hallows
    refine ⟨allowed, hmay, ?_⟩
    rw [hres]
    exact List.contains_iff_mem.mp hmem
  space := by
    simp only [isClientOperation, Bool.and_eq_true, Bool.not_eq_true'] at hcli
    rw [hres, hcli.1]
    rfl
  epoch := hepoch
  valueRevision := hrev

open AuditRow

/-- A system result among those of its operation is a valid row. -/
theorem AuditRow.valid_of_system {code : Int} (hres : row.result = .system code)
    (hallows : systemAllows row.operationCode code = true) (hepoch : row.epoch ≤ maxCounter)
    (hrev : row.valueRevision ≤ maxCounter) : row.Valid := by
  rw [systemAllows, Bool.and_eq_true, Option.any_eq_true] at hallows
  obtain ⟨hsystem, allowed, hmay, hmem⟩ := hallows
  refine ⟨⟨allowed, hmay, ?_⟩, ?_, hepoch, hrev⟩
  · rw [hres]
    exact List.contains_iff_mem.mp hmem
  · rw [hres, hsystem]
    rfl

theorem Action.isClientOperation (action : Action) :
    isClientOperation action.operationCode = true := by
  cases action with
  | resource a => cases a <;> rfl
  | _ => rfl

/-! ### Commands from the wire -/

/-- What the audit row of a forced rejection relies on. -/
def Command.AuditShape : Command → Prop
  | .rejectedClient _ code _ => isClientOperation code = true
  | .shapeless c =>
    match c.replyShape with
    | .system => systemAllows c.operationCode c.systemResultCode = true
    | _ => isClientOperation c.operationCode = true
  | _ => True

theorem shapeRejection_auditShape {command : CommandV1} (h : unknownVariant command = false) :
    (shapeRejection command).AuditShape := by
  cases command with
  | client c =>
    have hcode : isClientOperation (wireOperationCode c.action) = true := by
      cases haction : c.action with
      | unknown => simp [unknownVariant, haction] at h
      | _ => rfl
    simp only [shapeRejection]
    split <;> exact hcode
  | expire => exact rfl
  | membershipProgress => exact rfl
  | retireClient => exact rfl
  | genesis => trivial
  | unknown => trivial

section

variable (ext : Externals) {s : State} {client : ClientRef} {reply : SavedReply} {action : Action}
  {change : RowChange}

theorem commandFromWire_auditShape {command : CommandV1} {model : Command}
    (h : commandFromWire ext command = .ok model) : model.AuditShape := by
  cases command with
  | client c =>
    obtain ⟨_, _, _, _, -, -, rfl⟩ := clientFromWire_ok h
    trivial
  | expire =>
    simp only [commandFromWire] at h
    split at h
    · cases h
    · cases h
      trivial
  | membershipProgress =>
    simp only [commandFromWire, bind_accepts] at h
    obtain ⟨_, -, _, -, h⟩ := h
    cases h
    trivial
  | retireClient =>
    simp only [commandFromWire, bind_accepts] at h
    obtain ⟨_, -, _, -, _, -, h⟩ := h
    cases h
    trivial
  | genesis =>
    cases h
    trivial
  | unknown =>
    cases h
    trivial

/-- Whatever the boundary lets through names an operation of the contract. -/
theorem modelCommand_auditShape (command : CommandV1) : (modelCommand ext command).AuditShape := by
  obtain hunknown | ⟨hknown, hshape⟩ | hread := modelCommand_cases ext command
  · rw [hunknown]
    trivial
  · rw [hshape]
    exact shapeRejection_auditShape hknown
  · exact commandFromWire_auditShape ext hread

/-! ### Rows of a step -/

/-- The request of a client command, with the operation it names. -/
def Command.request? : Command → Option (ClientRef × Int)
  | .client ref action => some (ref, action.operationCode)
  | .rejectedClient ref code _ => some (ref, code)
  | _ => none

/-- A command that its journal answers with a saved reply names an operation that can produce the
saved outcome. -/
def replayFits (s : State) (command : Command) : Bool :=
  match command.request? with
  | none => true
  | some (client, operation) =>
    match classifyClient s client with
    | .replay _ saved => auditAllows operation saved.outcome
    | _ => true

/-- The row of a client command is valid when the answer's outcome fits and its snapshot is. -/
theorem clientAuditRow_valid (logId : LogId) (client : ClientRef)
    (hallows : auditAllows action.operationCode reply.outcome = true)
    (hsnap : ∀ snapshot, reply.snapshot = some snapshot → snapshot.Valid) :
    (clientAuditRow logId client reply action).Valid := by
  refine valid_of_client rfl action.isClientOperation hallows ?_ ?_
  · cases hs : reply.snapshot with
    | none => simp [clientAuditRow, hs]
    | some snapshot => simpa [clientAuditRow, hs] using (hsnap snapshot hs).epoch
  · cases hs : reply.snapshot with
    | none => simp [clientAuditRow, hs]
    | some snapshot => simpa [clientAuditRow, hs] using (hsnap snapshot hs).valueRevision

theorem rejected_allowed {operation : Int} (h : isClientOperation operation = true) :
    auditAllows operation .rejected = true := by
  simp only [isClientOperation, Bool.and_eq_true] at h
  exact h.2

/-- A fresh answer is always one its operation can produce. -/
theorem Decided.auditAllows (h : Decided ext s client action change reply) :
    auditAllows action.operationCode reply.outcome = true := by
  cases h with
  | resource a e he =>
    obtain ⟨_, -, -, -, -, hstep⟩ := decideResource_ok he
    cases hstep <;> rfl
  | cancel a e he => cases decideCancel_ok he <;> rfl
  | change a e he =>
    rw [(decideChange_apply ext he).effect]
    rfl
  | refused | shapeless => exact rejected_allowed action.isClientOperation
  | _ => rfl

/-- **The audit row of every step is one the loader accepts**, provided a saved reply that is
repeated fits the command that repeats it. -/
theorem Step.auditRow_valid {logId : LogId} {command : Command}
    {entry : Option (SessionKey × Session)} {row : AuditRow} {reply : CommandReply}
    (h : Step ext s logId command change entry row reply) (hs : ShapesValid s)
    (hshape : command.AuditShape) (hfits : replayFits s command = true) : row.Valid := by
  cases h with
  | replay client action row saved hclass =>
    simp only [replayFits, Command.request?, hclass] at hfits
    obtain ⟨-, -, x, hx, -, -, hlast⟩ := classify_replay_iff.mp hclass
    exact clientAuditRow_valid logId client hfits ((hs.sessions _ x hx).reply saved hlast).snapshot
  | refused client action =>
    exact clientAuditRow_valid logId client (rejected_allowed action.isClientOperation)
      fun _ => rejection_snapshot hs.resources
  | decided client action change reply row creates hclass hdec =>
    exact clientAuditRow_valid logId client hdec.auditAllows
      (hdec.reply_valid hs.resources hs.adminRevision).snapshot
  | rejectedReplay client code resource row saved hclass =>
    simp only [replayFits, Command.request?, hclass] at hfits
    exact valid_of_client rfl hshape hfits (Nat.zero_le _) (Nat.zero_le _)
  | rejectedRefused | rejectedFresh =>
    exact valid_of_client rfl hshape (rejected_allowed hshape) (Nat.zero_le _)
      (Nat.zero_le _)
  | shapeless command =>
    obtain ⟨_, replyShape, _, _, resource⟩ := command
    cases replyShape with
    | system => exact valid_of_system rfl hshape (Nat.zero_le _) (Nat.zero_le _)
    | client | retirement =>
      exact valid_of_client rfl hshape (rejected_allowed hshape) (Nat.zero_le _)
        (Nat.zero_le _)
  | expired command row he =>
    refine valid_of_system rfl rfl ?_ (Nat.zero_le _)
    exact ((decideExpire_rowMove he).valid (hs.resources.rowOf command.resource)).epoch
  | expiryStale command =>
    exact valid_of_system rfl rfl (hs.resources.rowOf command.resource).epoch (Nat.zero_le _)
  | progressed | progressMismatch | genesisAgain | genesisInstalled =>
    exact valid_of_system rfl rfl (Nat.zero_le _) (Nat.zero_le _)
  | retired | retiredAlready | retireRefused =>
    exact valid_of_client rfl rfl rfl (Nat.zero_le _) (Nat.zero_le _)

/-! ### Runs -/

/-- Every audit row has the shape a store accepts. -/
def AuditValid (s : State) : Prop := s.audit.AllRows fun _ row => row.Valid

theorem deliver_auditValid {d : Delivery} (hs : ShapesValid s) (haudit : AuditValid s)
    (hshape : d.2.AuditShape) (hfits : replayFits s d.2 = true) :
    AuditValid (deliver ext s d).1 := by
  refine deliver_elim ext s d (fun _ => haudit) @fun _ _ _ _ row _ hstep hdone => ?_
  obtain ⟨_, _, _, -, rfl⟩ := hdone
  have hrow : row.Valid := hstep.auditRow_valid ext hs hshape hfits
  simp only [AuditValid]
  exact auditAfter_allRows haudit hrow

/-- **Audit rows reopen.**  From any state a store opens with, and through any run of wire commands
in which a command that is answered out of its journal names an operation that can produce the
saved outcome, `check_audit_rows` accepts. -/
theorem audit_rows_reopen (s₀ : DurableState) (es : List WireDelivery) (hs : Validated ext s₀)
    (hfits : EveryStep (deliverWire ext) (fun s d => replayFits s (modelCommand ext d.2) = true)
      s₀.model es) :
    checkAuditRows (run (deliverWire ext) s₀.model es) = .ok () := by
  have hinv : ShapesValid (run (deliverWire ext) s₀.model es) ∧
      AuditValid (run (deliverWire ext) s₀.model es) := by
    refine run_invariant_of (I := fun s => ShapesValid s ∧ AuditValid s) ?_
      ⟨hs.shapes, checkAuditRows_eq_ok.mp hs.rows.audit⟩ hfits
    intro s d ⟨hshapes, haudit⟩ hfit
    rw [deliverWire, applyWireCommand_state]
    exact ⟨deliver_shapesValid ext _ hshapes,
      deliver_auditValid ext hshapes haudit (modelCommand_auditShape ext d.2) hfit⟩
  exact checkAuditRows_eq_ok.mpr hinv.2

end

/-! ### A journal answering the wrong operation -/

namespace Sample

/-- A client's first request, under the request hash it claims. -/
def request (hash : Hash) (action : ActionV1) : CommandV1 :=
  .client ⟨voter.bytes, client.bytes, 1, hash.bytes, action⟩

def acquire : ActionV1 := .acquire resource.toWire minTtlMs
def setAdmin : ActionV1 := .setAdmin root.bytes true 1

/-- The digest of the acquisition. -/
def acquireHash : Hash := FixedBytes.fill 32 1

/-- The acquisition, and then another action under the acquisition's hash. -/
def forgedReplay : List WireDelivery :=
  [(entry 2, request acquireHash acquire), (entry 3, request acquireHash setAdmin)]

end Sample

open Sample

theorem audit_rows_reopen_acquire :
    checkAuditRows (run (deliverWire externals) state.model
      [(entry 2, request acquireHash acquire)]) = .ok () :=
  audit_rows_reopen externals state _ state_validated
    ⟨by decide +kernel, trivial⟩

/-- An acquisition is granted, and then another action is delivered under the same client, sequence
and request hash.  Its hash does not match, so it is forced through the log, the journal answers it
with the granted acquisition, the audit row pairs `SetAdmin` with `Granted`, and the store would not
reopen. -/
theorem forged_replay_does_not_reopen :
    Validated externals state ∧
    requestHash externals acquire ≠ requestHash externals setAdmin ∧
    (outputs (deliverWire externals) state.model forgedReplay).all
      (fun reply => reply.isOk) = true ∧
    checkAuditRows (run (deliverWire externals) state.model forgedReplay) =
      .error "a result the operation cannot produce" :=
  ⟨state_validated, by decide +kernel, by decide +kernel, by decide +kernel⟩

end AsterRpc.Coordination

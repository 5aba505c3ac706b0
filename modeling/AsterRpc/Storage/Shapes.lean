import AsterRpc.Coordination.Effects
import AsterRpc.Storage.Valid

/-!
# Row shapes

Every command leaves resource rows, the administrator revision and journal rows
of the shape a store accepts, from any state whose rows have it.  Only audit rows
need more, and they are left to `AuditRows`.
-/

namespace AsterRpc.Coordination

open AsterRpc.Foundation

variable {row : ResourceRow} {s : State}

/-! ### Resource rows -/

/-- A lease's time to live stays legal once the row is free. -/
theorem ttlIsLegal_free {ttlMs : ℕ} {held : Bool} (h : ttlIsLegal ttlMs held = true) :
    ttlIsLegal ttlMs false = true := by
  simp only [ttlIsLegal, Bool.or_eq_true, Bool.and_eq_true] at h ⊢
  rcases h with hrange | ⟨-, hzero⟩
  · exact .inl hrange
  · exact .inr ⟨rfl, hzero⟩

theorem ResourceRow.default_valid : (default : ResourceRow).Valid where
  value := Nat.zero_le _
  ttl := by decide
  epoch := Nat.zero_le _
  lease := Nat.zero_le _
  valueRevision := Nat.zero_le _
  acl := Nat.zero_le _
  coherent := rfl

theorem ResourceRow.Valid.ended (h : row.Valid) (hepoch : row.epoch < maxCounter)
    (hlease : row.leaseRevision < maxCounter) : row.ended.Valid :=
  { h with ttl := ttlIsLegal_free h.ttl, epoch := hepoch, lease := hlease, coherent := rfl }

theorem ResourceRow.Valid.mutated (h : row.Valid) {value : Bytes}
    (hvalue : value.length ≤ maxValue) (hrev : row.valueRevision < maxCounter) :
    (row.mutated value).Valid :=
  { h with value := hvalue, valueRevision := hrev }

/-- **A valid row moves to a valid row.** -/
theorem RowMove.valid {old new : ResourceRow} (h : RowMove old new) (hold : old.Valid) :
    new.Valid := by
  cases h with
  | acquired actor ttlMs hfree httl hepoch hlease =>
    have hlegal : ttlIsLegal ttlMs true = true := by simp [ttlIsLegal, httl.1, httl.2]
    exact { hold with ttl := hlegal, epoch := hepoch, lease := hlease, coherent := rfl }
  | renewed hlease => exact { hold with lease := hlease }
  | mutated value hvalue hrev => exact hold.mutated hvalue hrev
  | ended hepoch hlease => exact hold.ended hepoch hlease
  | handedOver value hvalue hepoch hlease hrev =>
    exact (hold.mutated hvalue hrev).ended hepoch hlease
  | regranted hacl => exact { hold with acl := hacl }
  | fenced hacl hepoch hlease =>
    have hacl' : ({ old with aclRevision := old.aclRevision + 1 } : ResourceRow).Valid :=
      { hold with acl := hacl }
    exact hacl'.ended hepoch hlease

/-- Every resource row has the shape a store accepts. -/
def ResourcesValid (s : State) : Prop := s.resources.AllRows fun _ row => row.Valid

theorem ResourcesValid.rowOf (h : ResourcesValid s) (key : ResourceKey) : (s.rowOf key).Valid := by
  unfold State.rowOf
  cases hrow : s.resources[key]? with
  | none => exact ResourceRow.default_valid
  | some row => exact h key row hrow

section

variable {ext : Externals} {s : State} {logId : LogId} {command : Command} {change : RowChange}
  {entry : Option (SessionKey × Session)} {reply : CommandReply} {row : ResourceRow}
  {resource : Option ResourceKey} {reason : Reason} {revision : ℕ} {client : ClientRef}

theorem Step.resourcesValid {row : AuditRow} (h : Step ext s logId command change entry row reply)
    (hs : ResourcesValid s) : (change.resources s.resources).AllRows fun _ row => row.Valid := by
  rcases h.resources with hsame | ⟨key, _, hmove, hins⟩
  · rw [hsame]
    exact hs
  · rw [hins]
    exact Table.AllRows.insert hs (hmove.valid (hs.rowOf key))

/-! ### Replies -/

theorem ResourceRow.Valid.snapshot (h : row.Valid) (key : ResourceKey) :
    (SavedSnapshot.of key row).Valid where
  epoch := h.epoch
  lease := h.lease
  valueRevision := h.valueRevision
  acl := h.acl
  ttl := h.ttl
  coherent := h.coherent

/-- A rejection shows a valid row, whatever its reason. -/
theorem rejection_snapshot (hs : ResourcesValid s) {snapshot : SavedSnapshot}
    (h : (rejection s resource reason).snapshot = some snapshot) : snapshot.Valid := by
  cases resource with
  | none => cases h
  | some key =>
    cases h
    exact (hs.rowOf key).snapshot key

theorem rejection_valid (hs : ResourcesValid s) (hadmin : s.adminRevision ≤ maxCounter)
    (resource : Option ResourceKey) (hreason : reason.isReserved = false) :
    (rejection s resource reason).Valid where
  reserved := hreason
  reason := Or.inl rfl
  acl := by
    cases resource with
    | none => exact Nat.zero_le _
    | some key => exact (hs.rowOf key).acl
  admin := hadmin
  snapshot := fun _ h => rejection_snapshot hs h

theorem successReply_valid (h : row.Valid) (outcome : Outcome) (key : ResourceKey) :
    (successReply outcome key row).Valid where
  reserved := rfl
  reason := Or.inr rfl
  acl := h.acl
  admin := Nat.zero_le _
  snapshot := by
    rintro _ ⟨⟩
    exact h.snapshot key

theorem adminReply_valid (h : revision ≤ maxCounter) : (adminReply revision).Valid where
  reserved := rfl
  reason := Or.inr rfl
  acl := Nat.zero_le _
  admin := h
  snapshot := by rintro _ ⟨⟩

theorem noOpGrantReply_valid (hs : ResourcesValid s) (h : revision ≤ maxCounter) :
    (noOpGrantReply s resource revision).Valid where
  reserved := rfl
  reason := Or.inr rfl
  acl := h
  admin := Nat.zero_le _
  snapshot := by
    intro snapshot hsnap
    simp only [noOpGrantReply, Option.bind_eq_some_iff, Option.map_eq_some_iff] at hsnap
    obtain ⟨key, -, row, hrow, rfl⟩ := hsnap
    exact (hs key row hrow).snapshot key

theorem not_reserved_of_refusable (h : reason.isRefusable = true) : reason.isReserved = false := by
  cases reason <;> first | rfl | cases h

/-- **Every answer a decision saves has the shape a store accepts.** -/
theorem Decided.reply_valid {action : Action} {reply : SavedReply}
    (h : Decided ext s client action change reply) (hs : ResourcesValid s)
    (hadmin : s.adminRevision ≤ maxCounter) : reply.Valid := by
  cases h with
  | resource a e he =>
    exact successReply_valid ((decideResource_rowMove he).valid (hs.rowOf e.key)) _ _
  | grant a e he =>
    exact successReply_valid ((decideGrant_rowMove he).valid (hs.rowOf e.key)) _ _
  | grantNoOp a revision he =>
    obtain ⟨key, -, rfl⟩ := decideGrant_noOp he
    exact noOpGrantReply_valid hs (hs.rowOf key).acl
  | admin a e he =>
    have hstep := decideAdmin_apply he
    refine adminReply_valid ?_
    rw [hstep.revision]
    exact hstep.room
  | adminNoOp a revision he =>
    rw [decideAdmin_noOp he]
    exact adminReply_valid hadmin
  | change | existing | cancel =>
    exact ⟨rfl, .inr rfl, Nat.zero_le _, Nat.zero_le _, by rintro _ ⟨⟩⟩
  | refused a reason =>
    exact rejection_valid hs hadmin _ (not_reserved_of_refusable reason.refusable)
  | shapeless => exact rejection_valid hs hadmin _ rfl

/-! ### Journal rows -/

theorem sessionRow_valid {reply : SavedReply} {row : Row} {creates : Bool}
    (h : classifyClient s client = .unresolved row creates) (hreply : reply.Valid) :
    (Working.sessionRow s.sessions[client.key]? client.sequence client.requestHash
      reply).Valid where
  sequence := (classify_unresolved h).bounded
  saved := by rintro ⟨⟩
  reply := by
    rintro _ ⟨⟩
    exact hreply

/-- Every journal row has the shape a store accepts. -/
def SessionsValid (s : State) : Prop := s.sessions.AllRows fun _ row => row.Valid

theorem RetireStep.valid {command : RetireCommand} {row : Session} (h : RetireStep s command row)
    (hs : SessionsValid s) : row.Valid := by
  cases h with
  | convert existing hprev =>
    have hvalid := hs _ existing hprev
    exact ⟨hvalid.sequence, hvalid.saved, hvalid.reply⟩
  | tombstone => exact ⟨Nat.zero_le _, fun _ => rfl, by rintro _ ⟨⟩⟩

theorem Step.sessionsValid {row : AuditRow} (h : Step ext s logId command change entry row reply)
    (hsess : SessionsValid s) (hs : ResourcesValid s) (hadmin : s.adminRevision ≤ maxCounter) :
    (journalled entry s.sessions).AllRows fun _ row => row.Valid := by
  cases h with
  | decided client action change reply row creates hclass hdec =>
    exact Table.AllRows.insert hsess
      (sessionRow_valid hclass (hdec.reply_valid hs hadmin))
  | rejectedFresh client code resource row creates hclass =>
    exact Table.AllRows.insert hsess
      (sessionRow_valid hclass (rejection_valid hs hadmin resource rfl))
  | retired command row hretire => exact Table.AllRows.insert hsess (hretire.valid hsess)
  | _ => exact hsess

end

/-! ### Runs -/

/-- Resource rows, journal rows and the administrator revision are as a store accepts them. -/
structure ShapesValid (s : State) : Prop where
  resources : ResourcesValid s
  sessions : SessionsValid s
  adminRevision : s.adminRevision ≤ maxCounter

theorem Validated.shapes {ext : Externals} {s : DurableState} (h : Validated ext s) :
    ShapesValid s.model where
  resources := h.resources
  sessions := checkSessionRows_eq_ok.mp h.rows.sessions
  adminRevision := (checkAdminRevision_eq_ok.mp h.rows.admins).revision

/-- **Row shapes survive every delivery.** -/
theorem deliver_shapesValid (ext : Externals) (d : Delivery) (hs : ShapesValid s) :
    ShapesValid (deliver ext s d).1 := by
  refine deliver_elim ext s d (fun _ => hs) fun _ hstep hdone => ?_
  obtain ⟨_, _, _, -, rfl⟩ := hdone
  refine ⟨hstep.resourcesValid hs.resources,
    hstep.sessionsValid hs.sessions hs.resources hs.adminRevision, ?_⟩
  have hadmin := hs.adminRevision
  dsimp only
  rcases hstep.adminRevision with hsame | ⟨hroom, hnext⟩ <;> omega

end AsterRpc.Coordination

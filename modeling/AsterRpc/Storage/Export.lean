import AsterRpc.Storage.Canonical
import AsterRpc.Storage.Load

/-!
# The recovery export

`stream_recovery_body` of `storage/rows.rs`: the resources without their leases,
the grants and the administrators of a store, under a header that says where
they came from.  A store that loads exports exactly the rows of the state it
loads to, in key order, and reading the export back gives that header and those
rows.
-/

namespace AsterRpc.Coordination

open AsterRpc.Foundation List

/-! ### Streaming -/

/-- `body_error`. -/
def bodyError {α : Type} : Except BodyError α → Except StorageError α
  | .ok a => .ok a
  | .error _ => .error (.corrupt ⟨"snapshot_body", ""⟩)

@[simp] theorem bodyError_eq_ok {α : Type} {x : Except BodyError α} {a : α} :
    bodyError x = .ok a ↔ x = .ok a := by
  cases x <;> simp [bodyError]

/-- A call on the writer whose refusal stops the stream. -/
def framing (called : BodyWriter × Except BodyError Unit) : Except StorageError BodyWriter := do
  bodyError called.2
  .ok called.1

/-- Write the rows of one table. -/
def streamRows (P : BodyProfile) {α : Type} (toRow : α → Except StorageError P.Row) :
    BodyWriter → List α → Except StorageError BodyWriter
  | b, [] => .ok b
  | b, e :: rest => do
    let row ← toRow e
    let b ← framing (P.writeRow b row)
    streamRows P toRow b rest

section

variable (codecs : RowCodecs) (stream : StreamCodecs)

/-- One turn of the loop for the audit tip: the row of the greatest index, not the last key. -/
def exportTip (tip : Option LogIdV1) (e : AuditKey × Bytes) :
    Except StorageError (Option LogIdV1) :=
  if tip.all fun t => e.1.2 > t.index then do
    let wire ← decodePersistedBounded codecs.audit "AuditRowV1" maxAuditRowBytes e.2
    .ok (some ⟨e.1.1, wire.leaderNodeId, e.1.2⟩)
  else .ok tip

def recoveryResource (e : (Bytes × Bytes) × Bytes) : Except StorageError RecoveryBodyRowV1 := do
  let wire ← decodePersistedBounded codecs.resource "ResourceRowV1" maxResourceRowBytes e.2
  .ok (.resource
    { key := ⟨e.1.1, e.1.2⟩
      sourceEpoch := wire.epoch
      ttlMs := wire.ttlMs
      leaseRevision := wire.leaseRevision
      valueRevision := wire.valueRevision
      value := wire.value
      aclRevision := wire.aclRevision })

def recoveryGrant (e : ((Bytes × Bytes) × NodeId) × Rights) :
    Except StorageError RecoveryBodyRowV1 :=
  .ok (.grant ⟨⟨e.1.1.1, e.1.1.2⟩, e.1.2.bytes, e.2⟩)

def recoveryAdmin (node : NodeId) : Except StorageError RecoveryBodyRowV1 :=
  .ok (.admin ⟨node.bytes⟩)

/-- The header of an export. -/
def recoveryHeader (row : CoordinationMetaV1) (tip : Option LogIdV1)
    (resources grants admins : ℕ) : RecoveryHeaderV1 where
  formatVersion := recoveryFormatVersion
  schemaVersion := logicalSchemaVersion
  sourceGroupId := row.groupId
  sourceGenesisHash := row.genesisHash
  sourceAuthorityPublicKey := row.authorityPublicKey
  sourceAuthorityDomain := row.authorityDomain
  sourceLastApplied := row.lastApplied
  sourceMembership := row.membership
  sourceAuditFloor := row.auditFloor
  sourceAuditTip := tip
  sourceAdminRevision := row.adminRevision
  rowCounts := ⟨resources, grants, admins, 0, 0, 0, 0⟩

/-- `stream_recovery_body`. -/
def streamRecoveryBody (db : Database) : Except StorageError (Bytes × RecoveryHeaderV1) := do
  let P := recoveryProfile stream
  let row ← readMeta codecs db
  let tip ← db.audit.toList.foldlM (exportTip codecs) none
  let header := recoveryHeader row tip db.resources.size db.acl.size db.admins.card
  let b ← bodyError (P.newWriter header)
  let b ← framing (P.beginSection b sectionResources)
  let b ← streamRows P (recoveryResource codecs) b db.resources.toList
  let b ← framing (P.beginSection b sectionGrants)
  let b ← streamRows P recoveryGrant b db.acl.toList
  let b ← framing (P.beginSection b sectionAdmins)
  let b ← streamRows P recoveryAdmin b (ascending db.admins)
  let bytes ← bodyError (P.finish b)
  .ok (bytes, header)

end

/-! ### What a state exports -/

def exportedResource (e : ResourceKey × ResourceRow) : RecoveryBodyRowV1 :=
  .resource
    { key := e.1.toWire
      sourceEpoch := e.2.epoch
      ttlMs := e.2.ttlMs
      leaseRevision := e.2.leaseRevision
      valueRevision := e.2.valueRevision
      value := e.2.value
      aclRevision := e.2.aclRevision }

def exportedGrant (e : GrantKey × Rights) : RecoveryBodyRowV1 :=
  .grant ⟨e.1.1.toWire, e.1.2.bytes, e.2⟩

def exportedAdmin (node : NodeId) : RecoveryBodyRowV1 := .admin ⟨node.bytes⟩

/-- The rows of an export of the state. -/
def exportedRows (s : State) : List RecoveryBodyRowV1 :=
  s.resources.toList.map exportedResource ++
    (s.acl.toList.map exportedGrant ++ (ascending s.admins).map exportedAdmin)

/-- The header of an export of the state. -/
def exportedHeader (s : DurableState) : RecoveryHeaderV1 :=
  recoveryHeader (metaToWire s) (s.model.auditTip.map LogId.toWire) s.model.resources.size
    s.model.acl.size s.model.admins.card

/-! ### The stored rows are those of the state -/

section

variable {codecs : RowCodecs}

theorem decodeResource_exported {parts : Bytes × Bytes} {bytes : Bytes}
    {e : ResourceKey × ResourceRow} (h : decodeResource codecs parts bytes = .ok e) :
    recoveryResource codecs (parts, bytes) = .ok (exportedResource e) := by
  have hparts := decodeResource_key h
  simp only [decodeResource, bind_accepts, narrowed_eq_ok] at h
  obtain ⟨_, -, wire, hwire, _, hrow, hok⟩ := h
  cases hok
  simp only [ResourceRow.fromWire, accepts_iff] at hrow
  obtain ⟨_, -, -, hok⟩ := hrow
  cases hok
  simp only [recoveryResource, bind_accepts]
  exact ⟨wire, hwire, by rw [exportedResource, ResourceKey.toWire, ← hparts]; rfl⟩

theorem decodeGrant_exported {raw : (Bytes × Bytes) × NodeId} {rights : Rights}
    {e : GrantKey × Rights} (h : decodeGrant raw rights = .ok e) :
    recoveryGrant (raw, rights) = .ok (exportedGrant e) := by
  have hparts := decodeGrant_key h
  simp only [decodeGrant, accepts_iff] at h
  obtain ⟨_, -, -, rfl⟩ := h
  rw [← hparts]
  rfl

theorem decodeAudit_leader {key : AuditKey} {bytes : Bytes} {e : AuditKey × AuditRow}
    (h : decodeAudit codecs key bytes = .ok e) :
    e.1 = key ∧ ∃ wire, decodePersistedBounded codecs.audit "AuditRowV1" maxAuditRowBytes bytes =
      .ok wire ∧ wire.leaderNodeId = e.2.leaderNodeId.bytes := by
  simp only [decodeAudit, bind_accepts, narrowed_eq_ok] at h
  obtain ⟨wire, hwire, _, hrow, hok⟩ := h
  cases hok
  simp only [AuditRow.fromWire, Wire.nodeId, accepts_iff] at hrow
  obtain ⟨_, -, _, hleader, _, -, _, -, hok⟩ := hrow
  cases hok
  exact ⟨rfl, wire, hwire, (FixedBytes.bytes_of_fromSlice hleader).symm⟩

/-- The log id a row of the trail stands for. -/
def rowLogId (e : AuditKey × AuditRow) : LogId := ⟨e.1.1, e.2.leaderNodeId, e.1.2⟩

/-- Where table order is log order, the exporter finds the tip that the loader finds. -/
theorem exportTip_rebuilt {stored : List (AuditKey × Bytes)} {rows : List (AuditKey × AuditRow)}
    (hdecode : List.Forall₂ (fun e row => decodeAudit codecs e.1 e.2 = .ok row) stored rows)
    (horder : rows.IsChain fun a b => a.1.2 < b.1.2) {best : Option (AuditKey × AuditRow)}
    (hbest : ∀ b ∈ best, ∀ e ∈ rows.head?, b.1.2 < e.1.2) :
    stored.foldlM (exportTip codecs) (best.map fun e => (rowLogId e).toWire) =
      .ok ((rows.foldl laterRow best).map fun e => (rowLogId e).toWire) := by
  induction hdecode generalizing best with
  | nil => rfl
  | @cons e row stored rows hrow _ ih =>
    obtain ⟨hkey, _, hwire, hleader⟩ := decodeAudit_leader hrow
    have hlt : ∀ b ∈ best, b.1.2 < row.1.2 := fun b hb => hbest b hb row rfl
    have hlater : laterRow best row = some row := by
      cases best with
      | none => rfl
      | some b => rw [laterRow, if_pos (Nat.le_of_lt (hlt b rfl))]
    have hnew : exportTip codecs (best.map fun e => (rowLogId e).toWire) e =
        .ok ((some row).map fun e => (rowLogId e).toWire) := by
      have hall : ((best.map fun e => (rowLogId e).toWire).all fun t => e.1.2 > t.index) =
        true := by
        cases best with
        | none => rfl
        | some b => simpa [rowLogId, LogId.toWire, hkey] using hlt b rfl
      rw [exportTip, if_pos hall, hwire, ok_bind, hleader, ← hkey]
      rfl
    rw [foldlM_cons, hnew, ok_bind, foldl_cons, hlater]
    refine ih ?_ ?_
    · exact horder.tail
    · rintro b hb first hfirst
      cases hb
      cases rows with
      | nil => cases hfirst
      | cons =>
        cases hfirst
        exact (isChain_cons_cons.mp horder).1

end

/-! ### The calls of a stream -/

namespace BodyProfile

variable {P : BodyProfile}

theorem acceptedRows_append (b : BodyWriter) (xs ys : List P.WriterCall) :
    (P.acceptedRows b (xs ++ ys)).map Prod.snd = (P.acceptedRows b xs).map Prod.snd ++
      (P.acceptedRows (run call b xs) ys).map Prod.snd := by
  induction xs generalizing b with
  | nil => rfl
  | cons c rest ih =>
    simp [acceptedRows, map_append, ih, run_cons]

theorem acceptedRow_beginSection (b : BodyWriter) (sid : ℕ) :
    P.acceptedRow b (.beginSection sid) = [] := by
  unfold acceptedRow
  split <;> simp_all

/-- A row that was not refused was written. -/
theorem acceptedRow_row {b : BodyWriter} {row : P.Row} (h : (P.writeRow b row).2 = .ok ()) :
    (P.acceptedRow b (.row row)).map Prod.snd = [row] := by
  have hcall : (call b (.row row) : BodyWriter × Except BodyError Unit).2 = .ok () := h
  cases hcheck : P.checkRow b row with
  | error =>
    rw [writeRow, hcheck] at h
    cases h
  | ok =>
    simp only [checkRow, accepts_iff] at hcheck
    obtain ⟨s, hopen, -⟩ := hcheck
    simp [acceptedRow, hcall, hopen]

end BodyProfile

open BodyProfile

theorem framing_eq_ok {called : BodyWriter × Except BodyError Unit} {b : BodyWriter} :
    framing called = .ok b ↔ called.2 = .ok () ∧ called.1 = b := by
  simp only [framing, accepts_iff, bodyError_eq_ok]

/-- Streaming the rows of a table is one call for each. -/
theorem streamRows_eq_ok {P : BodyProfile} {α : Type} {toRow : α → Except StorageError P.Row}
    {b b' : BodyWriter} {es : List α} (h : streamRows P toRow b es = .ok b') :
    ∃ rows, List.Forall₂ (fun e row => toRow e = .ok row) es rows ∧
      run call b (rows.map WriterCall.row) = b' ∧
      (P.acceptedRows b (rows.map .row)).map Prod.snd = rows := by
  induction es generalizing b with
  | nil =>
    cases h
    exact ⟨[], .nil, rfl, rfl⟩
  | cons e rest ih =>
    simp only [streamRows, bind_accepts, framing_eq_ok] at h
    obtain ⟨row, hrow, _, ⟨hok, rfl⟩, hrest⟩ := h
    obtain ⟨rows, hrows, hrun, hacc⟩ := ih hrest
    refine ⟨row :: rows, .cons hrow hrows, hrun, ?_⟩
    rw [map_cons, acceptedRows, map_append, acceptedRow_row hok]
    exact congrArg (row :: ·) hacc

/-- Streaming a table with its section. -/
theorem streamSection_eq_ok {P : BodyProfile} {α : Type} {toRow : α → Except StorageError P.Row}
    {b b₁ b₂ : BodyWriter} {sid : ℕ} {es : List α}
    (hbegin : framing (P.beginSection b sid) = .ok b₁)
    (hrows : streamRows P toRow b₁ es = .ok b₂) :
    ∃ rows, List.Forall₂ (fun e row => toRow e = .ok row) es rows ∧
      run call b (.beginSection sid :: rows.map .row) = b₂ ∧
      (P.acceptedRows b (.beginSection sid :: rows.map .row)).map Prod.snd = rows := by
  obtain ⟨-, rfl⟩ := framing_eq_ok.mp hbegin
  obtain ⟨rows, hall, hrun, hacc⟩ := streamRows_eq_ok hrows
  refine ⟨rows, hall, hrun, ?_⟩
  rw [acceptedRows, acceptedRow_beginSection, nil_append]
  exact hacc

/-! ### The export of a store that loads -/

/-- `Collect` of `storage/import.rs`. -/
structure Collect where
  header : Option RecoveryHeaderV1
  rows : List RecoveryBodyRowV1

def collect (stream : StreamCodecs) : BodyVisitor (recoveryProfile stream) Collect where
  header := fun c header => .ok { c with header := some header }
  row := fun c _ (row : RecoveryBodyRowV1) => .ok { c with rows := c.rows ++ [row] }

theorem visitRows_collect {stream : StreamCodecs} (c : Collect)
    (rows : List (ℕ × RecoveryBodyRowV1)) :
    visitRows (collect stream) c rows =
      .ok { c with rows := c.rows ++ rows.map Prod.snd } := by
  induction rows generalizing c with
  | nil =>
    rw [map_nil, append_nil]
    rfl
  | cons row rest ih =>
    have hnext : visitRows (collect stream) c (row :: rest) =
        visitRows (collect stream) { c with rows := c.rows ++ [row.2] } rest := rfl
    refine hnext.trans ((ih _).trans ?_)
    rw [append_assoc, map_cons, singleton_append]

theorem forall₂_map_eq {α β γ : Type} {f : α → Except StorageError β} {g : γ → β}
    {R : α → γ → Prop} (hR : ∀ a c, R a c → f a = .ok (g c)) {as : List α} {bs : List β}
    {cs : List γ} (hf : List.Forall₂ (fun a b => f a = .ok b) as bs) (hr : List.Forall₂ R as cs) :
    bs = cs.map g := by
  have hread := narrowAll_eq_ok.mpr hf
  rw [narrowAll_eq_ok.mpr (forall₂_map_right_iff.mpr (hr.imp hR))] at hread
  exact (Except.ok.inj hread).symm

section

variable {codecs : RowCodecs} {stream : StreamCodecs} {ext : Externals} {db : Database}
  {s : DurableState}

/-- The rows of each exported table, in the order they are stored. -/
theorem stored_toList (hstored : Stored codecs db s) :
    List.Forall₂ (fun e row => decodeResource codecs e.1 e.2 = .ok row)
        db.resources.toList s.model.resources.toList ∧
      List.Forall₂ (fun e row => decodeGrant e.1 e.2 = .ok row)
        db.acl.toList s.model.acl.toList ∧
      List.Forall₂ (fun e row => decodeAudit codecs e.1 e.2 = .ok row)
        db.audit.toList s.model.audit.toList := by
  refine ⟨hstored.resources.toList ?_ fun _ _ _ _ => decodeResource_key,
    hstored.acl.toList ?_ fun _ _ _ _ => decodeGrant_key,
    hstored.audit.toList ?_ fun _ _ _ _ => decodeAudit_key⟩
  · exact fun _ _ => rfl
  · exact fun _ _ => rfl
  · exact fun _ _ => rfl

/-- The exporter's tip is that of the state. -/
theorem exportTip_loaded (hstored : Stored codecs db s)
    (htip : s.model.auditTip = rebuildAuditTip s.model.audit) (hvalid : validate ext s = .ok ()) :
    db.audit.toList.foldlM (exportTip codecs) none =
      .ok (s.model.auditTip.map LogId.toWire) := by
  have hchain : s.model.audit.toList.IsChain fun a b => a.1.2 < b.1.2 := by
    simpa [checkAuditKeyOrder] using (validate_eq_ok.mp hvalid).2.order
  have hnone : ∀ b ∈ (none : Option (AuditKey × AuditRow)),
      ∀ e ∈ s.model.audit.toList.head?, b.1.2 < e.1.2 := by simp
  refine (exportTip_rebuilt (stored_toList hstored).2.2 hchain hnone).trans ?_
  rw [htip, rebuildAuditTip, Option.map_map]
  rfl

/-- The exporter's header is that of the state. -/
theorem recoveryHeader_loaded (hstored : Stored codecs db s) {row : CoordinationMetaV1}
    (hrow : readMeta codecs db = .ok row) :
    recoveryHeader row (s.model.auditTip.map LogId.toWire) db.resources.size db.acl.size
      db.admins.card = exportedHeader s := by
  obtain ⟨hrows, hacl, -⟩ := stored_toList hstored
  obtain ⟨_, hrow', hmeta⟩ := hstored.coordinationMeta
  rw [hrow] at hrow'
  cases hrow'
  have hwire : metaToWire s.withoutRows = row := metaFromWire_row hmeta
  have hrow' : metaToWire s = row := hwire
  rw [exportedHeader, hrow', hstored.admins, ← Std.ExtTreeMap.length_toList,
    ← Std.ExtTreeMap.length_toList, ← Std.ExtTreeMap.length_toList, ← Std.ExtTreeMap.length_toList,
    hrows.length_eq, hacl.length_eq]

/-- **The export of a store that loads** has the header and the rows of the state it loads to, and
reading it back gives them. -/
theorem streamRecoveryBody_loaded (hload : load codecs ext db = .ok s)
    (hround : (recoveryProfile stream).RoundTrips) {bytes : Bytes} {header : RecoveryHeaderV1}
    (h : streamRecoveryBody codecs stream db = .ok (bytes, header)) :
    header = exportedHeader s ∧ readBody (collect stream) ⟨none, []⟩ bytes =
      .ok ⟨some header, exportedRows s.model⟩ := by
  obtain ⟨hstored, htip, hvalid⟩ := load_eq_ok.mp hload
  obtain ⟨hresources, hacl, -⟩ := stored_toList hstored
  simp only [streamRecoveryBody, accepts_iff, bodyError_eq_ok, exportTip_loaded hstored htip hvalid,
    exists_eq_left'] at h
  obtain ⟨_, hrow, _, hnew, _, h₁, _, h₂, _, h₃, _, h₄, _, h₅, _, h₆, _, hfinish,
    hok⟩ := h
  obtain ⟨rfl, rfl⟩ := Prod.mk.inj hok
  rw [recoveryHeader_loaded hstored hrow] at hnew ⊢
  refine ⟨rfl, ?_⟩
  -- the rows written, table by table
  obtain ⟨resources, hall₁, hrun₁, hacc₁⟩ := streamSection_eq_ok h₁ h₂
  obtain ⟨grants, hall₂, hrun₂, hacc₂⟩ := streamSection_eq_ok h₃ h₄
  obtain ⟨admins, hall₃, hrun₃, hacc₃⟩ := streamSection_eq_ok h₅ h₆
  have hwrote₁ : resources = s.model.resources.toList.map exportedResource :=
    forall₂_map_eq (fun _ _ h => decodeResource_exported h) hall₁ hresources
  have hwrote₂ : grants = s.model.acl.toList.map exportedGrant :=
    forall₂_map_eq (fun _ _ h => decodeGrant_exported h) hall₂ hacl
  have hwrote₃ : admins = (ascending db.admins).map exportedAdmin :=
    forall₂_map_eq (fun a c (h : a = c) => by rw [h]; rfl) hall₃ (forall₂_refl _)
  -- the calls in one run
  subst hrun₁ hrun₂ hrun₃
  rw [← run_append, ← run_append] at hfinish
  have hread := (canonical_of_roundTrips hround).reads _ _ _ _ hnew hfinish
    (collect stream) ⟨none, []⟩
  refine hread.trans ((visitRows_collect _ _).trans ?_)
  have hrows := (acceptedRows_append _ _ _).trans
    (congrArg₂ (· ++ ·) (hacc₁.trans hwrote₁)
      ((acceptedRows_append _ _ _).trans
        (congrArg₂ (· ++ ·) (hacc₂.trans hwrote₂) (hacc₃.trans hwrote₃))))
  rw [hstored.admins] at hrows
  exact congrArg (fun rows => Except.ok (Collect.mk (some (exportedHeader s)) rows)) hrows

end

end AsterRpc.Coordination

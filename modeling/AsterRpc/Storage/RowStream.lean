import AsterRpc.Foundation.Varint
import AsterRpc.Storage.Store

/-!
# Row streams

`rowstream.rs`: the body of a snapshot and of a recovery export.  A body is a
header and then sections of rows, every header and row in a frame of its own
length.  The two kinds of body differ in their header, their rows and the
sections they carry; `BodyProfile` is what the framing needs to know of either,
and the writer and the reader are written once over it.

The sink is the bytes written so far and the source the bytes still to be read;
neither fails of its own, so the I/O error of the source is left out.
-/

namespace AsterRpc.Coordination

open AsterRpc.Foundation

/-! ### Sections -/

def sectionResources : ℕ := 1
def sectionGrants : ℕ := 2
def sectionAdmins : ℕ := 3
def sectionSessions : ℕ := 4
def sectionIntents : ℕ := 5
def sectionRoutes : ℕ := 6
def sectionAudit : ℕ := 7

def maxHeaderBytes : ℕ := 64 * 1024
def snapshotFormatVersion : ℕ := 1
def recoveryFormatVersion : ℕ := 1
def recoverySchemaVersion : ℕ := 1

structure SectionLimits where
  maxRows : ℕ
  maxRowBytes : ℕ

/-- `limits`: the rows of a section and the bytes of each. -/
def limits (sid : ℕ) : Option SectionLimits :=
  if sid = sectionResources then some ⟨maxResourcesPerGroup, 128 * 1024⟩
  else if sid = sectionGrants then some ⟨maxAclRowsPerGroup, 2 * 1024⟩
  else if sid = sectionAdmins then some ⟨maxAdminsPerGroup, 256⟩
  else if sid = sectionSessions then
    some ⟨maxActiveClientsPerGroup + maxRetainedSessionsPerGroup, 4 * 1024⟩
  else if sid = sectionIntents then some ⟨maxIntentRows, 64 * 1024⟩
  else if sid = sectionRoutes then some ⟨maxRetainedRoutes, 16 * 1024⟩
  else if sid = sectionAudit then some ⟨maxAuditRows, 2 * 1024⟩
  else none

structure RowCountsV1 where
  resources : ℕ
  grants : ℕ
  admins : ℕ
  sessions : ℕ
  intents : ℕ
  routes : ℕ
  audit : ℕ
deriving DecidableEq

/-- `RowCountsV1::get`. -/
def RowCountsV1.get (c : RowCountsV1) (sid : ℕ) : Option ℕ :=
  if sid = sectionResources then some c.resources
  else if sid = sectionGrants then some c.grants
  else if sid = sectionAdmins then some c.admins
  else if sid = sectionSessions then some c.sessions
  else if sid = sectionIntents then some c.intents
  else if sid = sectionRoutes then some c.routes
  else if sid = sectionAudit then some c.audit
  else none

/-! ### Errors -/

inductive BodyError where
  | nonMinimalVarint
  | varintOverflow
  | truncated
  | headerTooLarge (declared : ℕ)
  | sectionOutOfOrder (got previous : ℕ)
  | illegalSection (sid : ℕ)
  | rowCountTooLarge (sid declared max : ℕ)
  | rowTooLarge (sid declared max : ℕ)
  | wrongSectionForRow (sid : ℕ)
  | rowsOutOfOrder
  | unknownVariant
  | headerCountMismatch (sid declared actual : ℕ)
  | incompleteProfile (expected got : List ℕ)
  | noOpenSection
  | invalidRow (detail : String)
  | invalidHeader (detail : String)
  | noncanonicalHeader
  | noncanonicalRow (sid : ℕ)
  | unsupportedVersion (field : String) (declared supported : ℕ)
  | decode
  | encode
deriving DecidableEq

def BodyError.ofVarint : VarintError → BodyError
  | .nonMinimal => .nonMinimalVarint
  | .overflow => .varintOverflow
  | .truncated => .truncated

/-! ### Headers -/

structure SnapshotHeaderV1 where
  formatVersion : ℕ
  schemaVersion : ℕ
  coordinationMeta : CoordinationMetaV1
  rowCounts : RowCountsV1
deriving DecidableEq

structure RecoveryHeaderV1 where
  formatVersion : ℕ
  schemaVersion : ℕ
  sourceGroupId : Bytes
  sourceGenesisHash : Bytes
  sourceAuthorityPublicKey : Bytes
  sourceAuthorityDomain : Bytes
  sourceLastApplied : Option LogIdV1
  sourceMembership : StoredMembershipV1
  sourceAuditFloor : Option LogIdV1
  sourceAuditTip : Option LogIdV1
  sourceAdminRevision : ℕ
  rowCounts : RowCountsV1
deriving DecidableEq

/-- `RecoveryHeaderV1::validate`. -/
def RecoveryHeaderV1.validate (h : RecoveryHeaderV1) : Except BodyError Unit := do
  refuseIf (h.formatVersion != recoveryFormatVersion)
    (.unsupportedVersion "format_version" h.formatVersion recoveryFormatVersion)
  refuseIf (h.schemaVersion != recoverySchemaVersion)
    (.unsupportedVersion "schema_version" h.schemaVersion recoverySchemaVersion)
  refuseIf (h.sourceGroupId.length != 32) (.invalidHeader "source group id must be 32 bytes")
  refuseIf (h.sourceGenesisHash.length != 32)
    (.invalidHeader "source genesis hash must be 32 bytes")
  refuseIf (h.sourceAuthorityPublicKey.length != 32)
    (.invalidHeader "source authority public key must be 32 bytes")
  refuseIf (h.sourceAuthorityDomain.isEmpty ||
      h.sourceAuthorityDomain.length > maxAuthorityDomainBytes)
    (.invalidHeader "source authority domain width")
  refuseIf (h.rowCounts.sessions != 0 || h.rowCounts.intents != 0 || h.rowCounts.routes != 0 ||
      h.rowCounts.audit != 0)
    (.invalidHeader "a recovery export declares no sessions, intents, routes, or audit rows")

/-! ### Rows -/

structure SnapshotResourceRowV1 where
  key : ResourceKeyV1
  epoch : ℕ
  held : Bool
  holderNodeId : Option Bytes
  ttlMs : ℕ
  leaseRevision : ℕ
  valueRevision : ℕ
  value : Bytes
  aclRevision : ℕ
deriving DecidableEq

/-- A row that cannot say who holds it. -/
structure RecoveryResourceRowV1 where
  key : ResourceKeyV1
  sourceEpoch : ℕ
  ttlMs : ℕ
  leaseRevision : ℕ
  valueRevision : ℕ
  value : Bytes
  aclRevision : ℕ
deriving DecidableEq

structure GrantRowV1 where
  key : ResourceKeyV1
  subjectNodeId : Bytes
  rights : Rights
deriving DecidableEq

structure AdminRowV1 where
  subjectNodeId : Bytes
deriving DecidableEq

structure SessionRowV1 where
  actorNodeId : Bytes
  clientId : Bytes
  session : ClientSessionV1
deriving DecidableEq

structure IntentRowV1 where
  operationId : Bytes
  intent : MembershipIntentV1
deriving DecidableEq

structure RouteRowV1 where
  nodeId : Bytes
  ticketBytes : Bytes
  sourceOperationId : Bytes
  introducedLogId : LogIdV1
deriving DecidableEq

structure AuditStreamRowV1 where
  logTerm : ℕ
  logIndex : ℕ
  row : AuditRowV1
deriving DecidableEq

inductive SnapshotBodyRowV1 where
  | resource (row : SnapshotResourceRowV1)
  | grant (row : GrantRowV1)
  | admin (row : AdminRowV1)
  | session (row : SessionRowV1)
  | intent (row : IntentRowV1)
  | route (row : RouteRowV1)
  | audit (row : AuditStreamRowV1)
  | unknown (payload : Bytes)
deriving DecidableEq

inductive RecoveryBodyRowV1 where
  | resource (row : RecoveryResourceRowV1)
  | grant (row : GrantRowV1)
  | admin (row : AdminRowV1)
  | unknown (payload : Bytes)
deriving DecidableEq

/-- The key rows are ordered by: compared component by component, each bytewise. -/
abbrev OrderKey := List Bytes

/-- `u64::to_be_bytes`. -/
def toBeBytes (n : ℕ) : Bytes := (List.range 8).map fun i => UInt8.ofNat (n / 256 ^ (7 - i))

namespace SnapshotBodyRowV1

def sectionOf : SnapshotBodyRowV1 → Option ℕ
  | resource _ => some sectionResources
  | grant _ => some sectionGrants
  | admin _ => some sectionAdmins
  | session _ => some sectionSessions
  | intent _ => some sectionIntents
  | route _ => some sectionRoutes
  | audit _ => some sectionAudit
  | unknown _ => none

def orderKey : SnapshotBodyRowV1 → OrderKey
  | resource r => [r.key.ns, r.key.key]
  | grant r => [r.key.ns, r.key.key, r.subjectNodeId]
  | admin r => [r.subjectNodeId]
  | session r => [r.actorNodeId, r.clientId]
  | intent r => [r.operationId]
  | route r => [r.nodeId]
  | audit r => [toBeBytes r.logTerm, toBeBytes r.logIndex]
  | unknown _ => []

end SnapshotBodyRowV1

namespace RecoveryBodyRowV1

def sectionOf : RecoveryBodyRowV1 → Option ℕ
  | resource _ => some sectionResources
  | grant _ => some sectionGrants
  | admin _ => some sectionAdmins
  | unknown _ => none

def orderKey : RecoveryBodyRowV1 → OrderKey
  | resource r => [r.key.ns, r.key.key]
  | grant r => [r.key.ns, r.key.key, r.subjectNodeId]
  | admin r => [r.subjectNodeId]
  | unknown _ => []

end RecoveryBodyRowV1

/-! ### What a row must be -/

/-- `RIGHTS_MASK`. -/
def rightsMask : Rights := 0x3f

def checkNodeId (bytes : Bytes) : Except BodyError Unit :=
  refuseIf (bytes.length != 32) (.invalidRow "node id must be 32 bytes")

/-- `check_resource_key` of the stream: widths only. -/
def checkResourceKeyWidths (k : ResourceKeyV1) : Except BodyError Unit := do
  refuseIf (k.ns.isEmpty || k.ns.length > maxNamespace) (.invalidRow "namespace width")
  refuseIf (k.key.isEmpty || k.key.length > maxKey) (.invalidRow "resource key width")

def checkValueWidth (value : Bytes) : Except BodyError Unit :=
  refuseIf (value.length > maxValue) (.invalidRow "value width")

def checkGrantRow (row : GrantRowV1) : Except BodyError Unit := do
  checkResourceKeyWidths row.key
  checkNodeId row.subjectNodeId
  refuseIf (row.rights &&& ~~~rightsMask != 0) (.invalidRow "unknown rights bits")

/-- `validate_snapshot_row`. -/
def validateSnapshotRow : SnapshotBodyRowV1 → Except BodyError Unit
  | .resource x => do
    checkResourceKeyWidths x.key
    checkValueWidth x.value
    match x.holderNodeId, x.held with
    | some holder, _ => checkNodeId holder
    | none, true => .error (.invalidRow "held with no holder")
    | none, false => .ok ()
  | .grant x => checkGrantRow x
  | .admin x => checkNodeId x.subjectNodeId
  | .session x => do
    checkNodeId x.actorNodeId
    refuseIf (x.clientId.length != 16) (.invalidRow "client id must be 16 bytes")
    refuseIf (x.session.requestHash.length != 32 && !x.session.requestHash.isEmpty)
      (.invalidRow "request hash width")
  | .intent x => do
    refuseIf (x.operationId.length != 16) (.invalidRow "operation id must be 16 bytes")
    checkNodeId x.intent.actorNodeId
  | .route x => checkNodeId x.nodeId
  | .audit x => do
    checkNodeId x.row.leaderNodeId
    checkOption checkNodeId x.row.actorNodeId
    checkOption checkResourceKeyWidths x.row.resource
  | .unknown _ => .error .unknownVariant

/-- `validate_recovery_row`. -/
def validateRecoveryRow : RecoveryBodyRowV1 → Except BodyError Unit
  | .resource x => do
    checkResourceKeyWidths x.key
    checkValueWidth x.value
  | .grant x => checkGrantRow x
  | .admin x => checkNodeId x.subjectNodeId
  | .unknown _ => .error .unknownVariant

/-! ### The two kinds of body -/

/-- `BodyRow` and `BodyHeader`: what the framing needs of a kind of body. -/
structure BodyProfile where
  Header : Type
  Row : Type
  header : ForyCodec Header
  row : ForyCodec Row
  rowCounts : Header → RowCountsV1
  validateHeader : Header → Except BodyError Unit
  sectionOf : Row → Option ℕ
  orderKey : Row → OrderKey
  legalSections : List ℕ
  validate : Row → Except BodyError Unit

/-- The Fory runtimes of the stream roots. -/
structure StreamCodecs where
  snapshotHeader : ForyCodec SnapshotHeaderV1
  snapshotRow : ForyCodec SnapshotBodyRowV1
  recoveryHeader : ForyCodec RecoveryHeaderV1
  recoveryRow : ForyCodec RecoveryBodyRowV1

/-- A snapshot body; its header is validated where it is installed. -/
def snapshotProfile (codecs : StreamCodecs) : BodyProfile where
  Header := SnapshotHeaderV1
  Row := SnapshotBodyRowV1
  header := codecs.snapshotHeader
  row := codecs.snapshotRow
  rowCounts := SnapshotHeaderV1.rowCounts
  validateHeader := fun _ => .ok ()
  sectionOf := SnapshotBodyRowV1.sectionOf
  orderKey := SnapshotBodyRowV1.orderKey
  legalSections := [sectionResources, sectionGrants, sectionAdmins, sectionSessions,
    sectionIntents, sectionRoutes, sectionAudit]
  validate := validateSnapshotRow

/-- A recovery export. -/
def recoveryProfile (codecs : StreamCodecs) : BodyProfile where
  Header := RecoveryHeaderV1
  Row := RecoveryBodyRowV1
  header := codecs.recoveryHeader
  row := codecs.recoveryRow
  rowCounts := RecoveryHeaderV1.rowCounts
  validateHeader := RecoveryHeaderV1.validate
  sectionOf := RecoveryBodyRowV1.sectionOf
  orderKey := RecoveryBodyRowV1.orderKey
  legalSections := [sectionResources, sectionGrants, sectionAdmins]
  validate := validateRecoveryRow

/-! ### The writer -/

/-- An open section: its id, the rows it declared and the rows written. -/
structure OpenSection where
  sid : ℕ
  declared : ℕ
  written : ℕ

structure BodyWriter where
  w : Bytes
  headerCounts : RowCountsV1
  previousSection : ℕ
  opened : Option OpenSection
  lastKey : Option OrderKey
  emitted : List ℕ

/-- The length of a header or a row, and then its bytes. -/
def frame (bytes : Bytes) : Bytes := writeVarint bytes.length ++ bytes

namespace BodyProfile

variable (P : BodyProfile)

/-- `BodyWriter::new`. -/
def newWriter (header : P.Header) : Except BodyError BodyWriter := do
  P.validateHeader header
  let enc ← requireSome (P.header.serialize header) .encode
  refuseIf (enc.length > maxHeaderBytes) (.headerTooLarge enc.length)
  .ok ⟨frame enc, P.rowCounts header, 0, none, none, []⟩

/-- `end_section`: the section is closed even if it ran short. -/
def endSection (b : BodyWriter) : BodyWriter × Except BodyError Unit :=
  match b.opened with
  | none => (b, .ok ())
  | some s =>
    if s.declared ≠ s.written then
      ({ b with opened := none }, .error (.headerCountMismatch s.sid s.declared s.written))
    else ({ b with opened := none, emitted := b.emitted ++ [s.sid] }, .ok ())

/-- The checks of `begin_section`, and the rows the section declares. -/
def checkSection (b : BodyWriter) (sid : ℕ) : Except BodyError ℕ := do
  refuseIf (sid ≤ b.previousSection) (.sectionOutOfOrder sid b.previousSection)
  refuseIf (!P.legalSections.contains sid) (.illegalSection sid)
  let declared ← requireSome (b.headerCounts.get sid) (.illegalSection sid)
  let lim ← requireSome (limits sid) (.illegalSection sid)
  refuseIf (declared > lim.maxRows) (.rowCountTooLarge sid declared lim.maxRows)
  .ok declared

/-- `begin_section`. -/
def beginSection (b : BodyWriter) (sid : ℕ) : BodyWriter × Except BodyError Unit :=
  match endSection b with
  | (b, .error e) => (b, .error e)
  | (b, .ok ()) =>
    match P.checkSection b sid with
    | .error e => (b, .error e)
    | .ok declared =>
      ({ b with
          previousSection := sid
          lastKey := none
          w := b.w ++ (writeVarint sid ++ writeVarint declared)
          opened := some ⟨sid, declared, 0⟩ }, .ok ())

/-- The checks of `row`, and what they find: the open section and the encoded row. -/
def checkRow (b : BodyWriter) (row : P.Row) : Except BodyError (OpenSection × Bytes) := do
  let s ← requireSome b.opened .noOpenSection
  refuseIf (P.sectionOf row != some s.sid) (.wrongSectionForRow s.sid)
  refuseIf (s.written + 1 > s.declared) (.headerCountMismatch s.sid s.declared (s.written + 1))
  P.validate row
  refuseIf (b.lastKey.any fun prev => (compare (P.orderKey row) prev).isLE) .rowsOutOfOrder
  let lim ← requireSome (limits s.sid) (.illegalSection s.sid)
  let enc ← requireSome (P.row.serialize row) .encode
  refuseIf (enc.length > lim.maxRowBytes) (.rowTooLarge s.sid enc.length lim.maxRowBytes)
  .ok (s, enc)

/-- `row`. -/
def writeRow (b : BodyWriter) (row : P.Row) : BodyWriter × Except BodyError Unit :=
  match P.checkRow b row with
  | .error e => (b, .error e)
  | .ok (s, enc) =>
    ({ b with
        lastKey := some (P.orderKey row)
        w := b.w ++ frame enc
        opened := some { s with written := s.written + 1 } }, .ok ())

/-- `finish`: the whole profile, every section once. -/
def finish (b : BodyWriter) : Except BodyError Bytes :=
  match endSection b with
  | (_, .error e) => .error e
  | (b, .ok ()) => do
    refuseIf (b.emitted != P.legalSections) (.incompleteProfile P.legalSections b.emitted)
    .ok b.w

/-- A call on an open writer. -/
inductive WriterCall where
  | beginSection (sid : ℕ)
  | row (row : P.Row)

variable {P} in
/-- What a call does, and whether it was refused; a refusal does not close the writer. -/
def call (b : BodyWriter) : P.WriterCall → BodyWriter × Except BodyError Unit
  | .beginSection sid => P.beginSection b sid
  | .row row => P.writeRow b row

/-- The body that a header and a list of calls leave behind. -/
def writeBody (header : P.Header) (calls : List P.WriterCall) : Except BodyError Bytes := do
  let b ← P.newWriter header
  P.finish (run call b calls)

/-- The row that a call got written, if any, with the section it went to. -/
def acceptedRow (b : BodyWriter) (c : P.WriterCall) : List (ℕ × P.Row) :=
  match c, (call b c).2, b.opened with
  | .row row, .ok (), some s => [(s.sid, row)]
  | _, _, _ => []

/-- The rows that a list of calls got written. -/
def acceptedRows (b : BodyWriter) : List P.WriterCall → List (ℕ × P.Row)
  | [] => []
  | c :: rest => P.acceptedRow b c ++ acceptedRows (call b c).1 rest

end BodyProfile

/-! ### The reader -/

/-- `BodyVisitor`: what is done with the header and with each row. -/
structure BodyVisitor (P : BodyProfile) (σ : Type) where
  header : σ → P.Header → Except BodyError σ
  row : σ → ℕ → P.Row → Except BodyError σ

/-- `read_varint`. -/
def streamVarint (r : Bytes) : Except BodyError (ℕ × Bytes) :=
  (readVarint r).mapError BodyError.ofVarint

/-- `read_varint_boundary`. -/
def streamVarintBoundary (r : Bytes) : Except BodyError (Option (ℕ × Bytes)) :=
  (readVarintBoundary r).mapError BodyError.ofVarint

/-- `read_exact`. -/
def readExact (n : ℕ) (r : Bytes) : Except BodyError (Bytes × Bytes) := do
  refuseIf (r.length < n) .truncated
  .ok (r.take n, r.drop n)

namespace BodyProfile

variable (P : BodyProfile) {σ : Type} (v : BodyVisitor P σ)

/-- The header frame; its bytes must be what the header encodes to. -/
def readHeader (r : Bytes) : Except BodyError (P.Header × Bytes) := do
  let (hlen, r) ← streamVarint r
  refuseIf (hlen > maxHeaderBytes) (.headerTooLarge hlen)
  let (hbuf, r) ← readExact hlen r
  let header ← requireSome (P.header.deserialize hbuf) .decode
  let enc ← requireSome (P.header.serialize header) .encode
  refuseIf (enc != hbuf) .noncanonicalHeader
  P.validateHeader header
  .ok (header, r)

/-- One row frame of a section. -/
def readRow (sid : ℕ) (lim : SectionLimits) (lastKey : Option OrderKey) (r : Bytes) :
    Except BodyError (P.Row × Bytes) := do
  let (rlen, r) ← streamVarint r
  refuseIf (rlen > lim.maxRowBytes) (.rowTooLarge sid rlen lim.maxRowBytes)
  let (buf, r) ← readExact rlen r
  let row ← requireSome (P.row.deserialize buf) .decode
  let enc ← requireSome (P.row.serialize row) .encode
  refuseIf (enc != buf) (.noncanonicalRow sid)
  let sec ← requireSome (P.sectionOf row) .unknownVariant
  refuseIf (sec != sid) (.wrongSectionForRow sid)
  P.validate row
  refuseIf (lastKey.any fun prev => (compare (P.orderKey row) prev).isLE) .rowsOutOfOrder
  .ok (row, r)

variable {P}

/-- The rows of a section, as many as it declared.  The source counts them again afterwards; the
count is that of its own loop. -/
def readRows (sid : ℕ) (lim : SectionLimits) :
    ℕ → Option OrderKey → σ → Bytes → Except BodyError (σ × Bytes)
  | 0, _, s, r => .ok (s, r)
  | n + 1, lastKey, s, r => do
    let (row, r) ← P.readRow sid lim lastKey r
    let s ← v.row s sid row
    readRows sid lim n (some (P.orderKey row)) s r

/-- One section after its id. -/
def readSection (header : P.Header) (previous sid : ℕ) (s : σ) (r : Bytes) :
    Except BodyError (σ × Bytes) := do
  refuseIf (sid ≤ previous) (.sectionOutOfOrder sid previous)
  refuseIf (!P.legalSections.contains sid) (.illegalSection sid)
  let lim ← requireSome (limits sid) (.illegalSection sid)
  let (declared, r) ← streamVarint r
  refuseIf (declared > lim.maxRows) (.rowCountTooLarge sid declared lim.maxRows)
  let promised ← requireSome ((P.rowCounts header).get sid) (.illegalSection sid)
  refuseIf (promised != declared) (.headerCountMismatch sid promised declared)
  readRows v sid lim declared none s r

/-- The sections up to the end of the input.  Every section takes at least the byte of its id, so
fuel beyond the length of the input does not run out. -/
def readSections (header : P.Header) :
    ℕ → ℕ → List ℕ → σ → Bytes → Except BodyError (List ℕ × σ)
  | 0, _, _, _, _ => .error .truncated
  | fuel + 1, previous, seen, s, r => do
    match ← streamVarintBoundary r with
    | none => .ok (seen, s)
    | some (sid, r) =>
      let (s, r) ← readSection v header previous sid s r
      readSections header fuel sid (seen ++ [sid]) s r

/-- `read_body`. -/
def readBody (s : σ) (r : Bytes) : Except BodyError σ := do
  let (header, r) ← P.readHeader r
  let s ← v.header s header
  let (seen, s) ← readSections v header (r.length + 1) 0 [] s r
  refuseIf (seen != P.legalSections) (.incompleteProfile P.legalSections seen)
  .ok s

end BodyProfile

end AsterRpc.Coordination

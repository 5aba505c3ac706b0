import AsterRpc.Foundation.Persist
import AsterRpc.Storage.Meta

/-!
# The store

`commit` and `load` of `storage/rows.rs` over the tables of `state.redb`, and
`apply` of `storage/machine.rs` around them.  A table maps raw keys to encoded
rows; one batch is one transaction.  `Stored` says that the tables decode to the
rows of a state, and everything that is committed and reopened goes through it.
-/

namespace AsterRpc.Coordination

open AsterRpc.Foundation

/-! ### Ceilings -/

def rowFramingAllowance : ℕ := 1024
def maxResourceRowBytes : ℕ := maxValue + 32 + rowFramingAllowance
def maxSessionRowBytes : ℕ := 32 + 32 + maxRowKey + 32 + 16 + 32 + rowFramingAllowance
def maxIntentRowBytes : ℕ := maxEncodedCommand + 32 + 32 + 4 * 32 + rowFramingAllowance
def maxRouteRowBytes : ℕ := maxTicket + 16 + 32 + rowFramingAllowance
def maxAuditRowBytes : ℕ := 32 + 32 + maxRowKey + rowFramingAllowance
def maxCoordinationMetaBytes : ℕ := 16 * 1024

/-! ### Encoded values -/

/-- The Fory runtimes of the persisted roots. -/
structure RowCodecs where
  resource : ForyCodec ResourceRowV1
  session : ForyCodec ClientSessionV1
  intent : ForyCodec MembershipIntentV1
  route : ForyCodec NodeRouteV1
  audit : ForyCodec AuditRowV1
  coordinationMeta : ForyCodec CoordinationMetaV1

/-- `encode_committed`. -/
def encodeCommitted {α : Type} (codec : ForyCodec α) (what : String) (maxBytes : ℕ) (value : α) :
    Except StorageError Bytes := do
  let refusal := .corrupt ⟨what, "failed to encode the result of an already-committed entry"⟩
  let bytes ← requireSome (codec.serialize value) refusal
  refuseIf (bytes.length > maxBytes) refusal
  .ok bytes

/-- `decode_persisted_bounded`. -/
def decodePersistedBounded {α : Type} (codec : ForyCodec α) (what : String) (maxBytes : ℕ)
    (bytes : Bytes) : Except StorageError α := do
  refuseIf (bytes.length > maxBytes) (.corrupt ⟨what, "stored value over the ceiling"⟩)
  requireSome (codec.deserialize bytes) (.corrupt ⟨what, ""⟩)

/-- A row that does not narrow is corruption. -/
def narrowed {α : Type} (what : String) : Except WireError α → Except StorageError α
  | .ok a => .ok a
  | .error _ => .error (.corrupt ⟨what, ""⟩)

@[simp] theorem narrowed_eq_ok {α : Type} {what : String} {x : Except WireError α} {a : α} :
    narrowed what x = .ok a ↔ x = .ok a := by
  cases x <;> simp [narrowed]

/-- The raw form of a resource key, and what reading it demands. -/
def storedKey (what : String) (parts : Bytes × Bytes) : Except StorageError ResourceKey :=
  match ResourceKey.new parts.1 parts.2 with
  | .ok key => .ok key
  | .error _ => .error (.corrupt ⟨what, ""⟩)

/-- The raw key of a grant. -/
def grantParts (key : GrantKey) : (Bytes × Bytes) × NodeId := (key.1.parts, key.2)

/-! ### Rows, table by table -/

section

variable (codecs : RowCodecs)

def encodeResource (_ : ResourceKey) (row : ResourceRow) : Except StorageError Bytes :=
  encodeCommitted codecs.resource "ResourceRowV1" maxResourceRowBytes row.toWire

def decodeResource (parts : Bytes × Bytes) (bytes : Bytes) :
    Except StorageError (ResourceKey × ResourceRow) := do
  let key ← storedKey "resources.key" parts
  let wire ← decodePersistedBounded codecs.resource "ResourceRowV1" maxResourceRowBytes bytes
  let row ← narrowed "ResourceRowV1" (ResourceRow.fromWire wire)
  .ok (key, row)

def encodeGrant (_ : GrantKey) (rights : Rights) : Except StorageError Rights := .ok rights

def decodeGrant (raw : (Bytes × Bytes) × NodeId) (rights : Rights) :
    Except StorageError (GrantKey × Rights) := do
  let key ← storedKey "resource_acl.key" raw.1
  refuseIf (!rightsAreKnown rights)
    (.corrupt ⟨"resource_acl.rights", "rights include a bit v1 does not define"⟩)
  .ok ((key, raw.2), rights)

def encodeSession (groupId : Bytes) (_ : SessionKey) (row : Session) : Except StorageError Bytes :=
  encodeCommitted codecs.session "ClientSessionV1" maxSessionRowBytes (row.toWire groupId)

def decodeSession (groupId : Bytes) (key : SessionKey) (bytes : Bytes) :
    Except StorageError (SessionKey × Session) := do
  let wire ← decodePersistedBounded codecs.session "ClientSessionV1" maxSessionRowBytes bytes
  let row ← narrowed "ClientSessionV1" (Session.fromWire groupId wire)
  .ok (key, row)

def encodeIntent (id : OperationId) (intent : Intent) : Except StorageError Bytes :=
  match intent.toWire id with
  | .ok wire => encodeCommitted codecs.intent "MembershipIntentV1" maxIntentRowBytes wire
  | .error _ => .error (.corrupt ⟨"MembershipIntentV1",
      "failed to encode the result of an already-committed entry"⟩)

def decodeIntent (id : OperationId) (bytes : Bytes) :
    Except StorageError (OperationId × Intent) := do
  let wire ← decodePersistedBounded codecs.intent "MembershipIntentV1" maxIntentRowBytes bytes
  let row ← narrowed "MembershipIntentV1" (Intent.fromWire id wire)
  .ok (id, row)

def encodeRoute (_ : NodeId) (route : Route) : Except StorageError Bytes :=
  encodeCommitted codecs.route "NodeRouteV1" maxRouteRowBytes route.toWire

def decodeRoute (node : NodeId) (bytes : Bytes) : Except StorageError (NodeId × Route) := do
  let wire ← decodePersistedBounded codecs.route "NodeRouteV1" maxRouteRowBytes bytes
  let row ← narrowed "NodeRouteV1" (Route.fromWire wire)
  .ok (node, row)

def encodeAudit (_ : AuditKey) (row : AuditRow) : Except StorageError Bytes :=
  encodeCommitted codecs.audit "AuditRowV1" maxAuditRowBytes row.toWire

def decodeAudit (key : AuditKey) (bytes : Bytes) : Except StorageError (AuditKey × AuditRow) := do
  let wire ← decodePersistedBounded codecs.audit "AuditRowV1" maxAuditRowBytes bytes
  let row ← narrowed "AuditRowV1" (AuditRow.fromWire wire)
  .ok (key, row)

/-! ### The database -/

instance transOrd_parts : Std.TransOrd (Bytes × Bytes) := inferInstance
instance transOrd_grantParts : Std.TransOrd ((Bytes × Bytes) × NodeId) := inferInstance

/-- The tables of `state.redb`. -/
structure Database where
  resources : Table (Bytes × Bytes) Bytes
  acl : Table ((Bytes × Bytes) × NodeId) Rights
  admins : Finset NodeId
  sessions : Table SessionKey Bytes
  intents : Table OperationId Bytes
  routes : Table NodeId Bytes
  audit : Table AuditKey Bytes
  coordinationMeta : Option Bytes

/-- Write one administrator as they now stand. -/
def writeAdminKey (admins : Finset NodeId) (t : Finset NodeId) (subject : NodeId) :
    Finset NodeId :=
  if subject ∈ admins then insert subject t else t.erase subject

/-- `commit`: every touched row and the metadata, in one transaction. -/
def commit (db : Database) (s : DurableState) (changes : ChangeSet) :
    Except StorageError Database := do
  let model := s.model
  let resources ← writeKeys ResourceKey.parts (encodeResource codecs) model.resources
    (ascending changes.resources) db.resources
  let acl ← writeKeys grantParts encodeGrant model.acl (ascending changes.grants) db.acl
  let admins := (ascending changes.admins).foldl (writeAdminKey model.admins) db.admins
  let sessions ← writeKeys id (encodeSession codecs model.authority.groupId.bytes) model.sessions
    (ascending changes.sessions) db.sessions
  let intents ← writeKeys id (encodeIntent codecs) model.intents (ascending changes.intents)
    db.intents
  let routes ← writeKeys id (encodeRoute codecs) model.routes (ascending changes.routes) db.routes
  let audit ← writeKeys id (encodeAudit codecs) model.audit (ascending changes.audit) db.audit
  let coordinationMeta ← encodeCommitted codecs.coordinationMeta "CoordinationMetaV1"
    maxCoordinationMetaBytes (metaToWire s)
  .ok ⟨resources, acl, admins, sessions, intents, routes, audit, some coordinationMeta⟩

/-- `read_meta`. -/
def readMeta (db : Database) : Except StorageError CoordinationMetaV1 := do
  let bytes ← requireSome db.coordinationMeta .missingMetaKey
  decodePersistedBounded codecs.coordinationMeta "CoordinationMetaV1" maxCoordinationMetaBytes bytes

/-- Read every table into a state that has none. -/
def loadRows (db : Database) (s : DurableState) : Except StorageError DurableState := do
  let resources ← readRows (decodeResource codecs) db.resources
  let acl ← readRows decodeGrant db.acl
  let sessions ← readRows (decodeSession codecs s.model.authority.groupId.bytes) db.sessions
  let intents ← readRows (decodeIntent codecs) db.intents
  let routes ← readRows (decodeRoute codecs) db.routes
  let audit ← readRows (decodeAudit codecs) db.audit
  .ok { s with
    model := { s.model with
      resources := resources
      acl := acl
      admins := db.admins
      sessions := sessions
      intents := intents
      routes := routes
      auditTip := rebuildAuditTip audit
      audit := audit } }

variable (ext : Externals)

/-- `load`. -/
def load (db : Database) : Except StorageError DurableState := do
  let row ← readMeta codecs db
  let bare ← metaFromWire row
  let s ← loadRows codecs db bare
  corrupting (validate ext s)
  .ok s

/-- An open store: what is on disk and what is in memory. -/
structure Store where
  db : Database
  state : DurableState

/-- `apply`: a whole batch, one transaction, then the new state. -/
def Store.apply (store : Store) (entries : List Entry) :
    Except StorageError (Store × List CommandReplyV1) :=
  if entries.isEmpty then .ok (store, [])
  else do
    let (batch, replies) ← applyEntries ext store.state.model.authority.groupId.bytes
      (Batch.start store.state) entries
    let db ← commit codecs store.db batch.durable batch.changes
    .ok (⟨db, batch.durable⟩, replies)

end

/-! ### What the tables hold -/

/-- A codec that reads back what it wrote. -/
def ForyCodec.RoundTrips {α : Type} (codec : ForyCodec α) : Prop :=
  ∀ value bytes, codec.serialize value = some bytes → codec.deserialize bytes = some value

/-- The tables decode to the rows of the state, and the metadata to the rest of it. -/
structure Stored (codecs : RowCodecs) (db : Database) (s : DurableState) : Prop where
  resources : Mirrors ResourceKey.parts (decodeResource codecs) (fun k => s.model.resources[k]?)
    db.resources
  acl : Mirrors grantParts decodeGrant (fun k => s.model.acl[k]?) db.acl
  admins : db.admins = s.model.admins
  sessions : Mirrors id (decodeSession codecs s.model.authority.groupId.bytes)
    (fun k => s.model.sessions[k]?) db.sessions
  intents : Mirrors id (decodeIntent codecs) (fun k => s.model.intents[k]?) db.intents
  routes : Mirrors id (decodeRoute codecs) (fun k => s.model.routes[k]?) db.routes
  audit : Mirrors id (decodeAudit codecs) (fun k => s.model.audit[k]?) db.audit
  coordinationMeta : ∃ row, readMeta codecs db = .ok row ∧ metaFromWire row = .ok s.withoutRows

end AsterRpc.Coordination

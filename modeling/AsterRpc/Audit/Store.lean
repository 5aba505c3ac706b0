import AsterRpc.Audit.Wire

/-!
# The audit store

`audit_outbox/store.rs`: four tables and an accounting record in one database.
Every operation prepares one transaction and commits it; the state in memory
follows after the commit.  What the storage does at a call is a `Fault`: the call
may be refused before the commit, the commit may fail with the transaction lost
or kept, or the read after it may fail.  The owner drops a store after any of
these and opens it again.
-/

namespace AsterRpc.Audit

open Std
open AsterRpc.Foundation
open AsterRpc.Coordination (Bytes FixedBytes)

/-! ### Configuration, database and store -/

structure OutboxConfig where
  destination : Destination
  maxRetainedBytes : ℕ
  maxEventBytes : ℕ
  acknowledgementLogMaxEntries : ℕ
  acknowledgementLogMaxAgeMs : ℕ
  retained_lt : maxRetainedBytes < 2 ^ 64

/-- `OutboxConfig::validate`, for a directory that is named. -/
def OutboxConfig.validate (lib : Libraries) (config : OutboxConfig) : Except AuditError Unit := do
  refuseIf (decide (config.maxEventBytes < 256) ||
      decide (Audit.maxEventBytes < config.maxEventBytes) ||
      decide (config.maxRetainedBytes < 256) ||
      decide (maxAckLogEntries < config.acknowledgementLogMaxEntries))
    ⟨.invalidConfig, "invalid directory or storage/event limits"⟩
  let _ ← lib.fingerprint config.destination
  return ()

/-- A row of the acknowledgement log. -/
structure AckRow where
  sequence : ℕ
  acknowledgedAtMs : ℕ
  batch : FixedBytes 32
  digest : FixedBytes 32

/-- What is on disk. -/
structure AuditDb where
  /-- The accounting record in META. -/
  state : Option Bytes
  /-- `ack_cursor_v1` in META. -/
  ackCursor : Option ℕ
  pending : Table ℕ Bytes
  dead : Table ℕ Bytes
  receipts : Table ℕ Bytes
  acks : Table ℕ AckRow

def AuditDb.new : AuditDb where
  state := none
  ackCursor := none
  pending := ∅
  dead := ∅
  receipts := ∅
  acks := ∅

structure Store where
  state : State
  config : OutboxConfig
  generation : ℕ
  lastError : Option DeliveryError
  commits : ℕ
  lastGroupSize : ℕ
  /-- `oldest_cache`: the first pending sequence and its time. -/
  oldest : Option (ℕ × ℕ)
  ackCursor : ℕ

def charge (bytes : Bytes) : ℕ := bytes.length + 8

def State.retained (state : State) : ℕ := state.pendingBytes + state.deadBytes + state.receiptBytes

/-! ### Transactions -/

inductive Fault where
  | none
  /-- The storage fails before the commit. -/
  | refused
  /-- The commit fails and did not happen. -/
  | lost
  /-- The commit fails and did happen. -/
  | kept
  /-- The read after the commit fails. -/
  | unread
deriving DecidableEq

/-- `commit`. -/
def commit (fault : Fault) (db db' : AuditDb) : Except AuditError Unit × AuditDb :=
  match fault with
  | .none | .unread => (.ok (), db')
  | .refused => (.error .storage, db)
  | .lost => (.error .commitUncertain, db)
  | .kept => (.error .commitUncertain, db')

section Lib

variable (lib : Libraries)

/-- `reload_oldest`. -/
def reloadOldest (db : AuditDb) : Except AuditError (Option (ℕ × ℕ)) :=
  match db.pending.toList.head? with
  | none => .ok none
  | some (sequence, bytes) => do
    let timestampMs ← requireSome (lib.parseTimestamp bytes) .storage
    return some (sequence, timestampMs)

/-- `write_state`. -/
def writeState (db : AuditDb) (state : State) : AuditDb :=
  { db with state := some (lib.stateJson state) }

/-- What an operation is about to do: nothing on disk, or one transaction, and the state in memory
after it. -/
abbrev Plan := Except AuditError (Option AuditDb × Store)

/-- Commit what was planned; where the operation may have changed the first pending row it is read
again. -/
def settle (fault : Fault) (reloads : Bool) (db : AuditDb) (plan : Plan) :
    Except AuditError Store × AuditDb :=
  match plan with
  | .error e => (.error e, db)
  | .ok (none, store) => (.ok store, db)
  | .ok (some written, store) =>
    match commit fault db written with
    | (.error e, after) => (.error e, after)
    | (.ok (), after) =>
      if !reloads then (.ok store, after)
      else if fault = .unread then (.error .storage, after)
      else
        match reloadOldest lib after with
        | .error e => (.error e, after)
        | .ok oldest => (.ok { store with oldest := oldest }, after)

/-! ### Opening -/

/-- One row of `validate_recovered` joins the count. -/
def countRow (check : ℕ → Bytes → Except AuditError Unit) (last : ℕ) (counted : ℕ × ℕ)
    (row : ℕ × Bytes) : Except AuditError (ℕ × ℕ) := do
  refuseIf (row.1 == 0 || decide (last < row.1)) .storage
  check row.1 row.2
  refuseIf (decide (2 ^ 64 ≤ counted.1 + 1)) .storage
  refuseIf (decide (2 ^ 64 ≤ counted.2 + charge row.2)) .storage
  return (counted.1 + 1, counted.2 + charge row.2)

/-- The rows of a table and its counters agree. -/
def checkTable (check : ℕ → Bytes → Except AuditError Unit) (last : ℕ) (table : Table ℕ Bytes)
    (records bytes : ℕ) : Except AuditError Unit := do
  let counted ← table.toList.foldlM (countRow check last) (0, 0)
  refuseIf (counted.1 != records || counted.2 != bytes) .storage

def checkEnvelope (identity : Bytes) (sequence : ℕ) (data : Bytes) : Except AuditError Unit := do
  refuseIf (decide (maxEventBytes < data.length)) .storage
  let envelope ← requireSome (lib.parseEnvelope data) .storage
  refuseIf (envelope.version != 1 || envelope.outboxId != identity ||
    envelope.sequence != sequence) .storage

/-- The receipt is for this row of this outbox. -/
def receiptNames (identity : Bytes) (sequence : ℕ) (receipt : DispositionReceipt) : Bool :=
  match parseId receipt.eventId with
  | .error _ => false
  | .ok (i, s, _) => i == identity && s == sequence

def checkReceipts (identity : Bytes) (sequence : ℕ) (data : Bytes) : Except AuditError Unit := do
  refuseIf (decide (maxReceiptBytes < data.length)) .storage
  let receipts ← requireSome (lib.parseReceipts data) .storage
  refuseIf (receipts.isEmpty || !receipts.all (receiptNames identity sequence)) .storage

/-- `validate_recovered`. -/
def validateRecovered (state : State) (db : AuditDb) : Except AuditError Unit := do
  checkTable (checkEnvelope lib state.identity) state.lastSequence db.pending
    state.pendingRecords state.pendingBytes
  checkTable (checkEnvelope lib state.identity) state.lastSequence db.dead
    state.deadRecords state.deadBytes
  checkTable (checkReceipts lib state.identity) state.lastSequence db.receipts
    state.receiptRecords state.receiptBytes
  refuseIf (decide (2 ^ 64 ≤ state.retained)) .storage

def mismatch : AuditError :=
  ⟨.destinationMismatch, "destination differs while retained envelopes exist"⟩

/-- The accounting record that is there, or a new one; the flag says whether one was there. -/
def readState (random : FixedBytes 16) (fingerprint : String) (db : AuditDb) :
    Except AuditError (Bool × State) :=
  match db.state with
  | some bytes => do
    refuseIf (decide (16384 < bytes.length)) .storage
    let state ← requireSome (lib.parseState bytes) .storage
    refuseIf (state.version != 1) .storage
    refuseIf (state.fingerprint != fingerprint &&
      (decide (0 < state.pendingRecords) || decide (0 < state.deadRecords))) mismatch
    return (true, state)
  | none => do
    refuseIf (!(db.pending.isEmpty && db.dead.isEmpty && db.receipts.isEmpty && db.acks.isEmpty))
      .storage
    return (false, ⟨1, hexEncode random.bytes, 0, fingerprint, 0, 0, 0, 0, 0, 0, 0, none⟩)

/-- The rows `prune_acknowledgements` removes, from the lowest cursor. -/
def pruned (cutoff ageLimit : ℕ) : ℕ → ℕ → List (ℕ × AckRow) → List ℕ
  | _, _, [] => []
  | excess, aged, (cursor, row) :: rest =>
    if excess = 0 then
      if row.acknowledgedAtMs < cutoff ∧ aged < ageLimit then
        cursor :: pruned cutoff ageLimit 0 (aged + 1) rest
      else []
    else cursor :: pruned cutoff ageLimit (excess - 1) aged rest

/-- `prune_acknowledgements`. -/
def pruneAcknowledgements (config : OutboxConfig) (now ageLimit : ℕ) (acks : Table ℕ AckRow) :
    Table ℕ AckRow :=
  let cutoff :=
    if config.acknowledgementLogMaxAgeMs = 0 then 0 else now - config.acknowledgementLogMaxAgeMs
  (pruned cutoff ageLimit (acks.size - config.acknowledgementLogMaxEntries) 0 acks.toList).foldl
    (fun t cursor => t.erase cursor) acks

/-- What `reconfigure` is about to do. -/
def planReconfigure (store : Store) (db : AuditDb) (destination : Destination) : Plan := do
  let fingerprint ← lib.fingerprint destination
  refuseIf (fingerprint != store.state.fingerprint &&
    (decide (0 < store.state.pendingRecords) || decide (0 < store.state.deadRecords))) mismatch
  let state := { store.state with fingerprint := fingerprint, stall := none }
  return (some (writeState lib db state),
    { store with
      state := state
      config := { store.config with destination := destination }
      generation := store.generation + 1
      lastError := none })

/-- `reconfigure`. -/
def reconfigure (fault : Fault) (store : Store) (db : AuditDb) (destination : Destination) :
    Except AuditError Store × AuditDb :=
  match settle lib fault false db (planReconfigure lib store db destination) with
  | (.ok store', after) =>
    if 2 ^ 64 ≤ store.generation + 1 then (.error .worker, after) else (.ok store', after)
  | (.error e, after) => (.error e, after)

/-- The end of `Store::open`: old rows of the acknowledgement log are removed, and a new
destination is taken over. -/
def finishOpen (pruning repointing : Fault) (now : ℕ) (store : Store) (db : AuditDb) :
    Except AuditError Store × AuditDb :=
  let acks := pruneAcknowledgements store.config now (2 ^ 64) db.acks
  let written := if acks.size < db.acks.size then some { db with acks := acks } else none
  match settle lib pruning false db (.ok (written, store)) with
  | (.error e, after) => (.error e, after)
  | (.ok store, after) =>
    match lib.fingerprint store.config.destination with
    | .error e => (.error e, after)
    | .ok fingerprint =>
      if store.state.fingerprint = fingerprint then (.ok store, after)
      else reconfigure lib repointing store after store.config.destination

/-- `Store::open` once the record is read and, if it is new, written. -/
def recover (pruning repointing : Fault) (now : ℕ) (config : OutboxConfig) (state : State)
    (ackCursor : ℕ) (db : AuditDb) : Except AuditError Store × AuditDb :=
  match validateRecovered lib state db with
  | .error e => (.error e, db)
  | .ok () =>
    match reloadOldest lib db with
    | .error e => (.error e, db)
    | .ok oldest =>
      finishOpen lib pruning repointing now
        { state := state, config := config, generation := 1, lastError := state.stall, commits := 0,
          lastGroupSize := 0, oldest := oldest, ackCursor := ackCursor } db

/-- The checks of `Store::open` before anything is written. -/
def openChecks (random : FixedBytes 16) (config : OutboxConfig) (db : AuditDb) :
    Except AuditError (Bool × State × ℕ) := do
  config.validate lib
  let fingerprint ← lib.fingerprint config.destination
  let (recovered, state) ← readState lib random fingerprint db
  let ackCursor := db.ackCursor.getD 0
  refuseIf (db.acks.toList.any fun row => decide (ackCursor < row.1)) .storage
  return (recovered, state, ackCursor)

/-- `Store::open`. -/
def openStore (creating pruning repointing : Fault) (random : FixedBytes 16) (now : ℕ)
    (config : OutboxConfig) (db : AuditDb) : Except AuditError Store × AuditDb :=
  match openChecks lib random config db with
  | .error e => (.error e, db)
  | .ok (true, state, ackCursor) => recover lib pruning repointing now config state ackCursor db
  | .ok (false, state, ackCursor) =>
    match commit creating db (writeState lib db state) with
    | (.error e, after) => (.error e, after)
    | (.ok (), after) => recover lib pruning repointing now config state ackCursor after

/-! ### Submissions -/

/-- One event of `submit_group`: its identifier, its row and the record with it. -/
def admitEvent (config : OutboxConfig) (state : State) (event : AuditEvent) :
    Except AuditError (EventId × (ℕ × Bytes) × State) := do
  let sequence := state.lastSequence + 1
  refuseIf (decide (2 ^ 64 ≤ sequence)) ⟨.storageFull, "sequence space exhausted"⟩
  let bytes ← boundedJson (lib.envelopeJson
    ⟨1, state.identity, sequence, event.timestampMs, event.kind, event.payload⟩)
    config.maxEventBytes
  refuseIf (decide (config.maxRetainedBytes < state.retained + charge bytes))
    ⟨.storageFull, "retained envelope and receipt budget exhausted"⟩
  return (idFor lib state.identity sequence bytes, (sequence, bytes),
    { state with
      lastSequence := sequence
      pendingRecords := state.pendingRecords + 1
      pendingBytes := state.pendingBytes + charge bytes })

/-- A group before its transaction: the record, the rows and the outcomes so far. -/
structure Group where
  state : State
  rows : List (ℕ × Bytes)
  outcomes : List (Except AuditError EventId)

def Group.admitOne (config : OutboxConfig) (group : Group) (event : AuditEvent) : Group :=
  match admitEvent lib config group.state event with
  | .error e => { group with outcomes := group.outcomes ++ [.error e] }
  | .ok (id, row, state) => ⟨state, group.rows ++ [row], group.outcomes ++ [.ok id]⟩

def admitGroup (config : OutboxConfig) (state : State) (events : List AuditEvent) : Group :=
  events.foldl (Group.admitOne lib config) ⟨state, [], []⟩

/-- What the callers get when the transaction of their group fails. -/
def failOutcomes (error : AuditError) (outcomes : List (Except AuditError EventId)) :
    List (Except AuditError EventId) :=
  outcomes.map fun outcome =>
    match outcome with
    | .ok _ => .error error
    | .error e => .error e

def insertRows (rows : List (ℕ × Bytes)) (table : Table ℕ Bytes) : Table ℕ Bytes :=
  rows.foldl (fun t row => t.insert row.1 row.2) table

def planSubmit (store : Store) (db : AuditDb) (group : Group) : Plan :=
  if group.rows = [] then .ok (none, store)
  else .ok
    (some (writeState lib { db with pending := insertRows group.rows db.pending } group.state),
    { store with
      state := group.state
      commits := store.commits + 1
      lastGroupSize := group.rows.length })

/-- `submit_group`: the outcomes, the store unless it is to be dropped, and the database. -/
def submitGroup (fault : Fault) (store : Store) (db : AuditDb) (events : List AuditEvent) :
    List (Except AuditError EventId) × Except AuditError Store × AuditDb :=
  let group := admitGroup lib store.config store.state events
  match settle lib fault store.oldest.isNone db (planSubmit lib store db group) with
  | (.ok store', after) => (group.outcomes, .ok store', after)
  | (.error e, after) => (failOutcomes e group.outcomes, .error e, after)

/-! ### Delivery -/

structure StoredEvent where
  sequence : ℕ
  id : EventId
  bytes : Bytes

structure Batch where
  events : List StoredEvent
  destination : Destination
  generation : ℕ
  singleton : Bool

/-- The rows of a batch, with `count` rows of `total` bytes taken before. -/
def takeRows (singleton : Bool) : ℕ → ℕ → List (ℕ × Bytes) → List (ℕ × Bytes)
  | _, _, [] => []
  | count, total, row :: rest =>
    if count = maxBatchEvents ∨ maxBatchBytes < total + row.2.length ∨
        (singleton = true ∧ 0 < count) then []
    else row :: takeRows singleton (count + 1) (total + row.2.length) rest

/-- `batch`. -/
def batch (store : Store) (db : AuditDb) : Option Batch :=
  if store.state.stall.isSome then none
  else
    let singleton := decide (0 < store.state.isolationUntil)
    let rows := takeRows singleton 0 0 db.pending.toList
    if rows.isEmpty then none
    else some
      { events := rows.map fun row => ⟨row.1, idFor lib store.state.identity row.1 row.2, row.2⟩
        destination := store.config.destination
        generation := store.generation
        singleton := singleton || rows.length == 1 }

/-- The rows an acknowledgement has removed so far. -/
structure Removal where
  state : State
  pending : Table ℕ Bytes
  sequences : List ℕ

def Removal.remove (removal : Removal) (id : EventId) : Except AuditError Removal := do
  let (_, sequence, _) ← parseId id
  let bytes ← requireSome removal.pending[sequence]?
    ⟨.staleDelivery, "acknowledged record changed while request was in flight"⟩
  refuseIf (idFor lib removal.state.identity sequence bytes != id)
    ⟨.staleDelivery, "acknowledged full ID does not match current record"⟩
  let state :=
    { removal.state with
      pendingRecords := removal.state.pendingRecords - 1
      pendingBytes := removal.state.pendingBytes - charge bytes }
  return ⟨state, removal.pending.erase sequence, removal.sequences ++ [sequence]⟩

/-- Isolation ends when no pending row is left below its mark. -/
def leaveIsolation (pending : Table ℕ Bytes) (state : State) : State :=
  if 0 < state.isolationUntil ∧
      (∀ row ∈ pending.toList.head?, state.isolationUntil < row.1) then
    { state with isolationUntil := 0 }
  else state

/-- `decode_digest`. -/
def decodeDigest (digest : Bytes) : Except AuditError (FixedBytes 32) :=
  requireSome ((hexDecode digest).bind (FixedBytes.fromSlice 32)) .storage

/-- One row of `log_acknowledgements`. -/
def logRow (now : ℕ) (batch : FixedBytes 32) (log : ℕ × Table ℕ AckRow) (entry : EventId × ℕ) :
    Except AuditError (ℕ × Table ℕ AckRow) := do
  let (_, _, digest) ← parseId entry.1
  refuseIf (decide (2 ^ 64 ≤ log.1 + 1)) .storage
  let envelope ← decodeDigest digest
  return (log.1 + 1, log.2.insert (log.1 + 1) ⟨entry.2, now, batch, envelope⟩)

/-- `log_acknowledgements`: the new cursor and the database with the log. -/
def logAcknowledgements (config : OutboxConfig) (now cursor : ℕ) (ids : List EventId)
    (sequences : List ℕ) (db : AuditDb) : Except AuditError (ℕ × AuditDb) := do
  if 0 < config.acknowledgementLogMaxEntries then
    let batch ← decodeDigest (batchId lib ids)
    let (cursor, acks) ← (ids.zip sequences).foldlM (logRow now batch) (cursor, db.acks)
    return (cursor,
      { db with ackCursor := some cursor, acks := pruneAcknowledgements config now 4096 acks })
  else return (cursor, { db with acks := pruneAcknowledgements config now 4096 db.acks })

/-- What `acknowledge` is about to do. -/
def planAcknowledge (now : ℕ) (store : Store) (db : AuditDb) (generation : ℕ)
    (ids : List EventId) : Plan := do
  refuseIf (generation != store.generation)
    ⟨.staleDelivery, "destination changed while request was in flight"⟩
  let removal ← ids.foldlM (Removal.remove lib) ⟨store.state, db.pending, []⟩
  let state := { leaveIsolation removal.pending removal.state with stall := none }
  let (cursor, logged) ← logAcknowledgements lib store.config now store.ackCursor ids
    removal.sequences (writeState lib { db with pending := removal.pending } state)
  return (some logged, { store with state := state, ackCursor := cursor, lastError := none })

/-- `acknowledge`. -/
def acknowledge (fault : Fault) (now : ℕ) (store : Store) (db : AuditDb) (generation : ℕ)
    (ids : List EventId) : Except AuditError Store × AuditDb :=
  settle lib fault true db (planAcknowledge lib now store db generation ids)

/-- What `delivery_error` is about to do. -/
def planDeliveryError (store : Store) (db : AuditDb) (generation : ℕ) (error : DeliveryError)
    (isolateUntil : Option ℕ) (stall : Bool) : Plan :=
  if generation ≠ store.generation then .ok (none, store)
  else
    let state : State :=
      { store.state with
        isolationUntil := max store.state.isolationUntil (isolateUntil.getD 0)
        stall := if stall then some error else store.state.stall }
    if isolateUntil.isSome || stall then
      .ok (some (writeState lib db state), { store with lastError := some error, state := state })
    else .ok (none, { store with lastError := some error })

/-- `delivery_error`. -/
def deliveryError (fault : Fault) (store : Store) (db : AuditDb) (generation : ℕ)
    (error : DeliveryError) (isolateUntil : Option ℕ) (stall : Bool) :
    Except AuditError Store × AuditDb :=
  settle lib fault false db (planDeliveryError lib store db generation error isolateUntil stall)

/-! ### Dispositions -/

def differs : AuditError := ⟨.notFound, "full event ID differs"⟩

/-- `receipt_row`. -/
def receiptRow (db : AuditDb) (sequence : ℕ) : Except AuditError (List DispositionReceipt) :=
  match db.receipts[sequence]? with
  | none => .ok []
  | some bytes => requireSome (lib.parseReceipts bytes) .storage

/-- The stall is for this record, and is one that may be bypassed. -/
def stalledAt (state : State) (sequence : ℕ) : Bool :=
  match state.stall with
  | none => false
  | some stall =>
    stall.sequence == sequence && (stall.kind == .rejected || stall.kind == .integrity)

/-- The receipts of a record in text, unless there are too many. -/
def boundedReceipts (receipts : List DispositionReceipt) : Except AuditError Bytes :=
  match boundedJson (lib.receiptsJson receipts) maxReceiptBytes with
  | .ok text => .ok text
  | .error _ => .error ⟨.storageFull, "disposition trail limit exhausted"⟩

/-- What the receipts of a record are charged at present. -/
def receiptCharge (receipts : List DispositionReceipt) : ℕ :=
  if receipts.isEmpty then 0 else charge (lib.receiptsJson receipts)

/-- The move of a pending row to the dead letters. -/
def moveDead (store : Store) (db : AuditDb) (now sequence : ℕ) (bytes : Bytes) (id : EventId)
    (reason operator : String) : Plan := do
  let receipts ← receiptRow lib db sequence
  let receiptBytes ← boundedReceipts lib (receipts ++
    [⟨id, "quarantine", now, reason, operator, store.state.fingerprint, store.lastError⟩])
  let charged :=
    { store.state with
      receiptBytes := store.state.receiptBytes - receiptCharge lib receipts + charge receiptBytes
      receiptRecords := store.state.receiptRecords + if receipts.isEmpty then 1 else 0 }
  refuseIf (decide (store.config.maxRetainedBytes < charged.retained))
    ⟨.storageFull, "no budget for durable disposition receipt"⟩
  let state :=
    { charged with
      pendingRecords := charged.pendingRecords - 1
      pendingBytes := charged.pendingBytes - charge bytes
      deadRecords := charged.deadRecords + 1
      deadBytes := charged.deadBytes + charge bytes
      stall := none }
  let moved :=
    { db with
      dead := db.dead.insert sequence bytes
      pending := db.pending.erase sequence
      receipts := db.receipts.insert sequence receiptBytes }
  return (some (writeState lib moved state),
    { store with state := state, lastError := none, generation := store.generation + 1 })

/-- What `quarantine` is about to do. -/
def planQuarantine (now : ℕ) (store : Store) (db : AuditDb) (id : Bytes)
    (reason operator : String) : Plan := do
  refuseIf (reason.utf8ByteSize == 0 || decide (512 < reason.utf8ByteSize) ||
      operator.utf8ByteSize == 0 || decide (256 < operator.utf8ByteSize))
    ⟨.invalidEvent, "quarantine requires bounded reason and operator reference"⟩
  let (identity, sequence, _) ← parseId id
  refuseIf (identity != store.state.identity) ⟨.notFound, "event ID belongs to another outbox"⟩
  match db.dead[sequence]? with
  | some bytes => do
    refuseIf (idFor lib identity sequence bytes != id) differs
    return (none, store)
  | none => do
    let bytes ← requireSome db.pending[sequence]? ⟨.notFound, "pending event not found"⟩
    refuseIf (idFor lib identity sequence bytes != id) differs
    refuseIf (store.oldest.map Prod.fst != some sequence)
      ⟨.invalidEvent, "only the oldest pending event can be quarantined"⟩
    refuseIf (!stalledAt store.state sequence)
      ⟨.invalidEvent, "quarantine requires a rejected or integrity-conflicting singleton stall"⟩
    moveDead lib store db now sequence bytes id reason operator

/-- `quarantine`. -/
def quarantine (fault : Fault) (now : ℕ) (store : Store) (db : AuditDb) (id : Bytes)
    (reason operator : String) : Except AuditError Store × AuditDb :=
  settle lib fault true db (planQuarantine lib now store db id reason operator)

/-- `export`, without the envelope: whether the record is pending, and its receipts. -/
def exportRecord (store : Store) (db : AuditDb) (id : Bytes) :
    Except AuditError (Bool × List DispositionReceipt) := do
  let (identity, sequence, _) ← parseId id
  let bytes ← requireSome (db.dead[sequence]?.or db.pending[sequence]?)
    ⟨.notFound, "retained envelope not found"⟩
  refuseIf (identity != store.state.identity || idFor lib identity sequence bytes != id) differs
  let receipts ← receiptRow lib db sequence
  return (db.dead[sequence]?.isNone, receipts)

/-- The move of a dead letter back to the pending rows. -/
def moveBack (store : Store) (db : AuditDb) (now sequence : ℕ) (bytes : Bytes) (id : EventId) :
    Plan := do
  let receipts ← receiptRow lib db sequence
  let receiptBytes ← boundedReceipts lib (receipts ++
    [⟨id, "replay", now, "explicit replay", "replay API", store.state.fingerprint, none⟩])
  let charged :=
    { store.state with
      receiptBytes := store.state.receiptBytes - charge (lib.receiptsJson receipts) +
        charge receiptBytes }
  refuseIf (decide (store.config.maxRetainedBytes < charged.retained))
    ⟨.storageFull, "no budget for replay disposition receipt"⟩
  let state :=
    { charged with
      pendingRecords := charged.pendingRecords + 1
      pendingBytes := charged.pendingBytes + charge bytes
      deadRecords := charged.deadRecords - 1
      deadBytes := charged.deadBytes - charge bytes
      stall := none
      isolationUntil := max charged.isolationUntil sequence }
  let moved :=
    { db with
      pending := db.pending.insert sequence bytes
      dead := db.dead.erase sequence
      receipts := db.receipts.insert sequence receiptBytes }
  return (some (writeState lib moved state),
    { store with state := state, lastError := none, generation := store.generation + 1 })

/-- What `replay` is about to do. -/
def planReplay (now : ℕ) (store : Store) (db : AuditDb) (id : Bytes) : Plan := do
  let (identity, sequence, _) ← parseId id
  match db.dead[sequence]? with
  | none => do
    let (pending, receipts) ← exportRecord lib store db id
    refuseIf (!(pending && !receipts.isEmpty)) ⟨.notFound, "dead-letter event not found"⟩
    return (none, store)
  | some bytes => do
    refuseIf (identity != store.state.identity || idFor lib identity sequence bytes != id) differs
    moveBack lib store db now sequence bytes id

/-- `replay`. -/
def replay (fault : Fault) (now : ℕ) (store : Store) (db : AuditDb) (id : Bytes) :
    Except AuditError Store × AuditDb :=
  settle lib fault true db (planReplay lib now store db id)

end Lib

/-- `fatal`: the worker closes the store. -/
def AuditError.fatal (error : AuditError) : Bool :=
  match error.code with
  | .storage | .commitUncertain | .workerFailed => true
  | _ => false

end AsterRpc.Audit

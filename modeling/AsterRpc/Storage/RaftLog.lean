import AsterRpc.Foundation.Gapless
import AsterRpc.Storage.Store

/-!
# The Raft log store

`storage/log.rs`: the tables of `raft.redb`, the commands of the one thread that owns
them, and the validation that runs before the thread is started.  What the thread does
for a command is a function from the tables to an answer and the tables it leaves, also
when it fails, so that a write before a refusal would be seen.

A failure of the database itself is left out, and so is the text of an error of the
serialisation library.
-/

namespace AsterRpc.Coordination

open AsterRpc.Foundation Std

/-! ### Mirrors -/

structure Vote where
  term : ℕ
  nodeId : NodeId
  committed : Bool

structure VoteV1 where
  term : ℕ
  leaderNodeId : Bytes
  committed : Bool

inductive EntryPayloadV1 where
  | blank
  | normal (command : CommandV1)
  | membership (membership : MembershipV1)
  /-- A variant of a newer build. -/
  | unknown (variant : ℕ)

structure RaftEntryV1 where
  logId : LogIdV1
  payload : EntryPayloadV1

/-- The Fory codecs of what the log store keeps. -/
structure LogCodecs where
  entry : ForyCodec RaftEntryV1
  vote : ForyCodec VoteV1
  logId : ForyCodec LogIdV1

structure LogCodecs.RoundTrip (codecs : LogCodecs) : Prop where
  entry : codecs.entry.RoundTrips
  vote : codecs.vote.RoundTrips
  logId : codecs.logId.RoundTrips

/-- `StorageError`, as far as the log store raises it. -/
inductive LogError where
  | logGap (expected found : ℕ) (detail : String)
  | encodeFailed (what detail : String)
  | corrupt (what detail : String)
  | fatal
deriving DecidableEq

/-- `puts_durability_in_question`. -/
def LogError.putsDurabilityInQuestion : LogError → Bool
  | .logGap .. => false
  | .encodeFailed .. => false
  | .corrupt .. => true
  | .fatal => true

/-- The `Debug` text of a mirror error. -/
def MirrorError.debug : MirrorError → String
  | .nodeIdLength field len =>
    "NodeIdLength \x7b field: \"" ++ field ++ "\", len: " ++ toString len ++ " \x7d"
  | .emptyMembership => "EmptyMembership"
  | .unknownNodeFormat version => "UnknownNodeFormat(" ++ toString version ++ ")"

def Vote.toWire (vote : Vote) : VoteV1 := ⟨vote.term, vote.nodeId.bytes, vote.committed⟩

/-- `Vote::try_from`. -/
def Vote.fromWire (wire : VoteV1) : Except MirrorError Vote := do
  let node ← Membership.mirrorNodeId "vote.leader_node_id" wire.leaderNodeId
  .ok ⟨wire.term, node, wire.committed⟩

def Entry.toWire (entry : Entry) : RaftEntryV1 where
  logId := entry.logId.toWire
  payload := match entry.payload with
    | .blank => .blank
    | .normal command => .normal command
    | .membership membership => .membership membership.toWire

/-- A failed mirror is corruption of what was read. -/
def mirrorRead {α : Type} (what : String) : Except MirrorError α → Except LogError α
  | .ok a => .ok a
  | .error why => .error (.corrupt what why.debug)

/-- `Entry::try_from`. -/
def Entry.fromWire (wire : RaftEntryV1) : Except LogError Entry := do
  let logId ← mirrorRead "RaftEntryV1" (mirrorLogId wire.logId)
  match wire.payload with
  | .blank => .ok ⟨logId, .blank⟩
  | .normal command => .ok ⟨logId, .normal command⟩
  | .membership membership => do
    let membership ← mirrorRead "RaftEntryV1" (Membership.fromWire membership)
    .ok ⟨logId, .membership membership⟩
  | .unknown _ => .error (.corrupt "RaftEntryV1" "UnknownPayloadVariant")

/-! ### Codecs -/

def maxEntryBytes : ℕ := 8 * 1024 * 1024
def maxMetaBytes : ℕ := 4 * 1024

/-- `encode_bounded`, for the Raft database. -/
def encodeBoundedRaft {α : Type} (codec : ForyCodec α) (what : String) (value : α) (maxBytes : ℕ) :
    Except LogError Bytes := do
  let bytes ← requireSome (codec.serialize value) (.encodeFailed what "")
  refuseIf (bytes.length > maxBytes) (.encodeFailed what ("encoded to " ++ toString bytes.length ++
    " bytes, over the " ++ toString maxBytes ++ "-byte ceiling"))
  .ok bytes

/-- `decode_persisted_bounded`, for the Raft database. -/
def decodePersistedRaft {α : Type} (codec : ForyCodec α) (what : String) (bytes : Bytes)
    (maxBytes : ℕ) : Except LogError α := do
  refuseIf (bytes.length > maxBytes) (.corrupt what ("stored value is " ++ toString bytes.length ++
    " bytes, over the " ++ toString maxBytes ++ "-byte ceiling"))
  requireSome (codec.deserialize bytes) (.corrupt what "")

section

variable (codecs : LogCodecs)

def encodeEntry (entry : Entry) : Except LogError Bytes :=
  encodeBoundedRaft codecs.entry "RaftEntryV1" entry.toWire maxEntryBytes

def decodeEntry (bytes : Bytes) : Except LogError Entry := do
  let mirror ← decodePersistedRaft codecs.entry "RaftEntryV1" bytes maxEntryBytes
  Entry.fromWire mirror

def encodeVote (vote : Vote) : Except LogError Bytes :=
  encodeBoundedRaft codecs.vote "VoteV1" vote.toWire maxMetaBytes

def decodeVote (bytes : Bytes) : Except LogError Vote := do
  let mirror ← decodePersistedRaft codecs.vote "VoteV1" bytes maxMetaBytes
  mirrorRead "VoteV1" (Vote.fromWire mirror)

def encodeLogId (logId : LogId) : Except LogError Bytes :=
  encodeBoundedRaft codecs.logId "LogIdV1" logId.toWire maxMetaBytes

def decodeLogId (bytes : Bytes) : Except LogError LogId := do
  let mirror ← decodePersistedRaft codecs.logId "LogIdV1" bytes maxMetaBytes
  mirrorRead "LogIdV1" (mirrorLogId mirror)

end

/-! ### The tables and commands on them -/

/-- `raft.redb`: the log by index, and the keys of its metadata table. -/
structure RaftTables where
  log : Table ℕ Bytes
  vote : Option Bytes
  committed : Option Bytes
  lastPurged : Option Bytes

/-- A database that was just made. -/
def RaftTables.fresh : RaftTables := ⟨∅, none, none, none⟩

/-- What the thread does for a command. -/
structure LogTask (α : Type) where
  run : RaftTables → Except LogError α × RaftTables

namespace LogTask

variable {α β : Type}

/-- Answer without a write. -/
def query (read : RaftTables → Except LogError α) : LogTask α := ⟨fun t => (read t, t)⟩

/-- One durable transaction. -/
def durableWrite (write : RaftTables → RaftTables) : LogTask Unit := ⟨fun t => (.ok (), write t)⟩

instance : Monad LogTask where
  pure a := ⟨fun t => (.ok a, t)⟩
  bind x f := ⟨fun t =>
    match x.run t with
    | (.ok a, t') => (f a).run t'
    | (.error e, t') => (.error e, t')⟩

end LogTask

/-- `checked_add` by one. -/
def nextIndex (index : ℕ) : Option ℕ := if index < u64Max then some (index + 1) else none

inductive RangeBound where
  | included (index : ℕ)
  | excluded (index : ℕ)
  | unbounded

/-- Whether an index lies in a range. -/
def inRange (start stop : RangeBound) (index : ℕ) : Bool :=
  (match start with
    | .included first => first ≤ index
    | .excluded before => before < index
    | .unbounded => true) &&
  (match stop with
    | .included last => index ≤ last
    | .excluded after => index < after
    | .unbounded => true)

structure LogState where
  lastPurgedLogId : Option LogId
  lastLogId : Option LogId

namespace LogActor

variable (codecs : LogCodecs)

/-! ### Reads -/

/-- `marker`, of the key of a log id. -/
def marker (stored : Option Bytes) : Except LogError (Option LogId) :=
  match stored with
  | some bytes => do
    let logId ← decodeLogId codecs bytes
    .ok (some logId)
  | none => .ok none

/-- `last_entry_log_id`. -/
def lastEntryLogId (t : RaftTables) : Except LogError (Option LogId) :=
  match t.log.toList.getLast? with
  | some row => do
    let entry ← decodeEntry codecs row.2
    .ok (some entry.logId)
  | none => .ok none

/-- `last_entry_index`. -/
def lastEntryIndex (t : RaftTables) : Option ℕ := t.log.toList.getLast?.map Prod.fst

/-- `first_index_above`. -/
def firstIndexAbove (t : RaftTables) (index : ℕ) : Option ℕ :=
  (t.log.toList.find? fun row => decide (index < row.1)).map Prod.fst

/-- `log_state`. -/
def logState (t : RaftTables) : Except LogError LogState := do
  let lastPurged ← marker codecs t.lastPurged
  let lastRetained ← lastEntryLogId codecs t
  .ok ⟨lastPurged, lastRetained.or lastPurged⟩

/-- `read_vote`. -/
def readVote (t : RaftTables) : Except LogError (Option Vote) :=
  match t.vote with
  | some bytes => do
    let vote ← decodeVote codecs bytes
    .ok (some vote)
  | none => .ok none

/-- `read_committed`. -/
def readCommitted (t : RaftTables) : Except LogError (Option LogId) := marker codecs t.committed

/-- `read`. -/
def readRange (start stop : RangeBound) (t : RaftTables) : Except LogError (List Entry) :=
  narrowAll (fun row : ℕ × Bytes => decodeEntry codecs row.2)
    (t.log.toList.filter fun row => inRange start stop row.1)

/-! ### Writes -/

open LogTask

/-- `save_vote`. -/
def saveVote (vote : Vote) : LogTask Unit := do
  let encoded ← query fun _ => encodeVote codecs vote
  durableWrite fun t => { t with vote := some encoded }

/-- `save_committed`. -/
def saveCommitted (committed : Option LogId) : LogTask Unit :=
  match committed with
  | some logId => do
    let encoded ← query fun _ => encodeLogId codecs logId
    durableWrite fun t => { t with committed := some encoded }
  | none => durableWrite fun t => { t with committed := none }

/-- A batch is contiguous in itself. -/
def checkPair (pair : Entry × Entry) : Except LogError Unit :=
  let previous := pair.1.logId.index
  let next := pair.2.logId.index
  refuseIf (nextIndex previous != some next) (.logGap ((previous + 1) % 2 ^ 64) next
    "append batch is not internally contiguous")

/-- The entries of a batch that are above the purge marker. -/
def writable (purged : Option LogId) (entries : List Entry) : List Entry :=
  match purged with
  | some marker => entries.filter fun entry => decide (entry.logId.index > marker.index)
  | none => entries

/-- The one index that continues the log without a hole. -/
def frontier (purged : Option LogId) (t : RaftTables) : Option ℕ :=
  match lastEntryIndex t with
  | some retained => nextIndex retained
  | none => purged.bind fun marker => nextIndex marker.index

/-- A batch leaves no hole below itself. -/
def checkFrontier (purged : Option LogId) (first : ℕ) (t : RaftTables) : Except LogError Unit :=
  match frontier purged t with
  | some next => refuseIf (first > next) (.logGap next first
      "append would leave a hole after the last retained entry")
  | none => .ok ()

/-- Nor one below what survives above it. -/
def checkSurvivors (last : ℕ) (t : RaftTables) : Except LogError Unit :=
  match firstIndexAbove t last with
  | some nextRetained => refuseIf (nextIndex last != some nextRetained)
      (.logGap ((nextIndex last).getD u64Max) nextRetained
        "append would leave a hole below the entries that survive it")
  | none => .ok ()

/-- One row of the log table. -/
def encodeRow (entry : Entry) : Except LogError (ℕ × Bytes) := do
  let bytes ← encodeEntry codecs entry
  .ok (entry.logId.index, bytes)

/-- `append`. -/
def append (entries : List Entry) : LogTask Unit :=
  if entries.isEmpty then pure ()
  else do
    query fun _ => checkAll checkPair (entries.zip entries.tail)
    let purged ← query fun t => marker codecs t.lastPurged
    match (writable purged entries).head?, (writable purged entries).getLast? with
    | some first, some last => do
      query (checkFrontier purged first.logId.index)
      query (checkSurvivors last.logId.index)
      let encoded ← query fun _ => narrowAll (encodeRow codecs) (writable purged entries)
      durableWrite fun t =>
        { t with log := encoded.foldl (fun log row => log.insert row.1 row.2) t.log }
    | _, _ => pure ()

/-- `truncate`. -/
def truncate (logId : LogId) : LogTask Unit :=
  durableWrite fun t => { t with log := t.log.filter fun index _ => decide (index < logId.index) }

/-- `purge`. -/
def purge (logId : LogId) : LogTask Unit := do
  let existing ← query fun t => marker codecs t.lastPurged
  if existing.any fun existing => decide (logId.index ≤ existing.index) then pure ()
  else do
    let encoded ← query fun _ => encodeLogId codecs logId
    durableWrite fun t =>
      { t with
        log := t.log.filter fun index _ => decide (logId.index < index)
        lastPurged := some encoded }

end LogActor

/-! ### Validation -/

section

variable (codecs : LogCodecs)

open LogActor

/-- A row continues the row before it, and the first row the marker. -/
def checkContinues (lastPurged : Option LogId) (previous : Option ℕ) (index : ℕ) :
    Except LogError Unit :=
  match previous with
  | some prev =>
    refuseIf (nextIndex prev != some index)
      (.corrupt "raft_log" ("retained rows jump from " ++ toString prev ++ " to " ++
        toString index))
  | none =>
    refuseIf (lastPurged.any fun marker => nextIndex marker.index != some index)
      (.corrupt "raft_log" ("first retained row is " ++ toString index ++
        ", but the purge marker " ++ toString ((lastPurged.map (·.index)).getD 0) ++
        " leaves a hole"))

/-- The checks of one row. -/
def checkLogRow (lastPurged : Option LogId) (previous : Option ℕ) (row : ℕ × Bytes) :
    Except LogError Unit := do
  let entry ← decodeEntry codecs row.2
  refuseIf (entry.logId.index != row.1) (.corrupt "RaftEntryV1" ("row filed at key " ++
    toString row.1 ++ " decodes to log index " ++ toString entry.logId.index))
  refuseIf (lastPurged.any fun marker => decide (row.1 ≤ marker.index)) (.corrupt "raft_log"
    ("row " ++ toString row.1 ++ " is at or below the purge marker " ++
      toString ((lastPurged.map (·.index)).getD 0)))
  checkContinues lastPurged previous row.1

/-- The loop over the rows. -/
def checkLogRows (lastPurged : Option LogId) :
    Option ℕ → List (ℕ × Bytes) → Except LogError Unit
  | _, [] => .ok ()
  | previous, row :: rest => do
    checkLogRow codecs lastPurged previous row
    checkLogRows lastPurged (some row.1) rest

/-- `validate_persisted_log`. -/
def validatePersistedLog (t : RaftTables) : Except LogError Unit := do
  let _ ← readVote codecs t
  let _ ← marker codecs t.committed
  let lastPurged ← marker codecs t.lastPurged
  checkLogRows codecs lastPurged none t.log.toList

end

/-! ### The thread -/

/-- The commands that write. -/
inductive LogCommand where
  | saveVote (vote : Vote)
  | saveCommitted (committed : Option LogId)
  | append (entries : List Entry)
  | truncate (logId : LogId)
  | purge (logId : LogId)

def LogCommand.task (codecs : LogCodecs) : LogCommand → LogTask Unit
  | .saveVote vote => LogActor.saveVote codecs vote
  | .saveCommitted committed => LogActor.saveCommitted codecs committed
  | .append entries => LogActor.append codecs entries
  | .truncate logId => LogActor.truncate logId
  | .purge logId => LogActor.purge codecs logId

/-- The thread that owns the database, and whether it has given up. -/
structure LogActor where
  tables : RaftTables
  fatal : Bool

/-- `serve`: run one command; a failure that puts durability in question is sticky. -/
def LogActor.serve {α : Type} (actor : LogActor) (task : LogTask α) :
    Except LogError α × LogActor :=
  if actor.fatal then (.error .fatal, actor)
  else
    match task.run actor.tables with
    | (.ok a, tables) => (.ok a, ⟨tables, false⟩)
    | (.error e, tables) => (.error e, ⟨tables, e.putsDurabilityInQuestion⟩)

/-- Close the store and open it again: the tables are validated before a thread is started. -/
def LogActor.reopen (codecs : LogCodecs) (actor : LogActor) : Except LogError Unit × LogActor :=
  match validatePersistedLog codecs actor.tables with
  | .ok () => (.ok (), ⟨actor.tables, false⟩)
  | .error e => (.error e, actor)

/-- A call, or a restart. -/
inductive LogEvent where
  | call (command : LogCommand)
  | reopen

def LogActor.handle (codecs : LogCodecs) (actor : LogActor) :
    LogEvent → Except LogError Unit × LogActor
  | .call command => actor.serve (command.task codecs)
  | .reopen => actor.reopen codecs

end AsterRpc.Coordination

import AsterRpc.Storage.Durable

/-!
# Applying log entries

The loop of `apply` in `storage/machine.rs`.  A committed entry carries nothing,
a native membership or a command.  The first entry that fails stops the batch,
and nothing of the batch is kept.
-/

namespace AsterRpc.Coordination

open AsterRpc.Foundation

/-! ### Entries -/

inductive EntryPayload where
  | blank
  | membership (membership : Membership)
  | normal (command : CommandV1)

structure Entry where
  logId : LogId
  payload : EntryPayload

/-- `StorageError`, as far as applying and opening raise it. -/
inductive StorageError where
  | corrupt (corruption : Corrupt)
  /-- `fatal_fault`: corruption of `apply`, with the fault as its text. -/
  | fault (fault : Fault)
  | schemaVersion (found expected : ℕ)
  | missingMetaKey
deriving DecidableEq

/-- The working copy of a batch: the state and what it touched. -/
structure Batch where
  durable : DurableState
  changes : ChangeSet

/-- The batch before its first entry. -/
def Batch.start (s : DurableState) : Batch := ⟨s, ChangeSet.empty⟩

/-- The native arms record the entry as applied. -/
def DurableState.setLastApplied (s : DurableState) (logId : LogId) : DurableState :=
  { s with model := { s.model with lastApplied := some logId } }

/-- `guard_delivery` with its fault made fatal. -/
def guardEntry (s : DurableState) (logId : LogId) : Except StorageError Unit :=
  match guardDelivery s.model logId with
  | .ok () => .ok ()
  | .error fault => .error (.fault fault)

/-- What a native membership entry makes of the state. -/
def DurableState.withMembership (s : DurableState) (logId : LogId) (membership : Membership) :
    DurableState :=
  { s with
    model := { s.model with
      membership := projectMembership membership
      membershipLogId := some logId
      lastApplied := some logId }
    membership := ⟨some logId, membership⟩ }

/-- The `EntryPayload::Membership` arm. -/
def applyMembership (s : DurableState) (logId : LogId) (membership : Membership) :
    Except StorageError DurableState := do
  guardEntry s logId
  refuseIf (membershipNamesRoot membership s.model.authority.publicKey)
    (.corrupt ⟨"membership", "a membership entry names the deployment ROOT; " ++
      "ROOT is never a committed voter or learner"⟩)
  refuseIf ((projectMembership membership).learners.card > maxLearnerEnvelope)
    (.corrupt ⟨"membership",
      "a membership entry over the learner envelope; the store would not reopen"⟩)
  .ok (s.withMembership logId membership)

section

variable (ext : Externals)

/-- The `EntryPayload::Normal` arm. -/
def applyNormal (b : Batch) (logId : LogId) (groupId : Bytes) (command : CommandV1) :
    Except StorageError (Batch × CommandReplyV1) :=
  let applied := applyWireCommandRecording ext ⟨b.durable.model, b.changes, false⟩ logId groupId
    command
  match applied.2 with
  | .error fault => .error (.fault fault)
  | .ok reply => .ok (⟨{ b.durable with model := applied.1.state }, applied.1.changes⟩, reply)

/-- One turn of the loop. -/
def applyEntry (groupId : Bytes) (b : Batch) (entry : Entry) :
    Except StorageError (Batch × CommandReplyV1) :=
  match entry.payload with
  | .blank => do
    guardEntry b.durable entry.logId
    .ok ({ b with durable := b.durable.setLastApplied entry.logId }, .nonCommand)
  | .membership membership => do
    let durable ← applyMembership b.durable entry.logId membership
    .ok ({ b with durable := durable }, .nonCommand)
  | .normal command => applyNormal ext b entry.logId groupId command

/-- The loop: the batch after every entry, and the replies in order. -/
def applyEntries (groupId : Bytes) (b : Batch) : List Entry →
    Except StorageError (Batch × List CommandReplyV1)
  | [] => .ok (b, [])
  | entry :: rest => do
    let (b', reply) ← applyEntry ext groupId b entry
    let (b'', replies) ← applyEntries groupId b' rest
    .ok (b'', reply :: replies)

/-- A batch of one entry; what is refused changes nothing. -/
def applyOne (s : DurableState) (e : Entry) :
    DurableState × Except StorageError CommandReplyV1 :=
  match applyEntry ext s.model.authority.groupId.bytes (Batch.start s) e with
  | .ok (b, reply) => (b.durable, .ok reply)
  | .error err => (s, .error err)

/-- What a group goes through: commands and native memberships, at their log ids. -/
inductive GroupEvent where
  | command (delivery : Delivery)
  | membership (logId : LogId) (membership : Membership)

/-- One event; what is not accepted changes nothing. -/
def advance (s : DurableState) :
    GroupEvent → DurableState × Except StorageError (Option CommandReply)
  | .command d =>
    let delivered := deliver ext s.model d
    ({ s with model := delivered.1 },
      match delivered.2 with
      | .ok reply => .ok (some reply)
      | .error fault => .error (.fault fault))
  | .membership logId membership =>
    match applyMembership s logId membership with
    | .ok durable => (durable, .ok none)
    | .error e => (s, .error e)

end

/-! ### What an entry does -/

theorem guardEntry_eq_ok {s : DurableState} {logId : LogId} :
    guardEntry s logId = .ok () ↔ guardDelivery s.model logId = .ok () := by
  unfold guardEntry
  cases guardDelivery s.model logId <;> simp

/-- Everything the membership arm checks. -/
theorem applyMembership_eq_ok {s s' : DurableState} {logId : LogId} {membership : Membership} :
    applyMembership s logId membership = .ok s' ↔
      guardDelivery s.model logId = .ok () ∧
      membershipNamesRoot membership s.model.authority.publicKey = false ∧
      (projectMembership membership).learners.card ≤ maxLearnerEnvelope ∧
      s.withMembership logId membership = s' := by
  simp only [applyMembership, accepts_iff, guardEntry_eq_ok]

/-- **One event of a group**: no row changes, or a command takes one of its steps. -/
theorem advance_cases (ext : Externals) (s : DurableState) (e : GroupEvent) :
    (∃ membership membershipLogId lastApplied, (advance ext s e).1.model =
      { s.model with
        membership := membership
        membershipLogId := membershipLogId
        lastApplied := lastApplied }) ∨
    ∃ logId command reply change entry row, e = .command (logId, command) ∧
      (advance ext s e).2 = .ok (some reply) ∧
      Step ext s.model logId command change entry row reply ∧
      Performed s.model (advance ext s e).1.model logId change entry row := by
  cases e with
  | command d =>
    simp only [advance]
    refine deliver_elim ext s.model d (fun _ => .inl ⟨_, _, _, rfl⟩) fun _ hstep hdone => ?_
    exact .inr ⟨d.1, d.2, _, _, _, _, rfl, rfl, hstep, hdone⟩
  | membership logId m =>
    refine .inl ?_
    simp only [advance]
    cases happ : applyMembership s logId m with
    | error => exact ⟨_, _, _, rfl⟩
    | ok =>
      obtain ⟨-, -, -, rfl⟩ := applyMembership_eq_ok.mp happ
      exact ⟨_, _, _, rfl⟩

/-- What one entry makes of the state: nothing, or what its payload says. -/
inductive Applied (ext : Externals) (s : DurableState) (e : Entry) : DurableState → Prop where
  | refused : Applied ext s e s
  | blank (hpay : e.payload = .blank) : Applied ext s e (s.setLastApplied e.logId)
  | membership (m : Membership) (hpay : e.payload = .membership m)
      (happ : applyMembership s e.logId m = .ok (s.withMembership e.logId m)) :
      Applied ext s e (s.withMembership e.logId m)
  | command (command : CommandV1) (hpay : e.payload = .normal command) :
      Applied ext s e
        { s with model := (deliver ext s.model (e.logId, modelCommand ext command)).1 }

theorem applyOne_applied (ext : Externals) (s : DurableState) (e : Entry) :
    Applied ext s e (applyOne ext s e).1 := by
  obtain ⟨logId, payload⟩ := e
  cases payload with
  | blank =>
    simp only [applyOne, applyEntry]
    cases guardEntry (Batch.start s).durable logId with
    | error => exact .refused
    | ok => exact .blank rfl
  | membership m =>
    simp only [applyOne, applyEntry]
    cases happ : applyMembership (Batch.start s).durable logId m with
    | error => exact .refused
    | ok =>
      obtain ⟨-, -, -, rfl⟩ := applyMembership_eq_ok.mp happ
      exact .membership m rfl happ
  | normal command =>
    have hstate := applyWireCommand_state ext s.model logId s.model.authority.groupId.bytes command
    simp only [applyOne, applyEntry, applyNormal]
    split
    · rename_i b reply happ
      split at happ
      · cases happ
      · cases happ
        have hdeliv : Applied ext s ⟨logId, .normal command⟩ _ := .command command rfl
        rw [← hstate] at hdeliv
        exact hdeliv
    · exact .refused

end AsterRpc.Coordination

import AsterRpc.Coordination.Resource

/-!
# Expiry and retirement

`model/expire.rs` and `model/retire.rs`: the leader's report that a lease has
run out, and the end of a client journal.
-/

namespace AsterRpc.Coordination

/-! ### Expiry -/

structure ExpireCommand where
  resource : ResourceKey
  epoch : ℕ
  leaseRevision : ℕ
deriving DecidableEq

inductive ExpireDecision where
  | apply (row : ResourceRow)
  | stale

def ExpireDecision.systemResultCode : ExpireDecision → Int
  | .apply _ => sysExpired
  | .stale => sysExpiryStale

/-- `expire::decide`: only the exact lease the leader saw expires. -/
def decideExpire (s : State) (command : ExpireCommand) : ExpireDecision :=
  match s.resources[command.resource]? with
  | none => .stale
  | some row =>
    if !row.held || row.epoch != command.epoch || row.leaseRevision != command.leaseRevision then
      .stale
    else if row.epoch ≥ maxCounter || row.leaseRevision ≥ maxCounter then .stale
    else .apply row.ended

theorem decideExpire_apply {s : State} {command : ExpireCommand} {row : ResourceRow}
    (h : decideExpire s command = .apply row) :
    ∃ old, s.resources[command.resource]? = some old ∧ old.held = true ∧
      old.epoch = command.epoch ∧ old.leaseRevision = command.leaseRevision ∧
      old.epoch < maxCounter ∧ old.leaseRevision < maxCounter ∧ row = old.ended := by
  unfold decideExpire at h
  split at h
  · cases h
  · rename_i old hold
    split_ifs at h with hmatch hroom
    simp only [Bool.or_eq_true, Bool.not_eq_true', bne_iff_ne, ne_eq, not_or, not_not,
      Bool.not_eq_false] at hmatch
    simp only [Bool.or_eq_true, decide_eq_true_eq, not_or, Nat.not_le] at hroom
    cases h
    exact ⟨old, hold, hmatch.1.1, hmatch.1.2, hmatch.2, hroom.1, hroom.2, rfl⟩

/-! ### Retirement -/

structure RetireCommand where
  actor : NodeId
  targetActor : NodeId
  targetClientId : ClientId
deriving DecidableEq

/-- The journal a retirement ends. -/
def RetireCommand.target (command : RetireCommand) : SessionKey :=
  (command.targetActor, command.targetClientId)

inductive RetireEffect where
  | convert
  | createTombstone
  | alreadyRetired

abbrev RetireDecision := Except RefusalReason RetireEffect

/-- `retire::decide`: one's own journal, or any journal for an administrator. -/
def decideRetire (s : State) (command : RetireCommand) : RetireDecision :=
  if !(command.actor == command.targetActor || s.isAdministrator command.actor) then
    .error .permissionChanged
  else
    match s.sessions[command.target]? with
    | some session => if session.retired then .ok .alreadyRetired else .ok .convert
    | none =>
      if (s.capacityFor command.targetActor).retainedExhausted then
        .error .retainedSessionCapReached
      else .ok .createTombstone

/-- The journal of a client that was retired before it ever spoke. -/
def tombstone : Session where
  lastSequence := 0
  requestHash := FixedBytes.fill 32 0
  lastResult := none
  retired := true

/-- `effect_row`. -/
def retireEffectRow (s : State) (command : RetireCommand) : RetireEffect → Option Session
  | .alreadyRetired => none
  | .convert => s.sessions[command.target]?.map fun existing => { existing with retired := true }
  | .createTombstone => some tombstone

/-- The row a retirement writes: an existing live journal marked retired, or a tombstone where there
was none and there is room. -/
inductive RetireStep (s : State) (command : RetireCommand) : Session → Prop where
  | convert (existing : Session) (hprev : s.sessions[command.target]? = some existing)
      (hlive : existing.retired = false)
      (hmay : (command.actor == command.targetActor || s.isAdministrator command.actor) =
        true) :
      RetireStep s command { existing with retired := true }
  | tombstone (hnone : s.sessions[command.target]? = none)
      (hroom : (s.capacityFor command.targetActor).retainedExhausted = false)
      (hmay : (command.actor == command.targetActor || s.isAdministrator command.actor) =
        true) :
      RetireStep s command tombstone

theorem decideRetire_step {s : State} {command : RetireCommand} {effect : RetireEffect}
    (h : decideRetire s command = .ok effect) :
    effect = .alreadyRetired ∨ ∃ row, RetireStep s command row := by
  unfold decideRetire at h
  cases hmay : command.actor == command.targetActor || s.isAdministrator command.actor with
  | false =>
    rw [hmay] at h
    cases h
  | true =>
    rw [hmay] at h
    simp only [Bool.not_true, Bool.false_eq_true, if_false] at h
    cases hsess : s.sessions[command.target]? with
    | some session =>
      rw [hsess] at h
      dsimp only at h
      split_ifs at h with hret
      · exact .inl (Except.ok.inj h).symm
      · exact .inr ⟨_, .convert session hsess (by simpa using hret) hmay⟩
    | none =>
      rw [hsess] at h
      dsimp only at h
      split_ifs at h with hfull
      exact .inr ⟨_, .tombstone hsess (by simpa using hfull) hmay⟩

theorem RetireStep.decideRetire {s : State} {command : RetireCommand} {row : Session}
    (h : RetireStep s command row) :
    ∃ effect, decideRetire s command = .ok effect ∧
      retireEffectRow s command effect = some row := by
  cases h with
  | convert existing hprev hlive hmay =>
    refine ⟨.convert, ?_, ?_⟩
    · simp [Coordination.decideRetire, hmay, hprev, hlive]
    · simp [retireEffectRow, hprev]
  | tombstone hnone hroom hmay =>
    exact ⟨.createTombstone, by simp [Coordination.decideRetire, hmay, hnone, hroom], rfl⟩

end AsterRpc.Coordination

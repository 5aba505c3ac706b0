import AsterRpc.Coordination.State

/-!
# The sequence classifier

`model/classify.rs`: the thirteen rows that decide, from a client's journal
alone, whether a request is new, a replay of the last answer, or refused before
its action is looked at.
-/

namespace AsterRpc.Coordination

variable {sequence : ℕ} {capacity : Capacity} {c : Bool} {session : Session} {hash : Hash}
  {saved : SavedReply}

/-- The row of the classification table that decided. -/
inductive Row where
  | sequenceZero
  | replay
  | retired
  | hashConflict
  | tooOld
  | ceilingExisting
  | exactNext
  | gap
  | noSessionRetainedFull
  | noSessionActiveFull
  | noSessionFirst
  | ceilingAbsent
  | noSessionGap

inductive Classification where
  /-- The action must be decided; the sequence is the journal's next one. -/
  | unresolved (row : Row) (createsSession : Bool)
  | replay (row : Row) (saved : SavedReply)
  | refuse (row : Row) (reason : Reason)

/-- `classify_absent`: rows 9, 10, 12, 11 and 13, in that order. -/
def classifyAbsent (sequence : ℕ) (capacity : Capacity) : Classification :=
  if capacity.retainedExhausted then .refuse .noSessionRetainedFull .retainedSessionCapReached
  else if capacity.activeExhausted then .refuse .noSessionActiveFull .activeClientCap
  else if sequence > maxCounter then .refuse .ceilingAbsent .counterExhausted
  else if sequence = 1 then .unresolved .noSessionFirst true
  else .refuse .noSessionGap .sequenceGap

/-- Rows 3 to 8: a journal exists and the request is no replay of its last answer. -/
def classifyFresh (session : Session) (sequence : ℕ) : Classification :=
  if session.retired then .refuse .retired .clientRetired
  else if sequence = session.lastSequence then .refuse .hashConflict .sequenceConflict
  else if sequence < session.lastSequence then .refuse .tooOld .sequenceTooOld
  else if session.lastSequence ≥ maxCounter || sequence > maxCounter then
    .refuse .ceilingExisting .counterExhausted
  else if sequence = session.lastSequence + 1 then .unresolved .exactNext false
  else .refuse .gap .sequenceGap

/-- `classify`. -/
def classify (session : Option Session) (sequence : ℕ) (requestHash : Hash)
    (capacity : Capacity) : Classification :=
  if sequence = 0 then .refuse .sequenceZero .sequenceTooOld
  else
    match session with
    | none => classifyAbsent sequence capacity
    | some session =>
      if sequence = session.lastSequence && requestHash == session.requestHash then
        match session.lastResult with
        | some saved => .replay .replay saved
        | none => classifyFresh session sequence
      else classifyFresh session sequence

/-- The sequence a journal takes next; 1 when there is none. -/
def nextSequence : Option Session → ℕ
  | none => 1
  | some session => session.lastSequence + 1

/-- What it takes for a request to go on to be decided. -/
structure Admitted (session : Option Session) (sequence : ℕ) (capacity : Capacity) : Prop where
  next : sequence = nextSequence session
  bounded : sequence ≤ maxCounter
  live : ∀ x, session = some x → x.retired = false
  room : session = none → capacity.retainedExhausted = false ∧ capacity.activeExhausted = false

variable {row : Row}

theorem classifyAbsent_unresolved (h : classifyAbsent sequence capacity = .unresolved row c) :
    Admitted none sequence capacity := by
  unfold classifyAbsent at h
  split_ifs at h with hkeep hactive hceil hfirst
  refine ⟨hfirst, by omega, ?_, ?_⟩
  · intro x hx
    cases hx
  · intro _
    exact ⟨by simpa using hkeep, by simpa using hactive⟩

theorem classifyFresh_unresolved (h : classifyFresh session sequence = .unresolved row c) :
    Admitted (some session) sequence capacity := by
  unfold classifyFresh at h
  split_ifs at h with hret heq hold hceil hnext
  simp only [Bool.or_eq_true, decide_eq_true_eq, not_or] at hceil
  refine ⟨hnext, by omega, ?_, ?_⟩
  · intro x hx
    cases hx
    simpa using hret
  · intro hx
    cases hx

/-- **Only the next sequence is decided**, of a live journal or of a new one with room for it. -/
theorem classify_unresolved {session : Option Session}
    (h : classify session sequence hash capacity = .unresolved row c) :
    Admitted session sequence capacity := by
  unfold classify at h
  split_ifs at h with hzero
  cases session with
  | none => exact classifyAbsent_unresolved h
  | some session =>
    dsimp only at h
    split_ifs at h with hsame
    · cases hlast : session.lastResult with
      | some =>
        rw [hlast] at h
        cases h
      | none =>
        rw [hlast] at h
        exact classifyFresh_unresolved h
    · exact classifyFresh_unresolved h

theorem classifyFresh_ne_replay : classifyFresh session sequence ≠ .replay row saved := by
  unfold classifyFresh
  split_ifs <;> simp

theorem classifyAbsent_ne_replay : classifyAbsent sequence capacity ≠ .replay row saved := by
  unfold classifyAbsent
  split_ifs <;> simp

/-- **A replay is of the journal's last answer**, under the same sequence and request hash. -/
theorem classify_replay_iff {session : Option Session} :
    classify session sequence hash capacity = .replay row saved ↔
      row = .replay ∧ sequence ≠ 0 ∧ ∃ x, session = some x ∧ x.lastSequence = sequence ∧
        x.requestHash = hash ∧ x.lastResult = some saved := by
  unfold classify
  by_cases hzero : sequence = 0
  · simp [hzero]
  rw [if_neg hzero]
  cases session with
  | none => simp [classifyAbsent_ne_replay]
  | some session =>
    dsimp only
    split_ifs with hsame
    · simp only [Bool.and_eq_true, decide_eq_true_eq, beq_iff_eq] at hsame
      cases hlast : session.lastResult with
      | none => simp [classifyFresh_ne_replay, hlast]
      | some =>
        obtain ⟨rfl, rfl⟩ := hsame
        simp [hlast, hzero, eq_comm]
    · simp only [Bool.and_eq_true, decide_eq_true_eq, beq_iff_eq] at hsame
      constructor
      · intro h
        exact absurd h classifyFresh_ne_replay
      · rintro ⟨-, -, x, hx, hseq, hhash, -⟩
        cases hx
        exact absurd ⟨hseq.symm, hhash.symm⟩ hsame

end AsterRpc.Coordination

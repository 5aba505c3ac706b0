import AsterRpc.Delegation.Rotation
import AsterRpc.Enrollment.Records
import AsterRpc.Foundation.StableSort

/-!
# The rotation journal

`enrollment/rotation.rs` and its callers in `enrollment/bootstrap.rs`: the
statements a node applied are journaled beside its fleet store, and a restart
replays them from the pin.  The journal is kept in sequence order and cut to the
latest eight.

A statement that claims a sequence at or below the pin is never looked at by a
replay, so only those above it matter.  An append survives the next replay when
the journal has room above the pin, when no other journaled statement claims the
new sequence, and when none continues the new root.  A journal with nothing
above its pin meets this for eight rotations and not for a ninth.

The trust a rotation re-targets (the policy store and the verifier) is a
parameter here; `Enrollment.RootService` says what it is.
-/

namespace AsterRpc.Delegation

open AsterRpc.Foundation AsterRpc.Coordination Std List
open AsterRpc.Enrollment (RecordError ServiceError WriteOutcome)

/-- `MAX_FORWARDED_ROTATIONS`. -/
def maxForwardedRotations : ℕ := 8

structure JournalFile where
  version : ℕ
  statements : List Bytes

/-- The JSON form of the journal file; of the file itself only its length is used. -/
structure JournalCodec where
  File : Type
  len : File → ℕ
  toVec : JournalFile → File
  fromSlice : File → Except String JournalFile

/-- What was written is read back. -/
def JournalCodec.RoundTrips (codec : JournalCodec) : Prop :=
  ∀ f, codec.fromSlice (codec.toVec f) = .ok f

/-- `RotationJournal`, with the content of the file at its path. -/
structure RotationJournal (codec : JournalCodec) where
  file : Option codec.File
  statements : List Bytes

open RotationJournal

namespace RotationJournal

variable {codec : JournalCodec}

/-- `RotationJournal::load`. -/
def load (codec : JournalCodec) : Option codec.File → Except RecordError (RotationJournal codec)
  | none => .ok ⟨none, []⟩
  | some bytes => do
    refuseIf (decide (codec.len bytes > maxForwardedRotations * 16 * 1024)) .tooManyRecords
    let file ← (codec.fromSlice bytes).mapError .storage
    refuseIf (file.version != 1) .unsupportedVersion
    return ⟨some bytes, file.statements⟩

end RotationJournal

section Code

variable (lib : Libraries) {codec : JournalCodec}

/-- What the journal is sorted by. -/
def sortSeq (statement : Bytes) : ℕ := (claimedRotationSeq lib statement).getD 0

/-- The loop of `RotationJournal::replay`. -/
def replay (now leeway : ℕ) : RootState → List Bytes → List RootRotation
  | _, [] => []
  | state, statement :: rest =>
    if (claimedRotationSeq lib statement).all fun seq => decide (seq ≤ state.seq) then
      replay now leeway state rest
    else
      match verifyRootRotation lib statement state now leeway with
      | .ok rotation => rotation :: replay now leeway rotation.apply rest
      | .error _ => []

/-- The last statements of a journal. -/
def latest (statements : List Bytes) : List Bytes :=
  statements.drop (statements.length - maxForwardedRotations)

namespace RotationJournal

/-- `RotationJournal::merge`, with how the write of the file ends. -/
def merge (journal : RotationJournal codec) (added : List Bytes) (disk : WriteOutcome) :
    RotationJournal codec × Except RecordError Unit :=
  let statements := added.foldl (fun known s => if s ∈ known then known else known ++ [s])
    journal.statements
  if statements = journal.statements then (journal, .ok ())
  else
    let kept := latest (sortOn (sortSeq lib) statements)
    let file := some (codec.toVec ⟨1, kept⟩)
    match disk with
    | .written => (⟨file, kept⟩, .ok ())
    | .kept detail => (journal, .error (.storage detail))
    | .replaced detail => ({ journal with file }, .error (.storage detail))

/-- `RotationJournal::append`. -/
def append (journal : RotationJournal codec) (statement : Bytes) (disk : WriteOutcome) :
    RotationJournal codec × Except RecordError Unit :=
  journal.merge lib [statement] disk

/-- `RotationJournal::seed`. -/
def seed (journal : RotationJournal codec) (history : List Bytes) (disk : WriteOutcome) :
    RotationJournal codec × Except RecordError Unit :=
  journal.merge lib history disk

end RotationJournal

/-- The loop of `verified_history`, down from the sequence `seq` of `after`. -/
def walkBack (now leeway : ℕ) :
    (seq : ℕ) → (after : RootState) → (remaining verified : List Bytes) →
      Except RecordError (List Bytes)
  | 0, _, remaining, verified => do
    refuseIf (!remaining.isEmpty) .invalidRecord
    return verified
  | seq + 1, after, remaining, verified =>
    match remaining.findIdx? fun s => claimedRotationSeq lib s == some (seq + 1) with
    | none => do
      refuseIf (!remaining.isEmpty) .invalidRecord
      return verified
    | some index => do
      let statement := remaining.getD index []
      let rotation ← (verifyAppliedRotation lib statement after now leeway).mapError
        fun _ => RecordError.invalidRecord
      let before : RootState := ⟨rotation.previousRoot, nextRootCommitment lib after.root, seq⟩
      -- pushed oldest last and reversed at the end: put in front here
      walkBack now leeway seq before (remaining.eraseIdx index) (statement :: verified)

/-- `verified_history`. -/
def verifiedHistory (history : List Bytes) (pinned : RootState) (now leeway : ℕ) :
    Except RecordError (List Bytes) :=
  walkBack lib now leeway pinned.seq pinned history []

/-- `RotationState`: the current root of a node and its journal. -/
structure RotationState (codec : JournalCodec) where
  root : RootState
  journal : RotationJournal codec

/-- What a rotation comes upon: the clock, what `open_rotated` and `rotated_verifier` answer for it,
and how the write of the journal ends. -/
structure Attempt (τ : Type) where
  now : ℕ
  retarget : RootRotation → Except ServiceError τ
  disk : WriteOutcome

variable {τ : Type}

/-- `resume_rotation`; the trust is none where it stays the configured one. -/
def resumeRotation (file : Option codec.File) (pin : RootState) (applied : List Bytes)
    (attempt : Attempt τ) (leeway : ℕ) :
    Except ServiceError (RotationState codec × Option τ) := do
  let journal ← (load codec file).mapError .record
  let journal ←
    if applied.isEmpty then pure journal
    else do
      let history ← (verifiedHistory lib applied pin attempt.now leeway).mapError
        fun _ => ServiceError.notHistory
      let seeded := journal.seed lib history attempt.disk
      seeded.2.mapError ServiceError.record
      pure seeded.1
  match (replay lib attempt.now leeway pin journal.statements).getLast? with
  | none => return (⟨pin, journal⟩, none)
  | some last => do
    let trust ← attempt.retarget last
    return (⟨last.apply, journal⟩, some trust)

namespace RotationState

/-- One turn of `apply_root_rotations`: the statement is journaled before it takes effect. -/
def turn (state : RotationState codec) (statement : Bytes) (attempt : Attempt τ) (leeway : ℕ) :
    RotationState codec × Except ServiceError τ :=
  match verifyRootRotation lib statement state.root attempt.now leeway with
  | .error e => (state, .error (.rejected e))
  | .ok verified =>
    match attempt.retarget verified with
    | .error e => (state, .error e)
    | .ok trust =>
      match state.journal.append lib verified.statement attempt.disk with
      | (journal, .error e) => (⟨state.root, journal⟩, .error (.record e))
      | (journal, .ok ()) => (⟨verified.apply, journal⟩, .ok trust)

/-- Rotations one after the other, each carried out. -/
def rotateAll (leeway : ℕ) : RotationState codec → List (Bytes × Attempt τ) →
    Except ServiceError (RotationState codec)
  | state, [] => .ok state
  | state, (statement, attempt) :: rest =>
    match state.turn lib statement attempt leeway with
    | (_, .error e) => .error e
    | (next, .ok _) => rotateAll leeway next rest

end RotationState

end Code

/-! ### What a replay ends in -/

section Replay

variable (lib : Libraries) (now leeway : ℕ)

/-- The root a replay reaches, statement by statement. -/
def resumed : RootState → List Bytes → RootState
  | state, [] => state
  | state, statement :: rest =>
    if sortSeq lib statement ≤ state.seq then resumed state rest
    else
      match verifyRootRotation lib statement state now leeway with
      | .ok rotation => resumed rotation.apply rest
      | .error _ => state

variable {lib now leeway} {state S : RootState} {statement : Bytes} {rest J L : List Bytes}
  {r : RootRotation}

/-- What claims no sequence is skipped as sequence 0 would be. -/
theorem skips_iff :
    ((claimedRotationSeq lib statement).all fun seq => decide (seq ≤ state.seq)) = true ↔
      sortSeq lib statement ≤ state.seq := by
  cases h : claimedRotationSeq lib statement <;> simp [sortSeq, h]

theorem resumed_of_skip (h : sortSeq lib statement ≤ state.seq) :
    resumed lib now leeway state (statement :: rest) = resumed lib now leeway state rest := by
  simp [resumed, h]

section

variable (h : verifyRootRotation lib statement state now leeway = .ok r)

include h

theorem sortSeq_of_verified : sortSeq lib statement = state.seq + 1 := by
  simp [sortSeq, (verifyRootRotation_accepts h).2.2]

theorem apply_seq : r.apply.seq = state.seq + 1 :=
  (verifyRootRotation_accepts h).2.1

theorem resumed_of_verified :
    resumed lib now leeway state (statement :: rest) = resumed lib now leeway r.apply rest := by
  have hseq := sortSeq_of_verified h
  simp [resumed, h, hseq]

end

theorem resumed_of_refused {e : ChainError} (hseq : state.seq < sortSeq lib statement)
    (h : verifyRootRotation lib statement state now leeway = .error e) :
    resumed lib now leeway state (statement :: rest) = state := by
  simp [resumed, h, Nat.not_le.mpr hseq]

/-- A statement further ahead than the next sequence ends a replay. -/
theorem resumed_of_gap (hseq : state.seq + 1 < sortSeq lib statement) :
    resumed lib now leeway state (statement :: rest) = state := by
  cases h : verifyRootRotation lib statement state now leeway with
  | error => exact resumed_of_refused (Nat.lt_of_succ_lt hseq) h
  | ok =>
    have := sortSeq_of_verified h
    omega

/-- One statement of a replay: skipped, applied, or the end of it. -/
theorem resumed_cases (lib : Libraries) (now leeway : ℕ) (state : RootState) (statement : Bytes)
    (rest : List Bytes) :
    (sortSeq lib statement ≤ state.seq ∧
      resumed lib now leeway state (statement :: rest) = resumed lib now leeway state rest) ∨
    (∃ r, verifyRootRotation lib statement state now leeway = .ok r ∧
      resumed lib now leeway state (statement :: rest) = resumed lib now leeway r.apply rest) ∨
    (state.seq < sortSeq lib statement ∧
      resumed lib now leeway state (statement :: rest) = state) := by
  by_cases hseq : sortSeq lib statement ≤ state.seq
  · exact .inl ⟨hseq, resumed_of_skip hseq⟩
  · cases h : verifyRootRotation lib statement state now leeway with
    | ok r => exact .inr (.inl ⟨r, rfl, resumed_of_verified h⟩)
    | error =>
      have hlt := Nat.lt_of_not_le hseq
      exact .inr (.inr ⟨hlt, resumed_of_refused hlt h⟩)

/-- A replay never goes back. -/
theorem le_resumed_seq : state.seq ≤ (resumed lib now leeway state J).seq := by
  induction J generalizing state with
  | nil => exact le_rfl
  | cons statement rest ih =>
    rcases resumed_cases lib now leeway state statement rest with ⟨-, h⟩ | ⟨r, hr, h⟩ | ⟨-, h⟩
    · rw [h]
      exact ih
    · rw [h]
      have hseq := apply_seq hr
      have hle : r.apply.seq ≤ (resumed lib now leeway r.apply rest).seq := ih
      omega
    · rw [h]

theorem resumed_skip_append (h : ∀ s ∈ L, sortSeq lib s ≤ state.seq) :
    resumed lib now leeway state (L ++ J) = resumed lib now leeway state J := by
  induction L with
  | nil => rfl
  | cons statement rest ih =>
    rw [cons_append, resumed_of_skip (h statement mem_cons_self)]
    exact ih fun s hs => h s (mem_cons_of_mem statement hs)

theorem latest_eq_self (h : J.length ≤ maxForwardedRotations) : latest J = J := by
  rw [latest, Nat.sub_eq_zero_of_le h, drop_zero]

section

variable (h : Ordered (sortSeq lib) J)

include h

/-- Only what lies above the pin is looked at. -/
theorem resumed_beyond :
    resumed lib now leeway state J =
      resumed lib now leeway state (beyond (sortSeq lib) state.seq J) := by
  conv_lhs => rw [h.cut state.seq]
  exact resumed_skip_append fun s hs => (mem_upTo.mp hs).2

/-- What a replay reached, it reached on the statements up to the sequence it reached. -/
theorem resumed_upTo_append (hS : resumed lib now leeway state J = S) (more : List Bytes) :
    resumed lib now leeway state (upTo (sortSeq lib) S.seq J ++ more) =
      resumed lib now leeway S more := by
  induction J generalizing state with
  | nil =>
    have hstate : state = S := hS
    rw [hstate]
    rfl
  | cons statement rest ih =>
    rcases resumed_cases lib now leeway state statement rest with
      ⟨hle, h'⟩ | ⟨r, hr, h'⟩ | ⟨hlt, h'⟩
    · have hle' : sortSeq lib statement ≤ S.seq := hle.trans (hS ▸ le_resumed_seq)
      rw [upTo_cons_of_le hle', cons_append, resumed_of_skip hle]
      exact ih h.tail (h'.symm.trans hS)
    · have hrest : resumed lib now leeway r.apply rest = S := h'.symm.trans hS
      have hle' : sortSeq lib statement ≤ S.seq := by
        rw [sortSeq_of_verified hr, ← apply_seq hr, ← hrest]
        exact le_resumed_seq
      rw [upTo_cons_of_le hle', cons_append, resumed_of_verified hr]
      exact ih h.tail hrest
    · -- the replay ended here, and everything that follows lies further ahead
      have hstate : state = S := h'.symm.trans hS
      subst hstate
      rw [upTo_eq_nil (h.above_of_head hlt)]
      rfl

/-- The latest statements are the latest of those above a bound, after some of the others. -/
theorem latest_cut (bound : ℕ) :
    latest J = (upTo (sortSeq lib) bound J).drop (J.length - maxForwardedRotations) ++
      latest (beyond (sortSeq lib) bound J) := by
  have hlen := congrArg length (h.cut bound)
  rw [length_append] at hlen
  unfold latest
  conv_lhs => arg 2; rw [h.cut bound]
  rw [drop_append]
  congr 2
  omega

/-- Dropping statements at or below the pin does not change a replay. -/
theorem resumed_latest (hroom : (beyond (sortSeq lib) state.seq J).length ≤ maxForwardedRotations) :
    resumed lib now leeway state (latest J) = resumed lib now leeway state J := by
  rw [latest_cut h state.seq, resumed_skip_append, latest_eq_self hroom, ← resumed_beyond h]
  intro s hs
  exact (mem_upTo.mp (mem_of_mem_drop hs)).2

end

/-- The clock does not matter to statements whose time has come. -/
theorem resumed_clock {later : ℕ} (hnow : now < 2 ^ 64) (hlater : later < 2 ^ 64)
    (h : ∀ s ∈ J, NotBefore lib now s) (h' : ∀ s ∈ J, NotBefore lib later s) :
    resumed lib now leeway state J = resumed lib later leeway state J := by
  induction J generalizing state with
  | nil => rfl
  | cons statement rest ih =>
    have hverify : verifyRootRotation lib statement state now leeway =
        verifyRootRotation lib statement state later leeway := by
      unfold verifyRootRotation
      cases hopen : openStatement lib ChainError.ofJws statement with
      | error => rfl
      | ok opened =>
        have hiat := le_saturatingAdd leeway hnow (h statement mem_cons_self opened hopen)
        have hiat' := le_saturatingAdd leeway hlater (h' statement mem_cons_self opened hopen)
        simp [ok_bind, Nat.not_lt.mpr hiat, Nat.not_lt.mpr hiat']
    have hrest : ∀ q, resumed lib now leeway q rest = resumed lib later leeway q rest := fun q =>
      ih (fun s hs => h s (mem_cons_of_mem _ hs)) fun s hs => h' s (mem_cons_of_mem _ hs)
    simp [resumed, hverify, hrest]

/-- The last rotation of a replay leads to where the replay ends. -/
theorem getLast?_replay (lib : Libraries) (now leeway : ℕ) (pin : RootState) (J : List Bytes) :
    (((replay lib now leeway pin J).getLast?).elim pin RootRotation.apply) =
      resumed lib now leeway pin J := by
  induction J generalizing pin with
  | nil => rfl
  | cons statement rest ih =>
    by_cases hskip : sortSeq lib statement ≤ pin.seq
    · rw [resumed_of_skip hskip, ← ih]
      simp [replay, skips_iff.mpr hskip]
    · have hskip' : ¬ ((claimedRotationSeq lib statement).all
          fun seq => decide (seq ≤ pin.seq)) = true := fun h => hskip (skips_iff.mp h)
      cases hverify : verifyRootRotation lib statement pin now leeway with
      | error =>
        rw [resumed_of_refused (Nat.lt_of_not_le hskip) hverify]
        simp [replay, hskip', hverify, getLast?_nil]
      | ok r =>
        rw [resumed_of_verified hverify, ← ih]
        simp only [replay, hskip', hverify, Bool.false_eq_true, if_false, getLast?_cons]
        cases (replay lib now leeway r.apply rest).getLast? <;> rfl

end Replay

/-! ### One append -/

section Append

variable {lib : Libraries} {codec : JournalCodec} {now leeway : ℕ} {pin S : RootState}
  {t : Bytes} {J : List Bytes} {r : RootRotation} {journal : RotationJournal codec}

/-- An append that succeeds sorts a statement new to the journal in and drops the earliest. -/
theorem append_written {disk : WriteOutcome} (ht : t ∉ journal.statements)
    (h : (journal.append lib t disk).2 = .ok ()) :
    (journal.append lib t disk).1 =
      let kept := latest (sortOn (sortSeq lib) (journal.statements ++ [t]))
      ⟨some (codec.toVec ⟨1, kept⟩), kept⟩ := by
  have hne : journal.statements ++ [t] ≠ journal.statements := by simp
  cases disk <;> simp [RotationJournal.append, RotationJournal.merge, ht, hne] at h ⊢

/-- The statements a journal keeps are among those it was given. -/
theorem mem_latest {s : Bytes} (h : s ∈ latest J) : s ∈ J := mem_of_mem_drop h

theorem latest_ordered (h : Ordered (sortSeq lib) J) : Ordered (sortSeq lib) (latest J) :=
  h.sublist (drop_sublist _ _)

theorem beyond_sorted_length (ht : pin.seq < sortSeq lib t) :
    (beyond (sortSeq lib) pin.seq (sortOn (sortSeq lib) (J ++ [t]))).length =
      (beyond (sortSeq lib) pin.seq J).length + 1 := by
  have hperm : (sortOn (sortSeq lib) (J ++ [t])).Perm (J ++ [t]) :=
    perm_insertionSort _ _
  have hlen := (hperm.filter fun a => decide (pin.seq < sortSeq lib a)).length_eq
  have hlast : beyond (sortSeq lib) pin.seq [t] = [t] := beyond_eq_self (by simpa using ht)
  calc (beyond (sortSeq lib) pin.seq (sortOn (sortSeq lib) (J ++ [t]))).length
      = (beyond (sortSeq lib) pin.seq (J ++ [t])).length := hlen
    _ = (beyond (sortSeq lib) pin.seq J ++ [t]).length := by rw [beyond_append, hlast]
    _ = (beyond (sortSeq lib) pin.seq J).length + 1 := by simp

/-- **One append survives the next replay**, when the journal has room above the pin, nothing else
in it claims the new sequence and nothing in it continues the new root. -/
theorem resumed_append (hord : Ordered (sortSeq lib) J)
    (hJ : resumed lib now leeway pin J = S)
    (ht : verifyRootRotation lib t S now leeway = .ok r)
    (hrival : ∀ x ∈ J, sortSeq lib x ≠ S.seq + 1)
    (hroom : (beyond (sortSeq lib) pin.seq J).length < maxForwardedRotations)
    (hnext : ∀ x ∈ J, ∀ r', verifyRootRotation lib x r.apply now leeway ≠ .ok r') :
    resumed lib now leeway pin (latest (sortOn (sortSeq lib) (J ++ [t]))) = r.apply := by
  have hseq := sortSeq_of_verified ht
  have hpin : pin.seq ≤ S.seq := hJ ▸ le_resumed_seq
  have hsort := sortOn_ordered (sortSeq lib) (J ++ [t])
  rw [resumed_latest hsort (by rw [beyond_sorted_length (by omega)]; omega),
    sortOn_concat hord, hseq]
  -- nothing claims the new sequence, so what precedes `t` is what the replay had reached `S` on
  have hlow : upTo (sortSeq lib) (S.seq + 1) J = upTo (sortSeq lib) S.seq J := by
    refine filter_congr fun x hx => ?_
    have := hrival x hx
    simp only [decide_eq_decide]
    omega
  rw [hlow, resumed_upTo_append hord hJ, resumed_of_verified ht]
  -- and what follows it does not continue the new root
  cases hhigh : beyond (sortSeq lib) (S.seq + 1) J with
  | nil => rfl
  | cons x =>
    obtain ⟨hx, hlt⟩ := mem_beyond.mp (hhigh ▸ mem_cons_self : x ∈ beyond (sortSeq lib) _ J)
    have hahead : r.apply.seq < sortSeq lib x := by
      rw [apply_seq ht]
      exact hlt
    cases hverify : verifyRootRotation lib x r.apply now leeway with
    | ok r' => exact absurd hverify (hnext x hx r')
    | error => exact resumed_of_refused hahead hverify

end Append

/-! ### Journals as the code writes them -/

/-- The journals the code can hold: from no file, by merging and by loading the file again.  A merge
that fails leaves the statements, and a file of one that does not. -/
inductive Journaled (lib : Libraries) (codec : JournalCodec) : RotationJournal codec → Prop
  | absent : Journaled lib codec ⟨none, []⟩
  | merge {journal : RotationJournal codec} (added : List Bytes) (h : Journaled lib codec journal) :
      Journaled lib codec (journal.merge lib added .written).1
  | load {journal journal' : RotationJournal codec} (h : Journaled lib codec journal)
      (hload : load codec journal.file = .ok journal') : Journaled lib codec journal'

section Journals

variable {lib : Libraries} {codec : JournalCodec} {journal journal' : RotationJournal codec}

/-- The file lists the statements held in memory, in order. -/
structure InStep (lib : Libraries) (codec : JournalCodec) (journal : RotationJournal codec) :
    Prop where
  ordered : Ordered (sortSeq lib) journal.statements
  reloads : ∀ journal', load codec journal.file = .ok journal' →
    journal'.statements = journal.statements

theorem InStep.merge {added : List Bytes} {disk : WriteOutcome} (hcodec : codec.RoundTrips)
    (h : InStep lib codec journal) (hok : (journal.merge lib added disk).2 = .ok ()) :
    InStep lib codec (journal.merge lib added disk).1 := by
  unfold RotationJournal.merge at hok ⊢
  dsimp only at hok ⊢
  split
  · exact h
  · rename_i hnew
    rw [if_neg hnew] at hok
    cases disk with
    | kept => cases hok
    | replaced => cases hok
    | written =>
      refine ⟨latest_ordered (sortOn_ordered _ _), ?_⟩
      intro journal' hload
      simp only [load, accepts_iff, mapError_accepts] at hload
      obtain ⟨-, _, hfile, -, hjournal⟩ := hload
      rw [hcodec] at hfile
      cases hfile
      cases hjournal
      rfl

theorem merge_written (journal : RotationJournal codec) (added : List Bytes) :
    (journal.merge lib added .written).2 = .ok () := by
  unfold RotationJournal.merge
  dsimp only
  split <;> rfl

theorem Journaled.inStep (hcodec : codec.RoundTrips) (h : Journaled lib codec journal) :
    InStep lib codec journal := by
  induction h with
  | absent =>
    refine ⟨List.Pairwise.nil, ?_⟩
    intro journal' hload
    cases hload
    rfl
  | merge added _ ih => exact ih.merge hcodec (merge_written _ added)
  | @load journal journal' _ hload ih =>
    have hsame := ih.reloads _ hload
    have hfile : journal'.file = journal.file := by
      cases hf : journal.file with
      | none => rw [hf] at hload; cases hload; rfl
      | some =>
        rw [hf] at hload
        simp only [RotationJournal.load, accepts_iff] at hload
        obtain ⟨-, _, -, -, rfl⟩ := hload
        rfl
    refine ⟨hsame ▸ ih.ordered, ?_⟩
    intro journal'' hload'
    rw [hfile] at hload'
    rw [ih.reloads _ hload', hsame]

end Journals

/-! ### Runs of rotations -/

section Runs

variable {lib : Libraries} {codec : JournalCodec} {τ : Type} {leeway now : ℕ}
  {state next last : RotationState codec} {statement : Bytes} {attempt : Attempt τ}
  {events rest : List (Bytes × Attempt τ)}

/-- A turn that takes effect. -/
theorem turn_accepts {trust : τ}
    (h : state.turn lib statement attempt leeway = (next, .ok trust)) :
    ∃ r, verifyRootRotation lib statement state.root attempt.now leeway = .ok r ∧
      next.root = r.apply ∧ next.journal = (state.journal.append lib statement attempt.disk).1 ∧
      (state.journal.append lib statement attempt.disk).2 = .ok () := by
  unfold RotationState.turn at h
  cases hverify : verifyRootRotation lib statement state.root attempt.now leeway with
  | error => rw [hverify] at h; cases h
  | ok r =>
    rw [hverify] at h
    dsimp only at h
    rw [(verifyRootRotation_accepts hverify).1] at h
    split at h
    · cases h
    · rcases happend : state.journal.append lib statement attempt.disk with ⟨journal, _ | _⟩
      · rw [happend] at h
        cases h
      · rw [happend] at h
        cases h
        exact ⟨r, rfl, rfl, rfl, rfl⟩

theorem rotateAll_cons (h : state.rotateAll lib leeway ((statement, attempt) :: rest) = .ok last) :
    ∃ next r, (state.turn lib statement attempt leeway).1 = next ∧
      verifyRootRotation lib statement state.root attempt.now leeway = .ok r ∧
      next.root = r.apply ∧
      next.journal = (state.journal.append lib statement attempt.disk).1 ∧
      (state.journal.append lib statement attempt.disk).2 = .ok () ∧
      next.rotateAll lib leeway rest = .ok last := by
  unfold RotationState.rotateAll at h
  rcases hturn : state.turn lib statement attempt leeway with ⟨next, _ | _⟩ <;> rw [hturn] at h
  · cases h
  · obtain ⟨r, hr, hroot, hjournal, hok⟩ := turn_accepts hturn
    exact ⟨next, r, rfl, hr, hroot, hjournal, hok, h⟩

section

variable (h : state.rotateAll lib leeway events = .ok last)

include h

/-- Every rotation moves the sequence by one. -/
theorem rotateAll_seq : last.root.seq = state.root.seq + events.length := by
  induction events generalizing state with
  | nil => cases h; rfl
  | cons e rest ih =>
    obtain ⟨_, r, -, hr, hroot, -, -, hrest⟩ := rotateAll_cons h
    rw [ih hrest, hroot, apply_seq hr, length_cons]
    omega

/-- The statements of a run, replayed from where it started, end where it ended. -/
theorem resumed_rotateAll (hnow : now < 2 ^ 64) (hclock : ∀ e ∈ events, NotBefore lib now e.1) :
    resumed lib now leeway state.root (events.map Prod.fst) = last.root := by
  induction events generalizing state with
  | nil => cases h; rfl
  | cons e rest ih =>
    obtain ⟨_, r, -, hr, hroot, -, -, hrest⟩ := rotateAll_cons h
    have hlater := verifyRootRotation_later hnow hr (hclock e mem_cons_self)
    rw [map_cons, resumed_of_verified hlater, ← hroot]
    exact ih hrest fun x hx => hclock x (mem_cons_of_mem e hx)

/-- A statement of a run claims the sequence of its place. -/
theorem rotateAll_claims {i : ℕ} (hi : i < events.length) :
    sortSeq lib events[i].1 = state.root.seq + i + 1 := by
  induction events generalizing state i with
  | nil => cases hi
  | cons e rest ih =>
    obtain ⟨_, r, -, hr, hroot, -, -, hrest⟩ := rotateAll_cons h
    cases i with
    | zero => exact sortSeq_of_verified hr
    | succ =>
      rw [getElem_cons_succ, ih hrest (Nat.lt_of_succ_lt_succ hi), hroot, apply_seq hr]
      omega

end

theorem InStep.rotateAll (hcodec : codec.RoundTrips) (h : InStep lib codec state.journal)
    (hrun : state.rotateAll lib leeway events = .ok last) : InStep lib codec last.journal := by
  induction events generalizing state with
  | nil => cases hrun; exact h
  | cons e rest ih =>
    obtain ⟨_, r, -, -, -, hjournal, hok, hrest⟩ := rotateAll_cons hrun
    exact ih (hjournal ▸ h.merge hcodec hok) hrest

end Runs

/-! ### Restarts -/

section Restarts

variable {lib : Libraries} {codec : JournalCodec} {τ : Type} {pin : RootState} {now leeway : ℕ}
  {earlier : RotationJournal codec} {state next start last restarted : RotationState codec}
  {statement : Bytes} {attempt boot reboot : Attempt τ} {trust trust' : Option τ}
  {events : List (Bytes × Attempt τ)} {J before : List Bytes}

/-- What an append needs for the next restart at the clock `now` to find it. -/
structure Kept (lib : Libraries) (pin : RootState) (now leeway : ℕ) (state : RotationState codec)
    (statement : Bytes) (clock : ℕ) : Prop where
  /-- No journaled statement claims the sequence of the new one. -/
  unrivalled : ∀ x ∈ state.journal.statements, claimedRotationSeq lib x ≠ some (state.root.seq + 1)
  /-- Fewer than eight journaled statements claim a sequence above the pin. -/
  room : (beyond (sortSeq lib) pin.seq state.journal.statements).length < maxForwardedRotations
  /-- No journaled statement continues the new root. -/
  unfollowed : ∀ r, verifyRootRotation lib statement state.root clock leeway = .ok r →
    ∀ x ∈ state.journal.statements, ∀ r', verifyRootRotation lib x r.apply now leeway ≠ .ok r'

/-- Every append of a run is kept. -/
def KeptRun (lib : Libraries) (pin : RootState) (now leeway : ℕ) :
    RotationState codec → List (Bytes × Attempt τ) → Prop
  | _, [] => True
  | state, (statement, attempt) :: rest =>
    Kept lib pin now leeway state statement attempt.now ∧
      KeptRun lib pin now leeway (state.turn lib statement attempt leeway).1 rest

/-- A replay of the journal from the pin ends at the current root. -/
structure Recoverable (lib : Libraries) (codec : JournalCodec) (pin : RootState) (now leeway : ℕ)
    (state : RotationState codec) : Prop where
  inStep : InStep lib codec state.journal
  resumes : resumed lib now leeway pin state.journal.statements = state.root

theorem sortSeq_ne_succ {x : Bytes} {n : ℕ} (h : claimedRotationSeq lib x ≠ some (n + 1)) :
    sortSeq lib x ≠ n + 1 := by
  unfold sortSeq
  cases hclaim : claimedRotationSeq lib x with
  | none => simp
  | some =>
    rintro rfl
    exact h hclaim

section

variable (hcodec : codec.RoundTrips) (hnow : now < 2 ^ 64)
  (h : Recoverable lib codec pin now leeway state)

include hcodec hnow h

theorem Recoverable.rotate {r : RootRotation} (hpast : NotBefore lib now statement)
    (hkept : Kept lib pin now leeway state statement attempt.now)
    (hr : verifyRootRotation lib statement state.root attempt.now leeway = .ok r)
    (hroot : next.root = r.apply)
    (hjournal : next.journal = (state.journal.append lib statement attempt.disk).1)
    (hok : (state.journal.append lib statement attempt.disk).2 = .ok ()) :
    Recoverable lib codec pin now leeway next := by
  have hver := verifyRootRotation_later hnow hr hpast
  have hrival : ∀ x ∈ state.journal.statements, sortSeq lib x ≠ state.root.seq + 1 :=
    fun x hx => sortSeq_ne_succ (hkept.unrivalled x hx)
  have hnew : statement ∉ state.journal.statements :=
    fun hmem => hrival statement hmem (sortSeq_of_verified hr)
  refine ⟨hjournal ▸ h.inStep.merge hcodec hok, ?_⟩
  rw [hjournal, append_written hnew hok, hroot]
  exact resumed_append h.inStep.ordered h.resumes hver hrival hkept.room
    (hkept.unfollowed r hr)

theorem Recoverable.rotateAll (hpast : ∀ e ∈ events, NotBefore lib now e.1)
    (hkept : KeptRun lib pin now leeway state events)
    (hrun : state.rotateAll lib leeway events = .ok last) :
    Recoverable lib codec pin now leeway last := by
  induction events generalizing state with
  | nil => cases hrun; exact h
  | cons e rest ih =>
    obtain ⟨_, r, rfl, hr, hroot, hjournal, hok, hrest⟩ := rotateAll_cons hrun
    exact ih (h.rotate hcodec hnow (hpast e mem_cons_self) hkept.1 hr hroot hjournal hok)
      (fun x hx => hpast x (mem_cons_of_mem e hx)) hkept.2 hrest

end

/-! #### A journal with nothing above its pin -/

theorem latest_latest_append (xs ys : List Bytes) :
    latest (latest xs ++ ys) = latest (xs ++ ys) := by
  unfold latest
  rw [← drop_append_of_le_length (by omega), drop_drop]
  congr 1
  simp only [length_drop, length_append]
  omega

theorem beyond_latest (h : Ordered (sortSeq lib) J) (bound : ℕ) :
    beyond (sortSeq lib) bound (latest J) = latest (beyond (sortSeq lib) bound J) := by
  rw [latest_cut h bound, beyond_append, beyond_eq_nil, nil_append, beyond_eq_self]
  · exact fun s hs => (mem_beyond.mp (mem_latest hs)).2
  · exact fun s hs => (mem_upTo.mp (mem_of_mem_drop hs)).2

/-- A journal whose statements all lie behind the current root keeps the latest eight above the
pin. -/
theorem beyond_rotateAll (hord : Ordered (sortSeq lib) state.journal.statements)
    (hbehind : ∀ x ∈ state.journal.statements, sortSeq lib x ≤ state.root.seq)
    (hpin : pin.seq ≤ state.root.seq)
    (hpre : beyond (sortSeq lib) pin.seq state.journal.statements = latest before)
    (hrun : state.rotateAll lib leeway events = .ok last) :
    Ordered (sortSeq lib) last.journal.statements ∧
      beyond (sortSeq lib) pin.seq last.journal.statements =
        latest (before ++ events.map Prod.fst) := by
  induction events generalizing state before with
  | nil =>
    cases hrun
    simpa using ⟨hord, hpre⟩
  | cons e rest ih =>
    obtain ⟨next, r, -, hr, hroot, hjournal, hok, hrest⟩ := rotateAll_cons hrun
    have hseq := sortSeq_of_verified hr
    have hnew : e.1 ∉ state.journal.statements := by
      intro hmem
      have := hbehind e.1 hmem
      omega
    -- the new statement is the furthest ahead, so sorting leaves it at the end
    have hsort : sortOn (sortSeq lib) (state.journal.statements ++ [e.1]) =
        state.journal.statements ++ [e.1] := by
      rw [sortOn_concat hord, upTo_eq_self fun x hx => (hbehind x hx).trans (by omega),
        beyond_eq_nil fun x hx => (hbehind x hx).trans (by omega)]
    have hord' : Ordered (sortSeq lib) (state.journal.statements ++ [e.1]) :=
      hsort ▸ sortOn_ordered (sortSeq lib) _
    have hstatements : next.journal.statements = latest (state.journal.statements ++ [e.1]) := by
      rw [hjournal, append_written hnew hok, hsort]
    have hnextseq : next.root.seq = state.root.seq + 1 := by rw [hroot, apply_seq hr]
    have hlast : beyond (sortSeq lib) pin.seq [e.1] = [e.1] :=
      beyond_eq_self (by simp only [mem_singleton, forall_eq]; omega)
    have hpre' : beyond (sortSeq lib) pin.seq next.journal.statements =
        latest (before ++ [e.1]) := by
      rw [hstatements, beyond_latest hord', beyond_append, hpre, hlast, latest_latest_append]
    have hbehind' : ∀ x ∈ next.journal.statements, sortSeq lib x ≤ next.root.seq := by
      intro x hx
      rw [hstatements] at hx
      rcases mem_append.mp (mem_latest hx) with hx | hx
      · have := hbehind x hx
        omega
      · rw [mem_singleton.mp hx]
        omega
    have := ih (hstatements ▸ latest_ordered hord') hbehind' (by omega) hpre' hrest
    rwa [append_assoc] at this

/-- From nothing above the pin, a replay finds a run of at most eight rotations, and of a longer one
nothing at all. -/
theorem resumed_fresh_iff (hnow : now < 2 ^ 64) (hroot : state.root = pin)
    (hord : Ordered (sortSeq lib) state.journal.statements)
    (hfresh : beyond (sortSeq lib) pin.seq state.journal.statements = [])
    (hpast : ∀ e ∈ events, NotBefore lib now e.1)
    (hrun : state.rotateAll lib leeway events = .ok last) :
    resumed lib now leeway pin last.journal.statements = last.root ↔
      events.length ≤ maxForwardedRotations := by
  have hbehind : ∀ x ∈ state.journal.statements, sortSeq lib x ≤ state.root.seq := by
    intro x hx
    rw [hroot]
    by_contra hlt
    have hmem := mem_beyond.mpr ⟨hx, Nat.lt_of_not_le hlt⟩
    rw [hfresh] at hmem
    cases hmem
  have hnone : beyond (sortSeq lib) pin.seq state.journal.statements = latest [] := hfresh
  obtain ⟨hordered, hbeyond⟩ := beyond_rotateAll hord hbehind (by rw [hroot]) hnone hrun
  rw [resumed_beyond hordered, hbeyond, nil_append]
  have hseq := rotateAll_seq hrun
  rw [hroot] at hseq
  constructor
  · intro hresumed
    by_contra hlong
    -- the earliest statement kept is two or more ahead of the pin
    have hlt : events.length - maxForwardedRotations < events.length := by
      simp only [maxForwardedRotations] at hlong ⊢
      omega
    have hclaim := rotateAll_claims hrun hlt
    rw [hroot] at hclaim
    have hlatest : latest (events.map Prod.fst) =
        (events[events.length - maxForwardedRotations]).1 ::
          (events.drop (events.length - maxForwardedRotations + 1)).map Prod.fst := by
      unfold latest
      rw [length_map, ← map_drop, drop_eq_getElem_cons hlt, map_cons]
    rw [hlatest, resumed_of_gap (by omega)] at hresumed
    rw [← hresumed] at hseq
    omega
  · intro hshort
    rw [latest_eq_self (length_map Prod.fst ▸ hshort), ← hroot]
    exact resumed_rotateAll hrun hnow hpast

/-! #### The restart -/

theorem resumeRotation_accepts
    (h : resumeRotation lib earlier.file pin [] boot leeway = .ok (start, trust)) :
    load codec earlier.file = .ok start.journal ∧
      start.root = resumed lib boot.now leeway pin start.journal.statements := by
  simp only [resumeRotation, isEmpty_nil, if_true, bind_accepts, mapError_accepts] at h
  obtain ⟨journal, hload, _, hsame, hstart⟩ := h
  cases hsame
  have hresumed := getLast?_replay lib boot.now leeway pin journal.statements
  cases hlast : (replay lib boot.now leeway pin journal.statements).getLast? with
  | none =>
    rw [hlast] at hstart hresumed
    cases hstart
    exact ⟨hload, hresumed⟩
  | some r =>
    rw [hlast] at hstart hresumed
    simp only [bind_accepts] at hstart
    obtain ⟨_, -, hstart⟩ := hstart
    cases hstart
    exact ⟨hload, hresumed⟩

/-- **What a restart finds of the rotations a node applied**, from the pin it started with, on a
journal the code left behind, at a clock no statement is ahead of.  If every append is kept, the
restart ends at the root that was current.  From a journal with nothing above the pin it does so
exactly when at most eight rotations were applied. -/
theorem restart_recovers (hcodec : codec.RoundTrips) (hearlier : Journaled lib codec earlier)
    (hstart : resumeRotation lib earlier.file pin [] boot leeway = .ok (start, trust))
    (hboot : boot.now < 2 ^ 64) (hnow : reboot.now < 2 ^ 64)
    (hjournaled : ∀ s ∈ start.journal.statements,
      NotBefore lib boot.now s ∧ NotBefore lib reboot.now s)
    (hpast : ∀ e ∈ events, NotBefore lib reboot.now e.1)
    (hrun : start.rotateAll lib leeway events = .ok last)
    (hrestart : resumeRotation lib last.journal.file pin [] reboot leeway =
      .ok (restarted, trust')) :
    (KeptRun lib pin reboot.now leeway start events → restarted.root = last.root) ∧
      (beyond (sortSeq lib) pin.seq start.journal.statements = [] →
        (restarted.root = last.root ↔ events.length ≤ maxForwardedRotations)) := by
  obtain ⟨hload, hroot⟩ := resumeRotation_accepts hstart
  obtain ⟨hreload, hresumed⟩ := resumeRotation_accepts hrestart
  have hinStep := (hearlier.load hload).inStep hcodec
  have hclock : resumed lib reboot.now leeway pin start.journal.statements = start.root := by
    rw [hroot]
    exact resumed_clock hnow hboot (fun s hs => (hjournaled s hs).2) fun s hs => (hjournaled s hs).1
  rw [hresumed, (hinStep.rotateAll hcodec hrun).reloads _ hreload]
  constructor
  · intro hkept
    exact (Recoverable.rotateAll hcodec hnow ⟨hinStep, hclock⟩ hpast hkept hrun).resumes
  · intro hfresh
    have hpin : start.root = pin := by
      rw [← hclock, resumed_beyond hinStep.ordered, hfresh]
      rfl
    exact resumed_fresh_iff hnow hpin hinStep.ordered hfresh hpast hrun

end Restarts

namespace Sample

/-- A journal file that is its own content. -/
def codec : JournalCodec where
  File := JournalFile
  len := fun f => (f.statements.map length).sum
  toVec := id
  fromSlice := .ok

/-- The root after `n` rotations, key `n + 1`, which commits to key `n + 2`. -/
def rootAfter (n : ℕ) : RootState :=
  ⟨key (.ofNat (n + 1)), nextRootCommitment libraries (key (.ofNat (n + 2))), n⟩

/-- At the clock 10, with every answer and write a success. -/
def unhindered : Attempt Unit := ⟨10, fun _ => .ok (), .written⟩

/-- The first `n` rotations from the original root. -/
def rotations (n : ℕ) : List (Bytes × Attempt Unit) :=
  (range n).map fun i =>
    (compact rootRotationJwtType [.ofNat (i + 2), .ofNat (i + 1), .ofNat (i + 1), .ofNat (i + 3)]
      (.ofNat (i + 2)), unhindered)

def pinned : RotationState codec := ⟨rootAfter 0, ⟨none, []⟩⟩

/-- Start on a journal file, or none, pinned at the original root. -/
def resume (file : Option codec.File) : Except ServiceError (RotationState codec × Option Unit) :=
  resumeRotation libraries file (rootAfter 0) [] unhindered 0

/-- Start without a journal file, apply `n` rotations and restart: the root before the restart and
the one after it. -/
def restartAfter (n : ℕ) : Option (RootState × RootState) := do
  let start ← (resume none).toOption
  let last ← (start.1.rotateAll libraries 0 (rotations n)).toOption
  let restarted ← (resume last.journal.file).toOption
  return (last.root, restarted.1.root)

end Sample

open Sample in
/-- Eight rotations from an empty journal are found again. -/
theorem restart_recovers_eight :
    ∃ start last restarted, ∃ trust : Option Unit,
      resume none = .ok (start, none) ∧
      start.rotateAll libraries 0 (rotations 8) = .ok last ∧
      resume last.journal.file = .ok (restarted, trust) ∧
      restarted.root = last.root := by
  have hstart : resume none = .ok (pinned, none) := rfl
  have hrun : (pinned.rotateAll libraries 0 (rotations 8)).isOk = true := by decide +kernel
  obtain ⟨last, hlast⟩ := isOk_iff.mp hrun
  have hfile : (resume last.journal.file).isOk = true := by
    have hall : ((pinned.rotateAll libraries 0 (rotations 8)).toOption.all
        fun last => (resume last.journal.file).isOk) = true := by decide +kernel
    rw [hlast] at hall
    exact hall
  obtain ⟨⟨restarted, trust⟩, hrestarted⟩ := isOk_iff.mp hfile
  have hpast : ∀ e ∈ rotations 8, NotBefore libraries 10 e.1 := by decide +kernel
  refine ⟨_, last, restarted, trust, hstart, hlast, hrestarted, ?_⟩
  have hcodec : codec.RoundTrips := fun _ => rfl
  have habsent : Journaled libraries codec ⟨none, []⟩ := .absent
  exact ((restart_recovers hcodec habsent hstart (by decide) (by decide)
    (by simp [pinned]) hpast hlast
    hrestarted).2 rfl).mpr (by decide)

open Sample in
/-- After nine rotations the first one has left the journal, and the node returns to the root it
was pinned to. -/
theorem ninth_rotation_reverts : restartAfter 9 = some (rootAfter 9, rootAfter 0) := by
  decide +kernel

end AsterRpc.Delegation

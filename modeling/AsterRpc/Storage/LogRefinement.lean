import AsterRpc.Storage.RaftLog
import AsterRpc.Storage.Valid

/-!
# The Raft log store refines a log

A log is what stands at each index and how far it was purged.  The tables of the
store represent such a log: every row decodes to the entry of its index, the marker to
the purge id, and the indices have no hole.  Every command keeps this and does to the
log what it is for; so a restart finds tables that its validation accepts, and what is
read back is the log.
-/

namespace AsterRpc.Coordination

open AsterRpc.Foundation Std LogActor List

/-! ### The log -/

/-- **A log**, as Raft thinks of it. -/
structure RaftLog where
  rows : ℕ → Option Entry
  purged : Option LogId

namespace RaftLog

def empty : RaftLog := ⟨fun _ => none, none⟩

/-- The indices the log retains. -/
def indices (log : RaftLog) : Set ℕ := {i | ∃ entry, log.rows i = some entry}

/-- Entries above the purged part take the places of their indices. -/
def append (log : RaftLog) (entries : List Entry) : RaftLog :=
  { log with
    rows := fun i =>
      ((writable log.purged entries).find? fun entry => entry.logId.index == i).or (log.rows i) }

/-- Everything from an index on is gone. -/
def truncate (log : RaftLog) (logId : LogId) : RaftLog :=
  { log with rows := fun i => if i < logId.index then log.rows i else none }

/-- Everything up to an index is gone, unless it was already. -/
def purge (log : RaftLog) (logId : LogId) : RaftLog :=
  if log.purged.any fun purged => decide (logId.index ≤ purged.index) then log
  else ⟨fun i => if logId.index < i then log.rows i else none, some logId⟩

/-- What a command is for. -/
def apply (log : RaftLog) : LogCommand → RaftLog
  | .saveVote _ => log
  | .saveCommitted _ => log
  | .append entries => log.append entries
  | .truncate logId => log.truncate logId
  | .purge logId => log.purge logId

/-- The last log id: that of the last entry or, when there is none, the purge marker. -/
def IsLast (log : RaftLog) (last : Option LogId) : Prop :=
  (∃ entry, log.rows entry.logId.index = some entry ∧
      (∀ i ∈ log.indices, i ≤ entry.logId.index) ∧ last = some entry.logId) ∨
    (log.indices = ∅ ∧ last = log.purged)

end RaftLog

/-- A membership entry has a configuration. -/
def Entry.Configured (entry : Entry) : Prop :=
  ∀ membership, entry.payload = .membership membership → membership.configs ≠ []

/-- What Raft guarantees of the calls it makes: indices are of 64 bits, a membership has a
configuration, and a first purge reaches the first entry. -/
def RaftLog.Guaranteed (log : RaftLog) : LogEvent → Prop
  | .call (.append entries) =>
    ∀ entry ∈ entries, entry.logId.index ≤ u64Max ∧ entry.Configured
  | .call (.purge logId) =>
    log.purged = none → ∀ i ∈ log.indices, ∃ first ∈ log.indices, first ≤ logId.index + 1
  | _ => True

/-! ### Codecs -/

section

variable {codecs : LogCodecs} (hcodec : codecs.RoundTrip) {bytes : Bytes} {entry : Entry}

theorem decodePersisted_encodeBounded {α : Type} {codec : ForyCodec α} (h : codec.RoundTrips)
    {what : String} {value : α} {maxBytes : ℕ}
    (hencode : encodeBoundedRaft codec what value maxBytes = .ok bytes) :
    decodePersistedRaft codec what bytes maxBytes = .ok value := by
  simp only [encodeBoundedRaft, bind_accepts, exists_unit, refuseIf_eq_ok, requireSome_eq_ok,
    Except.ok.injEq] at hencode
  obtain ⟨_, hserialize, hlen, rfl⟩ := hencode
  rw [decodePersistedRaft, hlen, refuseIf_false, ok_bind, h value _ hserialize]
  rfl

theorem Entry.fromWire_toWire (h : entry.Configured) : Entry.fromWire entry.toWire = .ok entry := by
  obtain ⟨_, payload⟩ := entry
  rw [Entry.fromWire, Entry.toWire, mirrorLogId_toWire, mirrorRead, ok_bind]
  cases payload with
  | blank => rfl
  | normal => rfl
  | membership membership =>
    have hmirror : Membership.fromWire membership.toWire = .ok membership :=
      Membership.fromWire_toWire.mpr ⟨h membership rfl, rfl⟩
    dsimp only
    rw [hmirror, mirrorRead, ok_bind]

include hcodec

theorem decodeVote_encodeVote {vote : Vote} (h : encodeVote codecs vote = .ok bytes) :
    decodeVote codecs bytes = .ok vote := by
  rw [decodeVote, decodePersisted_encodeBounded hcodec.vote h, ok_bind, Vote.fromWire,
    Vote.toWire, Membership.mirrorNodeId_bytes, ok_bind, mirrorRead]

theorem decodeLogId_encodeLogId {logId : LogId} (h : encodeLogId codecs logId = .ok bytes) :
    decodeLogId codecs bytes = .ok logId := by
  rw [decodeLogId, decodePersisted_encodeBounded hcodec.logId h, ok_bind, mirrorLogId_toWire,
    mirrorRead]

end

/-! ### What the tables represent -/

section

variable (codecs : LogCodecs) {i : ℕ} {entry : Entry} {purged : Option LogId} {α β : Type}
  {next : α → LogTask β} {e : LogError} {entries : List Entry} {encoded : List (ℕ × Bytes)}

/-- **The tables represent a log.** -/
structure Represents (t : RaftTables) (log : RaftLog) : Prop where
  vote : ∃ vote, readVote codecs t = .ok vote
  committed : ∃ committed, readCommitted codecs t = .ok committed
  purged : marker codecs t.lastPurged = .ok log.purged
  rows : ∀ i : ℕ, Option.Rel (fun bytes entry =>
    decodeEntry codecs bytes = .ok entry ∧ entry.logId.index = i) t.log[i]? (log.rows i)
  bounded : ∀ i ∈ log.indices, i ≤ u64Max
  gapless : Gapless (log.purged.map (·.index)) log.indices

theorem represents_fresh : Represents codecs .fresh .empty := by
  refine ⟨⟨none, rfl⟩, ⟨none, rfl⟩, rfl, ?_, ?_, ?_⟩
  · intro i
    have hnone : (∅ : Table ℕ Bytes)[i]? = none := by simp
    rw [RaftTables.fresh, hnone]
    exact Option.Rel.none
  · rintro i ⟨_, h⟩
    cases h
  · have hempty : RaftLog.empty.indices = ∅ := by
      ext i
      simp [RaftLog.indices, RaftLog.empty]
    rw [hempty]
    exact Gapless.empty _

variable {codecs} {t : RaftTables} {log : RaftLog}

section

variable (h : Represents codecs t log)

include h

theorem Represents.row {bytes : Bytes} (hrow : t.log[i]? = some bytes) :
    ∃ entry, log.rows i = some entry ∧ decodeEntry codecs bytes = .ok entry ∧
      entry.logId.index = i := by
  have hrel := h.rows i
  rw [hrow] at hrel
  generalize hrows : log.rows i = row at hrel
  cases hrel with
  | some hfits => exact ⟨_, rfl, hfits.1, hfits.2⟩

theorem Represents.stored (hentry : log.rows i = some entry) :
    ∃ bytes, t.log[i]? = some bytes ∧ decodeEntry codecs bytes = .ok entry ∧
      entry.logId.index = i := by
  have hrel := h.rows i
  rw [hentry] at hrel
  generalize hrow : t.log[i]? = row at hrel
  cases hrel with
  | some hfits => exact ⟨_, rfl, hfits.1, hfits.2⟩

theorem Represents.mem_toList {row : ℕ × Bytes} (hrow : row ∈ t.log.toList) :
    ∃ entry, log.rows row.1 = some entry ∧ decodeEntry codecs row.2 = .ok entry ∧
      entry.logId.index = row.1 :=
  h.row (Table.mem_toList.mp hrow)

theorem Represents.mem_keys : i ∈ t.log.toList.map Prod.fst ↔ i ∈ log.indices := by
  constructor
  · intro hmem
    obtain ⟨_, hrow, rfl⟩ := mem_map.mp hmem
    obtain ⟨entry, hentry, -⟩ := h.mem_toList hrow
    exact ⟨entry, hentry⟩
  · rintro ⟨_, hentry⟩
    obtain ⟨bytes, hbytes, -⟩ := h.stored hentry
    exact mem_map.mpr ⟨(i, bytes), Table.mem_toList.mpr hbytes, rfl⟩

end

theorem keys_ascending (t : RaftTables) : (t.log.toList.map Prod.fst).Pairwise (· < ·) := by
  rw [pairwise_map]
  exact (Table.toList_pairwise_lt t.log).imp fun h => Nat.compare_eq_lt.mp h

/-! ### Reading back -/

theorem nextIndex_of_le (h : i + 1 ≤ u64Max) : nextIndex i = some (i + 1) :=
  if_pos (by omega)

/-- The loop over rows that decode, are filed under their index, lie above the marker and are
consecutive. -/
theorem checkLogRows_ok {rows : List (ℕ × Bytes)} {previous : Option ℕ}
    (hrows : ∀ row ∈ rows, (∃ entry, decodeEntry codecs row.2 = .ok entry ∧
      entry.logId.index = row.1) ∧ (∀ m, purged = some m → m.index < row.1) ∧ row.1 ≤ u64Max)
    (hconsecutive : Consecutive (previous.or (purged.map (·.index))) (rows.map Prod.fst)) :
    checkLogRows codecs purged previous rows = .ok () := by
  induction rows generalizing previous with
  | nil => rfl
  | cons row rest ih =>
    obtain ⟨⟨entry, hdecode, hindex⟩, habove, hbound⟩ := hrows row mem_cons_self
    have hfiled : (entry.logId.index != row.1) = false := by simp [hindex]
    have hmarker : (purged.any fun marker => decide (row.1 ≤ marker.index)) = false := by
      cases purged with
      | none => rfl
      | some m => simpa using habove m rfl
    -- the row continues what is before it
    have hcontinues : checkContinues purged previous row.1 = .ok () ∧
        Consecutive (some row.1) (rest.map Prod.fst) := by
      cases previous with
      | some p =>
        obtain ⟨hnext, hrest⟩ := hconsecutive
        have hstep : nextIndex p = some row.1 := by rw [hnext, nextIndex_of_le (hnext ▸ hbound)]
        exact ⟨by rw [checkContinues, hstep, bne_self_eq_false, refuseIf_false], hrest⟩
      | none =>
        cases purged with
        | none => exact ⟨rfl, hconsecutive⟩
        | some m =>
          obtain ⟨hnext, hrest⟩ := hconsecutive
          have hstep : nextIndex m.index = some row.1 := by
            rw [hnext, nextIndex_of_le (hnext ▸ hbound)]
          refine ⟨?_, hrest⟩
          simp [checkContinues, hstep]
    rw [checkLogRows, checkLogRow, hdecode, ok_bind, hfiled, refuseIf_false, ok_bind, hmarker,
      refuseIf_false, ok_bind, hcontinues.1, ok_bind]
    exact ih (fun row hrow => hrows row (mem_cons_of_mem _ hrow)) hcontinues.2

section

variable (h : Represents codecs t log)

include h

/-- **A restart finds tables that it accepts.** -/
theorem Represents.validates : validatePersistedLog codecs t = .ok () := by
  obtain ⟨vote, hvote⟩ := h.vote
  obtain ⟨committed, hcommitted⟩ := h.committed
  have hkeys : {k | k ∈ t.log.toList.map Prod.fst} = log.indices :=
    Set.ext fun _ => h.mem_keys
  rw [validatePersistedLog, hvote, ok_bind, show marker codecs t.committed = _ from hcommitted,
    ok_bind, h.purged, ok_bind]
  refine checkLogRows_ok ?_ (Gapless.consecutive (keys_ascending t) (hkeys ▸ h.gapless))
  intro row hrow
  obtain ⟨entry, hentry, hdecode, hindex⟩ := h.mem_toList hrow
  refine ⟨⟨entry, hdecode, hindex⟩, ?_, h.bounded _ ⟨entry, hentry⟩⟩
  intro m hm
  exact h.gapless.above m.index (by rw [hm]; rfl) _ ⟨entry, hentry⟩

/-- **What is read is the log**: the entries of the range, in order. -/
theorem Represents.read (start stop : RangeBound) :
    ∃ entries, readRange codecs start stop t = .ok entries ∧
      entries.Pairwise (fun a b => a.logId.index < b.logId.index) ∧
      ∀ entry, entry ∈ entries ↔
        inRange start stop entry.logId.index = true ∧
          log.rows entry.logId.index = some entry := by
  have hrow : ∀ row ∈ t.log.toList.filter fun row => inRange start stop row.1,
      ∃ entry, log.rows row.1 = some entry ∧ decodeEntry codecs row.2 = .ok entry ∧
        entry.logId.index = row.1 :=
    fun row hrow => h.mem_toList (mem_of_mem_filter hrow)
  obtain ⟨entries, hentries⟩ : ∃ entries, readRange codecs start stop t = .ok entries :=
    narrowAll_accepts.mpr fun row hmem => by
      obtain ⟨entry, -, hdecode, -⟩ := hrow row hmem
      exact ⟨entry, hdecode⟩
  refine ⟨entries, hentries, ?_, ?_⟩
  · have hids : entries.map (fun entry => entry.logId.index) =
        (t.log.toList.filter fun row => inRange start stop row.1).map Prod.fst := by
      refine map_of_narrowAll (fun row hmem entry hdecode => ?_) hentries
      obtain ⟨entry', -, hdecode', hindex⟩ := hrow row hmem
      cases hdecode.symm.trans hdecode'
      exact hindex
    rw [← pairwise_map, hids, pairwise_map]
    exact (pairwise_map.mp (keys_ascending t)).filter _
  · intro entry
    constructor
    · intro hmem
      obtain ⟨row, hfilter, hdecode⟩ := narrowAll_mem hentries hmem
      obtain ⟨_, hentry, hdecode', hindex⟩ := hrow row hfilter
      cases hdecode.symm.trans hdecode'
      rw [hindex]
      exact ⟨(mem_filter.mp hfilter).2, hentry⟩
    · rintro ⟨hrange, hentry⟩
      obtain ⟨bytes, hbytes, hdecode, -⟩ := h.stored hentry
      have hmem : (entry.logId.index, bytes) ∈
          t.log.toList.filter fun row => inRange start stop row.1 :=
        mem_filter.mpr ⟨Table.mem_toList.mpr hbytes, hrange⟩
      exact mem_narrowAll hentries hmem hdecode

/-- The last row is the one with the greatest index. -/
theorem lastRow_greatest {row : ℕ × Bytes} (hlast : t.log.toList.getLast? = some row) :
    ∀ i ∈ log.indices, i ≤ row.1 := by
  intro i hi
  obtain ⟨_, hfront⟩ := getLast?_eq_some_iff.mp hlast
  have hsort := keys_ascending t
  have hmem := h.mem_keys.mpr hi
  rw [hfront, map_append] at hsort hmem
  rcases mem_append.mp hmem with hmem | hmem
  · exact Nat.le_of_lt ((pairwise_append.mp hsort).2.2 i hmem row.1 mem_cons_self)
  · exact Nat.le_of_eq (mem_singleton.mp hmem)

theorem Represents.indices_empty (hempty : t.log.toList = []) : log.indices = ∅ := by
  refine Set.eq_empty_of_forall_notMem fun i hi => ?_
  have hmem := h.mem_keys.mpr hi
  rw [hempty] at hmem
  cases hmem

/-- **The state of the log** names the purge marker and the last log id. -/
theorem Represents.state :
    ∃ state, logState codecs t = .ok state ∧ state.lastPurgedLogId = log.purged ∧
      log.IsLast state.lastLogId := by
  cases hlast : t.log.toList.getLast? with
  | none =>
    have hkeep : lastEntryLogId codecs t = .ok none := by rw [lastEntryLogId, hlast]
    refine ⟨⟨log.purged, log.purged⟩, ?_, rfl, .inr ⟨?_, rfl⟩⟩
    · rw [logState, h.purged, ok_bind, hkeep, ok_bind]
      rfl
    · exact h.indices_empty (getLast?_eq_none_iff.mp hlast)
  | some =>
    obtain ⟨entry, hentry, hdecode, hindex⟩ := h.mem_toList (mem_of_getLast? hlast)
    have hkeep : lastEntryLogId codecs t = .ok (some entry.logId) := by
      rw [lastEntryLogId, hlast]
      dsimp only
      rw [hdecode, ok_bind]
    refine ⟨⟨log.purged, some entry.logId⟩, ?_, rfl, .inl ⟨entry, ?_, ?_, rfl⟩⟩
    · rw [logState, h.purged, ok_bind, hkeep, ok_bind]
      rfl
    · rw [hindex]
      exact hentry
    · rw [hindex]
      exact lastRow_greatest h hlast

end

/-! ### Commands -/

/-- A query that is answered is passed on. -/
theorem LogTask.query_ok {read : RaftTables → Except LogError α} {t : RaftTables} {a : α}
    (h : read t = .ok a) : (LogTask.query read >>= next).run t = (next a).run t := by
  simp [bind, LogTask.query, h]

/-- **What a command does to the tables**: it is refused and they are as before, or it leaves tables
of which `After` holds. -/
inductive LogOutcome (t : RaftTables) (After : RaftTables → Prop) :
    Except LogError Unit × RaftTables → Prop
  | refused {e : LogError} (h : e.putsDurabilityInQuestion = false) :
      LogOutcome t After (.error e, t)
  | done {t' : RaftTables} (h : After t') : LogOutcome t After (.ok (), t')

/-- A query that refuses ends the command before it has written. -/
theorem LogOutcome.query {After : RaftTables → Prop} {read : RaftTables → Except LogError α}
    {next : α → LogTask Unit}
    (hrefuses : ∀ {e}, read t = .error e → e.putsDurabilityInQuestion = false)
    (hnext : ∀ a, read t = .ok a → LogOutcome t After ((next a).run t)) :
    LogOutcome t After ((LogTask.query read >>= next).run t) := by
  obtain ⟨a, h⟩ | ⟨e, h⟩ := ok_or_error (read t)
  · rw [LogTask.query_ok h]
    exact hnext a h
  · have hrun : (LogTask.query read >>= next).run t = (.error e, t) := by
      simp [bind, LogTask.query, h]
    rw [hrun]
    exact .refused (hrefuses h)

theorem encodeBounded_error {codec : ForyCodec α} {what : String} {value : α} {maxBytes : ℕ}
    (h : encodeBoundedRaft codec what value maxBytes = .error e) :
    e.putsDurabilityInQuestion = false := by
  simp only [encodeBoundedRaft, bind_refuses, requireSome_eq_error, refuseIf_eq_error] at h
  rcases h with ⟨-, rfl⟩ | ⟨_, -, ⟨-, rfl⟩ | ⟨_, -, h⟩⟩
  · rfl
  · rfl
  · cases h

section

variable (hcodec : codecs.RoundTrip) (h : Represents codecs t log)
include hcodec h

theorem saveVote_outcome (vote : Vote) :
    LogOutcome t (Represents codecs · log) ((saveVote codecs vote).run t) := by
  refine .query encodeBounded_error fun bytes hencode => ?_
  refine .done ⟨⟨some vote, ?_⟩, h.committed, h.purged, h.rows, h.bounded, h.gapless⟩
  show (decodeVote codecs bytes >>= fun vote => .ok (some vote)) = _
  rw [decodeVote_encodeVote hcodec hencode, ok_bind]

theorem saveCommitted_outcome (committed : Option LogId) :
    LogOutcome t (Represents codecs · log) ((saveCommitted codecs committed).run t) := by
  cases committed with
  | none => exact .done ⟨h.vote, ⟨none, rfl⟩, h.purged, h.rows, h.bounded, h.gapless⟩
  | some logId =>
    refine .query encodeBounded_error fun bytes hencode => ?_
    refine .done ⟨h.vote, ⟨some logId, ?_⟩, h.purged, h.rows, h.bounded, h.gapless⟩
    show (decodeLogId codecs bytes >>= fun logId => .ok (some logId)) = _
    rw [decodeLogId_encodeLogId hcodec hencode, ok_bind]

omit hcodec in
/-- The rows that a filter of the table keeps are those that the same filter of the log keeps. -/
theorem Represents.filter_rows (keep : ℕ → Bool) (i : ℕ) :
    Option.Rel (fun bytes entry => decodeEntry codecs bytes = .ok entry ∧ entry.logId.index = i)
      (t.log.filter fun index _ => keep index)[i]? (if keep i then log.rows i else none) := by
  have hfilter : ∀ row : Option Bytes,
      row.filter (fun _ => keep i) = if keep i then row else none := by
    intro row
    cases row <;> cases keep i <;> rfl
  rw [ExtTreeMap.getElem?_filter', hfilter]
  split_ifs
  · exact h.rows i
  · exact Option.Rel.none

omit hcodec in
theorem truncate_outcome (logId : LogId) :
    LogOutcome t (Represents codecs · (log.truncate logId)) ((truncate logId).run t) := by
  have hindices : (log.truncate logId).indices = {i ∈ log.indices | i < logId.index} := by
    ext i
    by_cases hi : i < logId.index <;> simp [RaftLog.indices, RaftLog.truncate, hi]
  refine .done ⟨h.vote, h.committed, h.purged, ?_, ?_, ?_⟩
  · intro i
    have hrel := h.filter_rows (fun index => decide (index < logId.index)) i
    simp only [decide_eq_true_eq] at hrel
    exact hrel
  · intro i hi
    rw [hindices] at hi
    exact h.bounded i hi.1
  · rw [hindices]
    exact h.gapless.below _

theorem purge_outcome {logId : LogId} (hlaw : log.Guaranteed (.call (.purge logId))) :
    LogOutcome t (Represents codecs · (log.purge logId)) ((purge codecs logId).run t) := by
  rw [purge, LogTask.query_ok h.purged, RaftLog.purge]
  by_cases hstale : (log.purged.any fun purged => decide (logId.index ≤ purged.index)) = true
  · rw [if_pos hstale, if_pos hstale]
    exact .done h
  rw [if_neg hstale, if_neg hstale]
  refine .query encodeBounded_error fun bytes hencode => ?_
  have hindices : RaftLog.indices
      ⟨fun i => if logId.index < i then log.rows i else none, some logId⟩ =
        {i ∈ log.indices | logId.index < i} := by
    ext i
    by_cases hi : logId.index < i <;> simp [RaftLog.indices, hi]
  refine .done ⟨h.vote, h.committed, ?_, ?_, ?_, ?_⟩
  · show (decodeLogId codecs bytes >>= fun logId => .ok (some logId)) = _
    rw [decodeLogId_encodeLogId hcodec hencode, ok_bind]
  · intro i
    have hrel := h.filter_rows (fun index => decide (logId.index < index)) i
    simp only [decide_eq_true_eq] at hrel
    exact hrel
  · intro i hi
    rw [hindices] at hi
    exact h.bounded i hi.1
  · rw [hindices]
    refine h.gapless.beyond ?_ ?_
    · intro m hm
      obtain ⟨purged, hpurged, rfl⟩ := Option.map_eq_some_iff.mp hm
      rw [hpurged] at hstale
      have hlt : ¬logId.index ≤ purged.index := by simpa using hstale
      exact Nat.le_of_lt (Nat.lt_of_not_le hlt)
    · intro hnone k hk
      exact hlaw (Option.map_eq_none_iff.mp hnone) k hk

end

/-! ### Appending -/

theorem nextIndex_eq_some {j : ℕ} (h : nextIndex i = some j) : j = i + 1 := by
  unfold nextIndex at h
  split_ifs at h
  exact (Option.some.inj h).symm

theorem nextIndex_eq_none (h : nextIndex i = none) : u64Max ≤ i := by
  unfold nextIndex at h
  split_ifs at h with hlt
  exact Nat.le_of_not_lt hlt

/-- A batch that passed its first check has consecutive indices. -/
theorem consecutive_of_checkPairs (h : checkAll checkPair (entries.zip entries.tail) = .ok ()) :
    Consecutive none (entries.map (·.logId.index)) := by
  cases entries with
  | nil => trivial
  | cons first rest =>
    show Consecutive (some first.logId.index) (rest.map (·.logId.index))
    rw [tail_cons] at h
    induction rest generalizing first with
    | nil => trivial
    | cons second rest ih =>
      rw [zip_cons_cons, checkAll_eq_ok, forall_mem_cons] at h
      obtain ⟨hpair, hrest⟩ := h
      have hnext : nextIndex first.logId.index = some second.logId.index := by
        simpa [checkPair] using hpair
      exact ⟨nextIndex_eq_some hnext, ih second (checkAll_eq_ok.mpr hrest)⟩

theorem writable_eq (purged : Option LogId) (entries : List Entry) :
    writable purged entries = entries.filter fun entry =>
      purged.all fun marker => decide (marker.index < entry.logId.index) := by
  cases purged with
  | none => simp [writable]
  | some => rfl

theorem mem_writable :
    entry ∈ writable purged entries ↔
      entry ∈ entries ∧ ∀ marker, purged = some marker → marker.index < entry.logId.index := by
  rw [writable_eq, mem_filter]
  cases purged <;> simp

/-- **What is written of a batch**: its indices go up, and they are all between the first and the
last. -/
theorem writable_stretch (h : Consecutive none (entries.map (·.logId.index))) :
    ((writable purged entries).map (·.logId.index)).Pairwise (· < ·) ∧
      ∀ first last, (writable purged entries).head? = some first →
        (writable purged entries).getLast? = some last →
        ∀ i, i ∈ (writable purged entries).map (·.logId.index) ↔
          first.logId.index ≤ i ∧ i ≤ last.logId.index := by
  have hsort : ((writable purged entries).map (·.logId.index)).Pairwise (· < ·) := by
    rw [writable_eq, pairwise_map]
    exact (pairwise_map.mp h.pairwise.1).filter _
  refine ⟨hsort, fun first last hfirst hlast i => ?_⟩
  have hgapless : Gapless none {k | k ∈ (writable purged entries).map (·.logId.index)} := by
    refine ⟨?_, by simp, by simp⟩
    intro i hi k hk j hij hjk
    obtain ⟨_, hlow, rfl⟩ := mem_map.mp hi
    obtain ⟨_, hhigh, rfl⟩ := mem_map.mp hk
    obtain ⟨hlow, hmarker⟩ := mem_writable.mp hlow
    have hj := h.gapless.between _ (mem_map_of_mem hlow) _
      (mem_map_of_mem (mem_writable.mp hhigh).1) j hij hjk
    obtain ⟨entry, hentry, rfl⟩ := mem_map.mp hj
    exact mem_map.mpr
      ⟨entry, mem_writable.mpr ⟨hentry, fun m hm => (hmarker m hm).trans_le hij⟩, rfl⟩
  refine Gapless.mem_iff hsort hgapless ?_ ?_
  · rw [head?_map, hfirst]
    rfl
  · rw [getLast?_map, hlast]
    rfl

section

variable (h : Represents codecs t log)
include h

/-- The check of the frontier: the batch starts no further than one past something retained, or past
the marker when nothing is. -/
theorem Represents.frontier_reached {first : ℕ} (hbound : first ≤ u64Max)
    (hcheck : checkFrontier log.purged first t = .ok ()) :
    (∀ k ∈ log.indices, ∃ top ∈ log.indices, first ≤ top + 1) ∧
      ∀ m, log.purged.map (·.index) = some m → m < first →
        first ≤ m + 1 ∨ ∃ top ∈ log.indices, first ≤ top + 1 := by
  cases hlast : t.log.toList.getLast? with
  | none =>
    have hempty := h.indices_empty (getLast?_eq_none_iff.mp hlast)
    refine ⟨fun k hk => absurd hk (by rw [hempty]; simp), fun m hm hlt => .inl ?_⟩
    obtain ⟨purged, hpurged, rfl⟩ := Option.map_eq_some_iff.mp hm
    have hfrontier : frontier log.purged t = nextIndex purged.index := by
      rw [LogActor.frontier, lastEntryIndex, hlast, hpurged]
      rfl
    have hnext : nextIndex purged.index = some (purged.index + 1) := nextIndex_of_le (by omega)
    rw [checkFrontier, hfrontier, hnext] at hcheck
    simpa using hcheck
  | some row =>
    obtain ⟨entry, hentry, -⟩ := h.mem_toList (mem_of_getLast? hlast)
    have hreach : first ≤ row.1 + 1 := by
      have hfrontier : frontier log.purged t = nextIndex row.1 := by
        rw [LogActor.frontier, lastEntryIndex, hlast]
        rfl
      rw [checkFrontier, hfrontier] at hcheck
      cases hnext : nextIndex row.1 with
      | none =>
        have hmax := nextIndex_eq_none hnext
        omega
      | some next =>
        rw [hnext] at hcheck
        have hle : first ≤ next := by simpa using hcheck
        rw [← nextIndex_eq_some hnext]
        exact hle
    have htop : ∃ top ∈ log.indices, first ≤ top + 1 := ⟨row.1, ⟨entry, hentry⟩, hreach⟩
    exact ⟨fun _ _ => htop, fun _ _ _ => .inr htop⟩

/-- The check of the survivors: what is above the batch continues it. -/
theorem Represents.survivors_continue {last : ℕ} (hcheck : checkSurvivors last t = .ok ()) :
    ∀ k ∈ log.indices, last < k → last + 1 ∈ log.indices := by
  intro k hk hlt
  obtain ⟨row, hrow, rfl⟩ := mem_map.mp (h.mem_keys.mpr hk)
  cases hfind : t.log.toList.find? fun row => decide (last < row.1) with
  | none => exact absurd hlt (by simpa using find?_eq_none.mp hfind row hrow)
  | some next =>
    have habove : firstIndexAbove t last = some next.1 := by rw [firstIndexAbove, hfind]; rfl
    rw [checkSurvivors, habove] at hcheck
    have hnext : nextIndex last = some next.1 := by simpa using hcheck
    rw [← nextIndex_eq_some hnext]
    exact h.mem_keys.mp (mem_map_of_mem (mem_of_find?_eq_some hfind))

end

theorem find?_index (hsort : (entries.map (·.logId.index)).Pairwise (· < ·))
    (hmem : entry ∈ entries) :
    (entries.find? fun e => e.logId.index == entry.logId.index) = some entry := by
  induction entries with
  | nil => cases hmem
  | cons first rest ih =>
    rw [map_cons, pairwise_cons] at hsort
    rcases mem_cons.mp hmem with rfl | hmem
    · simp
    · have hlt := hsort.1 _ (mem_map_of_mem hmem)
      have hne : (first.logId.index == entry.logId.index) = false := by
        simpa using Nat.ne_of_lt hlt
      rw [find?_cons, hne]
      exact ih hsort.2 hmem

/-- The rows of a written batch. -/
theorem Represents.write_rows (hcodec : codecs.RoundTrip) (h : Represents codecs t log)
    {batch : List Entry} (hconfigured : ∀ entry ∈ batch, entry.Configured)
    (hsort : (batch.map (·.logId.index)).Pairwise (· < ·))
    (hencoded : narrowAll (encodeRow codecs) batch = .ok encoded) (i : ℕ) :
    Option.Rel (fun bytes entry => decodeEntry codecs bytes = .ok entry ∧ entry.logId.index = i)
      (encoded.foldl (fun log row => log.insert row.1 row.2) t.log)[i]?
      ((batch.find? fun entry => entry.logId.index == i).or (log.rows i)) := by
  have hkeys : encoded.map Prod.fst = batch.map (·.logId.index) := by
    refine map_of_narrowAll (fun entry _ row hrow => ?_) hencoded
    simp only [encodeRow, accepts_iff] at hrow
    obtain ⟨bytes, -, rfl⟩ := hrow
    rfl
  by_cases hi : ∃ entry ∈ batch, entry.logId.index = i
  · obtain ⟨entry, hentry, rfl⟩ := hi
    obtain ⟨bytes, hbytes⟩ : ∃ bytes, encodeEntry codecs entry = .ok bytes := by
      obtain ⟨_, hrow⟩ := narrowAll_accepts.mp ⟨encoded, hencoded⟩ entry hentry
      simp only [encodeRow, bind_accepts] at hrow
      obtain ⟨bytes, hbytes, -⟩ := hrow
      exact ⟨bytes, hbytes⟩
    have hrow : (entry.logId.index, bytes) ∈ encoded := by
      refine mem_narrowAll hencoded hentry ?_
      rw [encodeRow, hbytes, ok_bind]
    have hnodup : (encoded.map Prod.fst).Nodup := by
      rw [hkeys]
      exact hsort.imp fun hlt => Nat.ne_of_lt hlt
    rw [Table.get?_foldl_insert_of_mem t.log hnodup hrow, find?_index hsort hentry]
    refine Option.Rel.some ⟨?_, rfl⟩
    rw [decodeEntry, decodePersisted_encodeBounded hcodec.entry hbytes, ok_bind,
      Entry.fromWire_toWire (hconfigured entry hentry)]
  · have hkey : i ∉ encoded.map Prod.fst := by
      rw [hkeys, mem_map]
      exact hi
    have hnone : (batch.find? fun entry => entry.logId.index == i) = none := by
      rw [find?_eq_none]
      intro entry hentry hindex
      exact hi ⟨entry, hentry, by simpa using hindex⟩
    rw [Table.get?_foldl_insert_of_notMem t.log hkey, hnone]
    exact h.rows i

/-- **A batch that passed every check**: its first and last entry to be written, and its rows. -/
structure BatchFits (codecs : LogCodecs) (t : RaftTables) (purged : Option LogId)
    (entries : List Entry) (first last : Entry) (encoded : List (ℕ × Bytes)) : Prop where
  pairs : checkAll checkPair (entries.zip entries.tail) = .ok ()
  head : (writable purged entries).head? = some first
  final : (writable purged entries).getLast? = some last
  frontier : checkFrontier purged first.logId.index t = .ok ()
  survivors : checkSurvivors last.logId.index t = .ok ()
  rows : narrowAll (encodeRow codecs) (writable purged entries) = .ok encoded

/-- A batch that passed every check is written. -/
theorem Represents.write (hcodec : codecs.RoundTrip) (h : Represents codecs t log)
    (hlaw : log.Guaranteed (.call (.append entries))) {first last : Entry}
    (hfits : BatchFits codecs t log.purged entries first last encoded) :
    Represents codecs
      { t with log := encoded.foldl (fun log row => log.insert row.1 row.2) t.log }
      (log.append entries) := by
  obtain ⟨hpairs, hfirst, hlast, hfrontier, hsurvivors, hencoded⟩ := hfits
  obtain ⟨hsort, hstretch⟩ := writable_stretch (consecutive_of_checkPairs hpairs)
  have hstretch := hstretch first last hfirst hlast
  have hwritable : ∀ entry ∈ writable log.purged entries, entry.logId.index ≤ u64Max ∧
      entry.Configured := fun entry hentry => hlaw entry (mem_writable.mp hentry).1
  have hmem := mem_of_head? hfirst
  obtain ⟨hlower, hfloor⟩ := h.frontier_reached (hwritable first hmem).1 hfrontier
  -- the indices after the append are those of before and the stretch
  have hindices : (log.append entries).indices =
      {i | i ∈ log.indices ∨ first.logId.index ≤ i ∧ i ≤ last.logId.index} := by
    ext i
    show _ ↔ i ∈ log.indices ∨ _
    rw [← hstretch i]
    constructor
    · rintro ⟨entry, hentry⟩
      rcases Option.or_eq_some_iff.mp hentry with hfind | ⟨-, hrow⟩
      · refine .inr (mem_map.mpr ⟨entry, mem_of_find?_eq_some hfind, ?_⟩)
        simpa using find?_some hfind
      · exact .inl ⟨entry, hrow⟩
    · rintro (⟨entry, hentry⟩ | hwrote)
      · cases hfind : (writable log.purged entries).find? fun entry => entry.logId.index == i with
        | none => exact ⟨entry, Option.or_eq_some_iff.mpr (.inr ⟨hfind, hentry⟩)⟩
        | some found => exact ⟨found, Option.or_eq_some_iff.mpr (.inl hfind)⟩
      · obtain ⟨entry, hentry, rfl⟩ := mem_map.mp hwrote
        exact ⟨entry, Option.or_eq_some_iff.mpr (Or.inl (find?_index hsort hentry))⟩
  have habove : ∀ m, log.purged.map (·.index) = some m → m < first.logId.index := by
    intro m hm
    obtain ⟨purged, hpurged, rfl⟩ := Option.map_eq_some_iff.mp hm
    exact (mem_writable.mp hmem).2 purged hpurged
  refine ⟨h.vote, h.committed, h.purged, ?_, ?_, ?_⟩
  · exact h.write_rows hcodec (fun entry hentry => (hwritable entry hentry).2) hsort hencoded
  · intro i hi
    rw [hindices] at hi
    rcases hi with hi | hi
    · exact h.bounded i hi
    · have hbound := (hwritable last (mem_of_getLast? hlast)).1
      omega
  · rw [hindices]
    exact h.gapless.write habove (fun m hm => hfloor m hm (habove m hm)) hlower
      (h.survivors_continue hsurvivors)

theorem checkFrontier_error {first : ℕ} (h : checkFrontier purged first t = .error e) :
    e.putsDurabilityInQuestion = false := by
  unfold checkFrontier at h
  split at h
  · obtain ⟨-, rfl⟩ := refuseIf_eq_error.mp h
    rfl
  · cases h

theorem checkSurvivors_error {last : ℕ} (h : checkSurvivors last t = .error e) :
    e.putsDurabilityInQuestion = false := by
  unfold checkSurvivors at h
  split at h
  · obtain ⟨-, rfl⟩ := refuseIf_eq_error.mp h
    rfl
  · cases h

theorem encodeRows_error (h : narrowAll (encodeRow codecs) entries = .error e) :
    e.putsDurabilityInQuestion = false := by
  induction entries with
  | nil => cases h
  | cons entry rest ih =>
    simp only [narrowAll, bind_refuses, encodeRow] at h
    rcases h with (hencode | ⟨_, -, h⟩) | ⟨_, -, hrest | ⟨_, -, h⟩⟩
    · exact encodeBounded_error hencode
    · cases h
    · exact ih hrest
    · cases h

/-- **What an append does**: it is refused and the tables are as before, there is nothing to write,
or the batch passed every check and its rows are written. -/
theorem append_cases (h : marker codecs t.lastPurged = .ok purged) (entries : List Entry) :
    LogOutcome t (fun t' => writable purged entries = [] ∧ t' = t ∨
      ∃ first last encoded, BatchFits codecs t purged entries first last encoded ∧
        t' = { t with log := encoded.foldl (fun log row => log.insert row.1 row.2) t.log })
      ((append codecs entries).run t) := by
  unfold append
  by_cases hempty : entries.isEmpty = true
  · rw [if_pos hempty]
    refine .done (.inl ⟨?_, rfl⟩)
    rw [isEmpty_iff.mp hempty, writable_eq]
    rfl
  rw [if_neg hempty]
  refine .query (fun hpairs => ?_) fun _ hpairs => ?_
  · obtain ⟨_, -, hpair⟩ := checkAll_error hpairs
    obtain ⟨-, rfl⟩ := refuseIf_eq_error.mp hpair
    rfl
  rw [LogTask.query_ok h]
  cases hbatch : writable purged entries with
  | nil => exact .done (.inl ⟨rfl, rfl⟩)
  | cons first rest =>
    obtain ⟨last, hlast⟩ : ∃ last, (first :: rest).getLast? = some last :=
      ⟨_, getLast?_eq_some_getLast (cons_ne_nil first rest)⟩
    rw [hlast, head?_cons]
    -- the two sides of the batch, and its encoding
    refine .query checkFrontier_error fun _ hfrontier => ?_
    refine .query checkSurvivors_error fun _ hsurvivors => ?_
    refine .query encodeRows_error fun encoded hencoded => ?_
    rw [← hbatch] at hlast hencoded
    have hfirst : (writable purged entries).head? = some first := by rw [hbatch]; rfl
    exact .done (.inr ⟨first, last, encoded,
      ⟨hpairs, hfirst, hlast, hfrontier, hsurvivors, hencoded⟩, rfl⟩)

theorem append_outcome (hcodec : codecs.RoundTrip) (h : Represents codecs t log)
    (hlaw : log.Guaranteed (.call (.append entries))) :
    LogOutcome t (Represents codecs · (log.append entries))
      ((append codecs entries).run t) := by
  have hcases := append_cases h.purged entries
  generalize (append codecs entries).run t = result at hcases
  cases hcases with
  | refused he => exact .refused he
  | done hafter =>
    refine .done ?_
    rcases hafter with ⟨hnothing, rfl⟩ | ⟨_, _, _, hfits, rfl⟩
    · rw [RaftLog.append, hnothing]
      exact h
    · exact h.write hcodec hlaw hfits

/-! ### Runs -/

theorem task_outcome (hcodec : codecs.RoundTrip) (h : Represents codecs t log)
    {command : LogCommand} (hlaw : log.Guaranteed (.call command)) :
    LogOutcome t (Represents codecs · (log.apply command)) ((command.task codecs).run t) := by
  cases command with
  | saveVote vote => exact saveVote_outcome hcodec h vote
  | saveCommitted committed => exact saveCommitted_outcome hcodec h committed
  | append => exact append_outcome hcodec h hlaw
  | truncate logId => exact truncate_outcome h logId
  | purge => exact purge_outcome hcodec h hlaw

end

/-- The store, and the log that the accepted calls made. -/
structure LogRun where
  actor : LogActor
  log : RaftLog

open LogRun

def LogRun.fresh : LogRun := ⟨⟨.fresh, false⟩, .empty⟩

def LogRun.step (codecs : LogCodecs) (s : LogRun) (event : LogEvent) :
    LogRun × Except LogError Unit :=
  match event, s.actor.handle codecs event with
  | .call command, (.ok (), actor) => (⟨actor, s.log.apply command⟩, .ok ())
  | _, (reply, actor) => (⟨actor, s.log⟩, reply)

/-- What events lead to from a fresh store. -/
def LogRun.after (codecs : LogCodecs) (events : List LogEvent) : LogRun :=
  run (step codecs) .fresh events

/-- The store has not given up, and its tables represent the log. -/
structure LogRun.Sound (codecs : LogCodecs) (s : LogRun) : Prop where
  serves : s.actor.fatal = false
  represents : Represents codecs s.actor.tables s.log

section

variable {codecs : LogCodecs} {s : LogRun}

theorem LogRun.Sound.step (hcodec : codecs.RoundTrip) (h : s.Sound codecs) {event : LogEvent}
    (hlaw : s.log.Guaranteed event) : (s.step codecs event).1.Sound codecs := by
  cases event with
  | call command =>
    have houtcome := task_outcome hcodec h.represents hlaw
    simp only [LogRun.step, handle, serve, h.serves, Bool.false_eq_true, if_false]
    generalize (command.task codecs).run s.actor.tables = result at houtcome
    cases houtcome with
    | refused he => exact ⟨he, h.represents⟩
    | done hrepresents => exact ⟨rfl, hrepresents⟩
  | reopen =>
    simp only [LogRun.step, handle, reopen, h.represents.validates]
    exact ⟨rfl, h.represents⟩

/-- The purge marker never goes back. -/
theorem LogRun.step_purged (event : LogEvent) {purged : LogId} (h : s.log.purged = some purged) :
    ∃ later, (s.step codecs event).1.log.purged = some later ∧ purged.index ≤ later.index := by
  have hsame : ∃ later, s.log.purged = some later ∧ purged.index ≤ later.index :=
    ⟨purged, h, Nat.le_refl _⟩
  unfold step
  split
  · rename_i command actor _
    cases command with
    | purge logId =>
      show ∃ later, (s.log.purge logId).purged = some later ∧ _
      unfold RaftLog.purge
      split_ifs with hstale
      · exact hsame
      · refine ⟨logId, rfl, ?_⟩
        rw [h] at hstale
        have hlt : ¬logId.index ≤ purged.index := by simpa using hstale
        omega
    | _ => exact hsame
  · exact hsame

end

/-- **The log store refines a log.**  In every run of calls and restarts of a fresh store, whose
calls are as Raft guarantees: the store serves, and a restart accepts its tables; a refused append
leaves them as they are; what is read of a range is what the log has there, in order; the state of
the log is its purge marker and its last log id; and the marker never goes back. -/
theorem raft_log_refines (codecs : LogCodecs) (hcodec : codecs.RoundTrip) (events : List LogEvent)
    (hevents : EveryStep (step codecs) (fun s event => s.log.Guaranteed event) .fresh
      events) :
    (after codecs events).actor.fatal = false ∧
      validatePersistedLog codecs (after codecs events).actor.tables = .ok () ∧
      (∀ entries e,
        ((append codecs entries).run (after codecs events).actor.tables).1 =
          .error e →
        ((append codecs entries).run (after codecs events).actor.tables).2 =
          (after codecs events).actor.tables) ∧
      (∀ start stop, ∃ entries,
        readRange codecs start stop (after codecs events).actor.tables = .ok entries ∧
        entries.Pairwise (fun a b => a.logId.index < b.logId.index) ∧
        ∀ entry, entry ∈ entries ↔ inRange start stop entry.logId.index = true ∧
          (after codecs events).log.rows entry.logId.index = some entry) ∧
      (∃ state, logState codecs (after codecs events).actor.tables = .ok state ∧
        state.lastPurgedLogId = (after codecs events).log.purged ∧
        (after codecs events).log.IsLast state.lastLogId) ∧
      ∀ event purged, (after codecs events).log.purged = some purged →
        ∃ later, ((after codecs events).step codecs event).1.log.purged = some later ∧
          purged.index ≤ later.index := by
  have hsound : (after codecs events).Sound codecs :=
    run_invariant_of (fun _ _ h hlaw => h.step hcodec hlaw)
      ⟨rfl, represents_fresh codecs⟩ hevents
  generalize after codecs events = s at hsound
  refine ⟨hsound.serves, hsound.represents.validates, fun entries e hrefused => ?_,
    hsound.represents.read, hsound.represents.state,
    fun event purged hpurged => step_purged event hpurged⟩
  -- a refused append changes nothing
  have hcases := append_cases hsound.represents.purged entries
  generalize (append codecs entries).run s.actor.tables = result at hcases hrefused
  cases hcases with
  | refused => rfl
  | done => cases hrefused

namespace Sample

/-- A log id of the leader, by its index. -/
def logIdCodec : ForyCodec LogIdV1 :=
  ⟨fun wire => if wire = (entry wire.index).toWire ∧ wire.index < 256 then
      some [UInt8.ofNat wire.index] else none,
    fun bytes => bytes.head?.map fun index => (entry index.toNat).toWire⟩

/-- Blank entries of the leader by their index, and one with an empty membership. -/
def entryCodec : ForyCodec RaftEntryV1 :=
  ⟨fun wire => match wire.payload with
    | .blank => logIdCodec.serialize wire.logId
    | .membership ⟨[], []⟩ => (logIdCodec.serialize wire.logId).map (· ++ [0])
    | _ => none,
    fun bytes => (logIdCodec.deserialize bytes).map fun logId =>
      ⟨logId, if bytes.length = 1 then .blank else .membership ⟨[], []⟩⟩⟩

def logCodecs : LogCodecs := ⟨entryCodec, ⟨fun _ => none, fun _ => none⟩, logIdCodec⟩

theorem logIdCodec_serialize {wire : LogIdV1} {bytes : Bytes}
    (h : logIdCodec.serialize wire = some bytes) :
    bytes.length = 1 ∧ ∀ rest, logIdCodec.deserialize (bytes ++ rest) = some wire := by
  simp only [logIdCodec] at h ⊢
  split_ifs at h with hwire
  cases h
  refine ⟨rfl, fun rest => ?_⟩
  have hindex : (UInt8.ofNat wire.index).toNat = wire.index := UInt8.toNat_ofNat_of_lt' hwire.2
  rw [cons_append, head?_cons, Option.map_some, hindex, ← hwire.1]

theorem logCodecs_roundTrip : logCodecs.RoundTrip := by
  refine ⟨?_, ?_, ?_⟩
  · rintro ⟨_, _⟩ bytes h
    simp only [logCodecs, entryCodec] at h ⊢
    split at h
    · obtain ⟨hlen, hread⟩ := logIdCodec_serialize h
      have hread := hread []
      rw [append_nil] at hread
      rw [hread, Option.map_some, if_pos hlen]
    · obtain ⟨_, hfront, rfl⟩ := Option.map_eq_some_iff.mp h
      obtain ⟨hlen, hread⟩ := logIdCodec_serialize hfront
      rw [hread, Option.map_some, if_neg (by simp [hlen])]
    · cases h
  · intro _ _ h
    cases h
  · intro wire bytes h
    have hread := (logIdCodec_serialize h).2 []
    rwa [append_nil] at hread

def blank (index : ℕ) : Entry := ⟨entry index, .blank⟩

/-- Three entries are appended, the first is purged, the last truncated, and the store reopened. -/
def logEvents : List LogEvent :=
  [.call (.append [blank 0, blank 1, blank 2]), .call (.purge (entry 0)),
    .call (.truncate (entry 2)), .reopen]

end Sample

open Sample

theorem raft_log_refines_reopened :
    (after logCodecs logEvents).actor.fatal = false ∧ validatePersistedLog logCodecs
        (after logCodecs logEvents).actor.tables = .ok () := by
  have hrefines := raft_log_refines logCodecs logCodecs_roundTrip logEvents ?_
  · exact ⟨hrefines.1, hrefines.2.1⟩
  refine ⟨?_, ?_, trivial, trivial, trivial⟩
  · intro entry hentry
    have hblank : entry.payload = .blank ∧ entry.logId.index ≤ 2 := by
      rcases mem_cons.mp hentry with rfl | hentry
      · exact ⟨rfl, by decide⟩
      rcases mem_cons.mp hentry with rfl | hentry
      · exact ⟨rfl, by decide⟩
      rw [mem_singleton.mp hentry]
      exact ⟨rfl, by decide⟩
    refine ⟨hblank.2.trans (by decide), fun membership hmemb => ?_⟩
    rw [hblank.1] at hmemb
    cases hmemb
  · intro _ i _
    have hfirst : ((step logCodecs .fresh
        (.call (.append [blank 0, blank 1, blank 2]))).1.log.rows 0).isSome =
        true := by decide +kernel
    exact ⟨0, Option.isSome_iff_exists.mp hfirst, by decide⟩

/-- A log that starts at 2 is purged up to 0, and an entry with an empty membership is appended: all
calls are accepted, and no restart accepts what they leave. -/
theorem accepted_then_invalid :
    outputs (step logCodecs) .fresh
        [.call (.append [blank 2]), .call (.purge (entry 0))] = [.ok (), .ok ()] ∧
      validatePersistedLog logCodecs (after logCodecs
        [.call (.append [blank 2]), .call (.purge (entry 0))]).actor.tables =
        .error (.corrupt "raft_log"
          "first retained row is 2, but the purge marker 0 leaves a hole") ∧
      outputs (step logCodecs) .fresh
        [.call (.append [⟨entry 0, .membership Membership.empty⟩])] = [.ok ()] ∧
      validatePersistedLog logCodecs (after logCodecs
        [.call (.append [⟨entry 0, .membership Membership.empty⟩])]).actor.tables =
        .error (.corrupt "RaftEntryV1" "EmptyMembership") := by
  refine ⟨?_, ?_, ?_, ?_⟩ <;> decide +kernel

end AsterRpc.Coordination

import AsterRpc.Storage.Ledger

/-!
# The audit trail

Every command that is not a fault writes one audit row under the term and index
of its entry.  Two questions are settled here.  Does the row say what the caller
was told?  And, over a whole run, which rows are still there: with log ids that
advance they are those of the newest commands, in log order, and the floor and
the tip are the log ids of the oldest and the newest of them.
-/

namespace AsterRpc.Coordination

open AsterRpc.Foundation List Table Working

variable {s s₀ : State} {logId : LogId} {command : Command} {change : RowChange} {row : AuditRow}
  {reply : CommandReply} {history : List (LogId × Option AuditRow)}

/-! ### Writing one row -/

/-- The key of an entry's audit row. -/
def LogId.auditKey (logId : LogId) : AuditKey := (logId.term, logId.index)

/-- The whole log id of the oldest row; the leader comes from the row itself. -/
def oldestLogId (t : Table AuditKey AuditRow) : Option LogId :=
  t.toList.head?.map fun e => ⟨e.1.1, e.2.leaderNodeId, e.1.2⟩

namespace Working

theorem pruneOldest_floor (w : Working) {oldest : AuditKey × AuditRow}
    (h : oldestAudit w.state = some oldest) (hmore : 1 < w.state.audit.size) :
    (w.pruneOldest oldest).state.auditFloor =
      oldestLogId (w.pruneOldest oldest).state.audit := by
  have hsize := pruneOldest_size w h
  -- a row is left, so the floor is that row and not the one just removed
  cases hnext : (w.pruneOldest oldest).state.audit.toList with
  | nil =>
    rw [← Std.ExtTreeMap.length_toList, hnext, length_nil] at hsize
    omega
  | cons next =>
    have hremoved : oldestAudit ((w.removeAudit oldest.1).moveReserve 0
        (auditCharge oldest.1 oldest.2)).state = some next := congrArg head? hnext
    have hfloor : (w.pruneOldest oldest).state.auditFloor =
        some ⟨next.1.1, next.2.leaderNodeId, next.1.2⟩ := by
      simp [pruneOldest, hremoved]
    rw [hfloor, oldestLogId, hnext]
    rfl

/-- The loop moves the floor to the oldest row it leaves, and only when it removes one. -/
theorem pruneLoop_floor (fuel : ℕ) (w : Working) (hfuel : w.state.audit.size ≤ fuel) :
    (pruneLoop fuel w).state.auditFloor =
      if w.state.audit.size ≤ maxAuditRows then w.state.auditFloor
      else oldestLogId (pruneLoop fuel w).state.audit := by
  induction fuel generalizing w with
  | zero => rw [if_pos (by omega), pruneLoop]
  | succ fuel ih =>
    by_cases hover : w.state.audit.size > maxAuditRows
    · rw [if_neg (Nat.not_le.mpr hover), pruneLoop, if_pos hover]
      cases hold : oldestAudit w.state with
      | none =>
        have hempty := size_of_oldestAudit hold
        omega
      | some oldest =>
        dsimp only
        have hsize := pruneOldest_size w hold
        rw [ih (w.pruneOldest oldest) (by omega)]
        split_ifs with hdone
        · -- the last turn: nothing more is removed
          obtain ⟨_, _, h₂⟩ := pruneLoop_state fuel (w.pruneOldest oldest) (by omega)
          have hzero : (w.pruneOldest oldest).state.audit.size - maxAuditRows = 0 := by omega
          have hsame : (pruneLoop fuel (w.pruneOldest oldest)).state.audit =
              (w.pruneOldest oldest).state.audit := by
            rw [h₂, hzero]
            rfl
          rw [hsame]
          exact pruneOldest_floor w hold (Nat.lt_of_le_of_lt (by decide) hover)
        · rfl
    · rw [if_pos (Nat.not_lt.mp hover), pruneLoop, if_neg hover]

theorem writeAuditRow_floor (w : Working) (logId : LogId) (row : AuditRow) :
    (w.writeAuditRow logId row).state.auditFloor =
      if (w.state.audit.insert logId.auditKey row).size ≤ maxAuditRows then w.state.auditFloor
      else oldestLogId (auditAfter w.state logId row) := by
  obtain ⟨_, _, hstate⟩ := w.writeAuditRow_state logId row
  have htable : (w.writeAuditRow logId row).state.audit = auditAfter w.state logId row := by
    rw [hstate]
  rw [← htable]
  exact pruneLoop_floor _ _ (Nat.le_refl _)

end Working

/-- What one command does to the audit trail. -/
structure Audited (s s' : State) (logId : LogId) (row : AuditRow) : Prop where
  table : s'.audit = auditAfter s logId row
  tip : s'.auditTip = some logId
  floor : s'.auditFloor = if (s.audit.insert logId.auditKey row).size ≤ maxAuditRows then
    s.auditFloor else oldestLogId s'.audit

theorem Working.perform_audited (ext : Externals) (w : Working) (logId : LogId)
    (change : RowChange) (entry : Option (SessionKey × Session)) (row : AuditRow) :
    Audited w.state ((w.perform ext logId change entry row).setLastApplied logId).state logId
      row := by
  obtain ⟨growth, hwrite⟩ := w.write_state ext logId change
  have hrows : (w.write ext logId change).state.audit = w.state.audit ∧
      (w.write ext logId change).state.auditFloor = w.state.auditFloor := by
    rw [hwrite]
    exact ⟨rfl, rfl⟩
  have hpre : ((w.write ext logId change).journal entry).state.audit = w.state.audit ∧
      ((w.write ext logId change).journal entry).state.auditFloor = w.state.auditFloor := by
    cases entry with
    | none => exact hrows
    | some => exact hrows
  have hdone := w.perform_state ext logId change entry row
  refine ⟨hdone.audit, ?_, ?_⟩
  · obtain ⟨_, _, _, -, hstate⟩ := hdone
    rw [hstate]
  · rw [hdone.audit]
    have hfloor := ((w.write ext logId change).journal entry).writeAuditRow_floor logId row
    unfold auditAfter at hfloor ⊢
    rw [hpre.1, hpre.2] at hfloor
    exact hfloor

variable (ext : Externals)

/-- **One delivery and the trail**: a fault that changes nothing, or one more row. -/
theorem deliver_audited (s : State) (d : Delivery) :
    (∃ fault, deliver ext s d = (s, .error fault)) ∨
      ∃ s' reply change entry row, deliver ext s d = (s', .ok reply) ∧
        Step ext s d.1 d.2 change entry row reply ∧ Audited s s' d.1 row := by
  obtain ⟨logId, command⟩ := d
  simp only [deliver, applyCommand]
  obtain ⟨fault, hfault⟩ | ⟨reply, change, entry, row, -, hstep, hrecorded⟩ :=
    applyCommandRecording_cases ext (start s) logId command
  · exact .inl ⟨fault, by rw [hfault]; rfl⟩
  · refine .inr ⟨_, reply, change, entry, row, by rw [hrecorded], hstep, ?_⟩
    exact (start s).perform_audited ext logId change entry row

/-! ### The row and the answer -/

/-- Who a client's command, readable or not, or a retirement is audited under. -/
def Command.clientActor : Command → Option NodeId
  | .client ref _ => some ref.actor
  | .rejectedClient ref _ _ => some ref.actor
  | .retireClient command => some command.actor
  | _ => none

namespace CommandReply

def outcome : CommandReply → Option Outcome
  | client result => some result.reply.outcome
  | retirement result => some result.outcome
  | system _ => none

/-- The snapshot a reply carries; a retirement carries none. -/
def snapshot : CommandReply → Option SavedSnapshot
  | client result => result.reply.snapshot
  | _ => none

end CommandReply

/-- The row says what the caller was told. -/
structure AuditRow.Agrees (row : AuditRow) (actor : NodeId) (reply : CommandReply) : Prop where
  actor : row.actor = some actor
  result : reply.outcome.map AuditResult.client = some row.result
  resource : row.resource = reply.snapshot.map (·.resource)
  epoch : row.epoch = (reply.snapshot.map (·.epoch)).getD 0
  valueRevision : row.valueRevision = (reply.snapshot.map (·.valueRevision)).getD 0

/-- Exactly one row is added, under the entry's key, and it says what the caller was told. -/
structure AuditsAnswer (s s' : State) (logId : LogId) (actor : NodeId) (reply : CommandReply) :
    Prop where
  fresh : s.audit[logId.auditKey]? = none
  added : ∃ row, s'.audit = auditAfter s logId row ∧
    s'.audit[logId.auditKey]? = some row ∧ row.Agrees actor reply
  tip : s'.auditTip = some logId

/-- Nothing stands under the entry's key, and retention keeps what is put there. -/
def auditRoom (s : State) (logId : LogId) : Bool :=
  !s.audit.contains logId.auditKey &&
    decide (s.audit.size + 1 - maxAuditRows ≤ s.audit.rank logId.auditKey)

/-- The row a rejected command would be shown has never been held or written: its answer carries
no epoch and no value revision. -/
def answersUnstamped (s : State) : Command → Bool
  | .rejectedClient client _ resource =>
    match classifyClient s client with
    | .replay _ saved => saved.snapshot.all fun x => x.epoch == 0 && x.valueRevision == 0
    | _ => resource.all fun key =>
      let row := s.resources[key]?.getD default
      row.epoch == 0 && row.valueRevision == 0
  | _ => true

theorem rejectedAuditRow_agrees (logId : LogId) (client : ClientRef) (code : Int)
    (disposition : Disposition) (reply : SavedReply) (replayed : Bool) :
    (rejectedAuditRow logId client code reply).Agrees client.actor
        (.client ⟨disposition, reply, replayed⟩) ↔
      (reply.snapshot.all fun x => x.epoch == 0 && x.valueRevision == 0) = true := by
  constructor
  · rintro ⟨-, -, -, hepoch, hvalue⟩
    simp only [rejectedAuditRow, CommandReply.snapshot] at hepoch hvalue
    cases hsnap : reply.snapshot with
    | none => rfl
    | some =>
      rw [hsnap] at hepoch hvalue
      simp only [Option.map_some, Option.getD_some] at hepoch hvalue
      simp [← hepoch, ← hvalue]
  · intro h
    refine ⟨rfl, rfl, rfl, ?_, ?_⟩ <;> simp only [rejectedAuditRow, CommandReply.snapshot] <;>
      cases hsnap : reply.snapshot with
      | none => rfl
      | some =>
        rw [hsnap] at h
        simp at h
        simp [h.1, h.2]

/-- **The audit row of a step against its reply**: they differ only where a rejected command is
answered with stamps. -/
theorem Step.agrees_iff {entry : Option (SessionKey × Session)} {actor : NodeId}
    (h : Step ext s logId command change entry row reply)
    (hactor : command.clientActor = some actor) :
    row.Agrees actor reply ↔ answersUnstamped s command = true := by
  cases h with
  | replay | refused | decided | retired | retiredAlready | retireRefused =>
    cases hactor
    exact ⟨fun _ => rfl, fun _ => ⟨rfl, rfl, rfl, rfl, rfl⟩⟩
  | rejectedReplay client code resource journal saved hclass =>
    cases hactor
    rw [rejectedAuditRow_agrees, answersUnstamped, hclass]
  | rejectedRefused client code resource journal reason hclass
  | rejectedFresh client code resource journal creates hclass =>
    cases hactor
    rw [rejectedAuditRow_agrees, answersUnstamped, hclass]
    cases resource <;> rfl
  | _ => cases hactor

/-- With nothing under its key, a row is kept exactly when retention leaves it. -/
theorem auditAfter_get? (row : AuditRow) (hfresh : s.audit[logId.auditKey]? = none) :
    (auditAfter s logId row)[logId.auditKey]? = some row ↔
      s.audit.size + 1 - maxAuditRows ≤ s.audit.rank logId.auditKey := by
  have hput : (s.audit.insert logId.auditKey row)[logId.auditKey]? = some row :=
    get?_insert_self _ _ _
  have hkept : (auditAfter s logId row)[logId.auditKey]? = some row ↔
      (s.audit.insert logId.auditKey row).size - maxAuditRows ≤
        rank (s.audit.insert logId.auditKey row) logId.auditKey :=
    get?_dropFirst _ hput
  rw [hkept, rank_insert_self, size_insert_of_none row hfresh]

/-- Whatever is found under the key of the row just written is that row. -/
theorem auditAfter_get?_eq {found : AuditRow}
    (h : (auditAfter s logId row)[logId.auditKey]? = some found) : found = row := by
  have hput := get?_of_dropFirst h
  have hself : (s.audit.insert logId.auditKey row)[logId.auditKey]? = some row :=
    get?_insert_self _ _ _
  exact Option.some.inj (hput.symm.trans hself)

theorem auditRoom_iff : auditRoom s logId = true ↔
    s.audit[logId.auditKey]? = none ∧
      s.audit.size + 1 - maxAuditRows ≤ s.audit.rank logId.auditKey := by
  simp only [auditRoom, contains_eq_isSome, Bool.and_eq_true, Bool.not_eq_true',
    Option.isSome_eq_false_iff, Option.isNone_iff_eq_none, decide_eq_true_eq]

/-- **The audit record against the answer.**  An accepted command of a client, readable or not, or
an accepted retirement adds one row that says what the caller was told exactly when its key is free
and kept and, for a command whose action could not be read, the answer carries no stamps. -/
theorem audit_row_agrees_iff (s s' : State) (logId : LogId) (command : Command) (actor : NodeId)
    (reply : CommandReply) (hactor : command.clientActor = some actor)
    (hdeliver : deliver ext s (logId, command) = (s', .ok reply)) :
    AuditsAnswer s s' logId actor reply ↔
      auditRoom s logId = true ∧ answersUnstamped s command = true := by
  obtain ⟨_, hfault⟩ | ⟨_, _, _, _, row, hdeliver₁, hstep, haudited⟩ :=
    deliver_audited ext s (logId, command)
  · rw [hdeliver] at hfault
    cases hfault
  · rw [hdeliver] at hdeliver₁
    cases hdeliver₁
    rw [auditRoom_iff, ← hstep.agrees_iff ext hactor]
    constructor
    · rintro ⟨hfresh, ⟨_, -, hfound, hagrees⟩, -⟩
      rw [haudited.table] at hfound
      cases auditAfter_get?_eq hfound
      exact ⟨⟨hfresh, (auditAfter_get? row hfresh).mp hfound⟩, hagrees⟩
    · rintro ⟨⟨hfresh, hroom⟩, hagrees⟩
      have hfound := (auditAfter_get? row hfresh).mpr hroom
      rw [← haudited.table] at hfound
      exact ⟨hfresh, ⟨row, haudited.table, hfound, hagrees⟩, haudited.tip⟩

namespace Sample

/-- The resource is held, and so its epoch is one. -/
def held : State := run (deliver externals) model [acquireResource]

/-- A command of the holder on that resource whose request hash does not match its action. -/
def unreadable : Delivery :=
  (entry 3, .rejectedClient ⟨voter, client, 2, FixedBytes.fill 32 5⟩ 1 (some resource))

end Sample

open Sample

theorem audit_row_agrees_acquire :
    AuditsAnswer model held (entry 2) voter (.client ⟨.consumed, successReply .granted resource
        (held.resources[resource]?.getD default), false⟩) :=
  (audit_row_agrees_iff externals model held (entry 2)
    acquireResource.2 voter _ rfl (by decide +kernel)).mpr
    ⟨by decide +kernel, by decide +kernel⟩

/-- The caller is told the epoch of the held resource, and the audit row says zero. -/
theorem unreadable_command_audits_other_epoch :
    ∃ s' reply, deliver externals held unreadable = (s', .ok reply) ∧
      ¬ AuditsAnswer held s' (entry 3) voter reply := by
  refine ⟨(deliver externals held unreadable).1,
    .client ⟨.consumed, rejection held (some resource) .none, false⟩,
    Prod.ext rfl (by decide +kernel), ?_⟩
  rintro ⟨-, ⟨_, -, hrow, hagrees⟩, -⟩
  have hepoch : ((deliver externals held unreadable).1.audit[
      (entry 3).auditKey]?.map (·.epoch)) = some 0 := by decide +kernel
  have htold : ((rejection held (some resource) .none).snapshot.map
      (·.epoch)).getD 0 = 1 := by decide +kernel
  rw [hrow, Option.map_some, hagrees.epoch] at hepoch
  exact absurd (htold.symm.trans (Option.some.inj hepoch)) (by decide)

/-! ### The trail of a run -/

theorem Step.leaderNodeId {entry : Option (SessionKey × Session)}
    (h : Step ext s logId command change entry row reply) :
    row.leaderNodeId = logId.leaderNodeId := by
  cases h <;> rfl

/-- The accepted commands of a run, oldest first: the log id of each, and the audit row found under
its key right after it. -/
def auditHistory (s : State) : List Delivery → List (LogId × Option AuditRow)
  | [] => []
  | d :: rest =>
    let applied := deliver ext s d
    match applied.2 with
    | .ok _ => (d.1, applied.1.audit[d.1.auditKey]?) :: auditHistory applied.1 rest
    | .error _ => auditHistory applied.1 rest

/-- The newest entries of a history, as many as are retained. -/
def retained {α : Type} (history : List α) : List α :=
  history.drop (history.length - maxAuditRows)

/-- The trail left by a history that began in the state `s₀`. -/
structure Trail (s₀ s : State) (history : List (LogId × Option AuditRow)) : Prop where
  rows : s.audit.toList.map (fun e => (e.1, some e.2)) =
    (retained history).map fun e => (e.1.auditKey, e.2)
  leaders : ∀ e ∈ history, ∀ row, e.2 = some row → row.leaderNodeId = e.1.leaderNodeId
  floor : s.auditFloor = if history.length ≤ maxAuditRows then s₀.auditFloor
    else (retained history).head?.map Prod.fst
  tip : s.auditTip = (history.getLast?.map Prod.fst).or s₀.auditTip

/-- The order of the log: indices increase and terms never decrease. -/
def LogBefore (a b : LogId) : Prop := a.index < b.index ∧ a.term ≤ b.term

/-- Log order is the order of the audit keys. -/
theorem LogBefore.auditKey_lt {a b : LogId} (h : LogBefore a b) :
    compare a.auditKey b.auditKey = .lt := by
  obtain ⟨hindex, hterm⟩ := h
  have hlex : compare a.auditKey b.auditKey =
      (compare a.term b.term).then (compare a.index b.index) := rfl
  rw [hlex]
  rcases Nat.lt_or_eq_of_le hterm with hlt | heq
  · rw [Nat.compare_eq_lt.mpr hlt]
    rfl
  · rw [heq, Nat.compare_eq_lt.mpr hindex]
    simp

theorem retained_append {α : Type} (history : List α) (e : α) :
    retained (history ++ [e]) =
      (retained history ++ [e]).drop ((retained history).length + 1 - maxAuditRows) := by
  unfold retained
  rw [length_append, length_singleton, length_drop]
  rcases Nat.lt_or_ge history.length maxAuditRows with hless | hfull
  · have hzero : history.length - maxAuditRows = 0 := by omega
    have hzero' : history.length + 1 - maxAuditRows = 0 := by omega
    rw [hzero, hzero', Nat.sub_zero, hzero', drop_zero, drop_zero, drop_zero]
  · have hone : history.length - (history.length - maxAuditRows) + 1 - maxAuditRows = 1 := by
      omega
    have hsucc : history.length + 1 - maxAuditRows = (history.length - maxAuditRows) + 1 := by
      omega
    rw [hone, hsucc, ← drop_append_of_le_length (Nat.sub_le _ _), drop_drop]

/-- Every row of the table belongs to a command of the history. -/
theorem Trail.mem_history (h : Trail s₀ s history) {key : AuditKey}
    (hrow : s.audit[key]? = some row) :
    ∃ logId, (logId, some row) ∈ history ∧ logId.auditKey = key := by
  have hmem : (key, some row) ∈ s.audit.toList.map fun e => (e.1, some e.2) :=
    mem_map_of_mem (f := fun e : AuditKey × AuditRow => (e.1, some e.2))
      (Table.mem_toList.mpr hrow)
  rw [h.rows, mem_map] at hmem
  obtain ⟨⟨logId, _⟩, hin, heq⟩ := hmem
  cases heq
  exact ⟨logId, mem_of_mem_drop hin, rfl⟩

/-- The oldest row of a trail gives back the log id of its command. -/
theorem oldestLogId_of_rows {t : Table AuditKey AuditRow} {es : List (LogId × Option AuditRow)}
    (hrows : t.toList.map (fun e => (e.1, some e.2)) = es.map fun e => (e.1.auditKey, e.2))
    (hleaders : ∀ e ∈ es, ∀ row, e.2 = some row → row.leaderNodeId = e.1.leaderNodeId) :
    oldestLogId t = es.head?.map Prod.fst := by
  unfold oldestLogId
  cases hlist : t.toList with
  | nil =>
    rw [hlist, map_nil, eq_comm, map_eq_nil_iff] at hrows
    rw [hrows]
    rfl
  | cons first =>
    cases es with
    | nil =>
      rw [hlist] at hrows
      cases hrows
    | cons e =>
      rw [hlist, map_cons, map_cons] at hrows
      have hfirst := (cons.inj hrows).1
      have hleader := hleaders e mem_cons_self first.2 (congrArg Prod.snd hfirst).symm
      have hkey : first.1 = e.1.auditKey := congrArg Prod.fst hfirst
      simp only [head?_cons, Option.map_some, hkey, hleader]
      rfl

/-- **One accepted command extends the history and its trail.** -/
theorem Trail.extend {s' : State} (h : Trail s₀ s history)
    (hlater : ∀ e ∈ history, LogBefore e.1 logId)
    (hleader : row.leaderNodeId = logId.leaderNodeId) (haudited : Audited s s' logId row) :
    Trail s₀ s' (history ++ [(logId, s'.audit[logId.auditKey]?)]) := by
  have hput : (s.audit.insert logId.auditKey row).toList =
      s.audit.toList ++ [(logId.auditKey, row)] := by
    refine toList_insert_last row fun key old hold => ?_
    obtain ⟨_, hmem, rfl⟩ := h.mem_history hold
    exact (hlater _ hmem).auditKey_lt
  have hlength : s.audit.toList.length = (retained history).length := by
    have hlen := congrArg length h.rows
    simpa using hlen
  have hsize : (s.audit.insert logId.auditKey row).size = (retained history).length + 1 := by
    rw [← Std.ExtTreeMap.length_toList, hput, length_append, hlength]
    rfl
  have htable : s'.audit.toList = (s.audit.toList ++ [(logId.auditKey, row)]).drop
      ((retained history).length + 1 - maxAuditRows) := by
    rw [haudited.table]
    unfold auditAfter
    rw [toList_dropFirst, ← hput, ← hsize]
    rfl
  -- the cap is not zero, so the row just written is among those kept
  have hcap : (retained history).length + 1 - maxAuditRows ≤ s.audit.toList.length := by
    have hpos : 0 < maxAuditRows := by decide
    omega
  have hkept : s'.audit[logId.auditKey]? = some row := by
    rw [← Table.mem_toList, htable,
      drop_append_of_le_length hcap]
    exact mem_append_right _ (mem_singleton_self _)
  rw [hkept]
  have hrows : s'.audit.toList.map (fun e => (e.1, some e.2)) =
      (retained (history ++ [(logId, some row)])).map fun e => (e.1.auditKey, e.2) := by
    rw [htable, retained_append, map_drop, map_drop, map_append, map_append,
      h.rows]
    rfl
  have hleaders : ∀ e ∈ history ++ [(logId, some row)], ∀ found, e.2 = some found →
      found.leaderNodeId = e.1.leaderNodeId := by
    intro e he found hfound
    rcases mem_append.mp he with hold | hnew
    · exact h.leaders e hold found hfound
    · rw [mem_singleton.mp hnew] at hfound ⊢
      cases hfound
      exact hleader
  refine ⟨hrows, hleaders, ?_, ?_⟩
  · have hfit : (s.audit.insert logId.auditKey row).size ≤ maxAuditRows ↔
        (history ++ [(logId, some row)]).length ≤ maxAuditRows := by
      rw [hsize, retained, length_drop, length_append, length_singleton]
      omega
    rw [haudited.floor]
    by_cases hroom : (history ++ [(logId, some row)]).length ≤ maxAuditRows
    · rw [if_pos (hfit.mpr hroom), if_pos hroom, h.floor, if_pos]
      rw [length_append] at hroom
      omega
    · rw [if_neg fun hle => hroom (hfit.mp hle), if_neg hroom]
      exact oldestLogId_of_rows hrows fun e he => hleaders e (mem_of_mem_drop he)
  · rw [haudited.tip, getLast?_append]
    rfl

/-- **The trail of a run** extends the trail it starts with. -/
theorem run_trail {ds : List Delivery} (h : Trail s₀ s history)
    (hlater : ∀ e ∈ history, ∀ d ∈ ds, LogBefore e.1 d.1)
    (hlog : ds.Pairwise fun a b => LogBefore a.1 b.1) :
    Trail s₀ (run (deliver ext) s ds) (history ++ auditHistory ext s ds) := by
  induction ds generalizing s history with
  | nil =>
    rw [auditHistory, append_nil]
    exact h
  | cons d rest ih =>
    have hrest := pairwise_cons.mp hlog
    have hlater' : ∀ e ∈ history, ∀ d ∈ rest, LogBefore e.1 d.1 :=
      fun e he x hx => hlater e he x (mem_cons_of_mem _ hx)
    rw [run_cons, auditHistory]
    obtain ⟨_, hfault⟩ | ⟨_, _, _, _, _, hdeliver, hstep, haudited⟩ :=
      deliver_audited ext s d
    · rw [hfault]
      exact ih h hlater' hrest.2
    · rw [hdeliver]
      dsimp only
      rw [append_cons]
      refine ih (h.extend (fun e he => hlater e he d mem_cons_self)
        (hstep.leaderNodeId ext) haudited) ?_ hrest.2
      intro e he x hx
      rcases mem_append.mp he with hold | hnew
      · exact hlater' e hold x hx
      · rw [mem_singleton.mp hnew]
        exact hrest.1 x hx

/-- **The audit table is the newest suffix of the command history.**  In a run with increasing
indices and terms that never decrease, begun with an empty table, the table lists the rows of the
last accepted commands, as many as are retained, in log order; the floor stays where it was while
nothing was pruned and is then the log id of the oldest of them; the tip is that of the newest. -/
theorem audit_is_newest_suffix (s : State) (ds : List Delivery) (hempty : s.audit = ∅)
    (hlog : ds.Pairwise fun a b => a.1.index < b.1.index ∧ a.1.term ≤ b.1.term) :
    let history := auditHistory ext s ds
    let s' := run (deliver ext) s ds
    s'.audit.toList.map (fun e => (e.1, some e.2)) =
        (retained history).map (fun e => ((e.1.term, e.1.index), e.2)) ∧
      (retained history).length = min history.length maxAuditRows ∧
      (history.length ≤ maxAuditRows → s'.auditFloor = s.auditFloor) ∧
      (maxAuditRows < history.length → s'.auditFloor = (retained history).head?.map Prod.fst) ∧
      s'.auditTip = (history.getLast?.map Prod.fst).or s.auditTip := by
  intro history s'
  have hstart : Trail s s [] := by
    refine ⟨?_, fun e he => absurd he not_mem_nil, rfl, rfl⟩
    rw [hempty]
    rfl
  have htrail := run_trail ext hstart (fun e he => absurd he not_mem_nil) hlog
  rw [nil_append] at htrail
  refine ⟨htrail.rows, ?_, ?_, ?_, htrail.tip⟩
  · rw [retained, length_drop]
    omega
  · intro hle
    exact htrail.floor.trans (if_pos hle)
  · intro hlt
    exact htrail.floor.trans (if_neg (Nat.not_le.mpr hlt))

theorem audit_is_newest_suffix_acquire :
    (run (deliver externals) model [acquireResource, staleExpiry 3]).auditTip = some (entry 3) :=
  (audit_is_newest_suffix externals model
    [acquireResource, staleExpiry 3] (by decide +kernel)
    (by simp [acquireResource, staleExpiry, Sample.entry])).2.2.2.2.trans
    (by decide +kernel)

end AsterRpc.Coordination

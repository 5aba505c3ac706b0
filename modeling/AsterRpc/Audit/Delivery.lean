import AsterRpc.Audit.Custody

/-!
# The delivery worker

`delivery_loop` of `audit_outbox/worker.rs`: fetch a batch, post it, classify the
answer, report it to the store, one request at a time.  Between a fetch and its
report anything may happen to the store.  Requests are numbered, so that "the
answer to this request" has a meaning across restarts.
-/

namespace AsterRpc.Audit

open Std List Outbox
open AsterRpc.Foundation
open AsterRpc.Coordination (Bytes FixedBytes)

/-! ### Answers -/

structure DurableAck where
  version : ℕ
  batchId : Bytes
  durable : Bool

structure IntegrityResponse where
  version : ℕ
  error : String

/-- How the bodies of answers are read. -/
structure Answers where
  parseAck : Bytes → Option DurableAck
  parseIntegrity : Bytes → Option IntegrityResponse

/-- A response; the body is missing when it was not read within its bound. -/
structure Response where
  status : ℕ
  body : Option Bytes

structure Classification where
  kind : DeliveryErrorKind
  isolate : Bool
  stall : Bool
  immediate : Bool

/-- `classify`. -/
def classify (status : ℕ) (validAck integrity singleton : Bool) : Option Classification :=
  if 200 ≤ status ∧ status < 300 ∧ validAck = true then none
  else some <|
    if 200 ≤ status ∧ status ≤ 299 then ⟨.protocol, false, false, false⟩
    else if status = 401 ∨ status = 403 then ⟨.credentials, false, false, false⟩
    else if status = 408 ∨ status = 425 ∨ status = 429 ∨ (500 ≤ status ∧ status ≤ 599) then
      ⟨.transport, false, false, false⟩
    else if status = 413 ∨ status = 422 then ⟨.rejected, !singleton, singleton, singleton⟩
    else if status = 409 ∧ integrity = true then ⟨.integrity, !singleton, singleton, true⟩
    else ⟨.configuration, false, true, true⟩

/-- The text a failed delivery is recorded with. -/
def DeliveryErrorKind.text : DeliveryErrorKind → String
  | transport => "receiver transport/retry condition"
  | protocol => "receiver did not return an exact durable batch acknowledgement"
  | credentials => "receiver rejected credentials or authorization"
  | rejected => "receiver rejected record size or schema"
  | integrity => "receiver reported an ID/content integrity conflict"
  | configuration => "receiver configuration/protocol requires explicit repair"

def Batch.ids (batch : Batch) : List EventId := batch.events.map StoredEvent.id

section Report

variable (lib : Libraries) (answers : Answers)

/-- The body is an acknowledgement of exactly this batch. -/
def validAck (ids : List EventId) (body : Option Bytes) : Bool :=
  match body.bind answers.parseAck with
  | none => false
  | some ack => ack.version == 1 && ack.durable && ack.batchId == batchId lib ids

def integrityConflict (body : Option Bytes) : Bool :=
  match body.bind answers.parseIntegrity with
  | none => false
  | some error => error.version == 1 && error.error == "integrity_conflict"

/-- What the worker makes of an answer, or of none. -/
def classifyAnswer (batch : Batch) : Option Response → Option (Option ℕ × Classification)
  | none => some (none, ⟨.transport, false, false, false⟩)
  | some response =>
    (classify response.status (validAck lib answers batch.ids response.body)
      (integrityConflict answers response.body) batch.singleton).map
        fun c => (some response.status, c)

/-- What the worker asks of the store after an answer. -/
def report (now : ℕ) (batch : Batch) (answer : Option Response) : Request lib :=
  match classifyAnswer lib answers batch answer with
  | none => .acknowledge now batch.generation batch.ids
  | some (status, c) =>
    .deliveryError batch.generation
      ⟨c.kind, status, (batch.events.head?.map StoredEvent.sequence).getD 0, c.immediate,
        c.kind.text⟩
      (if c.isolate then batch.events.getLast?.map StoredEvent.sequence else none) c.stall

end Report

/-! ### The store with its worker -/

/-- What the application and the operator may ask. -/
inductive Command (lib : Libraries) where
  | submitGroup (events : List (Admitted lib))
  | reconfigure (destination : Destination)
  | quarantine (now : ℕ) (id : Bytes) (reason operator : String)
  | exportRecord (id : Bytes)
  | replay (now : ℕ) (id : Bytes)

def Command.request {lib : Libraries} : Command lib → Request lib
  | submitGroup events => .submitGroup events
  | reconfigure destination => .reconfigure destination
  | quarantine now id reason operator => .quarantine now id reason operator
  | exportRecord id => .exportRecord id
  | replay now id => .replay now id

/-- The worker between its steps. -/
inductive Courier where
  | idle
  /-- A batch was fetched and is being posted. -/
  | requested (number : ℕ) (batch : Batch)
  /-- The answer is there and is to be reported. -/
  | reporting (number : ℕ) (batch : Batch) (answer : Option Response)

structure Delivery where
  outbox : Outbox
  courier : Courier
  /-- How many batches were fetched. -/
  fetched : ℕ

open Delivery

def Delivery.new : Delivery := ⟨.new, .idle, 0⟩

inductive DeliveryEvent (lib : Libraries) where
  | command (command : Command lib) (fault : Fault)
  | fetch (fault : Fault)
  | answered (answer : Option Response)
  | report (now : ℕ) (fault : Fault)
  | close
  | openStore (creating pruning repointing : Fault) (random : FixedBytes 16) (now : ℕ)
      (config : OutboxConfig)

namespace Delivery

variable {lib : Libraries} (answers : Answers)

/-- The worker ends with its store. -/
def withOutbox (delivery : Delivery) (outbox : Outbox) : Delivery :=
  { delivery with
    outbox := outbox
    courier := if outbox.store.isSome then delivery.courier else .idle }

/-- The outbox does one step while the worker waits. -/
def during (delivery : Delivery) (event : OutboxEvent lib) : Delivery :=
  delivery.withOutbox (delivery.outbox.next event)

/-- One step; an event that does not apply changes nothing. -/
def next (delivery : Delivery) : DeliveryEvent lib → Delivery
  | .command command fault => delivery.during (.call command.request fault)
  | .close => delivery.during (.close : OutboxEvent lib)
  | .openStore creating pruning repointing random now config =>
    delivery.during (.openStore creating pruning repointing random now config : OutboxEvent lib)
  | .fetch fault =>
    match delivery.courier, delivery.outbox.store with
    | .idle, some store =>
      -- a read that fails closes the store
      if fault ≠ .none then delivery.during (.close : OutboxEvent lib)
      else
        match batch lib store delivery.outbox.db with
        | none => delivery
        | some batch =>
          { delivery with
            courier := .requested delivery.fetched batch
            fetched := delivery.fetched + 1 }
    | _, _ => delivery
  | .answered answer =>
    match delivery.courier with
    | .requested number batch => { delivery with courier := .reporting number batch answer }
    | _ => delivery
  | .report now fault =>
    match delivery.courier with
    | .reporting _ batch answer =>
      { delivery with
        outbox := delivery.outbox.next (.call (report lib answers now batch answer) fault)
        courier := .idle }
    | _ => delivery

def step (delivery : Delivery) (event : DeliveryEvent lib) : Delivery × Unit :=
  (delivery.next answers event, ())

end Delivery

/-! ### What a step leaves of the pending rows -/

section Effects

variable {lib : Libraries} {given : List (ℕ × Bytes)} {acknowledged : List EventId} {db : AuditDb}
  {store : Store} {outbox : Outbox} {fault : Fault} {store' s : Store} {command : Command lib}
  {ids : List EventId} {state : State} {n : ℕ}

theorem Outbox.next_call (h : outbox.store = some store) (request : Request lib) (fault : Fault) :
    outbox.next (.call request fault) = outbox.call store fault request := by
  rw [next, h]

/-- An open store goes on: its generation grows, or the pending rows are only added to. -/
def Advances (db : AuditDb) (store : Store) (db' : AuditDb) (store' : Store) : Prop :=
  store'.state.identity = store.state.identity ∧
    (store.generation < store'.generation ∨
      store'.generation = store.generation ∧ db.pending.toList <+: db'.pending.toList)

theorem Advances.refl (db : AuditDb) (store : Store) : Advances db store db store :=
  ⟨rfl, .inr ⟨rfl, prefix_refl _⟩⟩

theorem settle_advances {reloads : Bool} {plan : Plan}
    (hafter : afterCall store (settle lib fault reloads db plan).1 = some store')
    (hnone : ∀ s, plan = .ok (none, s) →
      s.state.identity = store.state.identity ∧ s.generation = store.generation)
    (hsome : ∀ written s, plan = .ok (some written, s) → Advances db store written s) :
    Advances db store (settle lib fault reloads db plan).2 store' := by
  rcases settle_cases lib fault reloads db plan with
    ⟨-, hdb, hlive⟩ | ⟨written, planned, hplan, -, hdb, hfollows⟩
  · rw [hdb]
    obtain ⟨-, rfl | hplan⟩ := hlive store store' hafter
    · exact Advances.refl db _
    · obtain ⟨hident, hgeneration⟩ := hnone store' hplan
      exact ⟨hident, .inr ⟨hgeneration, prefix_refl _⟩⟩
  · rw [hdb]
    have hplanned := hsome written planned hplan
    rcases hfollows store store' hafter with ⟨-, rfl⟩ | ⟨_, -, rfl⟩
    · exact hplanned
    · exact hplanned

/-- A command that writes moves the store to its next generation, unless it is a submission, which
adds rows at the end. -/
theorem Command.plan_writes (hkept : Kept lib given acknowledged store.state db)
    (hmax : store.config.maxEventBytes ≤ maxEventBytes) {written : AuditDb}
    (h : command.request.plan store db = .ok (some written, s)) :
    s.state.identity = store.state.identity ∧
      (((∃ events, command = .submitGroup events) ∧ s.generation = store.generation ∧
          db.pending.toList <+: written.pending.toList) ∨
        s.generation = store.generation + 1) := by
  cases command with
  | submitGroup events =>
    have hgathers := Gathers.admitGroup hkept hmax events
    refine ⟨(Writes.submit hkept hmax events h).identity, .inl ⟨⟨events, rfl⟩, ?_⟩⟩
    rw [Command.request, Request.plan, planSubmit] at h
    split at h
    · cases h
    · cases h
      refine ⟨rfl, ?_⟩
      show _ <+: (insertRows _ db.pending).toList
      rw [hgathers.listed]
      exact prefix_append _ _
  | reconfigure =>
    obtain ⟨_, -, -, hres⟩ := planReconfigure_eq_ok.mp h
    cases hres
    exact ⟨rfl, .inr rfl⟩
  | quarantine =>
    refine ⟨(Writes.quarantine hkept h).identity, .inr ?_⟩
    obtain ⟨n, -, -, ⟨b, -, hres⟩ | ⟨-, b, -, -, -, -, hmove⟩⟩ := planQuarantine_eq_ok h
    · cases hres
    · obtain ⟨_, _, _, hres, -⟩ := moveDead_moves hmove
      cases hres
      rfl
  | exportRecord => cases h
  | replay =>
    refine ⟨(Writes.replay hkept h).identity, .inr ?_⟩
    obtain ⟨-, n, -, -, ⟨-, hres⟩ | ⟨b, -, -, -, hmove⟩⟩ := planReplay_eq_ok h
    · cases hres
    · obtain ⟨_, _, _, hres, -⟩ := moveBack_moves hmove
      cases hres
      rfl

/-- A command of the operator that is carried out. -/
def Command.Moves (store : Store) (db : AuditDb) (command : Command lib) : Prop :=
  (command.request.plan store db).wrote = true ∧ ∀ events, command ≠ .submitGroup events

/-- The oldest pending row is held by a stall that may be bypassed. -/
def Held (lib : Libraries) (db : AuditDb) (n : ℕ) (b : Bytes) : Prop :=
  db.pending.toList.head? = some (n, b) ∧ ∃ state stall, db.state = some (lib.stateJson state) ∧
    state.stall = some stall ∧ stall.sequence = n ∧
    (stall.kind = .rejected ∨ stall.kind = .integrity)

/-- What an acknowledgement leaves pending: the rows whose identifiers it does not name. -/
theorem Kept.remove_pending {removal removal' : Removal}
    (hremove : ids.foldlM (Removal.remove lib) removal = .ok removal')
    (h : Kept lib given acknowledged removal.state { db with pending := removal.pending }) (n : ℕ)
    (b : Bytes) :
    removal'.pending[n]? = some b ↔
      removal.pending[n]? = some b ∧ idFor lib removal.state.identity n b ∉ ids := by
  induction ids generalizing removal acknowledged with
  | nil =>
    rw [foldlM_nil_eq_ok] at hremove
    rw [hremove]
    exact (and_iff_left (not_mem_nil)).symm
  | cons id rest ih =>
    rw [foldlM_cons_eq_ok] at hremove
    obtain ⟨_, hfirst, hrest⟩ := hremove
    obtain ⟨identity, m, _, c, hparse, hpend, hid, rfl⟩ := Removal.remove_eq_ok.mp hfirst
    rw [ih hrest (h.erase hpend), mem_cons, not_or, Table.get?_erase]
    -- only the row that was named is gone
    have hne : removal.pending[n]? = some b →
        (idFor lib removal.state.identity n b = id ↔ m = n) := by
      intro hn
      constructor
      · intro heq
        obtain ⟨⟨hm, hm'⟩, -⟩ := h.pendingRows m c hpend
        obtain ⟨⟨hn, hn'⟩, -⟩ := h.pendingRows n b hn
        have hlast := h.last
        exact (idFor_sequence h.identity ⟨hn, by omega⟩ ⟨hm, by omega⟩ (heq.trans hid.symm)).symm
      · rintro rfl
        rw [hpend] at hn
        rw [← Option.some.inj hn]
        exact hid
    by_cases hmn : m = n
    · rw [if_pos hmn]
      refine ⟨fun hfalse => (by cases hfalse.1), fun hthere => ?_⟩
      exact absurd ((hne hthere.1).mpr hmn) hthere.2.1
    · rw [if_neg hmn]
      constructor
      · intro hthere
        exact ⟨hthere.1, fun heq => hmn ((hne hthere.1).mp heq), hthere.2⟩
      · intro hthere
        exact ⟨hthere.1, hthere.2.2⟩

theorem stalledAt_eq_true (h : stalledAt state n = true) :
    ∃ stall, state.stall = some stall ∧ stall.sequence = n ∧
      (stall.kind = .rejected ∨ stall.kind = .integrity) := by
  rw [stalledAt] at h
  split at h
  · cases h
  · rename_i stall hstall
    simp only [Bool.and_eq_true, Bool.or_eq_true, beq_iff_eq] at h
    exact ⟨stall, hstall, h⟩

section

variable (h : outbox.Sound lib none) (hstore : outbox.store = some store)

include h hstore

theorem Outbox.call_advances (fault : Fault) (command : Command lib)
    (hafter : (outbox.call store fault command.request).store = some store') :
    Advances outbox.db store (outbox.call store fault command.request).db store' := by
  obtain ⟨hkept, -, -⟩ := h.kept hstore
  obtain ⟨_, hdb, hlive⟩ := Request.call_settles hstore fault command.request
  rw [hdb]
  refine settle_advances (hlive store' hafter) (fun s hs => ?_) fun written s hs => ?_
  · have hsame := command.request.plan_none hs
    exact ⟨congrArg State.identity hsame.state, hsame.generation⟩
  · obtain ⟨hident, ⟨-, hsame⟩ | hgrows⟩ :=
      Command.plan_writes hkept (h.live store hstore).2.2.1 hs
    · exact ⟨hident, .inr hsame⟩
    · exact ⟨hident, .inl (by omega)⟩

theorem Outbox.call_moves (hmoves : command.Moves store outbox.db)
    (hafter : (outbox.call store fault command.request).store = some store') :
    store.generation < store'.generation := by
  obtain ⟨hkept, -, -⟩ := h.kept hstore
  obtain ⟨reloads, -, hlive⟩ := Request.call_settles hstore fault command.request
  obtain ⟨hwrote, hnot⟩ := hmoves
  rcases settle_cases lib fault reloads outbox.db (command.request.plan store outbox.db) with
    ⟨-, -, hclosed⟩ | ⟨_, planned, hplan, -, -, hfollows⟩
  · -- a store that has failed is closed
    obtain ⟨hnone, -⟩ := hclosed store store' (hlive store' hafter)
    rw [hwrote] at hnone
    cases hnone
  · obtain ⟨-, ⟨⟨events, hsubmit⟩, -⟩ | hgrows⟩ :=
      Command.plan_writes hkept (h.live store hstore).2.2.1 hplan
    · exact absurd hsubmit (hnot events)
    · rcases hfollows store store' (hlive store' hafter) with ⟨-, rfl⟩ | ⟨_, -, rfl⟩
      · omega
      · show store.generation < planned.generation
        omega

/-- An acknowledgement that commits. -/
theorem Outbox.acknowledge_commits {now generation : ℕ}
    (hcommit : (fault.commits &&
      (planAcknowledge lib now store outbox.db generation ids).isOk) = true) :
    generation = store.generation ∧ ∃ state,
      Kept lib outbox.given (outbox.acknowledged.flatten ++ ids) state
        (outbox.call store fault (.acknowledge now generation ids : Request lib)).db ∧
      state.identity = store.state.identity ∧
      ∀ n b, (outbox.call store fault
          (.acknowledge now generation ids : Request lib)).db.pending[n]? = some b ↔
        outbox.db.pending[n]? = some b ∧ idFor lib store.state.identity n b ∉ ids := by
  obtain ⟨hkept, -, -⟩ := h.kept hstore
  rw [Bool.and_eq_true] at hcommit
  obtain ⟨hfault, hok⟩ := hcommit
  cases hplan : planAcknowledge lib now store outbox.db generation ids with
  | error =>
    rw [hplan] at hok
    cases hok
  | ok =>
    obtain ⟨hgeneration, _, _, logged, hremove, hlog, rfl⟩ :=
      planAcknowledge_eq_ok.mp hplan
    have hwrites := Writes.acknowledge hkept hplan
    -- the transaction is on disk
    have hdb : (outbox.call store fault (.acknowledge now generation ids : Request lib)).db =
        logged := by
      show (acknowledge lib fault now store outbox.db generation ids).2 = logged
      rw [acknowledge]
      rcases settle_cases lib fault true outbox.db
        (planAcknowledge lib now store outbox.db generation ids) with
        ⟨hnot, -⟩ | ⟨written, planned, hsome, -, hsettle, -⟩
      · rw [hfault, hplan] at hnot
        cases hnot
      · rw [hsettle]
        rw [hplan] at hsome
        cases hsome
        rfl
    rw [hdb]
    refine ⟨hgeneration, _, hwrites.kept, hwrites.identity, fun n b => ?_⟩
    rw [(logAcknowledgements_tables hlog).2.1]
    exact Kept.remove_pending hremove hkept n b

/-- A pending row that goes is acknowledged, or held and quarantined. -/
theorem Outbox.call_pending (fault : Fault) (request : Request lib) {b : Bytes}
    (hpre : outbox.db.pending[n]? = some b)
    (hafter : (outbox.call store fault request).db.pending[n]? = none) :
    (∃ now generation ids, request = .acknowledge now generation ids ∧
        idFor lib store.state.identity n b ∈ ids ∧
        (fault.commits && (planAcknowledge lib now store outbox.db generation ids).isOk) = true) ∨
      ∃ now id reason operator, request = .quarantine now id reason operator ∧
        id = idFor lib store.state.identity n b ∧ Held lib outbox.db n b := by
  obtain ⟨hkept, -, -⟩ := h.kept hstore
  obtain ⟨hrecorded, hfirst, hmax, -⟩ := h.live store hstore
  obtain ⟨reloads, hdb, -⟩ := Request.call_settles hstore fault request
  rcases settle_cases lib fault reloads outbox.db (request.plan store outbox.db) with
    ⟨-, hsame, -⟩ | ⟨written, _, hplan, hcommit, hsettle, -⟩
  · rw [hdb, hsame, hpre] at hafter
    cases hafter
  rw [hsettle] at hdb
  rw [hdb] at hafter
  -- a transaction that keeps the row is out of the question
  have hkeeps : written.pending[n]? ≠ some b := by
    rw [hafter]
    exact fun hnone => by cases hnone
  cases request with
  | submitGroup events =>
    have hgathers := Gathers.admitGroup hkept hmax events
    refine absurd ?_ hkeeps
    rw [Request.plan, planSubmit] at hplan
    split at hplan
    · cases hplan
    · cases hplan
      show (insertRows _ outbox.db.pending)[n]? = some b
      rw [← Table.mem_toList, hgathers.listed]
      exact mem_append_left _ (Table.mem_toList.mpr hpre)
  | batch => cases hplan
  | acknowledge now generation ids =>
    refine .inl ⟨now, generation, ids, rfl, ?_⟩
    rw [Request.plan] at hplan
    have hok : (fault.commits &&
        (planAcknowledge lib now store outbox.db generation ids).isOk) = true := by
      rw [hcommit, hplan]
      rfl
    refine ⟨?_, hok⟩
    obtain ⟨-, -, -, -, hiff⟩ := acknowledge_commits h hstore hok
    by_contra hnot
    refine hkeeps ?_
    rw [← hdb]
    exact (hiff n b).mpr ⟨hpre, hnot⟩
  | deliveryError =>
    refine absurd ?_ hkeeps
    rw [(Writes.deliveryError hkept hplan).2.2]
    exact hpre
  | reconfigure =>
    refine absurd ?_ hkeeps
    rw [(Writes.reconfigure hkept hplan).2.2]
    exact hpre
  | quarantine now id reason operator =>
    obtain ⟨m, -, -, ⟨c, -, hres⟩ | ⟨-, c, hpend, hid, holdest, hstalled, hmove⟩⟩ :=
      planQuarantine_eq_ok hplan
    · cases hres
    · obtain ⟨_, _, _, hres, hwrote, -⟩ := moveDead_moves hmove
      cases hres
      -- the row that goes is the one that is quarantined
      have hmn : m = n := by
        by_contra hne
        refine hkeeps ?_
        rw [hwrote, Table.get?_erase_of_ne _ hne]
        exact hpre
      subst hmn
      rw [hpre] at hpend
      obtain rfl := Option.some.inj hpend
      refine .inr ⟨now, id, reason, operator, rfl, hid.symm, ?_, ?_⟩
      · rw [First, holdest] at hfirst
        cases hhead : outbox.db.pending.toList.head? with
        | none =>
          rw [hhead] at hfirst
          cases hfirst
        | some row =>
          have hrow := Table.get?_of_head? hhead
          rw [hhead] at hfirst
          obtain ⟨k, c⟩ := row
          obtain rfl : m = k := Option.some.inj hfirst
          rw [hpre] at hrow
          rw [Option.some.inj hrow]
      · obtain ⟨stall, hstall⟩ := stalledAt_eq_true hstalled
        exact ⟨store.state, stall, hrecorded, hstall⟩
  | exportRecord => cases hplan
  | replay =>
    obtain ⟨-, m, -, -, ⟨-, hres⟩ | ⟨c, hdead, -, -, hmove⟩⟩ := planReplay_eq_ok hplan
    · cases hres
    · obtain ⟨_, _, _, hres, hwrote, -⟩ := moveBack_moves hmove
      cases hres
      refine absurd ?_ hkeeps
      have hne : m ≠ n := by
        rintro rfl
        rw [(hkept.dead_alone hdead).1] at hpre
        cases hpre
      rw [hwrote, Table.get?_insert_of_ne _ _ hne]
      exact hpre

end

theorem reconfigure_pending (lib : Libraries) (fault : Fault) (store : Store) (db : AuditDb)
    (destination : Destination) :
    (reconfigure lib fault store db destination).2.pending = db.pending := by
  rw [(reconfigure_settles lib fault store db destination).1]
  rcases settle_cases lib fault false db (planReconfigure lib store db destination) with
    ⟨-, hsame, -⟩ | ⟨_, _, hplan, -, hdb, -⟩
  · rw [hsame]
  · rw [hdb]
    obtain ⟨_, -, -, hres⟩ := planReconfigure_eq_ok.mp hplan
    cases hres
    rfl

theorem finishOpen_pending (lib : Libraries) (pruning repointing : Fault) (now : ℕ) (store : Store)
    (db : AuditDb) :
    (finishOpen lib pruning repointing now store db).2.pending = db.pending := by
  rw [finishOpen]
  generalize pruneAcknowledgements store.config now (2 ^ 64) db.acks = acks
  have hpruned : (settle lib pruning false db (.ok (if acks.size < db.acks.size then
      some { db with acks := acks } else none, store))).2.pending = db.pending := by
    split
    · cases pruning <;> rfl
    · rfl
  generalize settle lib pruning false db _ = pruned at hpruned ⊢
  obtain ⟨_ | pruned, after⟩ := pruned
  · exact hpruned
  · dsimp only at hpruned ⊢
    split
    · exact hpruned
    · split
      · exact hpruned
      · exact (reconfigure_pending lib repointing pruned after _).trans hpruned

theorem recover_pending (lib : Libraries) (pruning repointing : Fault) (now : ℕ)
    (config : OutboxConfig) (state : State) (ackCursor : ℕ) (db : AuditDb) :
    (recover lib pruning repointing now config state ackCursor db).2.pending = db.pending := by
  rw [recover]
  split
  · rfl
  · split
    · rfl
    · exact finishOpen_pending lib pruning repointing now _ db

end Effects

/-! ### The batch in flight -/

/-- The request the worker has open. -/
def Courier.carries : Courier → Option (ℕ × Batch)
  | idle => none
  | requested number batch => some (number, batch)
  | reporting number batch _ => some (number, batch)

/-- The batch holds the first pending rows. -/
def Leads (lib : Libraries) (identity : Bytes) (db : AuditDb) (batch : Batch) : Prop :=
  ∃ rows, rows <+: db.pending.toList ∧
    batch.events = rows.map fun row => ⟨row.1, idFor lib identity row.1 row.2, row.2⟩

/-- A request belongs to the open store, and to its pending rows unless the generation changed. -/
structure Delivery.Sound (lib : Libraries) (delivery : Delivery) : Prop where
  outbox : delivery.outbox.Sound lib none
  numbered : ∀ number batch, delivery.courier.carries = some (number, batch) →
    number < delivery.fetched
  carried : ∀ number batch, delivery.courier.carries = some (number, batch) →
    ∃ store, delivery.outbox.store = some store ∧ batch.generation ≤ store.generation ∧
      (batch.generation = store.generation →
        Leads lib store.state.identity delivery.outbox.db batch)

/-- The request with this number is of an older generation, if it is still open. -/
def Delivery.Outdated (number : ℕ) (delivery : Delivery) : Prop :=
  number < delivery.fetched ∧ ∀ batch, delivery.courier.carries = some (number, batch) →
    ∀ store, delivery.outbox.store = some store → batch.generation < store.generation

/-- A step of the outbox that the worker does not ask for. -/
def OutboxEvent.Unasked {lib : Libraries} (step : OutboxEvent lib) : Prop :=
  (∃ command fault, step = .call (Command.request command) fault) ∨ step = .close ∨
    ∃ creating pruning repointing random now config,
      step = .openStore creating pruning repointing random now config

section Flight

variable {lib : Libraries} {answers : Answers} {delivery : Delivery} {number : ℕ}

theorem takeRows_isPrefix (singleton : Bool) (count total : ℕ) (rows : List (ℕ × Bytes)) :
    takeRows singleton count total rows <+: rows := by
  induction rows generalizing count total with
  | nil => exact prefix_refl _
  | cons row rest ih =>
    rw [takeRows]
    split
    · exact nil_prefix
    · exact cons_prefix_cons.mpr ⟨rfl, ih _ _⟩

/-- What the worker carries after a step of the outbox it carried before, and the store is open. -/
theorem Delivery.carries_withOutbox {outbox : Outbox} {batch : Batch}
    (h : (delivery.withOutbox outbox).courier.carries = some (number, batch)) :
    delivery.courier.carries = some (number, batch) ∧ ∃ store, outbox.store = some store := by
  rw [withOutbox] at h
  cases hstore : outbox.store with
  | none =>
    rw [hstore] at h
    cases h
  | some store =>
    rw [hstore] at h
    exact ⟨h, store, rfl⟩

/-- A store that stays open through such a step advances. -/
theorem OutboxEvent.Unasked.advances {step : OutboxEvent lib} (hstep : step.Unasked)
    {outbox : Outbox} (h : outbox.Sound lib none) {store store' : Store}
    (hstore : outbox.store = some store) (hstore' : (outbox.next step).store = some store') :
    Advances outbox.db store (outbox.next step).db store' := by
  rcases hstep with ⟨command, fault, rfl⟩ | rfl | ⟨creating, pruning, repointing, random, now,
    config, rfl⟩
  · rw [next_call hstore] at hstore' ⊢
    exact call_advances h hstore fault command hstore'
  · cases hstore'
  · have hsame : outbox.next (.openStore creating pruning repointing random now config :
        OutboxEvent lib) = outbox := by
      rw [Outbox.next, hstore]
    rw [hsame, hstore] at hstore'
    rw [hsame, ← Option.some.inj hstore']
    exact Advances.refl _ _

/-- **What a step does to the worker**: it waits while the outbox does something, or it does its
own next step. -/
theorem Delivery.next_cases (answers : Answers) (delivery : Delivery) (event : DeliveryEvent lib) :
    (∃ step : OutboxEvent lib, delivery.next answers event = delivery.during step ∧
      step.Unasked) ∨
    delivery.next answers event = delivery ∨
    (∃ store fetched, delivery.outbox.store = some store ∧
      Audit.batch lib store delivery.outbox.db = some fetched ∧
      delivery.next answers event = { delivery with
        courier := .requested delivery.fetched fetched
        fetched := delivery.fetched + 1 }) ∨
    (∃ number batch answer, delivery.courier = .requested number batch ∧
      delivery.next answers event =
        { delivery with courier := .reporting number batch answer }) ∨
    ∃ number batch answer now fault, delivery.courier = .reporting number batch answer ∧
      event = .report now fault ∧
      delivery.next answers event = { delivery with
        outbox := delivery.outbox.next (.call (report lib answers now batch answer) fault)
        courier := .idle } := by
  cases event with
  | command command fault => exact .inl ⟨_, rfl, .inl ⟨command, fault, rfl⟩⟩
  | close => exact .inl ⟨_, rfl, .inr (.inl rfl)⟩
  | openStore =>
    exact .inl ⟨_, rfl, .inr (.inr ⟨_, _, _, _, _, _, rfl⟩)⟩
  | fetch =>
    rw [next]
    split
    · rename_i store hcourier hstore
      split
      · exact .inl ⟨.close, rfl, .inr (.inl rfl)⟩
      · split
        · exact .inr (.inl rfl)
        · rename_i fetched hbatch
          exact .inr (.inr (.inl ⟨store, fetched, hstore, hbatch, rfl⟩))
    · exact .inr (.inl rfl)
  | answered answer =>
    rw [next]
    split
    · rename_i number batch hcourier
      exact .inr (.inr (.inr (.inl ⟨number, batch, answer, hcourier, rfl⟩)))
    · exact .inr (.inl rfl)
  | report now fault =>
    rw [next]
    split
    · rename_i number batch answer hcourier
      exact .inr (.inr (.inr (.inr
        ⟨number, batch, answer, now, fault, hcourier, rfl, rfl⟩)))
    · exact .inr (.inl rfl)

/-- **One step keeps the invariant.** -/
theorem Delivery.Sound.next (h : delivery.Sound lib) (event : DeliveryEvent lib) :
    (delivery.next answers event).Sound lib := by
  rcases next_cases answers delivery event with ⟨step, hnext, hstep⟩ | hnext |
    ⟨store, _, hstore, hbatch, hnext⟩ | ⟨number, batch, answer, hcourier, hnext⟩ |
    ⟨number, batch, answer, now, fault, hcourier, -, hnext⟩
  · rw [hnext]
    constructor
    case outbox => exact h.outbox.next step fun m hm => by cases hm
    case numbered =>
      intro number batch hcarries
      exact h.numbered number batch (carries_withOutbox hcarries).1
    case carried =>
      intro number batch hcarries
      obtain ⟨hpre, store', hstore'⟩ := carries_withOutbox hcarries
      obtain ⟨store, hstore, hle, hleads⟩ := h.carried number batch hpre
      obtain ⟨hident, hgrows⟩ := hstep.advances h.outbox hstore hstore'
      refine ⟨store', hstore', ?_, fun heq => ?_⟩
      · rcases hgrows with hlt | ⟨hsame, -⟩
        · omega
        · omega
      · rcases hgrows with hlt | ⟨hsame, hprefix⟩
        · omega
        · obtain ⟨rows, hrows, hevents⟩ := hleads (heq.trans hsame)
          rw [hident]
          exact ⟨rows, hrows.trans hprefix, hevents⟩
  · rw [hnext]
    exact h
  · rw [hnext]
    refine ⟨h.outbox, fun number batch hcarries => ?_, fun number batch hcarries => ?_⟩
    · cases hcarries
      exact Nat.lt_succ_self _
    · cases hcarries
      rw [Audit.batch] at hbatch
      split at hbatch
      · cases hbatch
      · dsimp only at hbatch
        split at hbatch
        · cases hbatch
        · cases hbatch
          exact ⟨store, hstore, Nat.le_refl _, fun _ => ⟨_, takeRows_isPrefix _ 0 0 _, rfl⟩⟩
  · have hcarries : delivery.courier.carries = some (number, batch) := by
      rw [hcourier]
      rfl
    rw [hnext]
    refine ⟨h.outbox, fun n b hn => ?_, fun n b hn => ?_⟩
    · cases hn
      exact h.numbered _ _ hcarries
    · cases hn
      exact h.carried _ _ hcarries
  · have houtbox := h.outbox.next (.call (report lib answers now batch answer) fault)
      fun m hm => by cases hm
    rw [hnext]
    refine ⟨houtbox, fun n b hn => ?_, fun n b hn => ?_⟩
    · cases hn
    · cases hn

theorem Delivery.sound_run (answers : Answers) (events : List (DeliveryEvent lib)) :
    (run (step answers) new events).Sound lib := by
  refine run_invariant (fun _ event h => h.next event) ?_ events
  exact ⟨sound_new, fun _ _ hn => (by cases hn), fun _ _ hn => (by cases hn)⟩

/-- An outdated request stays outdated. -/
theorem Delivery.Outdated.next (h : delivery.Outdated number) (hsound : delivery.Sound lib)
    (event : DeliveryEvent lib) : (delivery.next answers event).Outdated number := by
  rcases next_cases answers delivery event with ⟨_, hnext, hstep⟩ | hnext |
    ⟨store, _, hstore, hbatch, hnext⟩ | ⟨number, batch, _, hcourier, hnext⟩ |
    ⟨number, batch, _, _, _, hcourier, -, hnext⟩
  · rw [hnext]
    refine ⟨h.1, fun batch hcarries store' hstore' => ?_⟩
    obtain ⟨hpre, -⟩ := carries_withOutbox hcarries
    obtain ⟨store, hstore, -⟩ := hsound.carried number batch hpre
    have hlt := h.2 batch hpre store hstore
    rcases (hstep.advances hsound.outbox hstore hstore').2 with hgrows | ⟨hsame, -⟩
    · omega
    · omega
  · rw [hnext]
    exact h
  · rw [hnext]
    -- a new request has a new number
    refine ⟨Nat.lt_succ_of_lt h.1, fun batch hcarries => ?_⟩
    obtain ⟨rfl, -⟩ := Prod.mk.inj (Option.some.inj hcarries)
    exact absurd h.1 (Nat.lt_irrefl _)
  · rw [hnext]
    refine ⟨h.1, fun b hcarries => h.2 b ?_⟩
    rw [hcourier]
    exact hcarries
  · rw [hnext]
    exact ⟨h.1, fun b hcarries => by cases hcarries⟩

end Flight

/-! ### Oldest first, and only by an exact receipt -/

section Main

variable {lib : Libraries} {answers : Answers} {delivery : Delivery} {ids : List EventId}
  {batch : Batch} {answer : Option Response} {number : ℕ}

/-- The answer that is to be reported is a 2xx answer that echoes the batch of exactly these
identifiers. -/
def Delivery.Receipted (lib : Libraries) (answers : Answers) (delivery : Delivery)
    (ids : List EventId) : Prop :=
  ∃ number batch response ack, delivery.courier = .reporting number batch (some response) ∧
    batch.ids = ids ∧ 200 ≤ response.status ∧ response.status < 300 ∧
    response.body.bind answers.parseAck = some ack ∧ ack.version = 1 ∧ ack.durable = true ∧
    ack.batchId = batchId lib ids

/-- The worker acknowledges only what the receiver has. -/
theorem report_eq_acknowledge {now now' generation : ℕ}
    (h : report lib answers now batch answer = .acknowledge now' generation ids) :
    generation = batch.generation ∧ ids = batch.ids ∧ ∃ response, answer = some response ∧
      200 ≤ response.status ∧ response.status < 300 ∧
      validAck lib answers batch.ids response.body = true := by
  rw [report] at h
  split at h
  · rename_i hclass
    cases h
    refine ⟨rfl, rfl, ?_⟩
    cases answer with
    | none => cases hclass
    | some response =>
      simp only [classifyAnswer, Option.map_eq_none_iff] at hclass
      rw [classify] at hclass
      split at hclass
      · rename_i hvalid
        exact ⟨response, rfl, hvalid⟩
      · cases hclass
  · cases h

theorem report_cases (answers : Answers) (now : ℕ) (batch : Batch) (answer : Option Response) :
    report lib answers now batch answer = .acknowledge now batch.generation batch.ids ∨
      ∃ error isolateUntil stall, report lib answers now batch answer =
        .deliveryError batch.generation error isolateUntil stall := by
  rw [report]
  split
  · exact .inl rfl
  · exact .inr ⟨_, _, _, rfl⟩

/-- An acknowledgement is only a report of the worker. -/
theorem Outbox.acknowledged_unasked {step : OutboxEvent lib} (hstep : step.Unasked)
    (outbox : Outbox) : (outbox.next step).acknowledged = outbox.acknowledged := by
  rcases hstep with ⟨command, _, rfl⟩ | rfl | ⟨_, _, _, _, _, _, rfl⟩
  · rw [next]
    split
    · rfl
    · cases command <;> rfl
  · rfl
  · rw [next]
    split <;> rfl

/-- A report of an outdated answer leaves everything. -/
theorem Delivery.Outdated.report (h : delivery.Outdated number)
    (hcourier : delivery.courier = .reporting number batch answer) (now : ℕ) (fault : Fault) :
    (delivery.next answers (.report now fault : DeliveryEvent lib)).outbox = delivery.outbox := by
  rw [Delivery.next, hcourier]
  show delivery.outbox.next (.call (Audit.report lib answers now batch answer) fault) = _
  rw [Outbox.next]
  cases hstore : delivery.outbox.store with
  | none => rfl
  | some store =>
    have hlt := h.2 batch (by rw [hcourier]; rfl) store hstore
    have hne : batch.generation ≠ store.generation := Nat.ne_of_lt hlt
    generalize delivery.outbox = outbox at hstore ⊢
    obtain ⟨db, _, _, _, _⟩ := outbox
    cases hstore
    rcases report_cases answers now batch answer with hreport | ⟨error, mark, stall, hreport⟩
    · rw [hreport]
      have hplan : planAcknowledge lib now store db batch.generation batch.ids =
          .error ⟨.staleDelivery, "destination changed while request was in flight"⟩ := by
        rw [planAcknowledge, bne_iff_ne.mpr hne]
        rfl
      simp only [call, settled, acknowledge, hplan, settle, afterCall]
      simp [AuditError.fatal, Except.isOk, Except.toBool]
    · rw [hreport]
      have hplan : planDeliveryError lib store db batch.generation error mark stall =
          .ok (none, store) := by
        rw [planDeliveryError, if_pos hne]
      simp [call, settled, deliveryError, hplan, settle, afterCall]

/-- What an acknowledgement that commits is. -/
theorem Delivery.acknowledges (answers : Answers) (h : delivery.Sound lib)
    (event : DeliveryEvent lib) :
    (delivery.next answers event).outbox.acknowledged = delivery.outbox.acknowledged ∨
      ∃ ids now generation fault store,
        (delivery.next answers event).outbox.acknowledged =
          delivery.outbox.acknowledged ++ [ids] ∧
        delivery.outbox.store = some store ∧ delivery.Receipted lib answers ids ∧
        (∃ batch, Leads lib store.state.identity delivery.outbox.db batch ∧ ids = batch.ids) ∧
        (fault.commits &&
          (planAcknowledge lib now store delivery.outbox.db generation ids).isOk) = true ∧
        (delivery.next answers event).outbox =
          delivery.outbox.call store fault (.acknowledge now generation ids : Request lib) := by
  rcases next_cases answers delivery event with ⟨_, hnext, hstep⟩ | hnext |
    ⟨store, _, hstore, hbatch, hnext⟩ | ⟨number, batch, answer, hcourier, hnext⟩ |
    ⟨number, batch, answer, now, fault, hcourier, -, hnext⟩
  · rw [hnext]
    exact .inl (acknowledged_unasked hstep delivery.outbox)
  iterate 3
    rw [hnext]
    exact .inl rfl
  · obtain ⟨store, hstore, -, hleads⟩ := h.carried number batch (by rw [hcourier]; rfl)
    have hcall : (delivery.next answers event).outbox =
        delivery.outbox.call store fault (report lib answers now batch answer) := by
      rw [hnext]
      exact next_call hstore _ fault
    rcases report_cases answers now batch answer with hreport | ⟨_, _, _, hreport⟩
    · rw [hreport] at hcall
      have hacked : (delivery.next answers event).outbox.acknowledged =
          delivery.outbox.acknowledged ++ if fault.commits && (planAcknowledge lib now store
            delivery.outbox.db batch.generation batch.ids).isOk then [batch.ids] else [] := by
        rw [hcall]
        rfl
      cases hcommit : fault.commits && (planAcknowledge lib now store delivery.outbox.db
          batch.generation batch.ids).isOk with
      | false =>
        rw [hcommit] at hacked
        exact .inl (hacked.trans (append_nil _))
      | true =>
        rw [hcommit] at hacked
        obtain ⟨-, -, response, rfl, hlow, hhigh, hvalid⟩ := report_eq_acknowledge hreport
        obtain ⟨hgeneration, -⟩ := acknowledge_commits h.outbox hstore hcommit
        rw [validAck] at hvalid
        split at hvalid
        · cases hvalid
        · rename_i ack hack
          simp only [Bool.and_eq_true, beq_iff_eq] at hvalid
          exact .inr ⟨batch.ids, now, batch.generation, fault, store, hacked, hstore,
            ⟨number, batch, response, ack, hcourier, rfl, hlow, hhigh, hack, hvalid.1.1, hvalid.1.2,
              hvalid.2⟩, ⟨batch, hleads hgeneration, rfl⟩, hcommit, hcall⟩
    · rw [hreport] at hcall
      rw [hcall]
      exact .inl rfl

/-- From one state to the next: nothing is acknowledged, or what is acknowledged are the first
pending rows, by one answer that echoes exactly them, and then no row up to them is pending. -/
def Delivery.AcknowledgesFirst (lib : Libraries) (answers : Answers) (delivery after : Delivery) :
    Prop :=
  after.outbox.acknowledged = delivery.outbox.acknowledged ∨
    ∃ ids state rows, after.outbox.acknowledged = delivery.outbox.acknowledged ++ [ids] ∧
      delivery.Receipted lib answers ids ∧
      delivery.outbox.db.state = some (lib.stateJson state) ∧
      rows <+: delivery.outbox.db.pending.toList ∧
      ids = (rows.map fun row => idFor lib state.identity row.1 row.2) ∧
      ∀ row ∈ rows, ∀ early ∈ delivery.outbox.given, early.1 ≤ row.1 →
        after.outbox.db.pending[early.1]? = none ∧
          (after.outbox.db.dead[early.1]? = some early.2 ∨
            idFor lib state.identity early.1 early.2 ∈ after.outbox.acknowledged.flatten)

theorem Delivery.Sound.acknowledgesFirst (h : delivery.Sound lib) (event : DeliveryEvent lib) :
    delivery.AcknowledgesFirst lib answers (delivery.next answers event) := by
  rcases acknowledges answers h event with hsame |
    ⟨ids, _, _, _, store, hgrows, hstore, hreceipted, ⟨_, ⟨rows, hrows, hevents⟩,
      hids⟩, hcommit, hcall⟩
  · exact .inl hsame
  · refine .inr ⟨ids, store.state, rows, hgrows, hreceipted, (h.outbox.live store hstore).1,
      hrows, ?_, ?_⟩
    · rw [hids, Batch.ids, hevents, map_map]
      rfl
    · intro row hrow early hearly hle
      obtain ⟨-, _, hkept, hident, hiff⟩ :=
        acknowledge_commits h.outbox hstore hcommit
      rw [← hcall] at hkept hiff
      have hflatten : (delivery.next answers event).outbox.acknowledged.flatten =
          delivery.outbox.acknowledged.flatten ++ ids := by
        rw [hgrows, flatten_append, flatten_singleton]
      rw [hflatten, ← hident]
      rcases hkept.placed early hearly with ⟨hpend, -⟩ | ⟨hnone, hdead, -⟩ | ⟨hnone, -, hmem⟩
      · -- a row up to these that was pending is among them
        obtain ⟨hpre, hnot⟩ := (hiff _ _).mp hpend
        refine absurd ?_ hnot
        rw [hids, Batch.ids, hevents, map_map]
        refine mem_map.mpr ⟨early, ?_, rfl⟩
        obtain ⟨_, hlist⟩ := hrows
        have hsort := Table.toList_pairwise_lt delivery.outbox.db.pending
        have hmem := Table.mem_toList.mpr hpre
        rw [← hlist] at hsort hmem
        refine (mem_append.mp hmem).resolve_right fun hlater => ?_
        have hlt := Nat.compare_eq_lt.mp ((pairwise_append.mp hsort).2.2 row hrow early hlater)
        omega
      · exact ⟨hnone, .inl hdead⟩
      · exact ⟨hnone, .inr hmem⟩

/-- How a row leaves the pending table: an acknowledgement names it, or it is quarantined while it
is held. -/
def Delivery.Goes (lib : Libraries) (delivery after : Delivery) (event : DeliveryEvent lib) (n : ℕ)
    (b : Bytes) : Prop :=
  ∃ state, delivery.outbox.db.state = some (lib.stateJson state) ∧
    ((∃ ids, after.outbox.acknowledged = delivery.outbox.acknowledged ++ [ids] ∧
        idFor lib state.identity n b ∈ ids) ∨
      (∃ now reason operator fault, event = .command
          (.quarantine now (idFor lib state.identity n b) reason operator) fault) ∧
        Held lib delivery.outbox.db n b)

theorem Delivery.Sound.goes (h : delivery.Sound lib) (event : DeliveryEvent lib) {n : ℕ}
    {b : Bytes} (hpre : delivery.outbox.db.pending[n]? = some b)
    (hafter : (delivery.next answers event).outbox.db.pending[n]? = none) :
    delivery.Goes lib (delivery.next answers event) event n b := by
  -- where the pending table does not change there is nothing to show
  have hmoves : (delivery.next answers event).outbox.db.pending ≠ delivery.outbox.db.pending := by
    intro hsame
    rw [hsame, hpre] at hafter
    cases hafter
  cases event with
  | command command fault =>
    cases hstore : delivery.outbox.store with
    | none =>
      have hsame : delivery.outbox.next (.call command.request fault) = delivery.outbox := by
        rw [Outbox.next, hstore]
      exact absurd (congrArg (fun outbox => outbox.db.pending) hsame) hmoves
    | some store =>
      have hgone : (delivery.outbox.next (.call command.request fault)).db.pending[n]? = none :=
        hafter
      rw [next_call hstore] at hgone
      refine ⟨store.state, (h.outbox.live store hstore).1, .inr ?_⟩
      rcases call_pending h.outbox hstore fault command.request hpre hgone with
        ⟨_, _, _, hreq, -⟩ | ⟨now, _, reason, operator, hreq, rfl, hheld⟩
      · cases command <;> cases hreq
      · refine ⟨⟨now, reason, operator, fault, ?_⟩, hheld⟩
        cases command <;> cases hreq
        rfl
  | fetch =>
    refine absurd ?_ hmoves
    rw [Delivery.next]
    split
    · split
      · rfl
      · split <;> rfl
    · rfl
  | answered =>
    refine absurd ?_ hmoves
    rw [Delivery.next]
    split <;> rfl
  | close => exact absurd rfl hmoves
  | openStore creating pruning repointing random now config =>
    refine absurd ?_ hmoves
    show (delivery.outbox.next
      (.openStore creating pruning repointing random now config)).db.pending = _
    rw [Outbox.next]
    split
    · rfl
    · show (Audit.openStore lib creating pruning repointing random now config _).2.pending = _
      rw [Audit.openStore]
      split
      · rfl
      · exact recover_pending lib pruning repointing now config _ _ _
      · cases creating with
        | refused | lost | kept => rfl
        | none | unread => exact recover_pending lib pruning repointing now config _ _ _
  | report now fault =>
    cases hcourier : delivery.courier with
    | idle | requested =>
      have hsame : delivery.next answers (.report now fault : DeliveryEvent lib) = delivery := by
        rw [Delivery.next, hcourier]
      exact absurd (congrArg (fun d => d.outbox.db.pending) hsame) hmoves
    | reporting number batch answer =>
      obtain ⟨store, hstore, -, -⟩ := h.carried number batch (by rw [hcourier]; rfl)
      have hcall : (delivery.next answers (.report now fault : DeliveryEvent lib)).outbox =
          delivery.outbox.call store fault (report lib answers now batch answer) := by
        rw [Delivery.next, hcourier]
        exact next_call hstore _ fault
      rw [hcall] at hafter
      refine ⟨store.state, (h.outbox.live store hstore).1, .inl ?_⟩
      rw [hcall]
      rcases call_pending h.outbox hstore fault _ hpre hafter with
        ⟨_, _, ids, hreq, hmem, hcommit⟩ | ⟨_, _, _, _, hreq, -⟩
      · refine ⟨ids, ?_, hmem⟩
        rw [hreq]
        show delivery.outbox.acknowledged ++ (if _ then [ids] else []) = _
        rw [hcommit]
        rfl
      · rcases report_cases answers now batch answer with hreport | ⟨_, _, _, hreport⟩
        · rw [hreport] at hreq
          cases hreq
        · rw [hreport] at hreq
          cases hreq

/-- A request that is open when a command of the operator is carried out is outdated by it. -/
theorem Delivery.Sound.outdated (h : delivery.Sound lib)
    (hcarries : delivery.courier.carries = some (number, batch)) {store : Store}
    (hstore : delivery.outbox.store = some store) {command : Command lib}
    (hmoves : command.Moves store delivery.outbox.db) (fault : Fault) :
    (delivery.next answers (.command command fault)).Outdated number := by
  refine ⟨h.numbered number batch hcarries, fun batch' hcarries' store' hstore' => ?_⟩
  obtain ⟨hpre, -⟩ := carries_withOutbox hcarries'
  obtain ⟨_, hsame, hle, -⟩ := h.carried number batch' hpre
  rw [hstore] at hsame
  obtain rfl := Option.some.inj hsame
  have hafter : (delivery.outbox.next (.call command.request fault)).store = some store' := hstore'
  rw [next_call hstore] at hafter
  exact Nat.lt_of_le_of_lt hle (call_moves h.outbox hstore hmoves hafter)

/-- **Delivery is oldest-first and only an exact receipt deletes.**  From every state a run of the
store with its worker reaches: a step acknowledges only the first pending rows, by one answer that
echoes exactly them; the answer to a request that was open when a quarantine, a replay or a new
destination was carried out changes nothing; and a pending row goes only by such an acknowledgement,
or by its quarantine while it is the oldest and the recorded stall names it. -/
theorem delivery_oldest_first (lib : Libraries) (answers : Answers)
    (before : List (DeliveryEvent lib)) :
    let delivery := run (step answers) new before
    (∀ event : DeliveryEvent lib, delivery.AcknowledgesFirst lib answers
      (delivery.next answers event)) ∧
    (∀ (command : Command lib) fault (after : List (DeliveryEvent lib)) number batch store,
      delivery.courier.carries = some (number, batch) → delivery.outbox.store = some store →
      command.Moves store delivery.outbox.db →
      let later :=
        run (step answers) (delivery.next answers (.command command fault)) after
      ∀ batch' answer now fault', later.courier = .reporting number batch' answer →
        (later.next answers (.report now fault' : DeliveryEvent lib)).outbox = later.outbox) ∧
    ∀ (event : DeliveryEvent lib) n b, delivery.outbox.db.pending[n]? = some b →
      (delivery.next answers event).outbox.db.pending[n]? = none →
      delivery.Goes lib (delivery.next answers event) event n b := by
  intro delivery
  have hsound : delivery.Sound lib := sound_run answers before
  refine ⟨fun event => hsound.acknowledgesFirst event, ?_, fun event n b hpre hafter =>
    hsound.goes event hpre hafter⟩
  intro command fault after number batch store hcarries hstore hmoves later batch' answer now fault'
    hcourier
  have hlater : later.Sound lib ∧ later.Outdated number := by
    refine run_invariant (I := fun d : Delivery => d.Sound lib ∧ d.Outdated number)
      (fun s event hs => ?_) ?_ after
    · exact ⟨hs.1.next event, hs.2.next hs.1 event⟩
    · exact ⟨hsound.next _, hsound.outdated hcarries hstore hmoves fault⟩
  exact hlater.2.report hcourier now fault'

end Main

end AsterRpc.Audit

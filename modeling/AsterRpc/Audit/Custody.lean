import AsterRpc.Audit.Accounts
import AsterRpc.Foundation.Run

/-!
# What happens to an accepted event

An outbox directory over any number of openings: calls with whatever the storage
does to them, closings, crashes.  Beside the database a history is kept of the rows
that submissions have committed, the identifiers that were answered and the
acknowledgements that have committed.
-/

namespace AsterRpc.Audit

open Std List Option
open AsterRpc.Foundation
open AsterRpc.Coordination (Bytes FixedBytes)
open Admitted

/-! ### Runs over one directory -/

inductive Request (lib : Libraries) where
  | submitGroup (events : List (Admitted lib))
  | batch
  | acknowledge (now generation : ℕ) (ids : List EventId)
  | deliveryError (generation : ℕ) (error : DeliveryError) (isolateUntil : Option ℕ) (stall : Bool)
  | reconfigure (destination : Destination)
  | quarantine (now : ℕ) (id : Bytes) (reason operator : String)
  | exportRecord (id : Bytes)
  | replay (now : ℕ) (id : Bytes)

inductive OutboxEvent (lib : Libraries) where
  | call (request : Request lib) (fault : Fault)
  /-- `close`, or the end of the process. -/
  | close
  | openStore (creating pruning repointing : Fault) (random : FixedBytes 16) (now : ℕ)
      (config : OutboxConfig)

structure Outbox where
  db : AuditDb
  store : Option Store
  /-- The rows that submissions have committed, in order. -/
  given : List (ℕ × Bytes)
  /-- The identifiers that submissions have returned. -/
  accepted : List EventId
  /-- The identifiers of each acknowledgement that has committed. -/
  acknowledged : List (List EventId)

open Outbox

def Outbox.new : Outbox := ⟨.new, none, [], [], []⟩

/-- Whether a transaction is on disk after this fault. -/
def Fault.commits : Fault → Bool
  | none | kept | unread => true
  | refused | lost => false

/-- The worker keeps the store unless the error is fatal. -/
def afterCall (store : Store) : Except AuditError Store → Option Store
  | .ok store' => some store'
  | .error e => if e.fatal then none else some store

namespace Outbox

variable {lib : Libraries}

def settled (outbox : Outbox) (store : Store) (result : Except AuditError Store × AuditDb) :
    Outbox :=
  { outbox with store := afterCall store result.1, db := result.2 }

def call (outbox : Outbox) (store : Store) (fault : Fault) : Request lib → Outbox
  | .submitGroup events =>
    let group := admitGroup lib store.config store.state (events.map event)
    let result := submitGroup lib fault store outbox.db (events.map event)
    { outbox.settled store result.2 with
      given := outbox.given ++ if fault.commits then group.rows else []
      accepted := outbox.accepted ++ result.1.filterMap Except.toOption }
  | .batch => outbox
  | .acknowledge now generation ids =>
    { outbox.settled store (acknowledge lib fault now store outbox.db generation ids) with
      acknowledged := outbox.acknowledged ++
        if fault.commits && (planAcknowledge lib now store outbox.db generation ids).isOk
        then [ids] else [] }
  | .deliveryError generation error isolateUntil stall =>
    outbox.settled store
      (deliveryError lib fault store outbox.db generation error isolateUntil stall)
  | .reconfigure destination =>
    outbox.settled store (reconfigure lib fault store outbox.db destination)
  | .quarantine now id reason operator =>
    outbox.settled store (quarantine lib fault now store outbox.db id reason operator)
  | .exportRecord _ => outbox
  | .replay now id => outbox.settled store (replay lib fault now store outbox.db id)

/-- One step; a call needs an open store, and opening needs that nobody else has the directory. -/
def next (outbox : Outbox) : OutboxEvent lib → Outbox
  | .call request fault =>
    match outbox.store with
    | none => outbox
    | some store => outbox.call store fault request
  | .close => { outbox with store := none }
  | .openStore creating pruning repointing random now config =>
    match outbox.store with
    | some _ => outbox
    | none =>
      let result := openStore lib creating pruning repointing random now config outbox.db
      { outbox with store := result.1.toOption, db := result.2 }

def step (outbox : Outbox) (event : OutboxEvent lib) : Outbox × Unit := (outbox.next event, ())

end Outbox

/-! ### What settling a plan leaves -/

section Settling

variable {lib : Libraries} {db : AuditDb}

theorem stateJson_injective : Function.Injective lib.stateJson := by
  intro a b h
  have hparse := lib.parseState_stateJson a
  rw [h, lib.parseState_stateJson] at hparse
  exact (some.inj hparse).symm

theorem reloadOldest_first {oldest : Option (ℕ × ℕ)} (h : reloadOldest lib db = .ok oldest) :
    First oldest db := by
  rw [reloadOldest] at h
  rw [First]
  cases hhead : db.pending.toList.head? with
  | none =>
    rw [hhead] at h
    rw [← Except.ok.inj h]
    rfl
  | some =>
    rw [hhead] at h
    simp only [accepts_iff] at h
    obtain ⟨_, -, rfl⟩ := h
    rfl

theorem reloadOldest_fatal {e : AuditError} (h : reloadOldest lib db = .error e) :
    e.fatal = true := by
  rw [reloadOldest] at h
  cases hhead : db.pending.toList.head? with
  | none =>
    rw [hhead] at h
    cases h
  | some =>
    rw [hhead] at h
    simp only [bind_refuses, requireSome_eq_error] at h
    rcases h with ⟨-, rfl⟩ | ⟨_, -, h⟩
    · rfl
    · cases h

/-- The store after its transaction: the first pending row is read again where it may have
changed. -/
def Follows (lib : Libraries) (reloads : Bool) (written : AuditDb) (planned store : Store) : Prop :=
  (reloads = false ∧ store = planned) ∨
    ∃ oldest, reloadOldest lib written = .ok oldest ∧ store = { planned with oldest := oldest }

/-- The plan writes. -/
def Plan.wrote : Plan → Bool
  | .ok (some _, _) => true
  | _ => false

/-- **What settling leaves**: the database as it was, if the plan is refused or writes nothing or
its transaction does not commit; else what was planned, and a store that goes on follows it. -/
theorem settle_cases (lib : Libraries) (fault : Fault) (reloads : Bool) (db : AuditDb)
    (plan : Plan) :
    ((fault.commits && plan.wrote) = false ∧ (settle lib fault reloads db plan).2 = db ∧
      ∀ store s, afterCall store (settle lib fault reloads db plan).1 = some s →
        plan.wrote = false ∧ (s = store ∨ plan = .ok (none, s))) ∨
    ∃ written planned, plan = .ok (some written, planned) ∧ fault.commits = true ∧
      (settle lib fault reloads db plan).2 = written ∧
      ∀ store s, afterCall store (settle lib fault reloads db plan).1 = some s →
        Follows lib reloads written planned s := by
  rcases plan with e | ⟨_ | written, planned⟩
  · refine .inl ⟨Bool.and_false _, rfl, fun store s hs => ⟨rfl, .inl ?_⟩⟩
    simp only [settle, afterCall] at hs
    split at hs
    · cases hs
    · exact (some.inj hs).symm
  · refine .inl ⟨Bool.and_false _, rfl, fun store s hs => ⟨rfl, .inr ?_⟩⟩
    cases hs
    rfl
  · cases fault with
    | refused | lost => exact .inl ⟨rfl, rfl, fun store s hs => by cases hs⟩
    | kept => exact .inr ⟨written, planned, rfl, rfl, rfl, fun store s hs => by cases hs⟩
    | unread =>
      refine .inr ⟨written, planned, rfl, rfl, ?_⟩
      cases reloads with
      | false => exact ⟨rfl, fun store s hs => .inl ⟨rfl, (some.inj hs).symm⟩⟩
      | true => exact ⟨rfl, fun store s hs => by cases hs⟩
    | none =>
      refine .inr ⟨written, planned, rfl, rfl, ?_⟩
      cases reloads with
      | false => exact ⟨rfl, fun store s hs => .inl ⟨rfl, (some.inj hs).symm⟩⟩
      | true =>
        cases hreload : reloadOldest lib written with
        | error => simp [settle, commit, hreload, afterCall, reloadOldest_fatal hreload]
        | ok => simp [settle, commit, hreload, afterCall, Follows]

/-- A store that has written nothing is as it was, up to its last error. -/
structure Store.Same (store s : Store) : Prop where
  state : s.state = store.state
  oldest : s.oldest = store.oldest
  config : s.config = store.config
  generation : s.generation = store.generation

theorem Store.same_refl (store : Store) : store.Same store := ⟨rfl, rfl, rfl, rfl⟩

/-- What a request is about to do. -/
def Request.plan (store : Store) (db : AuditDb) : Request lib → Plan
  | submitGroup events =>
    planSubmit lib store db (admitGroup lib store.config store.state (events.map event))
  | batch => .ok (none, store)
  | acknowledge now generation ids => planAcknowledge lib now store db generation ids
  | deliveryError generation error isolateUntil stall =>
    planDeliveryError lib store db generation error isolateUntil stall
  | reconfigure destination => planReconfigure lib store db destination
  | quarantine now id reason operator => planQuarantine lib now store db id reason operator
  | exportRecord _ => .ok (none, store)
  | replay now id => planReplay lib now store db id

theorem Request.plan_none {store s : Store} (request : Request lib)
    (h : request.plan store db = .ok (none, s)) : store.Same s := by
  cases request with
  | submitGroup =>
    rw [Request.plan, planSubmit] at h
    split at h
    · cases h
      exact store.same_refl
    · cases h
  | batch =>
    cases h
    exact store.same_refl
  | acknowledge =>
    obtain ⟨-, _, _, _, -, -, hres⟩ := planAcknowledge_eq_ok.mp h
    cases hres
  | deliveryError =>
    rw [Request.plan, planDeliveryError] at h
    split at h
    · cases h
      exact store.same_refl
    · dsimp only at h
      split at h
      · cases h
      · cases h
        exact ⟨rfl, rfl, rfl, rfl⟩
  | reconfigure =>
    obtain ⟨_, -, -, hres⟩ := planReconfigure_eq_ok.mp h
    cases hres
  | quarantine =>
    obtain ⟨n, -, -, ⟨b, -, hres⟩ | ⟨-, b, -, -, -, -, hmove⟩⟩ := planQuarantine_eq_ok h
    · cases hres
      exact store.same_refl
    · obtain ⟨_, _, _, hres, -⟩ := moveDead_moves hmove
      cases hres
  | exportRecord =>
    cases h
    exact store.same_refl
  | replay =>
    obtain ⟨-, n, -, -, ⟨-, hres⟩ | ⟨b, -, -, -, hmove⟩⟩ := planReplay_eq_ok h
    · cases hres
      exact store.same_refl
    · obtain ⟨_, _, _, hres, -⟩ := moveBack_moves hmove
      cases hres

end Settling

/-! ### The invariant -/

/-- An opening, if it is one, sets the same budget. -/
def OutboxEvent.Budgets {lib : Libraries} (m : ℕ) : OutboxEvent lib → Prop
  | .openStore _ _ _ _ _ config => config.maxRetainedBytes = m
  | _ => True

/-- What holds between any two steps; under a limit, when all openings set that budget. -/
structure Outbox.Sound (lib : Libraries) (limit : Option ℕ) (outbox : Outbox) : Prop where
  fresh : outbox.db.state = none →
    outbox.store = none ∧ outbox.given = [] ∧ outbox.accepted = [] ∧ outbox.acknowledged = []
  recorded : ∀ bytes, outbox.db.state = some bytes → ∃ state, bytes = lib.stateJson state ∧
    Kept lib outbox.given outbox.acknowledged.flatten state outbox.db ∧
    (∀ id ∈ outbox.accepted, ∃ row ∈ outbox.given, id = idFor lib state.identity row.1 row.2) ∧
    ∀ m ∈ limit, state.retained ≤ m
  live : ∀ store, outbox.store = some store →
    outbox.db.state = some (lib.stateJson store.state) ∧ First store.oldest outbox.db ∧
    store.config.maxEventBytes ≤ maxEventBytes ∧
    ∀ m ∈ limit, store.config.maxRetainedBytes = m

section Steps

variable {lib : Libraries} {limit : Option ℕ} {outbox outbox' : Outbox} {store : Store}
  {result : Except AuditError Store × AuditDb} {db : AuditDb} {config : OutboxConfig}
  {state : State}

theorem submitGroup_eq (lib : Libraries) (fault : Fault) (store : Store) (db : AuditDb)
    (events : List AuditEvent) :
    (submitGroup lib fault store db events).2 =
      settle lib fault store.oldest.isNone db
        (planSubmit lib store db (admitGroup lib store.config store.state events)) ∧
    ((submitGroup lib fault store db events).1.filterMap Except.toOption = [] ∨
      ∃ s, (submitGroup lib fault store db events).2.1 = .ok s ∧
        (submitGroup lib fault store db events).1 =
          (admitGroup lib store.config store.state events).outcomes) := by
  rw [submitGroup]
  generalize admitGroup lib store.config store.state events = group
  obtain ⟨result, _⟩ := settle lib fault store.oldest.isNone db (planSubmit lib store db group)
  cases result with
  | ok s => exact ⟨rfl, .inr ⟨s, rfl, rfl⟩⟩
  | error e =>
    refine ⟨rfl, .inl ?_⟩
    show (failOutcomes e group.outcomes).filterMap Except.toOption = []
    rw [failOutcomes, filterMap_map]
    refine filterMap_eq_nil_iff.mpr fun outcome _ => ?_
    cases outcome <;> rfl

/-- The first pending row of the database is that of the store when it is not written. -/
theorem First.of_pending {oldest oldest' : Option (ℕ × ℕ)} {written : AuditDb}
    (h : First oldest db) (holdest : oldest' = oldest) (hpend : written.pending = db.pending) :
    First oldest' written := by
  rw [First, holdest, hpend]
  exact h

/-- A store that goes on after `reconfigure` is the one its transaction leaves. -/
theorem reconfigure_settles (lib : Libraries) (fault : Fault) (store : Store) (db : AuditDb)
    (destination : Destination) :
    (reconfigure lib fault store db destination).2 =
        (settle lib fault false db (planReconfigure lib store db destination)).2 ∧
      ∀ s, afterCall store (reconfigure lib fault store db destination).1 = some s →
        afterCall store
          (settle lib fault false db (planReconfigure lib store db destination)).1 = some s := by
  rw [reconfigure]
  obtain ⟨result, _⟩ := settle lib fault false db (planReconfigure lib store db destination)
  cases result with
  | error => exact ⟨rfl, fun _ hs => hs⟩
  | ok =>
    dsimp only
    split
    · refine ⟨rfl, fun s hs => ?_⟩
      cases hs
    · exact ⟨rfl, fun _ hs => hs⟩

/-- A store that goes on after a request is the one its transaction leaves. -/
theorem Request.call_settles (hstore : outbox.store = some store) (fault : Fault)
    (request : Request lib) :
    ∃ reloads, (outbox.call store fault request).db =
        (settle lib fault reloads outbox.db (request.plan store outbox.db)).2 ∧
      ∀ s, (outbox.call store fault request).store = some s →
        afterCall store (settle lib fault reloads outbox.db (request.plan store outbox.db)).1 =
          some s := by
  cases request with
  | submitGroup events =>
    have hsettle := (submitGroup_eq lib fault store outbox.db (events.map event)).1
    refine ⟨store.oldest.isNone, congrArg Prod.snd hsettle, fun s hs => ?_⟩
    rw [Request.plan, ← hsettle]
    exact hs
  | batch | exportRecord => exact ⟨true, rfl, fun _ hs => hstore.symm.trans hs⟩
  | acknowledge | quarantine | replay => exact ⟨true, rfl, fun _ hs => hs⟩
  | deliveryError => exact ⟨false, rfl, fun _ hs => hs⟩
  | reconfigure destination =>
    exact ⟨false, reconfigure_settles lib fault store outbox.db destination⟩

theorem Outbox.Sound.close (h : outbox.Sound lib limit) :
    Outbox.Sound lib limit { outbox with store := none } :=
  ⟨fun hfresh => ⟨rfl, (h.fresh hfresh).2⟩, h.recorded, fun _ hs => by cases hs⟩

/-- An opening keeps the store only when it succeeds. -/
theorem Outbox.Sound.opened (h : (outbox.settled store result).Sound lib limit) :
    Outbox.Sound lib limit { outbox with store := result.1.toOption, db := result.2 } := by
  obtain ⟨_ | _, _⟩ := result
  · exact h.close
  · exact h

section

variable (h : outbox.Sound lib limit) (hstore : outbox.store = some store)

include h hstore

/-- The accounts of an open store. -/
theorem Outbox.Sound.kept :
    Kept lib outbox.given outbox.acknowledged.flatten store.state outbox.db ∧
      (∀ id ∈ outbox.accepted, ∃ row ∈ outbox.given,
        id = idFor lib store.state.identity row.1 row.2) ∧
      ∀ m ∈ limit, store.state.retained ≤ m := by
  obtain ⟨_, hstate, hkept, hacc, hbudget⟩ := h.recorded _ (h.live store hstore).1
  obtain rfl := stateJson_injective hstate
  exact ⟨hkept, hacc, hbudget⟩

/-- An operation that settles a plan keeps the invariant, when what it writes is in order. -/
theorem Outbox.Sound.settle (fault : Fault) (reloads : Bool) (plan : Plan)
    (given : List (ℕ × Bytes)) (acknowledged : List (List EventId))
    (hdb : outbox'.db = (settle lib fault reloads outbox.db plan).2)
    (hafter : ∀ s, outbox'.store = some s →
      afterCall store (settle lib fault reloads outbox.db plan).1 = some s)
    (hnone : ∀ s, plan = .ok (none, s) → store.Same s)
    (hsome : ∀ written s, plan = .ok (some written, s) →
      Writes lib given acknowledged.flatten store written s ∧
        (reloads = false → First s.oldest written))
    (hhistory : (fault.commits && plan.wrote) = true →
      outbox'.given = given ∧ outbox'.acknowledged = acknowledged)
    (hsame : (fault.commits && plan.wrote) = false →
      outbox'.given = outbox.given ∧ outbox'.acknowledged = outbox.acknowledged)
    (hacc : ∀ id ∈ outbox'.accepted, ∃ row ∈ outbox'.given,
      id = idFor lib store.state.identity row.1 row.2) : outbox'.Sound lib limit := by
  obtain ⟨hstate, hfirst, hmax, hlimit⟩ := h.live store hstore
  obtain ⟨hkept, -, hbudget⟩ := h.kept hstore
  rcases settle_cases lib fault reloads outbox.db plan with
    ⟨hwrote, hsettle, hlive⟩ | ⟨written, planned, hplan, hcommit, hsettle, hfollows⟩
  · -- nothing was written: the database, and the counted part of the store, are as before
    rw [hsettle] at hdb
    obtain ⟨hgiven, hacked⟩ := hsame hwrote
    constructor
    case fresh =>
      intro hfresh
      rw [hdb, hstate] at hfresh
      cases hfresh
    case recorded =>
      intro bytes hbytes
      rw [hdb, hstate] at hbytes
      obtain rfl := some.inj hbytes
      refine ⟨store.state, rfl, ?_, hacc, hbudget⟩
      rw [hgiven, hacked, hdb]
      exact hkept
    case live =>
      intro s hs
      have hstays : store.Same s := by
        obtain ⟨-, rfl | hplan⟩ := hlive store s (hafter s hs)
        · exact s.same_refl
        · exact hnone s hplan
      rw [hdb, hstays.state, hstays.oldest, hstays.config]
      exact ⟨hstate, hfirst, hmax, hlimit⟩
  · -- the transaction is on disk, and the store is dropped or follows it
    rw [hsettle] at hdb
    obtain ⟨hwrites, hkeeps⟩ := hsome written planned hplan
    obtain ⟨hgiven, hacked⟩ := hhistory (by rw [hcommit, hplan]; rfl)
    constructor
    case fresh =>
      intro hfresh
      rw [hdb, hwrites.recorded] at hfresh
      cases hfresh
    case recorded =>
      intro bytes hbytes
      rw [hdb, hwrites.recorded] at hbytes
      obtain rfl := some.inj hbytes
      refine ⟨planned.state, rfl, ?_, ?_, fun m hm => ?_⟩
      · rw [hgiven, hacked, hdb]
        exact hwrites.kept
      · rw [hwrites.identity]
        exact hacc
      · refine hwrites.retained.trans (Nat.max_le.mpr ⟨hbudget m hm, ?_⟩)
        rw [hlimit m hm]
    case live =>
      intro s hs
      have hmax' : planned.config.maxEventBytes ≤ maxEventBytes := by
        rw [hwrites.events]
        exact hmax
      have hlimit' : ∀ m ∈ limit, planned.config.maxRetainedBytes = m := by
        rw [hwrites.budget]
        exact hlimit
      rw [hdb]
      rcases hfollows store s (hafter s hs) with ⟨hstays, rfl⟩ | ⟨_, hreload, rfl⟩
      · exact ⟨hwrites.recorded, hkeeps hstays, hmax', hlimit'⟩
      · exact ⟨hwrites.recorded, reloadOldest_first hreload, hmax', hlimit'⟩

/-- What was answered stays among the rows when there are only more of them. -/
theorem Outbox.Sound.accepted_of_given (rows : List (ℕ × Bytes)) :
    ∀ id ∈ outbox.accepted, ∃ row ∈ outbox.given ++ rows,
      id = idFor lib store.state.identity row.1 row.2 := by
  intro id hid
  obtain ⟨row, hrow, heq⟩ := (h.kept hstore).2.1 id hid
  exact ⟨row, mem_append_left _ hrow, heq⟩

/-- An operation other than a submission or an acknowledgement adds nothing to the history. -/
theorem Outbox.Sound.settled (fault : Fault) (reloads : Bool) (plan : Plan)
    (hres : result.2 = (Audit.settle lib fault reloads outbox.db plan).2 ∧
      ∀ s, afterCall store result.1 = some s →
        afterCall store (Audit.settle lib fault reloads outbox.db plan).1 = some s)
    (hnone : ∀ s, plan = .ok (none, s) → store.Same s)
    (hsome : ∀ written s, plan = .ok (some written, s) →
      Writes lib outbox.given outbox.acknowledged.flatten store written s ∧
        (reloads = false → First s.oldest written)) :
    (outbox.settled store result).Sound lib limit := by
  refine h.settle hstore fault reloads plan _ _ hres.1 hres.2 hnone hsome
    (fun _ => ⟨rfl, rfl⟩) (fun _ => ⟨rfl, rfl⟩) ?_
  have hacc := h.accepted_of_given hstore []
  rwa [append_nil] at hacc

theorem Outbox.Sound.submitGroup (fault : Fault) (events : List (Admitted lib)) :
    (outbox.call store fault (.submitGroup events)).Sound lib limit := by
  obtain ⟨-, hfirst, hmax, -⟩ := h.live store hstore
  obtain ⟨hkept, -, -⟩ := h.kept hstore
  have hgathers := Gathers.admitGroup hkept hmax events
  have hwrites := fun written s => @Writes.submit _ _ _ _ _ s written hkept hmax events
  have hnone := fun s => @Request.plan_none _ outbox.db store s (.submitGroup events)
  rw [Request.plan] at hnone
  obtain ⟨hsettle, hanswers⟩ :=
    submitGroup_eq lib fault store outbox.db (events.map event)
  have hcall : outbox.call store fault (.submitGroup events) =
      { outbox.settled store
          (Audit.submitGroup lib fault store outbox.db (events.map event)).2 with
        given := outbox.given ++ if fault.commits then (admitGroup lib store.config store.state
          (events.map event)).rows else []
        accepted := outbox.accepted ++ (Audit.submitGroup lib fault store outbox.db
          (events.map event)).1.filterMap Except.toOption } := rfl
  rw [hcall]
  generalize admitGroup lib store.config store.state (events.map event) = group
    at hgathers hwrites hsettle hanswers hnone ⊢
  generalize Audit.submitGroup lib fault store outbox.db (events.map event) = answer
    at hsettle hanswers ⊢
  -- a group without rows writes nothing
  have hplan : (planSubmit lib store outbox.db group).wrote = false → group.rows = [] := by
    intro hwrote
    by_contra hrows
    rw [planSubmit, if_neg hrows] at hwrote
    cases hwrote
  refine h.settle hstore fault store.oldest.isNone (planSubmit lib store outbox.db group)
    (outbox.given ++ group.rows) outbox.acknowledged
    (congrArg Prod.snd hsettle) (fun s hs => ?_) hnone (fun written s hs => ?_)
    (fun hwrote => ?_) (fun hwrote => ?_) ?_
  · rw [← hsettle]
    exact hs
  · refine ⟨hwrites written s hs, fun hkeeps => ?_⟩
    rw [planSubmit] at hs
    split at hs
    · cases hs
    · cases hs
      -- the first pending row stays first
      rw [First] at hfirst ⊢
      show store.oldest.map Prod.fst = (insertRows group.rows outbox.db.pending).toList.head?.map _
      rw [hgathers.listed, hfirst]
      cases hlist : outbox.db.pending.toList with
      | nil =>
        rw [hlist] at hfirst
        cases holdest : store.oldest with
        | none =>
          rw [holdest] at hkeeps
          cases hkeeps
        | some =>
          rw [holdest] at hfirst
          cases hfirst
      | cons => rfl
  · rw [Bool.and_eq_true] at hwrote
    dsimp only
    rw [if_pos hwrote.1]
    exact ⟨rfl, rfl⟩
  · refine ⟨?_, rfl⟩
    dsimp only
    cases hcommit : fault.commits with
    | false => exact append_nil _
    | true =>
      rw [hcommit, Bool.true_and] at hwrote
      rw [if_pos rfl, hplan hwrote, append_nil]
  · intro id hid
    dsimp only at hid ⊢
    rcases mem_append.mp hid with hid | hid
    · exact h.accepted_of_given hstore _ id hid
    · rcases hanswers with hnone | ⟨s, hok, houtcomes⟩
      · rw [hnone] at hid
        cases hid
      · rw [houtcomes, hgathers.outcomes] at hid
        obtain ⟨row, hrow, rfl⟩ := mem_map.mp hid
        refine ⟨row, mem_append_right _ ?_, rfl⟩
        -- the answer is `Ok`, so the rows are on disk
        rw [hsettle] at hok
        rcases settle_cases lib fault store.oldest.isNone outbox.db
          (planSubmit lib store outbox.db group) with
          ⟨-, -, hlive⟩ | ⟨written, planned, -, hcommit, -⟩
        · rw [hplan (hlive store s (by rw [hok]; rfl)).1] at hrow
          cases hrow
        · rw [if_pos hcommit]
          exact hrow

theorem Outbox.Sound.acknowledge (fault : Fault) (now generation : ℕ) (ids : List EventId) :
    (outbox.call store fault (.acknowledge now generation ids : Request lib)).Sound lib limit := by
  obtain ⟨hkept, -, -⟩ := h.kept hstore
  have hcall : outbox.call store fault (.acknowledge now generation ids : Request lib) =
      { outbox.settled store
          (Audit.acknowledge lib fault now store outbox.db generation ids) with
        acknowledged := outbox.acknowledged ++ if fault.commits && (planAcknowledge lib now store
          outbox.db generation ids).isOk then [ids] else [] } := rfl
  -- an acknowledgement that is not refused writes
  have hwrote : (planAcknowledge lib now store outbox.db generation ids).isOk =
      (planAcknowledge lib now store outbox.db generation ids).wrote := by
    cases hplan : planAcknowledge lib now store outbox.db generation ids with
    | error => rfl
    | ok =>
      obtain ⟨-, _, _, _, -, -, rfl⟩ := planAcknowledge_eq_ok.mp hplan
      rfl
  rw [hcall, hwrote]
  refine h.settle hstore fault true (planAcknowledge lib now store outbox.db generation ids)
    outbox.given (outbox.acknowledged ++ [ids]) rfl (fun _ hs => hs)
    (fun _ => Request.plan_none (.acknowledge now generation ids))
    (fun written s hs => ?_) (fun hwrites => ?_) (fun hwrites => ?_) ?_
  · refine ⟨?_, fun hkeeps => by cases hkeeps⟩
    rw [flatten_append, flatten_singleton]
    exact Writes.acknowledge hkept hs
  · exact ⟨rfl, by rw [if_pos hwrites]⟩
  · refine ⟨rfl, ?_⟩
    dsimp only
    rw [hwrites]
    exact append_nil _
  · have hacc := h.accepted_of_given hstore []
    rwa [append_nil] at hacc

/-- Every call keeps the invariant. -/
theorem Outbox.Sound.call (fault : Fault) (request : Request lib) :
    (outbox.call store fault request).Sound lib limit := by
  obtain ⟨hkept, -, -⟩ := h.kept hstore
  obtain ⟨-, hfirst, -, -⟩ := h.live store hstore
  have hnone := fun s => @Request.plan_none _ outbox.db store s request
  cases request with
  | submitGroup events => exact h.submitGroup hstore fault events
  | batch => exact h
  | acknowledge now generation ids => exact h.acknowledge hstore fault now generation ids
  | deliveryError =>
    refine h.settled hstore fault false _ ⟨rfl, fun _ hs => hs⟩ hnone fun written s hs => ?_
    obtain ⟨hwrites, holdest, hpend⟩ := Writes.deliveryError hkept hs
    exact ⟨hwrites, fun _ => hfirst.of_pending holdest hpend⟩
  | reconfigure destination =>
    refine h.settled hstore fault false _
      (reconfigure_settles lib fault store outbox.db destination) hnone fun written s hs => ?_
    obtain ⟨hwrites, holdest, hpend⟩ := Writes.reconfigure hkept hs
    exact ⟨hwrites, fun _ => hfirst.of_pending holdest hpend⟩
  | quarantine =>
    exact h.settled hstore fault true _ ⟨rfl, fun _ hs => hs⟩ hnone fun written s hs =>
      ⟨Writes.quarantine hkept hs, fun hkeeps => by cases hkeeps⟩
  | exportRecord => exact h
  | replay =>
    exact h.settled hstore fault true _ ⟨rfl, fun _ hs => hs⟩ hnone fun written s hs =>
      ⟨Writes.replay hkept hs, fun hkeeps => by cases hkeeps⟩

/-- The end of an opening, from a store that is in order. -/
theorem Outbox.Sound.finishOpen (pruning repointing : Fault) (now : ℕ) :
    Outbox.Sound lib limit { outbox with
      store := (Audit.finishOpen lib pruning repointing now store outbox.db).1.toOption
      db := (Audit.finishOpen lib pruning repointing now store outbox.db).2 } := by
  obtain ⟨hkept, -, -⟩ := h.kept hstore
  obtain ⟨hstate, hfirst, -, -⟩ := h.live store hstore
  rw [Audit.finishOpen]
  generalize pruneAcknowledgements store.config now (2 ^ 64) outbox.db.acks = acks
  have hpruned := h.settled hstore pruning false
    (.ok (if acks.size < outbox.db.acks.size then some { outbox.db with acks := acks } else none,
      store)) ⟨rfl, fun _ hs => hs⟩ (fun s hs => ?_) fun written s hs => ?_
  · generalize hsettle : Audit.settle lib pruning false outbox.db _ = pruned at hpruned ⊢
    obtain ⟨_ | pruned, _⟩ := pruned
    · exact hpruned.opened
    · dsimp only
      split
      · exact hpruned.close
      · split
        · exact hpruned
        · have hrepointed := hpruned.call rfl repointing (.reconfigure pruned.config.destination)
          exact hrepointed.opened
  · split at hs
    · cases hs
    · cases hs
      exact store.same_refl
  · split at hs
    · cases hs
      exact ⟨⟨hstate, hkept.relabel _ _ _ rfl rfl rfl, rfl, rfl, rfl, le_max_left _ _⟩,
        fun _ => hfirst.of_pending rfl rfl⟩
    · cases hs

end

/-- What the checks of an opening find: the accounting record of the directory, or none. -/
theorem openChecks_eq_ok {random : FixedBytes 16} {recovered : Bool} {ackCursor : ℕ}
    (h : openChecks lib random config db = .ok (recovered, state, ackCursor)) :
    config.maxEventBytes ≤ maxEventBytes ∧
      ((recovered = true ∧ ∃ bytes, db.state = some bytes ∧ lib.parseState bytes = some state) ∨
        recovered = false ∧ db.state = none ∧ db.pending = ∅ ∧ db.dead = ∅ ∧ db.receipts = ∅ ∧
          ∃ fingerprint, state =
            ⟨1, hexEncode random.bytes, 0, fingerprint, 0, 0, 0, 0, 0, 0, 0, none⟩) := by
  simp only [openChecks, OutboxConfig.validate, accepts_iff, Bool.or_eq_false_iff,
    Prod.mk.injEq] at h
  obtain ⟨⟨⟨⟨⟨-, hmax⟩, -⟩, -⟩, -⟩, fingerprint, -, _, _, hread, -, rfl, rfl, -⟩ := h
  refine ⟨hmax, ?_⟩
  rw [readState] at hread
  cases hstate : db.state with
  | some bytes =>
    rw [hstate] at hread
    simp only [accepts_iff, Prod.mk.injEq] at hread
    obtain ⟨-, _, hparse, -, -, rfl, rfl⟩ := hread
    exact .inl ⟨rfl, bytes, rfl, hparse⟩
  | none =>
    rw [hstate] at hread
    simp only [accepts_iff, Bool.and_eq_true, ExtTreeMap.isEmpty_iff, Prod.mk.injEq] at hread
    obtain ⟨⟨⟨⟨hpend, hdead⟩, hrecs⟩, -⟩, rfl, rfl⟩ := hread
    exact .inr ⟨rfl, rfl, hpend, hdead, hrecs, fingerprint, rfl⟩

/-- The accounts of a new directory. -/
theorem kept_new (random : FixedBytes 16) (fingerprint : String) (hpend : db.pending = ∅)
    (hdead : db.dead = ∅) (hrecs : db.receipts = ∅) :
    Kept lib [] [] ⟨1, hexEncode random.bytes, 0, fingerprint, 0, 0, 0, 0, 0, 0, 0, none⟩ db := by
  have hcharged : charged ∅ = 0 := rfl
  have hnone : ∀ P, Table.AllRows P (∅ : Table ℕ Bytes) := by
    intro P n b hn
    simp at hn
  constructor
  case toAccounts =>
    constructor
    case version => rfl
    case identity => exact ⟨random, rfl⟩
    case last => exact Nat.two_pow_pos 64
    case pendingCount => exact ⟨by rw [hpend]; rfl, by rw [hpend, hcharged]⟩
    case deadCount => exact ⟨by rw [hdead]; rfl, by rw [hdead, hcharged]⟩
    case receiptCount => exact ⟨by rw [hrecs]; rfl, by rw [hrecs, hcharged]⟩
    case retained => exact Nat.two_pow_pos 64
    case pendingRows =>
      rw [hpend]
      exact hnone _
    case deadRows =>
      rw [hdead]
      exact hnone _
    case receiptRows =>
      rw [hrecs]
      exact hnone _
    case trailed =>
      intro n hn
      rw [hdead] at hn
      simp at hn
  case range => exact fun row hrow => by cases hrow
  case ordered => exact List.Pairwise.nil
  case placed => exact fun row hrow => by cases hrow
  case pendingGiven =>
    rw [hpend]
    exact hnone _
  case deadGiven =>
    rw [hdead]
    exact hnone _
  case acknowledgedGiven => exact fun id hid => by cases hid

theorem Outbox.Sound.recover (h : outbox.Sound lib limit)
    (hstate : outbox.db.state = some (lib.stateJson state))
    (hmax : config.maxEventBytes ≤ maxEventBytes)
    (hbudget : ∀ m ∈ limit, config.maxRetainedBytes = m) (pruning repointing : Fault)
    (now ackCursor : ℕ) :
    Outbox.Sound lib limit { outbox with
      store := (Audit.recover lib pruning repointing now config state ackCursor
        outbox.db).1.toOption
      db := (Audit.recover lib pruning repointing now config state ackCursor outbox.db).2 } := by
  rw [Audit.recover]
  split
  · exact h.close
  · split
    · exact h.close
    · rename_i oldest hreload
      have hopen : Outbox.Sound lib limit { outbox with
          store := some ⟨state, config, 1, state.stall, 0, 0, oldest, ackCursor⟩ } := by
        refine ⟨fun hfresh => ?_, h.recorded, fun s hs => ?_⟩
        · have hnone : outbox.db.state = none := hfresh
          rw [hstate] at hnone
          cases hnone
        · cases hs
          exact ⟨hstate, reloadOldest_first hreload, hmax, hbudget⟩
      exact hopen.finishOpen rfl pruning repointing now

theorem Outbox.Sound.openStore (h : outbox.Sound lib limit) (creating pruning repointing : Fault)
    (random : FixedBytes 16) (now : ℕ) (hbudget : ∀ m ∈ limit, config.maxRetainedBytes = m) :
    Outbox.Sound lib limit { outbox with
      store := (Audit.openStore lib creating pruning repointing random now config
        outbox.db).1.toOption
      db := (Audit.openStore lib creating pruning repointing random now config outbox.db).2 } := by
  rw [Audit.openStore]
  split
  · exact h.close
  · rename_i state ackCursor hchecks
    obtain ⟨hmax, ⟨-, bytes, hbytes, hparse⟩ | ⟨hfalse, -⟩⟩ := openChecks_eq_ok hchecks
    · obtain ⟨_, rfl, -⟩ := h.recorded bytes hbytes
      rw [lib.parseState_stateJson] at hparse
      obtain rfl := some.inj hparse
      exact h.recover hbytes hmax hbudget pruning repointing now ackCursor
    · cases hfalse
  · rename_i state ackCursor hchecks
    obtain ⟨hmax, ⟨htrue, -⟩ | ⟨-, hnew, hpend, hdead, hrecs, fingerprint, rfl⟩⟩ :=
      openChecks_eq_ok hchecks
    · cases htrue
    · obtain ⟨-, hgiven, hacc, hacked⟩ := h.fresh hnew
      -- the directory with its new record
      have hcreated : Outbox.Sound lib limit { outbox with
          store := none
          db := writeState lib outbox.db
            ⟨1, hexEncode random.bytes, 0, fingerprint, 0, 0, 0, 0, 0, 0, 0, none⟩ } := by
        refine ⟨fun hnone => (by cases hnone), fun bytes hbytes => ?_, fun s hs => (by cases hs)⟩
        refine ⟨_, (some.inj hbytes).symm, ?_, ?_, fun m _ => Nat.zero_le m⟩
        · dsimp only
          rw [hgiven, hacked]
          exact kept_new random fingerprint hpend hdead hrecs
        · dsimp only
          rw [hacc]
          exact fun id hid => by cases hid
      cases creating with
      | refused => exact h.close
      | lost => exact h.close
      | kept => exact hcreated
      | none | unread => exact hcreated.recover rfl hmax hbudget pruning repointing now ackCursor

/-- **One step keeps the invariant.** -/
theorem Outbox.Sound.next (h : outbox.Sound lib limit) (event : OutboxEvent lib)
    (hbudget : ∀ m ∈ limit, event.Budgets m) : (outbox.next event).Sound lib limit := by
  cases event with
  | call request fault =>
    rw [Outbox.next]
    cases hstore : outbox.store with
    | none => exact h
    | some => exact h.call hstore fault request
  | close => exact h.close
  | openStore creating pruning repointing random now =>
    rw [Outbox.next]
    cases hstore : outbox.store with
    | some => exact h
    | none => exact h.openStore creating pruning repointing random now hbudget

theorem Outbox.sound_new : new.Sound lib limit :=
  ⟨fun _ => ⟨rfl, rfl, rfl, rfl⟩, fun _ hbytes => (by cases hbytes), fun _ hs => (by cases hs)⟩

theorem Outbox.sound_run (events : List (OutboxEvent lib)) :
    (run step new events).Sound lib none :=
  run_invariant (fun _ event h => h.next event fun m hm => by cases hm) sound_new events

end Steps

/-! ### Custody -/

section Custody

variable {lib : Libraries}

/-- The durable state is in order: the counters are those of the tables, every dead letter has its
receipts and an opening accepts it. -/
def AuditDb.InOrder (lib : Libraries) (db : AuditDb) (state : State) : Prop :=
  (state.pendingRecords = db.pending.size ∧ state.pendingBytes = charged db.pending) ∧
  (state.deadRecords = db.dead.size ∧ state.deadBytes = charged db.dead) ∧
  (state.receiptRecords = db.receipts.size ∧ state.receiptBytes = charged db.receipts) ∧
  (∀ n : ℕ, db.dead[n]?.isSome = true → db.receipts[n]?.isSome = true) ∧
  validateRecovered lib state db = .ok ()

end Custody

end AsterRpc.Audit

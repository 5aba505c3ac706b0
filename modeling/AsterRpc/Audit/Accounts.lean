import AsterRpc.Audit.Store
import AsterRpc.Foundation.Persist

/-!
# The accounts of the audit store

What is counted agrees with what is stored, every row is the envelope of an event
of this outbox, and every row that was ever given is pending, dead or acknowledged.
Each transaction of the store leaves this in order.
-/

namespace AsterRpc.Audit

open Std List
open AsterRpc.Foundation
open AsterRpc.Coordination (Bytes FixedBytes)
open Table

/-- An event that `validate_event` has let through, as the queue holds it. -/
structure Admitted (lib : Libraries) where
  event : AuditEvent
  max : ℕ
  size : ℕ
  valid : validateEvent lib event max = .ok size

/-! ### The accounts -/

section Kept

variable (lib : Libraries)

/-- The envelope of an event in its place. -/
def IsRow (identity : Bytes) (sequence : ℕ) (bytes : Bytes) : Prop :=
  bytes.length ≤ maxEventBytes ∧ ∃ envelope : EnvelopeV1, bytes = lib.envelopeJson envelope ∧
    envelope.version = 1 ∧ envelope.outboxId = identity ∧ envelope.sequence = sequence ∧
    envelope.payload.depth 0 = true

/-- The receipts of a row. -/
def IsTrail (identity : Bytes) (sequence : ℕ) (bytes : Bytes) : Prop :=
  bytes.length ≤ maxReceiptBytes ∧ ∃ receipts : List DispositionReceipt,
    bytes = lib.receiptsJson receipts ∧ receipts ≠ [] ∧
    ∀ receipt ∈ receipts, receiptNames identity sequence receipt = true

/-- The bytes a table is charged. -/
def charged (table : Table ℕ Bytes) : ℕ := total (fun _ bytes => charge bytes) table

/-- The record counts what the tables hold, and the tables hold what belongs to this outbox. -/
structure Accounts (state : State) (db : AuditDb) : Prop where
  version : state.version = 1
  identity : IsIdentity state.identity
  last : state.lastSequence < 2 ^ 64
  pendingCount : state.pendingRecords = db.pending.size ∧ state.pendingBytes = charged db.pending
  deadCount : state.deadRecords = db.dead.size ∧ state.deadBytes = charged db.dead
  receiptCount : state.receiptRecords = db.receipts.size ∧ state.receiptBytes = charged db.receipts
  retained : state.retained < 2 ^ 64
  pendingRows : Table.AllRows (fun n b => (0 < n ∧ n ≤ state.lastSequence) ∧
    IsRow lib state.identity n b) db.pending
  deadRows : Table.AllRows (fun n b => (0 < n ∧ n ≤ state.lastSequence) ∧
    IsRow lib state.identity n b) db.dead
  receiptRows : Table.AllRows (fun n b => (0 < n ∧ n ≤ state.lastSequence) ∧
    IsTrail lib state.identity n b) db.receipts
  /-- Every dead letter has its receipts. -/
  trailed : ∀ n : ℕ, db.dead[n]?.isSome = true → db.receipts[n]?.isSome = true

/-- The row is pending, dead or acknowledged, and only one of these. -/
def Placed (identity : Bytes) (db : AuditDb) (acknowledged : List EventId) (n : ℕ) (b : Bytes) :
    Prop :=
  (db.pending[n]? = some b ∧ db.dead[n]? = none ∧ idFor lib identity n b ∉ acknowledged) ∨
  (db.pending[n]? = none ∧ db.dead[n]? = some b ∧ idFor lib identity n b ∉ acknowledged) ∨
  (db.pending[n]? = none ∧ db.dead[n]? = none ∧ idFor lib identity n b ∈ acknowledged)

/-- The accounts, and what became of every row that was given. -/
structure Kept (given : List (ℕ × Bytes)) (acknowledged : List EventId) (state : State)
    (db : AuditDb) : Prop extends Accounts lib state db where
  range : ∀ row ∈ given, 0 < row.1 ∧ row.1 ≤ state.lastSequence
  ordered : given.Pairwise fun a b => a.1 < b.1
  placed : ∀ row ∈ given, Placed lib state.identity db acknowledged row.1 row.2
  pendingGiven : Table.AllRows (fun n b => (n, b) ∈ given) db.pending
  deadGiven : Table.AllRows (fun n b => (n, b) ∈ given) db.dead
  acknowledgedGiven : ∀ id ∈ acknowledged, ∃ row ∈ given, id = idFor lib state.identity row.1 row.2

end Kept

/-! ### What an opening checks -/

section Validation

variable {lib : Libraries} {state : State} {db : AuditDb} {identity : Bytes}

theorem length_le_charge (rows : List (ℕ × Bytes)) :
    rows.length ≤ (rows.map fun row => charge row.2).sum := by
  induction rows with
  | nil => exact Nat.le_refl 0
  | cons row rest ih =>
    simp only [length_cons, map_cons, sum_cons, charge] at ih ⊢
    omega

theorem foldlM_countRow (check : ℕ → Bytes → Except AuditError Unit) (last : ℕ)
    (rows : List (ℕ × Bytes)) (records bytes : ℕ)
    (hrows : ∀ row ∈ rows, (0 < row.1 ∧ row.1 ≤ last) ∧ check row.1 row.2 = .ok ())
    (hrecords : records + rows.length < 2 ^ 64)
    (hbytes : bytes + (rows.map fun row => charge row.2).sum < 2 ^ 64) :
    rows.foldlM (countRow check last) (records, bytes) =
      .ok (records + rows.length, bytes + (rows.map fun row => charge row.2).sum) := by
  induction rows generalizing records bytes with
  | nil => rfl
  | cons row rest ih =>
    simp only [length_cons, map_cons, sum_cons] at hrecords hbytes ⊢
    obtain ⟨⟨hpos, hlast⟩, hcheck⟩ := hrows row mem_cons_self
    have hone : countRow check last (records, bytes) row =
        .ok (records + 1, bytes + charge row.2) := by
      simp only [countRow, accepts_iff, Bool.or_eq_false_iff, beq_eq_false_iff_ne]
      exact ⟨⟨by omega, by omega⟩, hcheck, by omega, by omega, trivial⟩
    have hrest := ih (records + 1) (bytes + charge row.2)
      (fun r hr => hrows r (mem_cons_of_mem row hr)) (by omega) (by omega)
    rw [foldlM_cons_eq_ok]
    refine ⟨_, hone, hrest.trans ?_⟩
    congr 2 <;> omega

theorem checkTable_eq_ok {check : ℕ → Bytes → Except AuditError Unit} {last records bytes : ℕ}
    {table : Table ℕ Bytes}
    (hrows : Table.AllRows (fun n b => (0 < n ∧ n ≤ last) ∧ check n b = .ok ()) table)
    (hcount : records = table.size ∧ bytes = charged table) (hbytes : bytes < 2 ^ 64) :
    checkTable check last table records bytes = .ok () := by
  obtain ⟨rfl, rfl⟩ := hcount
  have hcharged : charged table = (table.toList.map fun row => charge row.2).sum := rfl
  have hlen := length_le_charge table.toList
  have hfold := foldlM_countRow check last table.toList 0 0
    (allRows_iff.mp hrows) (by omega) (by omega)
  rw [Nat.zero_add, Nat.zero_add, ExtTreeMap.length_toList] at hfold
  rw [checkTable, hfold, ok_bind, ← hcharged]
  simp [refuseIf]

theorem checkEnvelope_eq_ok {n : ℕ} {b : Bytes} (h : IsRow lib identity n b) :
    checkEnvelope lib identity n b = .ok () := by
  obtain ⟨hlen, envelope, rfl, hversion, hident, hseq, hdepth⟩ := h
  obtain ⟨_, hparse⟩ := lib.parseEnvelope_envelopeJson envelope hdepth
  simp only [checkEnvelope, accepts_iff, hparse]
  refine ⟨by simpa using hlen, _, rfl, ?_⟩
  simp [hversion, hident, hseq]

theorem checkReceipts_eq_ok {n : ℕ} {b : Bytes} (h : IsTrail lib identity n b) :
    checkReceipts lib identity n b = .ok () := by
  obtain ⟨hlen, _, rfl, hne, hnames⟩ := h
  simp only [checkReceipts, accepts_iff, lib.parseReceipts_receiptsJson]
  refine ⟨by simpa using hlen, _, rfl, ?_⟩
  simpa [hne] using hnames

/-- **An opening accepts what is in order.** -/
theorem Accounts.validates (h : Accounts lib state db) :
    validateRecovered lib state db = .ok () := by
  have hkeep := h.retained
  simp only [State.retained] at hkeep
  have hpend := checkTable_eq_ok
    (h.pendingRows.mono fun _ _ hrow => ⟨hrow.1, checkEnvelope_eq_ok hrow.2⟩) h.pendingCount
    (by omega)
  have hdead := checkTable_eq_ok
    (h.deadRows.mono fun _ _ hrow => ⟨hrow.1, checkEnvelope_eq_ok hrow.2⟩) h.deadCount (by omega)
  have hrecs := checkTable_eq_ok
    (h.receiptRows.mono fun _ _ hrow => ⟨hrow.1, checkReceipts_eq_ok hrow.2⟩) h.receiptCount
    (by omega)
  rw [validateRecovered, hpend, hdead, hrecs]
  rw [ok_bind, ok_bind, ok_bind, refuseIf_eq_ok]
  exact decide_eq_false (Nat.not_le_of_gt h.retained)

end Validation

/-! ### One transaction -/

section Transactions

variable {lib : Libraries} {given : List (ℕ × Bytes)} {acknowledged : List EventId} {state : State}
  {db : AuditDb} {table : Table ℕ Bytes} {n : ℕ} {b : Bytes} {text : Bytes} {config : OutboxConfig}
  {event : AuditEvent} {id : EventId} {row : ℕ × Bytes} {state' : State}
  {removal removal' : Removal} {receipts : List DispositionReceipt} {records bytes : ℕ}

theorem charged_insert_of_none (bytes : Bytes) (h : table[n]? = none) :
    charged (table.insert n bytes) = charged table + charge bytes :=
  total_insert_of_none (fun _ bytes => charge bytes) h bytes

theorem charged_insert_of_some (bytes : Bytes) (h : table[n]? = some b) :
    charged (table.insert n bytes) + charge b = charged table + charge bytes :=
  total_insert_of_some (fun _ bytes => charge bytes) h bytes

section

variable (h : records = table.size ∧ bytes = charged table)

include h

theorem counted_insert (b : Bytes) (hnone : table[n]? = none) :
    records + 1 = (table.insert n b).size ∧ bytes + charge b = charged (table.insert n b) := by
  rw [size_insert_of_none b hnone, charged_insert_of_none b hnone, h.1, h.2]
  exact ⟨rfl, rfl⟩

theorem counted_erase (hsome : table[n]? = some b) :
    (records - 1 = (table.erase n).size ∧ bytes - charge b = charged (table.erase n)) ∧
      charge b ≤ bytes := by
  have hsize := size_erase_of_some hsome
  have hcharged : charged (table.erase n) + charge b = charged table :=
    total_erase_of_some (fun _ bytes => charge bytes) hsome
  omega

end

/-- Identifiers of different rows differ. -/
theorem idFor_sequence {identity : Bytes} {m : ℕ} {c : Bytes} (hident : IsIdentity identity)
    (hn : 0 < n ∧ n < 2 ^ 64) (hm : 0 < m ∧ m < 2 ^ 64)
    (h : idFor lib identity n b = idFor lib identity m c) : n = m := by
  have hleft := parseId_idFor lib b hident (Nat.ne_of_gt hn.1) hn.2
  have hright := parseId_idFor lib c hident (Nat.ne_of_gt hm.1) hm.2
  rw [h, hright] at hleft
  simp only [Except.ok.injEq, Prod.mk.injEq] at hleft
  exact hleft.2.1.symm

theorem boundedJson_eq_ok {bytes : Bytes} {max : ℕ} :
    boundedJson text max = .ok bytes ↔ text.length ≤ max ∧ text = bytes := by
  simp only [boundedJson, accepts_iff]

theorem Removal.remove_eq_ok :
    removal.remove lib id = .ok removal' ↔ ∃ identity sequence digest bytes,
      parseId id = .ok (identity, sequence, digest) ∧ removal.pending[sequence]? = some bytes ∧
      idFor lib removal.state.identity sequence bytes = id ∧
      removal' = ⟨{ removal.state with
          pendingRecords := removal.state.pendingRecords - 1
          pendingBytes := removal.state.pendingBytes - charge bytes },
        removal.pending.erase sequence, removal.sequences ++ [sequence]⟩ := by
  simp only [Removal.remove, accepts_iff]
  constructor
  · rintro ⟨identity, sequence, digest, hparse, bytes, hpend, hid, rfl⟩
    exact ⟨identity, sequence, digest, bytes, hparse, hpend, hid, rfl⟩
  · rintro ⟨identity, sequence, digest, bytes, hparse, hpend, hid, rfl⟩
    exact ⟨identity, sequence, digest, hparse, bytes, hpend, hid, rfl⟩

theorem boundedReceipts_eq_ok :
    boundedReceipts lib receipts = .ok text ↔
      (lib.receiptsJson receipts).length ≤ maxReceiptBytes ∧ lib.receiptsJson receipts = text := by
  rw [← boundedJson_eq_ok, boundedReceipts]
  cases boundedJson (lib.receiptsJson receipts) maxReceiptBytes <;> simp

theorem admitEvent_eq_ok :
    admitEvent lib config state event = .ok (id, row, state') ↔
      state.lastSequence + 1 < 2 ^ 64 ∧
      row = (state.lastSequence + 1, lib.envelopeJson ⟨1, state.identity, state.lastSequence + 1,
        event.timestampMs, event.kind, event.payload⟩) ∧
      row.2.length ≤ config.maxEventBytes ∧
      state.retained + charge row.2 ≤ config.maxRetainedBytes ∧
      id = idFor lib state.identity row.1 row.2 ∧
      state' = { state with
        lastSequence := state.lastSequence + 1
        pendingRecords := state.pendingRecords + 1
        pendingBytes := state.pendingBytes + charge row.2 } := by
  simp only [admitEvent, accepts_iff, Nat.not_le, boundedJson_eq_ok, Prod.mk.injEq]
  constructor
  · rintro ⟨hlast, _, ⟨hlen, rfl⟩, hbudget, rfl, rfl, rfl⟩
    exact ⟨hlast, rfl, hlen, hbudget, rfl, rfl⟩
  · rintro ⟨hlast, rfl, hlen, hbudget, rfl, rfl⟩
    exact ⟨hlast, _, ⟨hlen, rfl⟩, hbudget, rfl, rfl, rfl⟩

section

variable (h : Kept lib given acknowledged state db)

include h

/-- The accounts do not depend on the fields that are not counted. -/
theorem Kept.relabel {db' : AuditDb} (fingerprint : String) (isolationUntil : ℕ)
    (stall : Option DeliveryError) (hpend : db'.pending = db.pending)
    (hdead : db'.dead = db.dead) (hrecs : db'.receipts = db.receipts) :
    Kept lib given acknowledged
      { state with fingerprint := fingerprint, isolationUntil := isolationUntil, stall := stall }
      db' := by
  obtain ⟨_, _, _, _, _, _⟩ := db'
  subst hpend hdead hrecs
  exact { h with }

/-- A row is added. -/
theorem Kept.admitEvent (hadm : admitEvent lib config state event = .ok (id, row, state'))
    (hmax : config.maxEventBytes ≤ maxEventBytes) (hdepth : event.payload.depth 0 = true) :
    Kept lib (given ++ [row]) acknowledged state'
      { db with pending := db.pending.insert row.1 row.2 } := by
  obtain ⟨hlast, hrow, hlen, hbudget, -, rfl⟩ := admitEvent_eq_ok.mp hadm
  obtain ⟨n, b⟩ := row
  obtain ⟨hn, hb⟩ := Prod.mk.inj hrow
  have hnew : ∀ {m : ℕ}, m ≤ state.lastSequence → m ≠ n := by
    rintro m hle rfl
    omega
  have hpend : db.pending[n]? = none := by
    cases hold : db.pending[n]? with
    | none => rfl
    | some c => exact absurd rfl (hnew (h.pendingRows n c hold).1.2)
  have hdead : db.dead[n]? = none := by
    cases hold : db.dead[n]? with
    | none => rfl
    | some c => exact absurd rfl (hnew (h.deadRows n c hold).1.2)
  have hisRow : IsRow lib state.identity n b := by
    refine ⟨hlen.trans hmax, _, hb, rfl, rfl, hn.symm, hdepth⟩
  have hkeep := config.retained_lt
  have hwiden : ∀ {m : ℕ}, 0 < m ∧ m ≤ state.lastSequence → 0 < m ∧ m ≤ state.lastSequence + 1 :=
    fun hm => ⟨hm.1, Nat.le_succ_of_le hm.2⟩
  refine { h with
    last := hlast
    pendingCount := counted_insert h.pendingCount b hpend
    retained := ?retained
    pendingRows := (h.pendingRows.mono fun _ _ hm => ⟨hwiden hm.1, hm.2⟩).insert
      ⟨⟨by omega, hn.le⟩, hisRow⟩
    deadRows := h.deadRows.mono fun _ _ hm => ⟨hwiden hm.1, hm.2⟩
    receiptRows := h.receiptRows.mono fun _ _ hm => ⟨hwiden hm.1, hm.2⟩
    range := ?range
    ordered := ?ordered
    placed := ?placed
    pendingGiven := (h.pendingGiven.mono fun _ _ hm => mem_append_left _ hm).insert
      (mem_append_right _ (mem_singleton_self _))
    deadGiven := h.deadGiven.mono fun _ _ hm => mem_append_left _ hm
    acknowledgedGiven := ?acknowledgedGiven }
  case retained =>
    simp only [State.retained] at hbudget ⊢
    omega
  case range =>
    intro row hrow
    rcases mem_append.mp hrow with hrow | hrow
    · exact ⟨(h.range row hrow).1, Nat.le_succ_of_le (h.range row hrow).2⟩
    · rw [mem_singleton.mp hrow]
      exact ⟨by omega, hn.le⟩
  case ordered =>
    refine pairwise_append.mpr
      ⟨h.ordered, pairwise_singleton _ _, fun row hrow x hx => ?_⟩
    rw [mem_singleton.mp hx]
    have hle := (h.range row hrow).2
    omega
  case placed =>
    intro row hrow
    rcases mem_append.mp hrow with hrow | hrow
    · have hplaced := h.placed row hrow
      have hne : n ≠ row.1 := (hnew (h.range row hrow).2).symm
      simp only [Placed, get?_insert_of_ne _ _ hne] at hplaced ⊢
      exact hplaced
    · rw [mem_singleton.mp hrow]
      refine .inl ⟨get?_insert_self _ _ _, hdead, fun hmem => ?_⟩
      obtain ⟨old, hold, heq⟩ := h.acknowledgedGiven _ hmem
      have hrange := h.range old hold
      exact hnew hrange.2 (idFor_sequence h.identity ⟨by omega, by omega⟩
        ⟨hrange.1, by omega⟩ heq).symm
  case acknowledgedGiven =>
    intro id hid
    obtain ⟨row, hrow, heq⟩ := h.acknowledgedGiven id hid
    exact ⟨row, mem_append_left _ hrow, heq⟩

/-- A number was given once. -/
theorem Kept.given_unique (hrow : row ∈ given) (hgiven : (n, b) ∈ given) (heq : row.1 = n) :
    row.2 = b := by
  have hnodup : (given.map Prod.fst).Nodup :=
    pairwise_map.mpr (h.ordered.imp fun hlt => Nat.ne_of_lt hlt)
  rw [inj_on_of_nodup_map hnodup hrow hgiven heq]

theorem Kept.pending_alone (hpend : db.pending[n]? = some b) :
    db.dead[n]? = none ∧ idFor lib state.identity n b ∉ acknowledged := by
  rcases h.placed _ (h.pendingGiven n b hpend) with ⟨-, hplace⟩ | ⟨hnone, -⟩ | ⟨hnone, -⟩
  · exact hplace
  · rw [hpend] at hnone
    cases hnone
  · rw [hpend] at hnone
    cases hnone

theorem Kept.dead_alone (hdead : db.dead[n]? = some b) :
    db.pending[n]? = none ∧ idFor lib state.identity n b ∉ acknowledged := by
  rcases h.placed _ (h.deadGiven n b hdead) with
    ⟨-, hnone, -⟩ | ⟨hpend, -, hplace⟩ | ⟨-, hnone, -⟩
  · rw [hdead] at hnone
    cases hnone
  · exact ⟨hpend, hplace⟩
  · rw [hdead] at hnone
    cases hnone

/-- A row leaves the pending rows, and its identifier is acknowledged. -/
theorem Kept.erase (hpend : db.pending[n]? = some b) :
    Kept lib given (acknowledged ++ [idFor lib state.identity n b])
      { state with
        pendingRecords := state.pendingRecords - 1
        pendingBytes := state.pendingBytes - charge b }
      { db with pending := db.pending.erase n } := by
  have hgiven := h.pendingGiven n b hpend
  have hrange := h.range _ hgiven
  have hlast := h.last
  have hkeep := h.retained
  refine { h with
    pendingCount := (counted_erase h.pendingCount hpend).1
    retained := ?retained
    pendingRows := h.pendingRows.erase n
    placed := ?placed
    pendingGiven := h.pendingGiven.erase n
    acknowledgedGiven := ?acknowledgedGiven }
  case retained =>
    simp only [State.retained] at hkeep ⊢
    omega
  case placed =>
    intro row hrow
    have hplaced := h.placed row hrow
    by_cases heq : n = row.1
    · have hsame := h.given_unique hrow hgiven heq.symm
      rw [← heq, hsame]
      refine .inr (.inr ⟨?_, (h.pending_alone hpend).1, ?_⟩)
      · exact ExtTreeMap.getElem?_erase_self
      · exact mem_append_right _ (mem_singleton_self _)
    · have hother : idFor lib state.identity row.1 row.2 ∈
          acknowledged ++ [idFor lib state.identity n b] ↔
            idFor lib state.identity row.1 row.2 ∈ acknowledged := by
        rw [mem_append, mem_singleton]
        refine or_iff_left fun hid => heq ?_
        have hrange' := h.range row hrow
        exact (idFor_sequence h.identity ⟨hrange'.1, by omega⟩ ⟨hrange.1, by omega⟩ hid).symm
      simp only [Placed, get?_erase_of_ne _ heq, hother] at hplaced ⊢
      exact hplaced
  case acknowledgedGiven =>
    intro id hid
    rcases mem_append.mp hid with hid | hid
    · exact h.acknowledgedGiven id hid
    · exact ⟨(n, b), hgiven, mem_singleton.mp hid⟩

/-- A stored text is that of its receipts. -/
theorem Kept.receipts_of_row (hrecs : receiptRow lib db n = .ok receipts) :
    (db.receipts[n]? = none ∧ receipts = []) ∨
      db.receipts[n]? = some (lib.receiptsJson receipts) ∧ receipts ≠ [] ∧
        ∀ receipt ∈ receipts, receiptNames state.identity n receipt = true := by
  rw [receiptRow] at hrecs
  cases hrow : db.receipts[n]? with
  | none =>
    rw [hrow] at hrecs
    exact .inl ⟨rfl, (Except.ok.inj hrecs).symm⟩
  | some text =>
    rw [hrow, requireSome_eq_ok] at hrecs
    obtain ⟨-, -, _, rfl, hne, hnames⟩ := h.receiptRows n text hrow
    rw [lib.parseReceipts_receiptsJson] at hrecs
    obtain rfl := Option.some.inj hrecs
    exact .inr ⟨rfl, hne, hnames⟩

/-- One more receipt for the row `n`: the accounts of the receipts. -/
theorem Kept.receipts_insert {receipt : DispositionReceipt}
    (hrow : receiptRow lib db n = .ok receipts)
    (htext : boundedReceipts lib (receipts ++ [receipt]) = .ok text)
    (hnames : receiptNames state.identity n receipt = true) :
    IsTrail lib state.identity n text ∧
      state.receiptRecords + (if receipts.isEmpty then 1 else 0) =
        (db.receipts.insert n text).size ∧
      state.receiptBytes - receiptCharge lib receipts + charge text =
        charged (db.receipts.insert n text) := by
  obtain ⟨hlen, rfl⟩ := boundedReceipts_eq_ok.mp htext
  obtain ⟨hcount, hbytes⟩ := h.receiptCount
  have hall : ∀ r ∈ receipts ++ [receipt], receiptNames state.identity n r = true := by
    intro r hr
    rcases mem_append.mp hr with hr | hr
    · rcases h.receipts_of_row hrow with ⟨-, rfl⟩ | ⟨-, -, hold⟩
      · cases hr
      · exact hold r hr
    · rw [mem_singleton.mp hr]
      exact hnames
  refine ⟨⟨hlen, _, rfl, by simp, hall⟩, ?_⟩
  rcases h.receipts_of_row hrow with ⟨hnone, rfl⟩ | ⟨hsome, hne, -⟩
  · have hsize := size_insert_of_none (lib.receiptsJson ([] ++ [receipt])) hnone
    have hcharged := charged_insert_of_none (lib.receiptsJson ([] ++ [receipt])) hnone
    have hzero : receiptCharge lib [] = 0 := rfl
    rw [hsize, hcharged, hzero]
    exact ⟨congrArg (· + 1) hcount, by omega⟩
  · have hsize := size_insert_of_some (lib.receiptsJson (receipts ++ [receipt])) hsome
    have hcharged := charged_insert_of_some (lib.receiptsJson (receipts ++ [receipt])) hsome
    have hempty : receipts.isEmpty = false := by simpa using hne
    have hcharge : receiptCharge lib receipts = charge (lib.receiptsJson receipts) := by
      rw [receiptCharge, hempty]
      rfl
    have hle := weightAt_le_total (fun _ bytes => charge bytes) db.receipts n
    rw [weightAt, hsome] at hle
    have hheld : charge (lib.receiptsJson receipts) ≤ charged db.receipts := hle
    rw [hsize, hempty, hcharge]
    exact ⟨hcount, by omega⟩

/-- A row changes its place, with one more receipt. -/
theorem Kept.move {pending dead : Table ℕ Bytes}
    {pendingRecords pendingBytes deadRecords deadBytes : ℕ}
    (hheld : db.pending[n]? = some b ∨ db.dead[n]? = some b)
    (hplace : (pending[n]? = some b ∧ dead[n]? = none) ∨ (pending[n]? = none ∧ dead[n]? = some b))
    (hothers : ∀ m, n ≠ m → pending[m]? = db.pending[m]? ∧ dead[m]? = db.dead[m]?)
    (hpend : pendingRecords = pending.size ∧ pendingBytes = charged pending)
    (hdead : deadRecords = dead.size ∧ deadBytes = charged dead)
    (htrail : IsTrail lib state.identity n text)
    (hrecords : records = (db.receipts.insert n text).size)
    (hbytes : bytes = charged (db.receipts.insert n text))
    (hbudget : pendingBytes + deadBytes + bytes < 2 ^ 64) :
    Kept lib given acknowledged
      { state with
        pendingRecords := pendingRecords
        pendingBytes := pendingBytes
        deadRecords := deadRecords
        deadBytes := deadBytes
        receiptRecords := records
        receiptBytes := bytes }
      { db with pending := pending, dead := dead, receipts := db.receipts.insert n text } := by
  have hrow := hheld.elim (h.pendingRows n b) (h.deadRows n b)
  have hgiven := hheld.elim (h.pendingGiven n b) (h.deadGiven n b)
  have hopen := hheld.elim (fun hrow => (h.pending_alone hrow).2) fun hrow => (h.dead_alone hrow).2
  have hrows : ∀ P : ℕ → Bytes → Prop, P n b → Table.AllRows P db.pending →
      Table.AllRows P db.dead → Table.AllRows P pending ∧ Table.AllRows P dead := by
    intro P hn hpre hlost
    constructor <;> intro m x hx <;> by_cases heq : n = m
    · subst heq
      obtain ⟨hnew, -⟩ | ⟨hnew, -⟩ := hplace <;> rw [hx] at hnew <;> cases hnew
      exact hn
    · exact hpre m x ((hothers m heq).1 ▸ hx)
    · subst heq
      obtain ⟨-, hnew⟩ | ⟨-, hnew⟩ := hplace <;> rw [hx] at hnew <;> cases hnew
      exact hn
    · exact hlost m x ((hothers m heq).2 ▸ hx)
  have hvalid := hrows _ hrow h.pendingRows h.deadRows
  have hstill := hrows _ hgiven h.pendingGiven h.deadGiven
  refine { h with
    pendingCount := hpend
    deadCount := hdead
    receiptCount := ⟨hrecords, hbytes⟩
    retained := hbudget
    pendingRows := hvalid.1
    deadRows := hvalid.2
    receiptRows := h.receiptRows.insert ⟨hrow.1, htrail⟩
    trailed := fun m hm => ?_
    placed := fun row hmem => ?_
    pendingGiven := hstill.1
    deadGiven := hstill.2 }
  · by_cases heq : n = m
    · rw [← heq, get?_insert_self]
      rfl
    · rw [get?_insert_of_ne _ _ heq]
      exact h.trailed m ((hothers m heq).2 ▸ hm)
  · by_cases heq : n = row.1
    · rw [← heq, h.given_unique hmem hgiven heq.symm]
      exact hplace.imp (fun hnew => ⟨hnew.1, hnew.2, hopen⟩) fun hnew =>
        Or.inl ⟨hnew.1, hnew.2, hopen⟩
    · have hplaced := h.placed row hmem
      simp only [Placed, hothers row.1 heq] at hplaced ⊢
      exact hplaced

end

/-- The rows of an acknowledgement leave one by one. -/
theorem Kept.remove {ids : List EventId}
    (hremove : ids.foldlM (Removal.remove lib) removal = .ok removal')
    (h : Kept lib given acknowledged removal.state { db with pending := removal.pending }) :
    Kept lib given (acknowledged ++ ids) removal'.state
      { db with pending := removal'.pending } := by
  induction ids generalizing removal acknowledged with
  | nil =>
    rw [foldlM_nil_eq_ok] at hremove
    rw [← hremove, append_nil]
    exact h
  | cons id rest ih =>
    obtain ⟨_, hmid, hrest⟩ := foldlM_cons_eq_ok.mp hremove
    obtain ⟨-, n, -, b, -, hpend, hid, rfl⟩ := Removal.remove_eq_ok.mp hmid
    have hone := ih hrest (h.erase hpend)
    rw [hid, append_assoc] at hone
    exact hone

end Transactions

/-! ### Plans -/

/-- The first pending sequence is the one in memory. -/
def First (oldest : Option (ℕ × ℕ)) (db : AuditDb) : Prop :=
  oldest.map Prod.fst = db.pending.toList.head?.map Prod.fst

/-- A transaction leaves the accounts in order, within what was retained or is allowed. -/
structure Writes (lib : Libraries) (given : List (ℕ × Bytes)) (acknowledged : List EventId)
    (store : Store) (written : AuditDb) (store' : Store) : Prop where
  recorded : written.state = some (lib.stateJson store'.state)
  kept : Kept lib given acknowledged store'.state written
  identity : store'.state.identity = store.state.identity
  events : store'.config.maxEventBytes = store.config.maxEventBytes
  budget : store'.config.maxRetainedBytes = store.config.maxRetainedBytes
  retained : store'.state.retained ≤ max store.state.retained store.config.maxRetainedBytes

section Plans

variable {lib : Libraries} {given : List (ℕ × Bytes)} {acknowledged : List EventId} {db : AuditDb}
  {store store' : Store} {written : AuditDb} {now generation : ℕ} {ids : List EventId}
  {result : Option AuditDb × Store} {destination : Destination} {reason operator : String}
  {digest : Bytes} {id : EventId}

theorem Admitted.depth (event : Admitted lib) : event.event.payload.depth 0 = true := by
  have hvalid := event.valid
  simp only [validateEvent, accepts_iff] at hvalid
  exact hvalid.2.1

/-- What a group is while its events are taken in. -/
structure Gathers (lib : Libraries) (given : List (ℕ × Bytes)) (acknowledged : List EventId)
    (db : AuditDb) (store : Store) (group : Group) : Prop where
  kept : Kept lib (given ++ group.rows) acknowledged group.state
    { db with pending := insertRows group.rows db.pending }
  identity : group.state.identity = store.state.identity
  listed : (insertRows group.rows db.pending).toList = db.pending.toList ++ group.rows
  outcomes : group.outcomes.filterMap Except.toOption =
    group.rows.map fun row => idFor lib store.state.identity row.1 row.2
  retained : group.state.retained ≤ max store.state.retained store.config.maxRetainedBytes

theorem Gathers.admitOne {group : Group} (h : Gathers lib given acknowledged db store group)
    (hmax : store.config.maxEventBytes ≤ maxEventBytes) (event : Admitted lib) :
    Gathers lib given acknowledged db store (group.admitOne lib store.config event.event) := by
  rw [Group.admitOne]
  cases hadm : admitEvent lib store.config group.state event.event with
  | error =>
    refine ⟨h.kept, h.identity, h.listed, ?_, h.retained⟩
    rw [filterMap_append, h.outcomes]
    exact append_nil _
  | ok admitted =>
    obtain ⟨_, row, state⟩ := admitted
    have hkept := h.kept.admitEvent hadm hmax event.depth
    obtain ⟨-, hrow, -, hbudget, hid, hstate⟩ := admitEvent_eq_ok.mp hadm
    have hins : insertRows (group.rows ++ [row]) db.pending =
        (insertRows group.rows db.pending).insert row.1 row.2 := by
      rw [insertRows, foldl_append]
      rfl
    refine ⟨?_, ?_, ?_, ?_, ?_⟩
    · rw [hins, ← append_assoc]
      exact hkept
    · rw [hstate]
      exact h.identity
    · -- the new sequence is above all that are pending
      rw [hins, toList_insert_last, h.listed, append_assoc]
      intro m b hm
      have hrange := (h.kept.pendingRows m b hm).1
      rw [hrow]
      exact Nat.compare_eq_lt.mpr (Nat.lt_succ_of_le hrange.2)
    · rw [filterMap_append, h.outcomes, map_append, hid, h.identity]
      rfl
    · have hkeep : state.retained = group.state.retained + charge row.2 := by
        rw [hstate]
        simp only [State.retained]
        omega
      rw [hkeep]
      exact hbudget.trans (le_max_right _ _)

/-- The log of acknowledgements is apart from what is counted. -/
theorem logAcknowledgements_tables {config : OutboxConfig} {cursor cursor' : ℕ}
    {sequences : List ℕ} {db' : AuditDb}
    (h : logAcknowledgements lib config now cursor ids sequences db = .ok (cursor', db')) :
    db'.state = db.state ∧ db'.pending = db.pending ∧ db'.dead = db.dead ∧
      db'.receipts = db.receipts := by
  rw [logAcknowledgements] at h
  split at h
  · simp only [accepts_iff, Prod.mk.injEq] at h
    obtain ⟨-, -, -, -, -, -, rfl⟩ := h
    exact ⟨rfl, rfl, rfl, rfl⟩
  · cases h
    exact ⟨rfl, rfl, rfl, rfl⟩

theorem retained_remove {removal removal' : Removal}
    (h : ids.foldlM (Removal.remove lib) removal = .ok removal') :
    removal'.state.retained ≤ removal.state.retained ∧
      removal'.state.identity = removal.state.identity := by
  induction ids generalizing removal with
  | nil =>
    rw [foldlM_nil_eq_ok] at h
    rw [h]
    exact ⟨Nat.le_refl _, rfl⟩
  | cons id rest ih =>
    obtain ⟨_, hmid, hrest⟩ := foldlM_cons_eq_ok.mp h
    obtain ⟨-, n, -, b, -, -, -, rfl⟩ := Removal.remove_eq_ok.mp hmid
    obtain ⟨hle, hident⟩ := ih hrest
    refine ⟨hle.trans ?_, hident⟩
    simp only [State.retained]
    omega

theorem leaveIsolation_eq (pending : Table ℕ Bytes) (state : State) :
    ∃ mark, leaveIsolation pending state = { state with isolationUntil := mark } := by
  rw [leaveIsolation]
  split
  · exact ⟨0, rfl⟩
  · exact ⟨state.isolationUntil, rfl⟩

theorem planAcknowledge_eq_ok :
    planAcknowledge lib now store db generation ids = .ok result ↔
      generation = store.generation ∧ ∃ removal cursor logged,
        ids.foldlM (Removal.remove lib) ⟨store.state, db.pending, []⟩ = .ok removal ∧
        logAcknowledgements lib store.config now store.ackCursor ids removal.sequences
          (writeState lib { db with pending := removal.pending }
            { leaveIsolation removal.pending removal.state with stall := none }) =
              .ok (cursor, logged) ∧
        result = (some logged,
          { store with
            state := { leaveIsolation removal.pending removal.state with stall := none }
            ackCursor := cursor
            lastError := none }) := by
  simp only [planAcknowledge, accepts_iff]
  refine and_congr_right fun _ => exists_congr fun removal => ?_
  constructor
  · rintro ⟨hremove, cursor, logged, hlog, rfl⟩
    exact ⟨cursor, logged, hremove, hlog, rfl⟩
  · rintro ⟨cursor, logged, hremove, hlog, rfl⟩
    exact ⟨hremove, cursor, logged, hlog, rfl⟩

theorem planReconfigure_eq_ok :
    planReconfigure lib store db destination = .ok result ↔
      ∃ fingerprint, lib.fingerprint destination = .ok fingerprint ∧
        (fingerprint != store.state.fingerprint && (decide (0 < store.state.pendingRecords) ||
          decide (0 < store.state.deadRecords))) = false ∧
        result = (some (writeState lib db
            { store.state with fingerprint := fingerprint, stall := none }),
          { store with
            state := { store.state with fingerprint := fingerprint, stall := none }
            config := { store.config with destination := destination }
            generation := store.generation + 1
            lastError := none }) := by
  simp only [planReconfigure, accepts_iff]
  refine exists_congr fun fingerprint => and_congr_right fun _ => and_congr_right fun _ => ?_
  exact eq_comm

theorem planQuarantine_eq_ok {id : Bytes}
    (h : planQuarantine lib now store db id reason operator = .ok result) :
    ∃ n digest, parseId id = .ok (store.state.identity, n, digest) ∧
      ((∃ b, db.dead[n]? = some b ∧ result = (none, store)) ∨
        db.dead[n]? = none ∧ ∃ b, db.pending[n]? = some b ∧
          idFor lib store.state.identity n b = id ∧ store.oldest.map Prod.fst = some n ∧
          stalledAt store.state n = true ∧
          moveDead lib store db now n b id reason operator = .ok result) := by
  simp only [planQuarantine, accepts_iff] at h
  obtain ⟨-, _, n, digest, hparse, rfl, hmove⟩ := h
  refine ⟨n, digest, hparse, ?_⟩
  cases hdead : db.dead[n]? with
  | some b =>
    rw [hdead] at hmove
    simp only [accepts_iff] at hmove
    exact .inl ⟨b, rfl, hmove.2.symm⟩
  | none =>
    rw [hdead] at hmove
    simp only [accepts_iff] at hmove
    obtain ⟨b, hpend, hid, holdest, hstalled, hmove⟩ := hmove
    exact .inr ⟨rfl, b, hpend, hid, holdest, hstalled, hmove⟩

theorem receiptNames_of_parseId {receipt : DispositionReceipt} {identity : Bytes} {n : ℕ}
    (h : parseId receipt.eventId = .ok (identity, n, digest)) :
    receiptNames identity n receipt = true := by
  simp [receiptNames, h]

/-- What the move to the dead letters leaves of the row, and the fence against older answers. -/
theorem moveDead_moves {n : ℕ} {b : Bytes}
    (h : moveDead lib store db now n b id reason operator = .ok result) :
    ∃ state text written, result = (some written,
        { store with state := state, lastError := none, generation := store.generation + 1 }) ∧
      written.pending = db.pending.erase n ∧ written.dead = db.dead.insert n b ∧
      written.receipts = db.receipts.insert n text := by
  simp only [moveDead, accepts_iff] at h
  obtain ⟨_, -, text, -, -, rfl⟩ := h
  exact ⟨_, text, _, rfl, rfl, rfl, rfl⟩

theorem moveBack_moves {n : ℕ} {b : Bytes} (h : moveBack lib store db now n b id = .ok result) :
    ∃ state text written, result = (some written,
        { store with state := state, lastError := none, generation := store.generation + 1 }) ∧
      written.pending = db.pending.insert n b ∧ written.dead = db.dead.erase n ∧
      written.receipts = db.receipts.insert n text := by
  simp only [moveBack, accepts_iff] at h
  obtain ⟨_, -, text, -, -, rfl⟩ := h
  exact ⟨_, text, _, rfl, rfl, rfl, rfl⟩

theorem planReplay_eq_ok {id : Bytes} (h : planReplay lib now store db id = .ok result) :
    ∃ identity n digest, parseId id = .ok (identity, n, digest) ∧
      ((db.dead[n]? = none ∧ result = (none, store)) ∨
        ∃ b, db.dead[n]? = some b ∧ identity = store.state.identity ∧
          idFor lib identity n b = id ∧ moveBack lib store db now n b id = .ok result) := by
  simp only [planReplay, accepts_iff] at h
  obtain ⟨identity, n, digest, hparse, hmove⟩ := h
  refine ⟨identity, n, digest, hparse, ?_⟩
  cases hdead : db.dead[n]? with
  | none =>
    rw [hdead] at hmove
    simp only [accepts_iff] at hmove
    obtain ⟨-, -, -, -, rfl⟩ := hmove
    exact .inl ⟨rfl, rfl⟩
  | some b =>
    rw [hdead] at hmove
    simp only [accepts_iff, Bool.or_eq_false_iff] at hmove
    exact .inr ⟨b, rfl, hmove.1.1, hmove.1.2, hmove.2⟩

variable (h : Kept lib given acknowledged store.state db)

include h

theorem Gathers.admitGroup (hmax : store.config.maxEventBytes ≤ maxEventBytes)
    (events : List (Admitted lib)) :
    Gathers lib given acknowledged db store
      (admitGroup lib store.config store.state (events.map Admitted.event)) := by
  have hstart : Gathers lib given acknowledged db store ⟨store.state, [], []⟩ := by
    refine ⟨?_, rfl, (append_nil _).symm, rfl, le_max_left _ _⟩
    rw [append_nil]
    exact h
  rw [Audit.admitGroup]
  generalize (⟨store.state, [], []⟩ : Group) = group at hstart
  induction events generalizing group with
  | nil => exact hstart
  | cons event rest ih => exact ih _ (hstart.admitOne hmax event)

/-- A submission adds its rows and nothing else. -/
theorem Writes.submit (hmax : store.config.maxEventBytes ≤ maxEventBytes)
    (events : List (Admitted lib))
    (hplan : planSubmit lib store db (admitGroup lib store.config store.state
      (events.map Admitted.event)) = .ok (some written, store')) :
    Writes lib (given ++ (admitGroup lib store.config store.state
      (events.map Admitted.event)).rows) acknowledged store written store' := by
  have hgathers := Gathers.admitGroup h hmax events
  rw [planSubmit] at hplan
  split at hplan
  · cases hplan
  · cases hplan
    exact ⟨rfl, hgathers.kept.relabel _ _ _ rfl rfl rfl, hgathers.identity, rfl, rfl,
      hgathers.retained⟩

/-- An acknowledgement removes exactly its rows. -/
theorem Writes.acknowledge
    (hplan : planAcknowledge lib now store db generation ids = .ok (some written, store')) :
    Writes lib given (acknowledged ++ ids) store written store' := by
  obtain ⟨-, removal, _, _, hremove, hlog, hres⟩ := planAcknowledge_eq_ok.mp hplan
  obtain ⟨hwrote, rfl⟩ := Prod.mk.inj hres
  obtain rfl := Option.some.inj hwrote
  have hkept := Kept.remove hremove h
  obtain ⟨hkeep, hident⟩ := retained_remove hremove
  obtain ⟨hstate, hpend, hdead, hrecs⟩ := logAcknowledgements_tables hlog
  obtain ⟨_, hleave⟩ := leaveIsolation_eq removal.pending removal.state
  refine ⟨hstate, ?_, ?_, rfl, rfl, ?_⟩
  · dsimp only
    rw [hleave]
    exact hkept.relabel _ _ _ hpend hdead hrecs
  · dsimp only
    rw [hleave]
    exact hident
  · dsimp only
    rw [hleave]
    exact hkeep.trans (le_max_left _ _)

/-- A delivery error changes only what is not counted. -/
theorem Writes.deliveryError {error : DeliveryError} {isolateUntil : Option ℕ} {stall : Bool}
    (hplan : planDeliveryError lib store db generation error isolateUntil stall =
      .ok (some written, store')) :
    Writes lib given acknowledged store written store' ∧ store'.oldest = store.oldest ∧
      written.pending = db.pending := by
  rw [planDeliveryError] at hplan
  split at hplan
  · cases hplan
  · dsimp only at hplan
    split at hplan
    · cases hplan
      exact ⟨⟨rfl, h.relabel _ _ _ rfl rfl rfl, rfl, rfl, rfl, le_max_left _ _⟩, rfl, rfl⟩
    · cases hplan

theorem Writes.reconfigure
    (hplan : planReconfigure lib store db destination = .ok (some written, store')) :
    Writes lib given acknowledged store written store' ∧ store'.oldest = store.oldest ∧
      written.pending = db.pending := by
  obtain ⟨_, -, -, hres⟩ := planReconfigure_eq_ok.mp hplan
  obtain ⟨hwrote, rfl⟩ := Prod.mk.inj hres
  obtain rfl := Option.some.inj hwrote
  exact ⟨⟨rfl, h.relabel _ _ _ rfl rfl rfl, rfl, rfl, rfl, le_max_left _ _⟩, rfl, rfl⟩

/-- The row moves to the dead letters, with one more receipt. -/
theorem Writes.moveDead {n : ℕ} {b : Bytes}
    (hparse : parseId id = .ok (store.state.identity, n, digest))
    (hpend : db.pending[n]? = some b)
    (hplan : moveDead lib store db now n b id reason operator = .ok (some written, store')) :
    Writes lib given acknowledged store written store' := by
  simp only [Audit.moveDead, accepts_iff, Prod.mk.injEq, Option.some.injEq] at hplan
  obtain ⟨_, hrow, _, htext, hbudget, rfl, rfl⟩ := hplan
  obtain ⟨htrail, hrecords, hbytes⟩ := h.receipts_insert hrow htext (receiptNames_of_parseId hparse)
  have hlimit := store.config.retained_lt
  simp only [State.retained] at hbudget
  have hdead := (h.pending_alone hpend).1
  obtain ⟨hcount, hle⟩ := counted_erase h.pendingCount hpend
  refine ⟨rfl, (h.move (.inl hpend)
    (.inr ⟨ExtTreeMap.getElem?_erase_self, get?_insert_self _ _ _⟩)
    (fun m hm => ⟨get?_erase_of_ne _ hm, get?_insert_of_ne _ _ hm⟩)
    hcount (counted_insert h.deadCount b hdead) htrail hrecords hbytes (by omega)).relabel
      _ _ _ rfl rfl rfl, rfl, rfl, rfl, Nat.le_trans ?_ (Nat.le_max_right _ _)⟩
  simp only [State.retained]
  omega

theorem Writes.quarantine {id : Bytes}
    (hplan : planQuarantine lib now store db id reason operator = .ok (some written, store')) :
    Writes lib given acknowledged store written store' := by
  obtain ⟨n, _, hparse, ⟨b, -, hnone⟩ | ⟨-, b, hpend, -, -, -, hmove⟩⟩ :=
    planQuarantine_eq_ok hplan
  · cases hnone
  · exact Writes.moveDead h hparse hpend hmove

/-- The dead letter moves back, with one more receipt. -/
theorem Writes.moveBack {n : ℕ} {b : Bytes}
    (hparse : parseId id = .ok (store.state.identity, n, digest)) (hdead : db.dead[n]? = some b)
    (hplan : moveBack lib store db now n b id = .ok (some written, store')) :
    Writes lib given acknowledged store written store' := by
  simp only [Audit.moveBack, accepts_iff, Prod.mk.injEq, Option.some.injEq] at hplan
  obtain ⟨receipts, hrow, _, htext, hbudget, rfl, rfl⟩ := hplan
  obtain ⟨htrail, hrecords, hbytes⟩ := h.receipts_insert hrow htext (receiptNames_of_parseId hparse)
  -- a dead letter has receipts already
  have hempty : receipts.isEmpty = false := by
    rcases h.receipts_of_row hrow with ⟨hnone, -⟩ | ⟨-, hne, -⟩
    · have hsome := h.trailed n (by rw [hdead]; rfl)
      rw [hnone] at hsome
      cases hsome
    · simpa using hne
  have hcharge : receiptCharge lib receipts = charge (lib.receiptsJson receipts) := by
    rw [receiptCharge, hempty]
    rfl
  rw [hempty] at hrecords
  rw [hcharge] at hbytes
  have hlimit := store.config.retained_lt
  simp only [State.retained] at hbudget
  have hpend := (h.dead_alone hdead).1
  obtain ⟨hcount, hle⟩ := counted_erase h.deadCount hdead
  refine ⟨rfl, (h.move (.inr hdead)
    (.inl ⟨get?_insert_self _ _ _, ExtTreeMap.getElem?_erase_self⟩)
    (fun m hm => ⟨get?_insert_of_ne _ _ hm, get?_erase_of_ne _ hm⟩)
    (counted_insert h.pendingCount b hpend) hcount htrail hrecords hbytes (by omega)).relabel
      _ _ _ rfl rfl rfl, rfl, rfl, rfl, Nat.le_trans ?_ (Nat.le_max_right _ _)⟩
  simp only [State.retained]
  omega

theorem Writes.replay {id : Bytes}
    (hplan : planReplay lib now store db id = .ok (some written, store')) :
    Writes lib given acknowledged store written store' := by
  obtain ⟨_, n, _, hparse, ⟨-, hnone⟩ | ⟨b, hdead, rfl, -, hmove⟩⟩ :=
    planReplay_eq_ok hplan
  · cases hnone
  · exact Writes.moveBack h hparse hdead hmove

end Plans

end AsterRpc.Audit

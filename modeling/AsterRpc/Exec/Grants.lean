import AsterRpc.Enrollment.PolicyStore
import AsterRpc.Exec.AuthorityKeys
import AsterRpc.Foundation.Run

/-!
# Exec grants

`aster-exec/src/policy.rs`: the store of the grants a root wrote for one target.
`apply_leaf` authenticates the root's record of a key anew and stores what it
says; `grant_for` answers from the stored row of a key that was authenticated in
this process.

`apply_leaf` runs under a lock and writes the row and the set of authenticated
keys one after the other; `grant_for` reads them one after the other and takes no
lock.  Each such access is a step.  The record that the latest `apply_leaf` of a
key accepted, and whether it was a call's record at some moment of the call, are
kept beside the store.  The two hashes of BLAKE3 and JSON are parameters.
-/

namespace AsterRpc.Exec

open AsterRpc.Foundation AsterRpc.Enrollment Function
open AsterRpc.Coordination (Bytes)
open AsterRpc.Delegation (ascii)
open Option

def execGrantPrefix : Bytes := ascii "aster/exec/v1/grants/"
def maxGrantBytes : ℕ := 64 * 1024
def maxIssuedAtSkewSeconds : ℕ := 60

inductive GrantStatusV1 where
  | active
  | revoked
deriving DecidableEq

inductive ExecOperationV1 where
  | discover
  | submit
  | status
  | output
  | watch
  | cancel
deriving DecidableEq

structure ExecGrantV1 where
  version : ℕ
  issuer : List Char
  audience : Bytes
  caller : List Char
  target : List Char
  revision : ℕ
  issuedAt : ℕ
  notBefore : Option ℕ
  expiresAt : Option ℕ
  status : GrantStatusV1
  accountAlias : Bytes
  profiles : List Bytes
  operations : List ExecOperationV1
  cwdRoots : List Bytes
  maxTimeoutMs : ℕ
  maxOutputBytes : ℕ
  cancelOnRevocation : Bool
  reauthorizesRevision : Option ℕ
  requireRequestDigest : Bool
deriving DecidableEq

/-- `Stored`: a row; a key that has none reads as the empty one. -/
structure Stored where
  grant : Option ExecGrantV1
  denialWatermark : Option ℕ
deriving DecidableEq

inductive GrantError where
  | invalidRecord
  | stale
  | conflict
  | reauthorizationRequired
  | policyUnavailable
  | denied
  | storage (text : String)
deriving DecidableEq

def GrantError.ofRevision : RootRevisionError → GrantError
  | .stale => .stale
  | .conflict => .conflict
  | .reauthorizationRequired => .reauthorizationRequired

/-- What `observe_invalid_binding` reads of a record. -/
structure Binding where
  issuer : List Char
  audience : Bytes
  caller : List Char
  target : List Char
  revision : ℕ

/-- `RootRecordRead`. -/
inductive RootRecordRead where
  | absent
  | pending
  | available (bytes : Bytes)

/-- The store's context and the libraries it calls: `blake3::hash` and `blake3::derive_key` under
the context of a user's subject, the JSON readers of a record, the first after
`validate_root_record_json`, and the length of a record as JSON. -/
structure GrantContext where
  root : Bytes
  audience : Bytes
  hash : Bytes → Bytes
  deriveKey : Bytes → Bytes
  parseGrant : Bytes → Option ExecGrantV1
  parseBinding : Bytes → Option Binding
  encodedLength : ExecGrantV1 → ℕ

/-- How `write_stored` ends; a commit that fails may have stored the row. -/
inductive Commit where
  | done
  | failed (stored : Bool) (text : String)

/-! ### The rows -/

section Rows

variable (ctx : GrantContext)

/-- `grant_subject`. -/
def grantSubject (principal : List Char) : Option Bytes :=
  match parseNodeId principal with
  | some node => some node
  | none =>
    if isUserPrincipal principal = some true then some (ctx.deriveKey (asBytes principal)) else none

/-- `grant_key`. -/
def grantKey (caller target : Bytes) : Bytes :=
  execGrantPrefix ++ hexEncode (ctx.hash (caller ++ target))

/-- `is_ascii_alphanumeric() || b == b'-' || b == b'_'`. -/
def aliasByte (b : UInt8) : Bool :=
  (48 ≤ b && b ≤ 57) || (65 ≤ b && b ≤ 90) || (97 ≤ b && b ≤ 122) || b == 45 || b == 95

/-- `validate`. -/
def validate (key : Bytes) (grant : ExecGrantV1) : Except GrantError Unit := do
  let caller ← requireSome (grantSubject ctx grant.caller) .invalidRecord
  let target ← requireSome (parseNodeId grant.target) .invalidRecord
  refuseIf (key != grantKey ctx caller target || grant.version != 1) .invalidRecord
  let issuer ← requireSome (parseNodeId grant.issuer) .invalidRecord
  refuseIf (issuer != ctx.root || grant.audience != ctx.audience || grant.revision == 0 ||
    grant.issuedAt > grant.expiresAt.getD (2 ^ 64 - 1) ||
    (grant.notBefore.any fun nbf => grant.expiresAt.any fun exp => nbf ≥ exp) ||
    grant.accountAlias.isEmpty || grant.accountAlias.length > 64 ||
    !grant.accountAlias.all aliasByte || grant.profiles.isEmpty || grant.operations.isEmpty ||
    grant.cwdRoots.isEmpty || grant.profiles.length > 32 || grant.operations.length > 6 ||
    grant.cwdRoots.length > 32 || !grant.cancelOnRevocation || grant.maxTimeoutMs == 0 ||
    grant.maxOutputBytes == 0) .invalidRecord
  refuseIf (ctx.encodedLength grant > maxGrantBytes) .invalidRecord

/-- `old_needs_reauthorization`. -/
def needsReauthorization (grant old : ExecGrantV1) : Bool :=
  grant.status = .active &&
    (old.status ≠ .active || old.expiresAt.any fun exp => grant.issuedAt ≥ exp)

/-- `required_predecessor`. -/
def requiredPredecessor (stored : Stored) (grant : ExecGrantV1) : Option ℕ :=
  if grant.status = .active then
    ((stored.grant.filter (needsReauthorization grant)).map (·.revision)).or stored.denialWatermark
  else none

/-- `check_root_revision` as `observe` calls it. -/
def checkRevision (stored : Stored) (grant : ExecGrantV1) : Except RootRevisionError Bool :=
  checkRootRevision (stored.grant.map (·.revision)) stored.denialWatermark grant.revision
    (stored.grant = some grant) (requiredPredecessor stored grant) grant.reauthorizesRevision

/-- `write_stored`. -/
def writeStored (stored new : Stored) : Commit → Stored × Except GrantError Unit
  | .done => (new, .ok ())
  | .failed written text => (if written then new else stored, .error (.storage text))

/-- `observe` up to the row; the key is authenticated afterwards. -/
def observe (key : Bytes) (stored : Stored) (grant : ExecGrantV1) (commit : Commit) :
    Stored × Except GrantError Unit :=
  match validate ctx key grant with
  | .error e => (stored, .error e)
  | .ok () =>
    match checkRevision stored grant with
    | .error e => (stored, .error (.ofRevision e))
    | .ok false => (stored, .ok ())
    | .ok true => writeStored stored ⟨some grant, none⟩ commit

/-- The binding names this store's root and audience, and the key. -/
def Binding.fits (key : Bytes) (binding : Binding) : Bool :=
  parseNodeId binding.issuer == some ctx.root && binding.audience == ctx.audience &&
    match grantSubject ctx binding.caller, parseNodeId binding.target with
    | some caller, some target => key == grantKey ctx caller target
    | _, _ => false

/-- `observe_invalid_binding`. -/
def observeInvalidBinding (key : Bytes) (stored : Stored) (bytes : Bytes) (commit : Commit) :
    Stored × Except GrantError Unit :=
  match ctx.parseBinding bytes with
  | none => (stored, .ok ())
  | some binding =>
    if binding.fits ctx key && shouldRecordRejection (stored.grant.map (·.revision))
        stored.denialWatermark binding.revision then
      writeStored stored { stored with denialWatermark := some binding.revision } commit
    else (stored, .ok ())

/-- `grant_for` on what it read. -/
def grantFor (stored : Stored) (authenticated : Bool) (now : ℕ) :
    Except GrantError ExecGrantV1 := do
  refuseIf stored.denialWatermark.isSome .denied
  let grant ← requireSome stored.grant .denied
  refuseIf (!authenticated) .policyUnavailable
  refuseIf (grant.status ≠ .active ||
    grant.issuedAt > min (now + maxIssuedAtSkewSeconds) (2 ^ 64 - 1) ||
    (grant.notBefore.any fun nbf => now < nbf) || grant.expiresAt.any fun exp => now ≥ exp) .denied
  return grant

end Rows

/-! ### The store -/

/-- An `apply_leaf` that holds the lock. -/
inductive Applying where
  /-- The key is not authenticated any more; the leaf was read. -/
  | begun (key bytes : Bytes)
  /-- `observe` has accepted the record, and authenticates the key next. -/
  | accepted (key : Bytes) (grant : ExecGrantV1)
  /-- The record was refused, and a barrier may be set next. -/
  | refused (key bytes : Bytes) (error : GrantError)

def Applying.key : Applying → Bytes
  | begun key _ | accepted key _ | refused key _ _ => key

/-- A `grant_for` that has read the row; `seen` says that the latest `apply_leaf` for the key had
accepted its record, and nothing else was stored, at some moment since. -/
structure Call where
  key : Bytes
  row : Stored
  seen : Bool

/-- `accepted` has what the latest `apply_leaf` of a key in this process accepted. -/
structure GrantStore where
  stored : Bytes → Stored
  authenticated : Bytes → Bool
  applying : Option Applying
  calls : ℕ → Option Call
  accepted : Bytes → Option ExecGrantV1

inductive GrantEvent where
  /-- `apply_leaf` takes the lock and takes the key out of the authenticated ones. -/
  | applyLeaf (key : Bytes) (read : RootRecordRead)
  /-- It reads and writes the row. -/
  | observe (commit : Commit)
  /-- It authenticates the key, or sets the barrier; the lock is released. -/
  | conclude (commit : Commit)
  /-- `grant_for` reads the row. -/
  | readStored (id : ℕ) (key : Bytes)
  /-- It looks the key up and answers. -/
  | answer (id now : ℕ)
  /-- The process ends and the store is opened again. -/
  | reopen

inductive GrantReply where
  | applied (result : Except GrantError Unit)
  | granted (result : Except GrantError ExecGrantV1)
deriving DecidableEq

namespace GrantStore

/-- `open` on an empty database. -/
def new : GrantStore where
  stored := fun _ => ⟨none, none⟩
  authenticated := fun _ => false
  applying := none
  calls := fun _ => none
  accepted := fun _ => none

/-- The row a call read is stored, and is what the latest `apply_leaf` accepted. -/
def Stands (s : GrantStore) (call : Call) : Prop :=
  s.stored call.key = call.row ∧ call.row.denialWatermark = none ∧ call.row.grant.isSome ∧
    s.accepted call.key = call.row.grant

instance (s : GrantStore) (call : Call) : Decidable (s.Stands call) :=
  inferInstanceAs (Decidable (_ ∧ _))

/-- Every call looks at the store. -/
def look (s : GrantStore) : GrantStore :=
  { s with calls := fun id =>
      (s.calls id).map fun call => { call with seen := call.seen || decide (s.Stands call) } }

/-- `apply_leaf` goes on with the row of `key` written. -/
def put (s : GrantStore) (key : Bytes) (row : Stored) (applying : Option Applying) : GrantStore :=
  { s with stored := update s.stored key row, applying := applying }

variable (ctx : GrantContext)

/-- One access to the store. -/
def act (s : GrantStore) : GrantEvent → GrantStore × Option GrantReply
  | .applyLeaf key read =>
    if s.applying.isSome then (s, none) else
    let s := { s with
      authenticated := update s.authenticated key false
      accepted := update s.accepted key none }
    match read with
    | .available bytes => ({ s with applying := some (.begun key bytes) }, none)
    | .absent | .pending => (s, some (.applied (.ok ())))
  | .observe commit =>
    match s.applying with
    | some (.begun key bytes) =>
      match ctx.parseGrant bytes with
      | none => ({ s with applying := some (.refused key bytes .invalidRecord) }, none)
      | some grant =>
        match AsterRpc.Exec.observe ctx key (s.stored key) grant commit with
        | (row, .ok ()) => (s.put key row (some (.accepted key grant)), none)
        | (row, .error e) => (s.put key row (some (.refused key bytes e)), none)
    | _ => (s, none)
  | .conclude commit =>
    match s.applying with
    | some (.accepted key grant) =>
      ({ s with
        authenticated := update s.authenticated key true
        accepted := update s.accepted key (some grant)
        applying := none }, some (.applied (.ok ())))
    | some (.refused key bytes error) =>
      let (row, result) := observeInvalidBinding ctx key (s.stored key) bytes commit
      (s.put key row none, some (.applied (result.bind fun () => .error error)))
    | _ => (s, none)
  | .readStored id key =>
    if (s.calls id).isSome then (s, none) else
    ({ s with calls := update s.calls id (some ⟨key, s.stored key, false⟩) }, none)
  | .answer id now =>
    match s.calls id with
    | none => (s, none)
    | some call =>
      ({ s with calls := update s.calls id none },
        some (.granted (grantFor call.row (s.authenticated call.key) now)))
  | .reopen => ({ new with stored := s.stored }, none)

def step (s : GrantStore) (event : GrantEvent) : GrantStore × Option GrantReply :=
  ((s.act ctx event).1.look, (s.act ctx event).2)

end GrantStore

/-! ### What happens to a row -/

/-- A record is stored that follows the row, or a barrier is set above it. -/
inductive RowMove (row : Stored) : Stored → Prop where
  | same : RowMove row row
  | accepts (grant : ExecGrantV1) (h : checkRevision row grant = .ok true) :
    RowMove row ⟨some grant, none⟩
  | bars (revision : ℕ)
    (h : shouldRecordRejection (row.grant.map (·.revision)) row.denialWatermark revision = true) :
    RowMove row { row with denialWatermark := some revision }

theorem writeStored_cases (stored new : Stored) (commit : Commit) :
    (writeStored stored new commit).1 = stored ∧
        (∃ e, (writeStored stored new commit).2 = .error e) ∨
      (writeStored stored new commit).1 = new := by
  cases commit with
  | done => exact .inr rfl
  | failed written =>
    cases written with
    | false => exact .inl ⟨rfl, _, rfl⟩
    | true => exact .inr rfl

namespace Stored

def revision (row : Stored) : ℕ := (row.grant.map (·.revision)).getD 0

/-- The maximum of the stored revision and the watermark. -/
def barrier (row : Stored) : ℕ := max row.revision (row.denialWatermark.getD 0)

/-- A watermark is never below the stored revision. -/
def Barred (row : Stored) : Prop := ∀ known, row.denialWatermark = some known → row.revision ≤ known

end Stored

section Rows

variable {row row' : Stored} {grant : ExecGrantV1} {ctx : GrantContext}

theorem shouldRecordRejection_above {revision : ℕ}
    (h : shouldRecordRejection (row.grant.map (·.revision)) row.denialWatermark revision = true) :
    row.barrier ≤ revision := by
  obtain ⟨grant, watermark⟩ := row
  cases grant <;> cases watermark <;>
    simp [shouldRecordRejection, Stored.barrier, Stored.revision] at h ⊢ <;> omega

theorem RowMove.barred (h : RowMove row row') (hrow : row.Barred) : row'.Barred := by
  cases h with
  | same => exact hrow
  | accepts => exact fun known hknown => nomatch hknown
  | bars revision h =>
    intro known hknown
    obtain rfl := some.inj hknown
    have hle : row.revision ≤ row.barrier := Nat.le_max_left _ _
    exact hle.trans (shouldRecordRejection_above h)

theorem writeStored_move {new : Stored} (h : RowMove row new) (commit : Commit) :
    RowMove row (writeStored row new commit).1 := by
  rcases writeStored_cases row new commit with ⟨hsame, -⟩ | hnew
  · rw [hsame]
    exact .same
  · rw [hnew]
    exact h

theorem observe_move (ctx : GrantContext) (key : Bytes) (row : Stored) (grant : ExecGrantV1)
    (commit : Commit) : RowMove row (observe ctx key row grant commit).1 := by
  unfold observe
  split
  · exact .same
  · split
    case h_1 | h_2 => exact .same
    case h_3 hcheck => exact writeStored_move (.accepts grant hcheck) commit

theorem observeInvalidBinding_move (ctx : GrantContext) (key : Bytes) (row : Stored)
    (bytes : Bytes) (commit : Commit) :
    RowMove row (observeInvalidBinding ctx key row bytes commit).1 := by
  unfold observeInvalidBinding
  split
  · exact .same
  · split
    case isTrue h => exact writeStored_move (.bars _ (Bool.and_eq_true_iff.mp h).2) commit
    case isFalse => exact .same

/-- What `observe` accepts is stored, and nothing bars it. -/
theorem observe_accepts {key : Bytes} {commit : Commit} (hrow : row.Barred)
    (h : (observe ctx key row grant commit).2 = .ok ()) :
    (observe ctx key row grant commit).1 = ⟨some grant, none⟩ := by
  revert h
  unfold observe
  split
  · exact fun h => (nomatch h)
  · split
    case h_1 => exact fun h => (nomatch h)
    case h_2 hcheck =>
      intro _
      obtain ⟨-, hmark, hprevious, hsame⟩ := checkRootRevision_known.mp hcheck
      have hgrant : row.grant = some grant := of_decide_eq_true hsame
      have hwatermark : row.denialWatermark = none := by
        cases hknown : row.denialWatermark with
        | none => rfl
        | some known =>
          have hle := hrow known hknown
          have hlt := hmark known hknown
          rw [Stored.revision, hprevious] at hle
          exact absurd hlt (Nat.not_lt_of_le hle)
      show row = ⟨some grant, none⟩
      rw [← hgrant, ← hwatermark]
    case h_3 =>
      intro h
      rcases writeStored_cases row ⟨some grant, none⟩ commit with ⟨-, e, herror⟩ | hnew
      · rw [herror] at h
        cases h
      · exact hnew

end Rows

/-! ### Between the steps -/

/-- What the lock and the set of authenticated keys stand for. -/
structure GrantStore.Sound (s : GrantStore) : Prop where
  barred : ∀ key, (s.stored key).Barred
  held : ∀ key, s.authenticated key = true →
    ∃ grant, s.stored key = ⟨some grant, none⟩ ∧ s.accepted key = some grant
  quiet : ∀ phase, s.applying = some phase → s.authenticated phase.key = false
  written : ∀ key grant, s.applying = some (.accepted key grant) →
    s.stored key = ⟨some grant, none⟩

namespace GrantStore

variable {ctx : GrantContext} {s : GrantStore} {key : Bytes} {row : Stored}

theorem put_move {applying : Option Applying} (h : RowMove (s.stored key) row) (other : Bytes) :
    RowMove (s.stored other) ((s.put key row applying).stored other) := by
  show RowMove (s.stored other) (update s.stored key row other)
  by_cases hkey : other = key
  · subst hkey
    rw [update_self]
    exact h
  · rw [update_of_ne hkey]
    exact .same

/-- A row is written under the lock, while its key is not authenticated. -/
theorem Sound.put {applying : Option Applying} (h : s.Sound) (hkey : s.authenticated key = false)
    (hrow : RowMove (s.stored key) row) (hphase : ∀ phase, applying = some phase → phase.key = key)
    (hwrote : ∀ grant, applying = some (.accepted key grant) → row = ⟨some grant, none⟩) :
    (s.put key row applying).Sound := by
  refine ⟨fun other => (put_move hrow other).barred (h.barred other), fun other hother => ?_,
    fun phase happly => ?_, fun k grant happly => ?_⟩
  · have hne : other ≠ key := by
      rintro rfl
      exact absurd hother (by simp [GrantStore.put, hkey])
    obtain ⟨grant, hstored, hacc⟩ := h.held other hother
    exact ⟨grant, (update_of_ne hne _ _).trans hstored, hacc⟩
  · rw [hphase phase happly]
    exact hkey
  · obtain rfl : k = key := hphase _ happly
    exact (update_self _ _ _).trans (hwrote grant happly)

/-- A key is taken out, and the lock taken. -/
theorem Sound.begin (h : s.Sound) (key : Bytes) (bytes : Option Bytes) :
    Sound { s with
      authenticated := update s.authenticated key false
      accepted := update s.accepted key none
      applying := bytes.map (.begun key) } := by
  refine ⟨h.barred, fun other hother => ?_, fun phase happly => ?_,
    fun k grant happly => ?_⟩
  · have hne : other ≠ key := by
      rintro rfl
      exact absurd hother (by simp)
    obtain ⟨grant, hstored, hacc⟩ :=
      h.held other ((update_of_ne hne _ _).symm.trans hother)
    exact ⟨grant, hstored, (update_of_ne hne _ _).trans hacc⟩
  · obtain ⟨bytes, -, rfl⟩ := map_eq_some_iff.mp happly
    exact update_self _ _ _
  · obtain ⟨_, -, hbegun⟩ := map_eq_some_iff.mp happly
    cases hbegun

/-- The key of an accepted record is authenticated. -/
theorem Sound.conclude {grant : ExecGrantV1} (h : s.Sound)
    (happly : s.applying = some (.accepted key grant)) :
    Sound { s with
      authenticated := update s.authenticated key true
      accepted := update s.accepted key (some grant)
      applying := none } := by
  refine ⟨h.barred, fun other hother => ?_, fun _ hnone => (nomatch hnone),
    fun _ _ hnone => (nomatch hnone)⟩
  by_cases hkey : other = key
  · subst hkey
    exact ⟨grant, h.written other grant happly, update_self _ _ _⟩
  · obtain ⟨found, hstored, hacc⟩ :=
      h.held other ((update_of_ne hkey _ _).symm.trans hother)
    exact ⟨found, hstored, (update_of_ne hkey _ _).trans hacc⟩

/-- One access keeps what holds between the steps, and moves rows. -/
theorem Sound.act (h : s.Sound) (event : GrantEvent) :
    (s.act ctx event).1.Sound ∧
      ∀ key, RowMove (s.stored key) ((s.act ctx event).1.stored key) := by
  have hstay : s.Sound ∧ ∀ key, RowMove (s.stored key) (s.stored key) := ⟨h, fun _ => .same⟩
  cases event with
  | applyLeaf key read =>
    by_cases hlocked : s.applying.isSome
    · rw [GrantStore.act, if_pos hlocked]
      exact hstay
    · rw [GrantStore.act, if_neg hlocked]
      have hfree : s.applying = none := by simpa using hlocked
      cases read with
      | available bytes => exact ⟨h.begin key (some bytes), fun _ => .same⟩
      | absent | pending =>
        have hbegin := h.begin key none
        rw [map_none, ← hfree] at hbegin
        exact ⟨hbegin, fun _ => .same⟩
  | observe commit =>
    cases happly : s.applying with
    | none => simpa only [GrantStore.act, happly] using hstay
    | some phase =>
      cases phase with
      | accepted | refused => simpa only [GrantStore.act, happly] using hstay
      | begun key bytes =>
        have hkey := h.quiet _ happly
        simp only [GrantStore.act, happly]
        cases hparse : ctx.parseGrant bytes with
        | none =>
          refine ⟨⟨h.barred, h.held, fun phase hphase => ?_, fun _ _ hphase => (nomatch hphase)⟩,
            fun _ => .same⟩
          obtain rfl := some.inj hphase
          exact hkey
        | some grant =>
          have hmove := observe_move ctx key (s.stored key) grant commit
          have haccepts : (observe ctx key (s.stored key) grant commit).2 = .ok () →
              (observe ctx key (s.stored key) grant commit).1 = ⟨some grant, none⟩ :=
            observe_accepts (h.barred key)
          dsimp only
          rcases hobserve : observe ctx key (s.stored key) grant commit with ⟨_, _ | _⟩
          · rw [hobserve] at hmove
            refine ⟨h.put hkey hmove ?_ (fun _ hphase => (nomatch hphase)), put_move hmove⟩
            exact fun _ hphase => (some.inj hphase) ▸ rfl
          · rw [hobserve] at hmove haccepts
            refine ⟨h.put hkey hmove ?_ fun found hphase => ?_, put_move hmove⟩
            · exact fun _ hphase => (some.inj hphase) ▸ rfl
            · cases hphase
              exact haccepts rfl
  | conclude commit =>
    cases happly : s.applying with
    | none => simpa only [GrantStore.act, happly] using hstay
    | some phase =>
      simp only [GrantStore.act, happly]
      cases phase with
      | begun => exact hstay
      | accepted => exact ⟨h.conclude happly, fun _ => .same⟩
      | refused key bytes =>
        have hmove := observeInvalidBinding_move ctx key (s.stored key) bytes commit
        exact ⟨h.put (h.quiet _ happly) hmove (fun _ hnone => nomatch hnone)
          fun _ hnone => (nomatch hnone), put_move hmove⟩
  | readStored | answer =>
    rw [GrantStore.act]
    split
    · exact hstay
    · exact ⟨⟨h.barred, h.held, h.quiet, h.written⟩, fun _ => .same⟩
  | reopen =>
    exact ⟨⟨h.barred, fun _ hnone => (nomatch hnone), fun _ hnone => (nomatch hnone),
      fun _ _ hnone => (nomatch hnone)⟩, fun _ => .same⟩

/-- Calls have looked at the store as it is. -/
structure Watched (s : GrantStore) : Prop extends s.Sound where
  seen : ∀ id call, s.calls id = some call → s.Stands call → call.seen = true

theorem Sound.look (h : s.Sound) : s.look.Watched := by
  refine ⟨⟨h.barred, h.held, h.quiet, h.written⟩, fun id call hcall hstands => ?_⟩
  obtain ⟨old, -, rfl⟩ := map_eq_some_iff.mp hcall
  have hold : s.Stands old := hstands
  show (old.seen || decide (s.Stands old)) = true
  rw [decide_eq_true hold, Bool.or_true]

theorem Watched.step (h : s.Watched) (event : GrantEvent) : (s.step ctx event).1.Watched :=
  (h.act event).1.look

/-- A store after a list of accesses, from an empty database on. -/
abbrev after (ctx : GrantContext) (events : List GrantEvent) : GrantStore :=
  run (step ctx) new events

end GrantStore

end AsterRpc.Exec

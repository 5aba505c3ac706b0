import AsterRpc.Delegation.Journal
import AsterRpc.Enrollment.Namespaces

/-!
# Root rotations of the enrollment service

An enrollment service trusts one root.  A rotation statement replaces it: the
policy stores are opened anew for the next root, and everything held under the
previous one is to be dropped, sessions first.

`apply_root_rotations` takes several statements and applies them one by one.  It
drops what rests on the previous root once, after the last statement; a statement
that is refused ends the call before that, although the statements before it have
replaced the root already.
-/

namespace AsterRpc.Enrollment

open AsterRpc.Foundation AsterRpc.Coordination AsterRpc.Delegation Std List Delegation.Sample

/-! ### What a service trusts -/

def defaultMaxLinks : ℕ := 4

/-- `JwtEnrollmentVerifier`. -/
structure JwtEnrollmentVerifier where
  root : Key
  audience : Bytes
  activationLeeway : ℕ

/-- `Trust`. -/
structure Trust where
  store : PolicyStore
  stores : PolicyStores
  verifier : JwtEnrollmentVerifier

/-- The root a service trusts. -/
def Trust.root (trust : Trust) : Key := trust.store.config.root

/-- `Trust::new`. -/
def Trust.new (store : PolicyStore) (verifier : JwtEnrollmentVerifier) : Trust where
  store := store
  stores := ⟨store, ∅, fun ns bound h => by simp at h⟩
  verifier := verifier

section Trusting

variable (lib : PolicyLibraries)

namespace JwtEnrollmentVerifier

/-- `JwtEnrollmentVerifier::new`. -/
def new (root : Key) (audience : Bytes) : Except EnrollmentError JwtEnrollmentVerifier := do
  refuseIf (!validAudience lib audience || !validKey lib.toLibraries root) .invalidConfiguration
  return ⟨root, audience, defaultActivationLeewaySeconds⟩

/-- `with_activation_leeway`. -/
def withActivationLeeway (verifier : JwtEnrollmentVerifier) (seconds : ℕ) :
    Except EnrollmentError JwtEnrollmentVerifier := do
  refuseIf (decide (seconds > maxActivationLeewaySeconds)) .invalidConfiguration
  return { verifier with activationLeeway := seconds }

/-- Whether `verify` accepts a chain. -/
def verifies (verifier : JwtEnrollmentVerifier) (chain : Bytes) (peer : Key) (now : ℕ) : Bool :=
  let trust : TrustContext := ⟨[verifier.root], verifier.audience, now, verifier.activationLeeway,
    fun _ => false, defaultMaxLinks, maxLinkLifetime, []⟩
  match verifyChain lib.toLibraries chain .enrollment peer trust with
  | .error _ => false
  | .ok verified =>
    match verified.leaf with
    | .enrollment extension =>
      (validateEvidenceShape lib verified.audience verified.issuedAt verified.notBefore
        (some verified.notAfter) extension.claims).isOk
    | _ => false

end JwtEnrollmentVerifier

/-- `rotated_verifier`. -/
def rotatedVerifier (previous : JwtEnrollmentVerifier) (root : Key) :
    Except EnrollmentError JwtEnrollmentVerifier := do
  let verifier ← JwtEnrollmentVerifier.new lib root previous.audience
  verifier.withActivationLeeway previous.activationLeeway

/-- `persist`: what it answers. -/
def persist (codec : SnapshotCodec) (disk : WriteOutcome) (policy : PersistedPolicy) :
    Except RecordError Unit :=
  if codec.len (codec.toVec policy) > maxSnapshotBytes then .error .tooManyRecords
  else match disk with
    | .written => .ok ()
    | .kept detail | .replaced detail => .error (.storage detail)

/-- What the service finds when it comes to a statement: the clock, the policy file of the next root
or why it cannot be read, and how the two writes end. -/
structure Turn (codec : SnapshotCodec) where
  now : ℕ
  file : Except String (Option codec.File)
  disk : WriteOutcome
  journal : WriteOutcome

variable {codec : SnapshotCodec} {journalCodec : JournalCodec}

/-- `open_rotated`. -/
def PolicyStore.openRotated (store : PolicyStore) (turn : Turn codec) (root : Key)
    (ns : FixedBytes 32) : Except RecordError PolicyStore := do
  refuseIf (store.config.role != .fleet || root == store.config.root) .invalidConfiguration
  let file ← turn.file.mapError .storage
  let config : StoreConfig :=
    ⟨root, ns, store.config.audience, defaultActivationLeewaySeconds, .fleet⟩
  let state ← openRole lib config codec (persist codec turn.disk) file
  refuseIf (decide (store.config.activationLeeway > maxActivationLeewaySeconds))
    .invalidConfiguration
  return ⟨{ config with activationLeeway := store.config.activationLeeway }, state⟩

/-- What a rotation comes upon at this turn of a service with the given trust. -/
def Turn.attempt (turn : Turn codec) (trust : Trust) : Attempt Trust where
  now := turn.now
  retarget := fun verified => do
    -- a verified statement names a namespace, so the default is never used
    let store ← (trust.store.openRotated lib turn verified.newRoot
      (verified.namespaces.headD (FixedBytes.fill 32 0))).mapError .record
    let verifier ← (rotatedVerifier lib trust.verifier verified.newRoot).mapError .enrollment
    return .new store verifier
  disk := turn.journal

/-! ### Sessions -/

/-- A connection, by the number the node gave it. -/
abbrev ConnectionId := ℕ

structure Session where
  generation : ℕ
  connections : List ConnectionId
  admitted : List ConnectionId
deriving DecidableEq

/-- `RevokedPeers`. -/
structure RevokedPeers where
  order : List Key
  reasons : Table Key DenialReason

/-- `RevokedPeers::insert`. -/
def RevokedPeers.insert (r : RevokedPeers) (peer : Key) (reason : DenialReason) (capacity : ℕ) :
    RevokedPeers :=
  let order := if r.reasons.contains peer then r.order else r.order ++ [peer]
  let excess := order.length - capacity
  ⟨order.drop excess, (order.take excess).foldl (fun t old => t.erase old)
    (r.reasons.insert peer reason)⟩

/-- The sessions of a service, with the connections it closed and the revocations it announced. -/
structure Admissions where
  sessions : Table Key Session
  revokedPeers : RevokedPeers
  maxAdmittedPeers : ℕ
  closed : List ConnectionId
  revoked : List (Key × DenialReason)

/-- `revoke_generation`. -/
def Admissions.revokeGeneration (a : Admissions) (peer : Key) (expectedGeneration : ℕ)
    (reason : DenialReason) : Admissions :=
  match a.sessions[peer]? with
  | none => a
  | some session =>
    if session.generation ≠ expectedGeneration then a
    else { a with
      sessions := a.sessions.erase peer
      revokedPeers := a.revokedPeers.insert peer reason a.maxAdmittedPeers
      closed := a.closed ++ (session.connections ++ session.admitted)
      revoked := a.revoked ++ [(peer, reason)] }

/-! ### The service -/

structure OwnCredential where
  chain : Option Bytes
  evidence : Option VerifiedAdmissionEvidence

/-- `Observer`; a document is known by its namespace. -/
structure Observer where
  doc : Option (Key × FixedBytes 32)
  seen : Table Key (ℕ × ℕ)

/-- `Observer::default`. -/
def Observer.empty : Observer := ⟨none, ∅⟩

/-- `AdmissionContext`, as far as a rotation writes it; a synchronization is known by its time. -/
structure AdmissionContext where
  policySync : Option ℕ
  pendingPolicyContent : Bool

/-- `EnrollmentService`. -/
structure EnrollmentService (journalCodec : JournalCodec) where
  nodeId : Bytes
  trust : Trust
  rotation : Option (RotationState journalCodec)
  own : OwnCredential
  document : Option (FixedBytes 32)
  boundDocuments : Table (FixedBytes 32) (FixedBytes 32)
  offeredTickets : Table Key (List Bytes)
  observer : Observer
  watching : Bool
  context : AdmissionContext
  admissions : Admissions
  roots : Key

/-- What the loop of `apply_root_rotations` writes. -/
structure Rooted (journalCodec : JournalCodec) where
  rotation : RotationState journalCodec
  trust : Trust

/-- One turn of the loop. -/
def Rooted.turn (r : Rooted journalCodec) (statement : Bytes) (turn : Turn codec) :
    Rooted journalCodec × Except ServiceError Unit :=
  match r.rotation.turn lib.toLibraries statement (turn.attempt lib r.trust)
      r.trust.verifier.activationLeeway with
  | (rotation, .error e) => (⟨rotation, r.trust⟩, .error e)
  | (rotation, .ok trust) => (⟨rotation, trust⟩, .ok ())

/-- The loop of `apply_root_rotations`; it stops at the first refusal and keeps what it did. -/
def Rooted.rotateEach : Rooted journalCodec → List (ℕ × Bytes × Turn codec) → ℕ →
    Rooted journalCodec × Except ServiceError ℕ
  | r, [], applied => (r, .ok applied)
  | r, (seq, statement, turn) :: rest, applied =>
    if seq ≤ r.rotation.root.seq then rotateEach r rest applied
    else
      match r.turn lib statement turn with
      | (next, .error e) => (next, .error e)
      | (next, .ok ()) => rotateEach next rest (applied + 1)

/-- The statements of a call in the order they are taken. -/
def orderedStatements (statements : List (Bytes × Turn codec)) : List (ℕ × Bytes × Turn codec) :=
  sortOn Prod.fst ((statements.take maxForwardedRotations).filterMap fun e =>
    (claimedRotationSeq lib.toLibraries e.1).map fun seq => (seq, e.1, e.2))

namespace EnrollmentService

/-- `after_rotation` at the clock `now`. -/
def afterRotation (s : EnrollmentService journalCodec) (now : ℕ) :
    EnrollmentService journalCodec :=
  let stillValid : Bool := match s.own.chain, (identity lib s.nodeId).toOption with
    | some chain, some own => s.trust.verifier.verifies lib chain own now
    | _, _ => false
  { s with
    watching := false
    document := none
    boundDocuments := ∅
    offeredTickets := ∅
    observer := .empty
    context := { s.context with policySync := none, pendingPolicyContent := true }
    own := if stillValid then s.own else ⟨none, none⟩
    admissions := s.admissions.sessions.toList.foldl
      (fun a e => a.revokeGeneration e.1 e.2.generation .rootRotated) s.admissions }

/-- `apply_root_rotations`; each statement comes with what the service finds at its turn, and `now`
is the clock once the loop is done. -/
def applyRootRotations (s : EnrollmentService journalCodec) (statements : List (Bytes × Turn codec))
    (now : ℕ) : EnrollmentService journalCodec × Except ServiceError ℕ :=
  match s.rotation with
  | none => (s, .error .notConfigured)
  | some rotation =>
    let looped := Rooted.rotateEach lib ⟨rotation, s.trust⟩ (orderedStatements lib statements) 0
    let s := { s with rotation := some looped.1.rotation, trust := looped.1.trust }
    match looped.2 with
    | .error e => (s, .error e)
    | .ok applied =>
      if applied > 0 then
        let s := s.afterRotation lib now
        ({ s with roots := s.trust.root }, .ok applied)
      else (s, .ok applied)

end EnrollmentService

end Trusting

/-! ### Dropping what rests on a root -/

/-- What a session's end leaves: it is gone, announced, and its connections are closed. -/
structure Admissions.Revoked (a a' : Admissions) (peers : List Key) (reason : DenialReason) :
    Prop where
  gone : ∀ peer ∈ peers, a'.sessions[peer]? = none
  others : ∀ peer, peer ∉ peers → a'.sessions[peer]? = a.sessions[peer]?
  announced : ∃ sent, a'.revoked = a.revoked ++ sent ∧ ∀ peer ∈ peers, (peer, reason) ∈ sent
  closed : a.closed ⊆ a'.closed ∧ ∀ peer ∈ peers, ∀ session, a.sessions[peer]? = some session →
    session.connections ++ session.admitted ⊆ a'.closed

namespace Admissions

variable {a : Admissions}

theorem revokeGeneration_held {peer : Key} {session : Session}
    (h : a.sessions[peer]? = some session) (reason : DenialReason) :
    a.Revoked (a.revokeGeneration peer session.generation reason) [peer] reason := by
  have heq : a.revokeGeneration peer session.generation reason = { a with
      sessions := a.sessions.erase peer
      revokedPeers := a.revokedPeers.insert peer reason a.maxAdmittedPeers
      closed := a.closed ++ (session.connections ++ session.admitted)
      revoked := a.revoked ++ [(peer, reason)] } := by
    simp [revokeGeneration, h]
  rw [heq]
  constructor
  case gone => simp
  case others =>
    intro other hother
    exact Table.get?_erase_of_ne _ fun hsame => hother (by simp [hsame])
  case announced => exact ⟨[(peer, reason)], rfl, by simp⟩
  case closed =>
    refine ⟨subset_append_left _ _, fun other hother held hheld => ?_⟩
    rw [mem_singleton.mp hother, h] at hheld
    cases hheld
    exact subset_append_right _ _

theorem Revoked.trans {b c : Admissions} {peers more : List Key} {reason : DenialReason}
    (hab : a.Revoked b peers reason) (hbc : b.Revoked c more reason)
    (hdisjoint : peers.Disjoint more) : a.Revoked c (peers ++ more) reason := by
  constructor
  case gone =>
    intro peer hpeer
    rcases mem_append.mp hpeer with h | h
    · rw [hbc.others peer fun hmore => hdisjoint h hmore]
      exact hab.gone peer h
    · exact hbc.gone peer h
  case others =>
    intro peer hpeer
    rw [mem_append, not_or] at hpeer
    rw [hbc.others peer hpeer.2, hab.others peer hpeer.1]
  case announced =>
    obtain ⟨sent, hsent, hall⟩ := hab.announced
    obtain ⟨sent', hsent', hall'⟩ := hbc.announced
    refine ⟨sent ++ sent', by rw [hsent', hsent, append_assoc], fun peer hpeer => ?_⟩
    rcases mem_append.mp hpeer with h | h
    · exact mem_append_left _ (hall peer h)
    · exact mem_append_right _ (hall' peer h)
  case closed =>
    refine ⟨fun c hc => hbc.closed.1 (hab.closed.1 hc), fun peer hpeer session hsess => ?_⟩
    rcases mem_append.mp hpeer with h | h
    · exact fun c hc => hbc.closed.1 (hab.closed.2 peer h session hsess hc)
    · refine hbc.closed.2 peer h session ?_
      rw [hab.others peer fun hfirst => hdisjoint hfirst h]
      exact hsess

/-- The loop over the sessions revokes each of them. -/
theorem foldl_revokeGeneration {entries : List (Key × Session)}
    (hnodup : (entries.map Prod.fst).Nodup) (hheld : ∀ e ∈ entries, a.sessions[e.1]? = some e.2)
    (reason : DenialReason) :
    a.Revoked (entries.foldl (fun a e => a.revokeGeneration e.1 e.2.generation reason) a)
      (entries.map Prod.fst) reason := by
  induction entries generalizing a with
  | nil => exact ⟨by simp, fun _ _ => rfl, ⟨[], by simp⟩, List.Subset.refl _, by simp⟩
  | cons e rest ih =>
    rw [map_cons, nodup_cons] at hnodup
    have hfirst := revokeGeneration_held (hheld e mem_cons_self) reason
    have hrest : ∀ x ∈ rest,
        (a.revokeGeneration e.1 e.2.generation reason).sessions[x.1]? = some x.2 := by
      intro x hx
      rw [hfirst.others x.1 ?_]
      · exact hheld x (mem_cons_of_mem _ hx)
      · intro hsame
        rw [mem_singleton] at hsame
        exact hnodup.1 (hsame ▸ mem_map_of_mem hx)
    refine hfirst.trans (ih hnodup.2 hrest) fun peer hpeer hmem => ?_
    rw [mem_singleton] at hpeer
    exact hnodup.1 (hpeer ▸ hmem)

end Admissions

/-- Nothing that rested on the root of `before` is left in `after`, and the root of `after` was
announced. -/
structure Settled {journalCodec : JournalCodec} (before after : EnrollmentService journalCodec) :
    Prop where
  sessions : before.admissions.Revoked after.admissions
    (before.admissions.sessions.toList.map Prod.fst) .rootRotated
  document : after.document = none
  boundDocuments : after.boundDocuments = ∅
  offeredTickets : after.offeredTickets = ∅
  observer : after.observer = .empty
  roots : after.roots = after.trust.root

section Settling

variable {lib : PolicyLibraries} {codec : SnapshotCodec} {journalCodec : JournalCodec}
  {r : Rooted journalCodec} {e : ServiceError} {n : ℕ} {s : EnrollmentService journalCodec}
  {rotation : RotationState journalCodec} {statements : List (Bytes × Turn codec)}

/-- A turn that is refused leaves the root as it was. -/
theorem turn_refused {next : Rooted journalCodec} {statement : Bytes} {turn : Turn codec}
    (h : r.turn lib statement turn = (next, .error e)) : next.trust = r.trust := by
  unfold Rooted.turn at h
  split at h
  · cases h
    rfl
  · cases h

/-- Whenever a statement is refused, the trusted root is `old`. -/
def Rooted.Settles (lib : PolicyLibraries) (old : Key) :
    Rooted journalCodec → List (ℕ × Bytes × Turn codec) → Prop
  | _, [] => True
  | r, (seq, statement, turn) :: rest =>
    if seq ≤ r.rotation.root.seq then Settles lib old r rest
    else
      match r.turn lib statement turn with
      | (_, .error _) => r.trust.root = old
      | (next, .ok ()) => Settles lib old next rest

theorem settles_iff {old : Key} (statements : List (ℕ × Bytes × Turn codec))
    (r : Rooted journalCodec) (applied : ℕ) :
    r.Settles lib old statements ↔
      ∀ e, (r.rotateEach lib statements applied).2 = .error e →
        (r.rotateEach lib statements applied).1.trust.root = old := by
  induction statements generalizing r applied with
  | nil => simp [Rooted.Settles, Rooted.rotateEach]
  | cons s rest ih =>
    obtain ⟨seq, statement, turn⟩ := s
    simp only [Rooted.Settles, Rooted.rotateEach]
    split
    · exact ih r applied
    · rcases hturn : r.turn lib statement turn with ⟨next, result⟩
      cases result with
      | error => simp [turn_refused hturn]
      | ok => exact ih next (applied + 1)

/-- The count of a loop that ends never goes back, and stays only if nothing was applied. -/
theorem rotateEach_applied (statements : List (ℕ × Bytes × Turn codec)) {applied : ℕ}
    (h : (r.rotateEach lib statements applied).2 = .ok n) :
    applied ≤ n ∧ (n = applied → (r.rotateEach lib statements applied).1 = r) := by
  induction statements generalizing r applied with
  | nil =>
    cases h
    exact ⟨Nat.le_refl _, fun _ => rfl⟩
  | cons s rest ih =>
    obtain ⟨seq, statement, turn⟩ := s
    simp only [Rooted.rotateEach] at h ⊢
    split at h
    · rename_i hskip
      rw [if_pos hskip]
      exact ih h
    · rename_i hskip
      rw [if_neg hskip]
      rcases hturn : r.turn lib statement turn with ⟨next, result⟩
      rw [hturn] at h
      cases result with
      | error => cases h
      | ok =>
        have hle := (ih h).1
        exact ⟨by omega, fun hn => by omega⟩

/-- No statement of a call is refused while another root than the one before it is trusted. -/
def EnrollmentService.Settles (lib : PolicyLibraries) (s : EnrollmentService journalCodec)
    (statements : List (Bytes × Turn codec)) : Prop :=
  ∀ rotation, s.rotation = some rotation →
    (⟨rotation, s.trust⟩ : Rooted journalCodec).Settles lib s.trust.root
      (orderedStatements lib statements)

/-- What a call leaves when its loop was refused a statement. -/
theorem applyRootRotations_refused (hrot : s.rotation = some rotation)
    (h : (Rooted.rotateEach lib ⟨rotation, s.trust⟩ (orderedStatements lib statements) 0).2 =
      .error e) (now : ℕ) :
    (s.applyRootRotations lib statements now).1.trust =
        (Rooted.rotateEach lib ⟨rotation, s.trust⟩ (orderedStatements lib statements) 0).1.trust ∧
      (s.applyRootRotations lib statements now).1.roots = s.roots := by
  simp [EnrollmentService.applyRootRotations, hrot, h]

/-- A call whose loop ends drops what rested on the root it replaced. -/
theorem applyRootRotations_settled (hrot : s.rotation = some rotation)
    (h : (Rooted.rotateEach lib ⟨rotation, s.trust⟩ (orderedStatements lib statements) 0).2 = .ok n)
    {now : ℕ} (hroot : (s.applyRootRotations lib statements now).1.trust.root ≠ s.trust.root) :
    Settled s (s.applyRootRotations lib statements now).1 := by
  have hpos : n > 0 := by
    rcases Nat.eq_zero_or_pos n with hzero | hpos
    · -- nothing was applied, so the root is the one before
      subst hzero
      have hsame := (rotateEach_applied _ h).2 rfl
      simp [EnrollmentService.applyRootRotations, hrot, h, hsame] at hroot
    · exact hpos
  simp only [EnrollmentService.applyRootRotations, hrot, h, hpos, if_true]
  refine ⟨Admissions.foldl_revokeGeneration (Table.keys_nodup _) ?_ _, rfl, rfl, rfl, rfl, rfl⟩
  exact fun e he => Table.mem_toList.mp he

/-- **When a changed root settles.** If no statement is refused while another root than the one
before the call is trusted, a call that changes the root revokes every session, drops whatever else
rested on the previous root and announces the new one.  For a service that has announced its root
the condition is necessary too. -/
theorem changed_root_settles (s : EnrollmentService journalCodec)
    (statements : List (Bytes × Turn codec)) (now : ℕ) :
    (s.Settles lib statements →
      (s.applyRootRotations lib statements now).1.trust.root ≠ s.trust.root →
        Settled s (s.applyRootRotations lib statements now).1) ∧
    (s.roots = s.trust.root →
      ((s.applyRootRotations lib statements now).1.trust.root ≠ s.trust.root →
        Settled s (s.applyRootRotations lib statements now).1) →
      s.Settles lib statements) := by
  constructor
  · intro hsettles hroot
    cases hrot : s.rotation with
    | none => simp [EnrollmentService.applyRootRotations, hrot] at hroot
    | some rotation =>
      cases hloop : (Rooted.rotateEach lib ⟨rotation, s.trust⟩
          (orderedStatements lib statements) 0).2 with
      | error e =>
        have hkept := (settles_iff _ _ 0).mp (hsettles rotation hrot) e hloop
        rw [(applyRootRotations_refused hrot hloop now).1] at hroot
        exact absurd hkept hroot
      | ok => exact applyRootRotations_settled hrot hloop hroot
  · intro hannounced hdone rotation hrot
    rw [settles_iff _ _ 0]
    intro e hloop
    obtain ⟨htrust, hroots⟩ := applyRootRotations_refused hrot hloop now
    by_contra hchanged
    rw [← htrust] at hchanged
    -- the new root was never announced
    have hseen := (hdone hchanged).roots
    rw [hroots, hannounced] at hseen
    exact hchanged hseen.symm

end Settling

/-! ### A refusal after a rotation -/

namespace Sample

/-- A file is the policy it holds. -/
def snapshots : SnapshotCodec := ⟨PersistedPolicy, fun _ => 0, fun _ => true, id, .ok⟩

/-- The fleet store of the original root. -/
def original : StoreConfig :=
  ⟨(rootAfter 0).root, FixedBytes.fill 32 0, ascii "aud", 60, .fleet⟩

/-- A service that trusts the original root and admitted the peer. -/
def service : EnrollmentService codec where
  nodeId := hexKey (key 7)
  trust := .new ⟨original, fresh original⟩ ⟨original.root, ascii "aud", 60⟩
  rotation := some pinned
  own := ⟨none, none⟩
  document := some (FixedBytes.fill 32 0)
  boundDocuments := ∅
  offeredTickets := ∅
  observer := .empty
  watching := true
  context := ⟨none, false⟩
  admissions := ⟨(∅ : Table Key Session).insert peer ⟨1, [4], [5]⟩, ⟨[], ∅⟩, 16, [], []⟩
  roots := original.root

def smooth : Turn snapshots := ⟨10, .ok none, .written, .written⟩

/-- The first rotation, and a second one with a signature of another key. -/
def forged : List (Bytes × Turn snapshots) :=
  [(compact rootRotationJwtType [2, 1, 1, 3] 2, smooth),
    (compact rootRotationJwtType [3, 2, 2, 4] 9, smooth)]

end Sample

open Sample in
/-- **A root without its consequences.** The first statement replaces the root, the second one is
refused: the call fails with the next root trusted, the session of the previous root standing, its
document attached and nothing announced. -/
theorem refusal_leaves_session :
    let after := (service.applyRootRotations libraries forged 10).1
    (service.applyRootRotations libraries forged 10).2 = .error (.rejected .signature) ∧
      service.roots = service.trust.root ∧
      after.trust.root = (rootAfter 1).root ∧
      after.trust.root ≠ service.trust.root ∧
      after.admissions.sessions[peer]? = some ⟨1, [4], [5]⟩ ∧
      after.admissions.revoked = [] ∧
      after.document = some (FixedBytes.fill 32 0) ∧
      after.roots = (rootAfter 0).root := by
  refine ⟨?_, ?_, ?_, ?_, ?_, ?_, ?_, ?_⟩ <;> decide +kernel

end AsterRpc.Enrollment

import AsterRpc.Enrollment.Records

/-!
# The policy store

`enrollment/store.rs` with `root_revisions.rs` and `root_records.rs`: one store
holds what the root of one namespace said about nodes, credentials, delegates
and bound namespaces.  It reads root-authored entries of a document, applies
those whose revision and reauthorization continue what it holds, and keeps a
barrier for a registration it could not apply.

A call works on the state in memory; what `persist` answers for the snapshot it
is given is a parameter of the call, and an `Outcome` says which snapshot that
was.  Of a document only the entries its root wrote are read.  Creating the
directory, taking the lock and reading the file succeed.
-/

namespace AsterRpc.Enrollment

open AsterRpc.Foundation AsterRpc.Coordination AsterRpc.Delegation Std

variable {previous mark required names : Option ℕ} {same : Bool} {record : NodeRegistrationV1}

/-! ### Revisions -/

inductive RootRevisionError where
  | stale
  | conflict
  | reauthorizationRequired

def RecordError.ofRevision : RootRevisionError → RecordError
  | .stale => .staleRevision
  | .conflict => .conflictingRevision
  | .reauthorizationRequired => .reauthorizationRequired

/-- `check_root_revision`. -/
def checkRootRevision (previousRevision denialWatermark : Option ℕ) (incomingRevision : ℕ)
    (sameContent : Bool) (requiredPredecessor reauthorizesRevision : Option ℕ) :
    Except RootRevisionError Bool :=
  if incomingRevision = 0 ∨ (denialWatermark.any fun known => decide (incomingRevision ≤ known)) ∨
      (previousRevision.any fun known => decide (incomingRevision < known)) then
    .error .stale
  else if previousRevision = some incomingRevision then
    if sameContent then .ok false else .error .conflict
  else if requiredPredecessor.isSome ∧ reauthorizesRevision ≠ requiredPredecessor then
    .error .reauthorizationRequired
  else .ok true

/-- A revision is known exactly when it is the held one, with the same content. -/
theorem checkRootRevision_known {revision : ℕ} :
    checkRootRevision previous mark revision same required names = .ok false ↔
      0 < revision ∧ (∀ known, mark = some known → known < revision) ∧
        previous = some revision ∧ same = true := by
  unfold checkRootRevision
  cases mark <;> cases previous <;> cases required <;> grind

/-- `should_record_rejection`. -/
def shouldRecordRejection (previousRevision denialWatermark : Option ℕ) (rejectedRevision : ℕ) :
    Bool :=
  decide (rejectedRevision > 0) &&
    (previousRevision.all fun known => decide (known ≤ rejectedRevision)) &&
    (denialWatermark.all fun known => decide (known < rejectedRevision))

/-! ### State -/

inductive StoreRole where
  | fleet
  | membership
deriving DecidableEq

/-- What an `EnrollmentPolicyStore` is pinned to. -/
structure StoreConfig where
  root : Key
  ns : FixedBytes 32
  audience : Bytes
  activationLeeway : ℕ
  role : StoreRole

/-- `PersistedPolicy`. -/
structure PersistedPolicy where
  version : ℕ
  root : Key
  ns : FixedBytes 32
  audience : Bytes
  nodes : Table Bytes NodeRegistrationV1
  rejectedNodes : Table Bytes ℕ
  credentials : Table Bytes CredentialStatusV1
  issuers : Table Bytes IssuerStatusV1
  bindings : Table Bytes NamespaceBindingV1

def PersistedPolicy.recordCount (p : PersistedPolicy) : ℕ :=
  p.nodes.size + p.credentials.size + p.issuers.size + p.bindings.size

/-- The policy of a store whose file does not exist. -/
def PersistedPolicy.empty (cfg : StoreConfig) : PersistedPolicy :=
  ⟨1, cfg.root, cfg.ns, cfg.audience, ∅, ∅, ∅, ∅, ∅⟩

structure State where
  authenticatedNodes : Finset Bytes
  policy : PersistedPolicy
  failed : Bool

/-- What a call leaves: the state, the snapshot it handed to `persist`, and its result. -/
structure Outcome (α : Type) where
  state : State
  attempted : Option PersistedPolicy
  result : Except RecordError α

/-! ### Updates of the state -/

/-- `check_state`. -/
def checkState (st : State) : Except RecordError Unit :=
  refuseIf st.failed (.storage "previous persistence failure")

/-- The revision a newer active registration must name after `old`: that of a denial, or of a
registration that had expired when the newer one was issued. -/
def requiredPredecessor (old : Option NodeRegistrationV1) (record : NodeRegistrationV1) :
    Option ℕ :=
  old.bind fun old =>
    if record.status = .active ∧
        (old.status ≠ .active ∨ old.expiresAt.any fun exp => decide (exp ≤ record.issuedAt)) then
      some old.revision
    else none

/-- `check_node_update`. -/
def checkNodeUpdate (st : State) (record : NodeRegistrationV1) : Except RecordError Bool := do
  let old := st.policy.nodes[record.subject]?
  let changed ← (checkRootRevision (old.map (·.revision)) st.policy.rejectedNodes[record.subject]?
    record.revision (old.any fun old => old.same record) (requiredPredecessor old record)
    record.reauthorizesRevision).mapError RecordError.ofRevision
  if !changed then return false
  refuseIf (!st.policy.nodes.contains record.subject &&
    decide (st.policy.recordCount ≥ maxPolicyRecords)) .tooManyRecords
  return true

/-- `apply_node`. -/
def applyNode (st : State) (record : NodeRegistrationV1) : Except RecordError (State × Bool) := do
  let changed ← checkNodeUpdate st record
  let authenticatedNodes := insert record.subject st.authenticatedNodes
  if changed then
    return ({ st with
      authenticatedNodes
      policy := { st.policy with
        rejectedNodes := st.policy.rejectedNodes.erase record.subject
        nodes := st.policy.nodes.insert record.subject record } }, true)
  else return ({ st with authenticatedNodes }, false)

/-- `apply_rejection`. -/
def applyRejection (st : State) (subject : Bytes) (revision : ℕ) :
    Except RecordError (State × Bool) := do
  if !shouldRecordRejection (st.policy.nodes[subject]?.map (·.revision))
      st.policy.rejectedNodes[subject]? revision then return (st, false)
  refuseIf (!st.policy.rejectedNodes.contains subject &&
    decide (st.policy.rejectedNodes.size ≥ maxPolicyRecords)) .tooManyRecords
  return ({ st with policy := { st.policy with
    rejectedNodes := st.policy.rejectedNodes.insert subject revision } }, true)

/-! ### What an update asks for -/

/-- A revision above what is held, and the name of the held one where the update reopens it. -/
@[mk_iff]
structure Follows (previous required : Option ℕ) (revision : ℕ) (names : Option ℕ) : Prop where
  pos : 0 < revision
  above : ∀ known, previous = some known → known < revision
  named : ∀ r, required = some r → names = some r

/-- The registration follows what is held about its subject. -/
def NodeFollows (held : Option NodeRegistrationV1) (mark : Option ℕ) (record : NodeRegistrationV1) :
    Prop :=
  Follows (held.map (·.revision)) (requiredPredecessor held record) record.revision
      record.reauthorizesRevision ∧
    ∀ known, mark = some known → known < record.revision

/-- The state once a registration is accepted. -/
def State.withNode (st : State) (record : NodeRegistrationV1) : State :=
  { st with
    authenticatedNodes := insert record.subject st.authenticatedNodes
    policy := { st.policy with
      rejectedNodes := st.policy.rejectedNodes.erase record.subject
      nodes := st.policy.nodes.insert record.subject record } }

/-- The state once a barrier is recorded. -/
def State.withMark (st : State) (subject : Bytes) (revision : ℕ) : State :=
  { st with policy := { st.policy with
    rejectedNodes := st.policy.rejectedNodes.insert subject revision } }

/-- A revision moves forward exactly when it is above everything known and names what it must. -/
theorem checkRootRevision_forward {revision : ℕ} :
    checkRootRevision previous mark revision same required names = .ok true ↔
      Follows previous required revision names ∧ ∀ known, mark = some known → known < revision := by
  rw [follows_iff]
  unfold checkRootRevision
  cases mark <;> cases previous <;> cases required <;> grind

variable {st : State}

theorem checkNodeUpdate_eq_true :
    checkNodeUpdate st record = .ok true ↔
      NodeFollows st.policy.nodes[record.subject]? st.policy.rejectedNodes[record.subject]? record ∧
        (st.policy.nodes[record.subject]? = none → st.policy.recordCount < maxPolicyRecords) := by
  simp only [checkNodeUpdate, bind_accepts, mapError_accepts, NodeFollows]
  constructor
  · rintro ⟨changed, hcheck, hrest⟩
    cases changed with
    | false => cases hrest
    | true =>
      refine ⟨checkRootRevision_forward.mp hcheck, fun hnone => ?_⟩
      simpa [Table.contains_eq_isSome, hnone, pure, Except.pure] using hrest
  · rintro ⟨hcheck, hroom⟩
    refine ⟨true, checkRootRevision_forward.mpr hcheck, ?_⟩
    cases hheld : st.policy.nodes[record.subject]? with
    | none => simp [Table.contains_eq_isSome, hheld, hroom hheld, pure, Except.pure]
    | some => simp [Table.contains_eq_isSome, hheld, pure, Except.pure]

theorem applyNode_of_true (h : checkNodeUpdate st record = .ok true) :
    applyNode st record = .ok (st.withNode record, true) := by
  rw [applyNode, h]
  rfl

section Calls

variable (persist : PersistedPolicy → Except RecordError Unit)

/-- `commit`. -/
def commit (st next : State) (changed : Bool) : Outcome Unit :=
  if changed then
    match persist next.policy with
    | .error e => ⟨{ st with failed := true }, some next.policy, .error e⟩
    | .ok () => ⟨next, some next.policy, .ok ()⟩
  else ⟨next, none, .ok ()⟩

/-- `observe_node`. -/
def observeNode (st : State) (record : NodeRegistrationV1) : Outcome Unit :=
  match checkState st with
  | .error e => ⟨st, none, .error e⟩
  | .ok () =>
    match checkNodeUpdate st record with
    | .error e =>
      let st := if e = .tooManyRecords then { st with failed := true } else st
      if (st.policy.nodes[record.subject]?.any fun node =>
        decide (node.revision > record.revision)) ||
          (st.policy.rejectedNodes[record.subject]?.any fun known =>
            decide (known ≥ record.revision))
      then ⟨st, none, .error e⟩
      else
        match applyRejection st record.subject record.revision with
        | .error _ => ⟨{ st with failed := true }, none, .error e⟩
        | .ok (next, changed) =>
          let committed := commit persist st next changed
          ⟨committed.state, committed.attempted, committed.result.bind fun _ => .error e⟩
    | .ok false =>
      ⟨{ st with authenticatedNodes := insert record.subject st.authenticatedNodes }, none, .ok ()⟩
    | .ok true =>
      match applyNode st record with
      | .error e => ⟨st, none, .error e⟩
      | .ok (next, _) => commit persist st next true

end Calls

/-! ### What a store answers -/

/-- `active`. -/
def StoreConfig.active (cfg : StoreConfig) (record : NodeRegistrationV1) (now : ℕ) : Bool :=
  activation record.issuedAt record.notBefore record.expiresAt now cfg.activationLeeway == .active

/-- `RegistrationView`. -/
inductive RegistrationView where
  | active (revision : ℕ) (reauthorizesRevision : Option ℕ)
  | denied (revision : ℕ) (reason : DenialReason)

def RegistrationView.revision : RegistrationView → ℕ
  | .active revision _ => revision
  | .denied revision _ => revision

/-- The view a record gives when nothing was rejected since. -/
def NodeRegistrationV1.view (record : NodeRegistrationV1) : RegistrationView :=
  if record.status = .active then .active record.revision record.reauthorizesRevision
  else .denied record.revision .nodeRevoked

/-- `registration_view`. -/
def registrationView (st : State) (peer : Key) : Option RegistrationView :=
  let record := st.policy.nodes[hexKey peer]?.map NodeRegistrationV1.view
  let rejected := st.policy.rejectedNodes[hexKey peer]?.map fun revision =>
    RegistrationView.denied revision .registrationRejected
  match record, rejected with
  | some record, some rejected =>
    if rejected.revision ≥ record.revision then some rejected else some record
  | some record, none => some record
  | none, rejected => rejected

/-- `denial`. -/
def denial (cfg : StoreConfig) (st : State) (evidence : VerifiedAdmissionEvidence) (now : ℕ) :
    Option DenialReason :=
  let policy := st.policy
  let subject := hexKey evidence.subject
  if st.failed then some .policyStateUnavailable
  else if evidence.issuer ≠ cfg.root ∨ !evidence.audience.contains cfg.audience then
    some .missingEvidence
  else if policy.rejectedNodes.contains subject then some .registrationRejected
  else
    -- what the registration says, before the credential and the issuers are looked at
    let registered : Option DenialReason :=
      match policy.nodes[subject]? with
      | some node =>
        if node.status ≠ .active then some .nodeRevoked
        else if !cfg.active node now then some .invalidValidity
        else if node.subject ∉ st.authenticatedNodes then some .missingEvidence
        else if evidence.source ≠ .rootAuthoredRecord cfg.ns node.revision ∨
            !sameClaims evidence.claims node.claims ∨ evidence.audience ≠ node.audience ∨
            evidence.notBefore ≠ node.notBefore ∨ evidence.issuedAt ≠ node.issuedAt ∨
            evidence.expiresAt ≠ node.expiresAt then some .registrationSuperseded
        else none
      | none =>
        match evidence.source with
        | .rootAuthoredRecord _ _ => some .missingEvidence
        | .presentedChain _ _ _ => none
    registered.or <|
      if evidence.credentialId.any fun id => policy.credentials[id]?.any fun status =>
          status.revoked || decide (status.issuedAt > now) then some .credentialRevoked
      else
        match evidence.source with
        | .presentedChain _ issuers _ =>
          if issuers.any fun issuer => policy.issuers[hexKey issuer]?.any fun record =>
              record.status == .revoked then some .issuerRevoked
          else none
        | .rootAuthoredRecord _ _ => none

section Reading

variable (lib : PolicyLibraries) (cfg : StoreConfig)

/-- The evidence data of a registration. -/
def StoreConfig.evidenceData (cfg : StoreConfig) (subject : Key) (record : NodeRegistrationV1) :
    RegistrationEvidenceData where
  issuer := cfg.root
  subject := subject
  audience := record.audience
  issuedAt := record.issuedAt
  notBefore := record.notBefore
  expiresAt := record.expiresAt
  claims := record.claims
  documentId := cfg.ns
  revision := record.revision

/-- `select_evidence`. -/
def selectEvidence (st : State) (peer : Key) (credential : Option VerifiedAdmissionEvidence)
    (now : ℕ) : Except RecordError VerifiedAdmissionEvidence := do
  refuseIf st.failed (.denied .policyStateUnavailable)
  refuseIf (st.policy.rejectedNodes.contains (hexKey peer)) (.denied .registrationRejected)
  let selected ← match st.policy.nodes[hexKey peer]? with
    | some record => do
      refuseIf (record.status != .active) (.denied .nodeRevoked)
      refuseIf (!cfg.active record now) (.denied .invalidValidity)
      refuseIf (decide (record.subject ∉ st.authenticatedNodes)) .missingEvidence
      (fromRegistration lib (cfg.evidenceData peer record) cfg.activationLeeway).mapError
        fun _ => RecordError.invalidRecord
    | none => requireSome credential .missingEvidence
  refuseIf (selected.subject != peer || selected.issuer != cfg.root ||
    !selected.audience.contains cfg.audience) .invalidRecord
  match denial cfg st selected now with
  | some reason => .error (.denied reason)
  | none =>
    match selected.activationAt now with
    | .active => return selected
    | .early offset => .error (.denied (.clockSkew offset))
    | .expired => .error (.denied .invalidValidity)

/-! ### Validation -/

/-- `validate_node`. -/
def validateNode (record : NodeRegistrationV1) : Except RecordError Unit := do
  refuseIf (!record.audience.contains cfg.audience) .wrongAudience
  refuseIf (record.version != policyRecordVersion) .unsupportedVersion
  let issuer ← identity lib record.issuer
  refuseIf (issuer != cfg.root || record.revision == 0) .invalidRecord
  refuseIf (!record.mandatory.isEmpty) .unsupportedMandatoryRestriction
  refuseIf (record.reason.any fun reason =>
    decide (reason.length > maxRegistrationReasonBytes) || hasControl reason) .invalidRecord
  let subject ← identity lib record.subject
  let _ ← (fromRegistration lib (cfg.evidenceData subject record) cfg.activationLeeway).mapError
    fun _ => RecordError.invalidRecord
  refuseIf (decide (lib.nodeLen record > maxPolicyRecordBytes)) .invalidRecord

/-- `validate_credential`. -/
def validateCredential (record : CredentialStatusV1) : Except RecordError Unit := do
  refuseIf (record.version != 1) .unsupportedVersion
  let issuer ← identity lib record.issuer
  refuseIf (issuer != cfg.root || record.revision == 0 || record.credentialId.isEmpty ||
    decide (record.credentialId.length > 256)) .invalidRecord

/-- `validate_issuer`. -/
def validateIssuer (record : IssuerStatusV1) : Except RecordError Unit := do
  refuseIf (!record.audience.contains cfg.audience) .wrongAudience
  refuseIf (record.version != policyRecordVersion) .unsupportedVersion
  let issuer ← identity lib record.issuer
  refuseIf (issuer != cfg.root) .invalidRecord
  let subject ← identity lib record.subject
  refuseIf (subject == cfg.root || record.revision == 0) .invalidRecord

/-- The closure `bounded` of `validate_binding`. -/
def boundedScopes (scopes : Finset Bytes) : Bool :=
  decide (scopes.card ≤ maxListEntries) &&
    decide (∀ scope ∈ scopes, scope ≠ [] ∧ scope.length ≤ maxStringBytes)

/-- `validate_binding`. -/
def validateBinding (record : NamespaceBindingV1) : Except RecordError Unit := do
  refuseIf (record.version != policyRecordVersion) .unsupportedVersion
  let issuer ← identity lib record.issuer
  refuseIf (issuer != cfg.root) .invalidRecord
  let ns ← namespaceId record.namespaceHex
  refuseIf (ns == cfg.ns || record.revision == 0 || !boundedScopes record.readScopes ||
    !boundedScopes record.writeScopes ||
    (record.purpose != .observations && decide (record.writeScopes ≠ ∅))) .invalidRecord

/-! ### Opening -/

/-- The JSON form of the snapshot file. -/
structure SnapshotCodec where
  File : Type
  len : File → ℕ
  unique : File → Bool
  toVec : PersistedPolicy → File
  fromSlice : File → Except String PersistedPolicy

def maxSnapshotBytes : ℕ := 32 * 1024 * 1024

variable (codec : SnapshotCodec)

/-- What `open_role` reads from its file. -/
def readSnapshot : Option codec.File → Except RecordError PersistedPolicy
  | none => .ok (.empty cfg)
  | some bytes => do
    refuseIf (decide (codec.len bytes > maxSnapshotBytes)) .tooManyRecords
    refuseIf (!codec.unique bytes) .invalidRecord
    (codec.fromSlice bytes).mapError .storage

/-- The check `open_role` makes of a barrier. -/
def checkBarrier (policy : PersistedPolicy) (subject : Bytes) (revision : ℕ) :
    Except RecordError Unit := do
  let _ ← identity lib subject
  refuseIf (revision == 0 ||
    policy.nodes[subject]?.any fun node => decide (node.revision > revision)) .invalidRecord

/-- The checks `open_role` makes of a snapshot before it is used. -/
def checkSnapshot (policy : PersistedPolicy) : Except RecordError Unit := do
  refuseIf (decide (policy.recordCount > maxPolicyRecords) ||
    decide (policy.rejectedNodes.size > maxPolicyRecords)) .tooManyRecords
  refuseIf (policy.version != 1 || policy.root != cfg.root || policy.ns != cfg.ns ||
    policy.audience != cfg.audience ||
    (cfg.role == .membership && (!policy.credentials.isEmpty || !policy.issuers.isEmpty ||
      !policy.bindings.isEmpty))) .invalidConfiguration
  policy.nodes.checkRows fun key record => do
    validateNode lib cfg record
    refuseIf (key != record.subject) .invalidRecord
  policy.rejectedNodes.checkRows (checkBarrier lib policy)
  policy.credentials.checkRows fun key record => do
    validateCredential lib cfg record
    refuseIf (key != record.credentialId) .invalidRecord
  policy.issuers.checkRows fun key record => do
    validateIssuer lib cfg record
    refuseIf (key != record.subject) .invalidRecord
  policy.bindings.checkRows fun key record => do
    validateBinding lib cfg record
    refuseIf (key != record.namespaceHex) .invalidRecord

/-- `open_role` up to the write that ends it. -/
def loadPolicy (file : Option codec.File) : Except RecordError PersistedPolicy := do
  refuseIf (!validAudience lib cfg.audience || !validKey lib.toLibraries cfg.root)
    .invalidConfiguration
  let policy ← readSnapshot cfg codec file
  checkSnapshot lib cfg policy
  return policy

/-- `open_role`. -/
def openRole (persist : PersistedPolicy → Except RecordError Unit) (file : Option codec.File) :
    Except RecordError State := do
  let policy ← loadPolicy lib cfg codec file
  persist policy
  return ⟨∅, policy, false⟩

end Reading

end AsterRpc.Enrollment

import AsterRpc.Delegation.Chain

/-!
# Root rotation

`delegation/rotation.rs`: a verifier pins the active root and a commitment to
the next root key, and only that key can sign the statement that replaces the
root.  Verification depends on the clock through one test alone, so a statement
whose time has come verifies alike at every later clock.
-/

namespace AsterRpc.Delegation

open AsterRpc.Foundation AsterRpc.Coordination Std ChainError

def rootRotationJwtType : Bytes := ascii "aster-root-rotation-v1+jwt"
def commitmentContext : Bytes := ascii "aster.root.next.v1\x00"
def maxRotationBytes : ℕ := 8 * 1024
def maxRotationNamespaces : ℕ := 16

/-- `RootState`: what a verifier pins about its root. -/
structure RootState where
  root : Key
  nextCommitment : Hash
  seq : ℕ
deriving DecidableEq

/-- `RootRotation`: a verified rotation statement. -/
structure RootRotation where
  newRoot : Key
  previousRoot : Key
  seq : ℕ
  nextCommitment : Hash
  namespaces : List (FixedBytes 32)
  issuedAt : ℕ
  reason : RotationReason
  statement : Bytes

/-- The pinned state after the rotation. -/
def RootRotation.apply (r : RootRotation) : RootState := ⟨r.newRoot, r.nextCommitment, r.seq⟩

section Statements

variable (lib : Libraries)

/-- `next_root_commitment`. -/
def nextRootCommitment (nextRoot : Key) : Hash := lib.blake3 (commitmentContext ++ nextRoot.bytes)

/-- A statement taken apart, nothing about it trusted; `onJws` says how a JWS that does not decode
is reported. -/
def openStatement (onJws : JwsError → ChainError) (statement : Bytes) :
    Except ChainError (Compact × RotationClaims) := do
  refuseIf (decide (statement.length > maxRotationBytes)) .size
  let compact ← (decode lib statement).mapError onJws
  refuseIf (compact.typ != rootRotationJwtType) .header
  let claims ← requireSome (lib.parseRotation compact.payload) .malformed
  return (compact, claims)

/-- `claimed_rotation_seq`. -/
def claimedRotationSeq (statement : Bytes) : Option ℕ :=
  (openStatement lib ofJws statement).toOption.map fun opened => opened.2.seq

/-- `u64::checked_add(1)`. -/
def checkedSucc (n : ℕ) : Option ℕ := if n + 1 < 2 ^ 64 then some (n + 1) else none

/-- `verify_root_rotation`. -/
def verifyRootRotation (statement : Bytes) (current : RootState) (now leeway : ℕ) :
    Except ChainError RootRotation := do
  let (compact, claims) ← openStatement lib ofJws statement
  let newRoot ← requireSome (parseKey lib claims.iss) .malformed
  let previousRoot ← requireSome (parseKey lib claims.prev) .malformed
  let nextCommitment ← requireSome (parseHex32 claims.next) .malformed
  let namespaces ← requireSome (claims.namespaces.mapM parseHex32) .malformed
  refuseIf (namespaces.isEmpty || decide (namespaces.length > maxRotationNamespaces)) .malformed
  refuseIf (nextRootCommitment lib newRoot != current.nextCommitment) .untrustedAnchor
  refuseIf (previousRoot != current.root) .bridge
  refuseIf (some claims.seq != checkedSucc current.seq) .sequence
  refuseIf (decide (claims.iat > saturatingAdd now leeway)) .notYetValid
  (compact.verify lib newRoot).mapError fun _ => signature
  return ⟨newRoot, previousRoot, claims.seq, nextCommitment, namespaces, claims.iat, claims.reason,
    statement⟩

/-- `verify_applied_rotation`: `statement` is the rotation that produced `after`. -/
def verifyAppliedRotation (statement : Bytes) (after : RootState) (now leeway : ℕ) :
    Except ChainError RootRotation := do
  let (_, claims) ← openStatement lib (fun _ => .malformed) statement
  let previous ← requireSome (parseKey lib claims.prev) .malformed
  refuseIf (claims.seq == 0) .sequence
  let before : RootState := ⟨previous, nextRootCommitment lib after.root, claims.seq - 1⟩
  let rotation ← verifyRootRotation lib statement before now leeway
  refuseIf (rotation.apply != after) .bridge
  return rotation

/-- The statement does not claim to be issued after `now`. -/
def NotBefore (now : ℕ) (statement : Bytes) : Prop :=
  ∀ opened, openStatement lib ofJws statement = .ok opened → opened.2.iat ≤ now

instance (now : ℕ) (statement : Bytes) : Decidable (NotBefore lib now statement) :=
  decidable_of_iff ((openStatement lib ofJws statement).toOption.all
      fun opened => decide (opened.2.iat ≤ now)) (by
    unfold NotBefore
    cases openStatement lib ofJws statement <;> simp [Except.toOption])

variable {lib} {statement : Bytes} {current : RootState} {now leeway : ℕ}

/-- A verified rotation is the next one, keeps its statement, and claims the sequence it has. -/
theorem verifyRootRotation_accepts {r : RootRotation}
    (h : verifyRootRotation lib statement current now leeway = .ok r) :
    r.statement = statement ∧ r.seq = current.seq + 1 ∧
      claimedRotationSeq lib statement = some (current.seq + 1) := by
  simp only [verifyRootRotation, accepts_iff] at h
  obtain ⟨_, claims, hopen, _, -, _, -, _, -, _, -, -, -, -, hseq, -, -,
    rfl⟩ := h
  have hclaim : claims.seq = current.seq + 1 := by
    simp only [checkedSucc] at hseq
    split at hseq
    · exact Option.some.inj hseq
    · cases hseq
  refine ⟨rfl, hclaim, ?_⟩
  rw [← hclaim]
  simp [claimedRotationSeq, hopen, Except.toOption]

theorem le_saturatingAdd {iat : ℕ} (leeway : ℕ) (hnow : now < 2 ^ 64) (h : iat ≤ now) :
    iat ≤ saturatingAdd now leeway := by
  unfold saturatingAdd
  omega

/-- A statement accepted at one clock is accepted at every clock it is not ahead of. -/
theorem verifyRootRotation_later {later : ℕ} {r : RootRotation} (hlater : later < 2 ^ 64)
    (h : verifyRootRotation lib statement current now leeway = .ok r)
    (h' : NotBefore lib later statement) :
    verifyRootRotation lib statement current later leeway = .ok r := by
  have hopened : ∃ opened, openStatement lib ofJws statement = .ok opened := by
    simp only [verifyRootRotation, bind_accepts] at h
    obtain ⟨opened, hopen, -⟩ := h
    exact ⟨opened, hopen⟩
  obtain ⟨opened, hopen⟩ := hopened
  have hiat' := le_saturatingAdd leeway hlater (h' opened hopen)
  unfold verifyRootRotation at h ⊢
  rw [hopen] at h ⊢
  simp only [ok_bind, accepts_iff, Nat.not_lt.mpr hiat', decide_false, true_and] at h ⊢
  obtain ⟨newRoot, hroot, previous, hprev, next, hnext, spaces, hspaces, hcount, hcommit, hbridge,
    hseq, -, hrest⟩ := h
  exact ⟨newRoot, hroot, previous, hprev, next, hnext, spaces, hspaces, hcount, hcommit, hbridge,
    hseq, hrest⟩

end Statements

end AsterRpc.Delegation

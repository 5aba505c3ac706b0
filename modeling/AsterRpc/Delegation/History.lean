import AsterRpc.Delegation.Journal

/-!
# Relayed rotation history

`verify_applied_rotation` builds the state before a rotation from the statement
and the state after it, and `verified_history` walks back from the pin in this
way.  A rotation determines the state that it continues: the root it names, the
commitment to the root it brings and the sequence before its own.  The walk back
is therefore a run of forward verifications, read from its end.
-/

namespace AsterRpc.Delegation

open AsterRpc.Foundation AsterRpc.Coordination List
open AsterRpc.Enrollment (RecordError)

section

variable {lib : Libraries} {statement : Bytes} {before after : RootState} {now leeway : ℕ}
  {r : RootRotation}

/-- A verified rotation continues one state only. -/
theorem before_of_verified (h : verifyRootRotation lib statement before now leeway = .ok r) :
    before = ⟨r.previousRoot, nextRootCommitment lib r.newRoot, r.seq - 1⟩ := by
  have hseq := (verifyRootRotation_accepts h).2.1
  simp only [verifyRootRotation, accepts_iff] at h
  obtain ⟨_, _, -, _, -, _, -, _, -, _, -, -, hcommitment, hroot, -,
    -, -, rfl⟩ := h
  obtain ⟨_, _, _⟩ := before
  rw [hcommitment, hroot, hseq]
  rfl

/-- **The statement that produced a state** is one that verifies from some state and leads to it. -/
theorem verifyAppliedRotation_eq_ok :
    verifyAppliedRotation lib statement after now leeway = .ok r ↔
      ∃ before, verifyRootRotation lib statement before now leeway = .ok r ∧ r.apply = after := by
  simp only [verifyAppliedRotation, accepts_iff]
  constructor
  · rintro ⟨compact, claims, -, previous, -, -, _, hver, happly, rfl⟩
    exact ⟨_, hver, happly⟩
  · rintro ⟨_, hver, rfl⟩
    have hpre := before_of_verified hver
    have hseq := (verifyRootRotation_accepts hver).2.1
    have hparts := hver
    simp only [verifyRootRotation, openStatement, accepts_iff, mapError_accepts] at hparts
    obtain ⟨compact, claims, ⟨hsize, _, hjws, htyp, _, hclaim, hopen⟩, _, -,
      previous, hprevious, _, -, _, -, -, -, -, -, -, -, rfl⟩ := hparts
    cases hopen
    refine ⟨compact, claims, ?_, previous, hprevious, ?_, _, ?_, rfl, rfl⟩
    · simp only [openStatement, accepts_iff, mapError_accepts]
      exact ⟨hsize, compact, hjws, htyp, claims, hclaim, rfl⟩
    · have hpos : claims.seq ≠ 0 := fun hzero => Nat.succ_ne_zero _ (hseq.symm.trans hzero)
      exact beq_false_of_ne hpos
    · exact hpre ▸ hver

end

section

variable (lib : Libraries) (now leeway : ℕ)

/-- Verify statements one after the other, each from the state the one before it led to. -/
def verifyForward : RootState → List Bytes → Except ChainError RootState :=
  foldlM fun state statement =>
    (verifyRootRotation lib statement state now leeway).map RootRotation.apply

/-- The statements lead from `start` to `pin`, one sequence number after the other. -/
structure Leads (start : RootState) (statements : List Bytes) (pin : RootState) : Prop where
  forward : verifyForward lib now leeway start statements = .ok pin
  length : start.seq + statements.length = pin.seq
  claimed : statements.map (claimedRotationSeq lib) =
    (range' (start.seq + 1) statements.length).map some

variable {lib now leeway} {start before after : RootState} {statement : Bytes} {r : RootRotation}
  {statements remaining verified out : List Bytes}

theorem Leads.refl (pin : RootState) : Leads lib now leeway pin [] pin := ⟨rfl, rfl, rfl⟩

/-- One more rotation at the end. -/
theorem Leads.step (h : Leads lib now leeway start statements before)
    (hver : verifyRootRotation lib statement before now leeway = .ok r) :
    Leads lib now leeway start (statements ++ [statement]) r.apply := by
  obtain ⟨-, hseq, hclaimed⟩ := verifyRootRotation_accepts hver
  have hlen := h.length
  refine ⟨?_, ?_, ?_⟩
  · rw [verifyForward, foldlM_append, ← verifyForward, h.forward, ok_bind, verifyForward,
      foldlM_cons, hver]
    rfl
  · rw [length_append, length_singleton, ← Nat.add_assoc, hlen]
    exact hseq.symm
  · rw [map_append, h.claimed, length_append, length_singleton,
      range'_1_concat, map_append]
    simp only [map_cons, map_nil, hclaimed]
    rw [← hlen, Nat.add_right_comm]

/-- Where the walk ends nothing may remain. -/
theorem leads_of_empty (pin : RootState)
    (h : (do
      refuseIf (!remaining.isEmpty) RecordError.invalidRecord
      return verified) = .ok out) :
    ∃ start front, out = front ++ verified ∧ front.Perm remaining ∧
      Leads lib now leeway start front pin := by
  simp only [accepts_iff, List.isEmpty_iff] at h
  obtain ⟨rfl, rfl⟩ := h
  exact ⟨pin, [], rfl, .refl _, .refl pin⟩

/-- The walk back puts in front of what it has a list that leads to where it stands, made of all
that remained. -/
theorem walkBack_leads {seq : ℕ} (hseq : after.seq = seq)
    (h : walkBack lib now leeway seq after remaining verified = .ok out) :
    ∃ start front, out = front ++ verified ∧ front.Perm remaining ∧
      Leads lib now leeway start front after := by
  induction seq generalizing after remaining verified with
  | zero => exact leads_of_empty after h
  | succ seq ih =>
    rw [walkBack] at h
    split at h
    case h_1 => exact leads_of_empty after h
    case h_2 index hindex =>
      simp only [bind_accepts, mapError_accepts, verifyAppliedRotation_eq_ok] at h
      obtain ⟨r, ⟨before, hver, rfl⟩, hrest⟩ := h
      obtain ⟨start, front, rfl, hperm, hleads⟩ := ih rfl hrest
      -- the state the walk goes on from is the one the rotation continues
      have hpre : ⟨r.previousRoot, nextRootCommitment lib r.newRoot, seq⟩ = before := by
        rw [before_of_verified hver, show r.seq = seq + 1 from hseq, Nat.add_sub_cancel]
      have hlt : index < remaining.length := (findIdx?_eq_some_iff_getElem.mp hindex).1
      refine ⟨start, front ++ [remaining.getD index []], (append_cons ..).symm ▸ rfl, ?_,
        Leads.step (hpre ▸ hleads) hver⟩
      rw [getD_eq_getElem _ _ hlt]
      exact ((perm_append_singleton _ _).trans (hperm.cons _)).trans
        (getElem_cons_eraseIdx_perm hlt)

end

/-- **Relayed history is exactly the history.**  A statement is accepted as the one that produced a
state exactly when it verifies from some state and leads to this one.  And what the walk back from
a pin accepts is, in the order it returns, a run of forward verifications that ends in the pin, with
every statement that was given and consecutive sequence numbers up to the pin's. -/
theorem relayed_history_exact (lib : Libraries) (now leeway : ℕ) :
    (∀ statement after r, verifyAppliedRotation lib statement after now leeway = .ok r ↔
      ∃ before, verifyRootRotation lib statement before now leeway = .ok r ∧ r.apply = after) ∧
    ∀ history pin verified, verifiedHistory lib history pin now leeway = .ok verified →
      verified.Perm history ∧ ∃ start, Leads lib now leeway start verified pin := by
  refine ⟨fun _ _ _ => verifyAppliedRotation_eq_ok, fun history pin verified h => ?_⟩
  obtain ⟨start, _, rfl, hperm, hleads⟩ := walkBack_leads rfl h
  rw [append_nil]
  exact ⟨hperm, start, hleads⟩

namespace Sample

/-- The statements of the first two rotations, in order. -/
def twoRotations : List Bytes := (rotations 2).map Prod.fst

end Sample

open Sample in
/-- Given the later statement first, the walk back from the second root puts them in order. -/
theorem relayed_history_exact_two :
    verifiedHistory libraries twoRotations.reverse (rootAfter 2) 10 0 = .ok twoRotations ∧
      ∃ start, Leads libraries 10 0 start twoRotations (rootAfter 2) := by
  have hwalk : verifiedHistory libraries twoRotations.reverse (rootAfter 2) 10 0 =
      .ok twoRotations := by decide +kernel
  exact ⟨hwalk, ((relayed_history_exact libraries 10 0).2 _ _ _ hwalk).2⟩

end AsterRpc.Delegation

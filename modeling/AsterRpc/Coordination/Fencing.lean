import AsterRpc.Foundation.Fencing
import AsterRpc.Coordination.Effects

/-!
# Fencing

A resource row is a fenced register: its epoch, and who holds it.  Every command
is a step of that register on every key, so an epoch names at most one holder,
and whoever acts under an epoch that has ended is refused, whatever else has
happened in between.
-/

namespace AsterRpc.Coordination

open AsterRpc.Foundation

/-- The register of a resource: who holds it, if anybody, under the row's epoch. -/
def ResourceRow.tenure (row : ResourceRow) : Fenced (Bool × Option NodeId) :=
  ⟨row.epoch, (row.held, row.holder)⟩

def State.tenure (s : State) (key : ResourceKey) : Fenced (Bool × Option NodeId) :=
  (s.rowOf key).tenure

/-- Acquiring and every way of ending a tenure take the next epoch; nothing else moves the
register. -/
theorem RowMove.tenure_step {old new : ResourceRow} (h : RowMove old new) :
    Fenced.Step old.tenure new.tenure := by
  cases h with
  | acquired actor => exact .replace old.tenure (true, some actor)
  | renewed | mutated | regranted => exact .stay old.tenure
  | ended | handedOver | fenced => exact .replace old.tenure (false, none)

section

variable (ext : Externals) {s : State} {actor : NodeId} {action : ResourceAction} {fence : Fence}
  {key : ResourceKey} {e : GrantEffect}

/-- **Every delivery is a step of every register.** -/
theorem deliver_tenure (key : ResourceKey) (s : State) (d : Delivery) :
    Fenced.Step (s.tenure key) ((deliver ext s d).1.tenure key) := by
  rcases deliver_rowOf ext s d key with hsame | hmove
  · simp only [State.tenure, hsame]
    exact .stay _
  · exact hmove.tenure_step

theorem run_tenure (key : ResourceKey) (s : State) (es : List Delivery) :
    Fenced.Precedes (s.tenure key) ((run (deliver ext) s es).tenure key) :=
  Fenced.run_precedes (fun s => s.tenure key) (deliver_tenure ext key) s es

section

variable (hfence : action.fence = some fence) (hkey : fence.resource.validate = .ok key)
  (hepoch : (s.rowOf key).epoch ≠ fence.epoch)

include hfence hkey hepoch

/-- Under a fence whose epoch is not the row's, an action is refused. -/
theorem decideResource_stale (e : ResourceEffect) : decideResource s actor action ≠ .ok e := by
  intro h
  obtain ⟨k, hvalid, -, -, -, hstep⟩ := decideResource_ok h
  have hsameKey : k = key := by
    have hraw : action.rawResource = fence.resource := by
      cases action <;> cases hfence <;> rfl
    rw [hraw, hkey] at hvalid
    exact (Except.ok.inj hvalid).symm
  have hstale : ∀ row, s.resources[k]? = some row → ¬ Tenure actor row fence := by
    intro row hrow htenure
    rw [hsameKey] at hrow
    rw [State.rowOf, hrow] at hepoch
    exact hepoch htenure.epoch
  cases hstep with
  | acquire => cases hfence
  | renew fence' row hrow htenure | compareAndSet fence' newValue row hrow htenure
  | release fence' row hrow htenure | releaseWithValue fence' finalValue row hrow htenure =>
    cases hfence
    exact hstale row hrow htenure
  | revoke => cases hfence

/-- A stale fence gets a rejection or an old answer, whoever presents it. -/
theorem deliver_stale {logId : LogId} {client : ClientRef} {result : ClientResult}
    (hres : (deliver ext s (logId, .client client (.resource action))).2 =
      .ok (.client result)) :
    result.replayed = true ∨ result.reply.outcome = .rejected := by
  revert hres
  refine deliver_elim ext s _ (fun _ => nofun) fun _ hstep _ hres => ?_
  cases hstep with
  | replay =>
    cases hres
    exact .inl rfl
  | refused =>
    cases hres
    exact .inr rfl
  | decided client action change reply row creates h hdec =>
    cases hres
    cases hdec with
    | resource a e he => exact absurd he (decideResource_stale hfence hkey hepoch e)
    | refused => exact .inr rfl
    | shapeless => exact .inr rfl

end

/-- **Fencing.**  In every run and for every resource:

* the epoch never decreases;
* whenever `held` or the holder differs across one delivery, the epoch has gone up across it;
* two moments of the run with the same epoch record the same holder;
* once a delivery has ended the tenure of an epoch, no action under a fence of that epoch gets
  anything but a rejection or a replayed answer, whoever presents it. -/
theorem epochs_fence_holders (s₀ : State) (es : List Delivery) (key : ResourceKey) :
    (∀ pre post, es = pre ++ post →
      ((run (deliver ext) s₀ pre).rowOf key).epoch ≤ ((run (deliver ext) s₀ es).rowOf key).epoch) ∧
    (∀ pre d post, es = pre ++ d :: post →
      let before := (run (deliver ext) s₀ pre).rowOf key
      let after := (run (deliver ext) s₀ (pre ++ [d])).rowOf key
      before.held ≠ after.held ∨ before.holder ≠ after.holder → before.epoch < after.epoch) ∧
    (∀ pre mid post, es = pre ++ mid ++ post →
      let earlier := (run (deliver ext) s₀ pre).rowOf key
      let later := (run (deliver ext) s₀ (pre ++ mid)).rowOf key
      earlier.epoch = later.epoch → earlier.holder = later.holder) ∧
    (∀ pre d mid logId client action fence post,
      es = pre ++ d :: (mid ++ (logId, .client client (.resource action)) :: post) →
      ((run (deliver ext) s₀ pre).rowOf key).held = true →
      ((run (deliver ext) s₀ (pre ++ [d])).rowOf key).held = false →
      action.fence = some fence → fence.resource.validate = .ok key →
      fence.epoch = ((run (deliver ext) s₀ pre).rowOf key).epoch →
      ∀ result, (deliver ext (run (deliver ext) s₀ (pre ++ d :: mid))
          (logId, .client client (.resource action))).2 = .ok (.client result) →
        result.replayed = true ∨ result.reply.outcome = .rejected) := by
  refine ⟨?_, ?_, ?_, ?_⟩
  · rintro pre post rfl
    rw [run_append]
    exact (run_tenure ext key (run (deliver ext) s₀ pre) post).1
  · intro pre d post _ before after hdiffers
    have hprecedes : Fenced.Precedes before.tenure after.tenure := by
      simp only [before, after, run_append, run_cons, run_nil]
      exact (deliver_tenure ext key _ d).precedes
    refine hprecedes.epoch_lt fun heq => ?_
    obtain ⟨hheld, hholder⟩ := Prod.mk.inj heq
    exact hdiffers.elim (fun h => h hheld) fun h => h hholder
  · intro pre mid post _ earlier later heq
    have hprecedes : Fenced.Precedes earlier.tenure later.tenure := by
      simp only [earlier, later, run_append]
      exact run_tenure ext key _ mid
    exact (Prod.mk.inj (hprecedes.2 heq)).2
  · intro pre d mid logId client action fence post _ hheld hended hfence hkey hepoch result hres
    refine deliver_stale ext hfence hkey ?_ hres
    -- the tenure's end took a new epoch, and no later delivery goes back
    simp only [run_append, run_cons, run_nil] at hended ⊢
    have hend := (deliver_tenure ext key (run (deliver ext) s₀ pre) d).precedes.epoch_lt (by
      intro heq
      have hsame := (Prod.mk.inj heq).1
      rw [hheld, hended] at hsame
      cases hsame)
    have hlater := (run_tenure ext key (deliver ext (run (deliver ext) s₀ pre) d).1 mid).1
    have hspent : fence.epoch <
        ((run (deliver ext) (deliver ext (run (deliver ext) s₀ pre) d).1 mid).rowOf key).epoch := by
      rw [hepoch]
      exact Nat.lt_of_lt_of_le hend hlater
    exact Nat.ne_of_gt hspent

/-! ### Rights that sustain a tenure -/

/-- The lease-sustaining rights that `holder` has on `key` in `s` and not in `t`. -/
def lostRights (s t : State) (key : ResourceKey) (holder : NodeId) : Rights :=
  grantedRights s key holder &&& leaseSustainingRights &&& ~~~grantedRights t key holder

theorem lostRights_eq_zero {t : State} {holder : NodeId}
    (h : grantedRights t key holder = grantedRights s key holder) :
    lostRights s t key holder = 0 := by
  rw [lostRights, h, BitVec.and_assoc, BitVec.and_comm leaseSustainingRights, ← BitVec.and_assoc,
    BitVec.and_not_self]
  exact BitVec.zero_and

/-- A grant that takes a sustaining right from the holder is one that fences. -/
theorem GrantStep.fences {action : GrantAction} {row : ResourceRow}
    (h : GrantStep s actor action e) (hrow : s.resources[e.key]? = some row)
    (hheld : row.held = true) (hholder : row.holder = some e.subject)
    (hlost : grantedRights s e.key e.subject &&& leaseSustainingRights &&& ~~~action.rights ≠ 0) :
    e.fenced = true := by
  rw [h.fenced, hrow, ← h.subject]
  unfold grantedRights at hlost
  cases hright : s.acl[(e.key, e.subject)]? with
  | none =>
    rw [hright, Option.getD_none] at hlost
    simp at hlost
  | some =>
    rw [hright, Option.getD_some] at hlost
    simp only [grantFences, Option.any_some, hheld, hholder, beq_self_eq_true, Bool.and_true,
      Bool.true_and, bne_iff_ne]
    exact hlost

/-- The rights a grant leaves its subject with. -/
theorem GrantStep.grantedRights_after {action : GrantAction} (h : GrantStep s actor action e) :
    (((RowChange.grant e).acl s.acl)[(e.key, e.subject)]?).getD 0 = action.rights := by
  have hright := h.rights
  simp only [RowChange.acl]
  split_ifs at hright with hzero
  · rw [hright, hzero]
    simp
  · rw [hright]
    simp

/-- A grant leaves every other pair as it was. -/
theorem RowChange.grant_acl_of_ne (acl : Table GrantKey Rights) {k : GrantKey}
    (hk : (e.key, e.subject) ≠ k) : ((RowChange.grant e).acl acl)[k]? = acl[k]? := by
  simp only [RowChange.acl]
  cases e.rights with
  | none => exact Table.get?_erase_of_ne acl hk
  | some rights => exact Table.get?_insert_of_ne acl rights hk

/-- **A command that takes a sustaining right from the present holder ends the tenure.** -/
theorem deliver_lostRights (s : State) (d : Delivery) (key : ResourceKey) (holder : NodeId)
    (hheld : (s.rowOf key).held = true) (hholder : (s.rowOf key).holder = some holder)
    (hlost : lostRights s (deliver ext s d).1 key holder ≠ 0) :
    ((deliver ext s d).1.rowOf key).held = false ∧
      ((deliver ext s d).1.rowOf key).epoch = (s.rowOf key).epoch + 1 ∧
      ((deliver ext s d).1.rowOf key).leaseRevision = (s.rowOf key).leaseRevision + 1 := by
  revert hlost
  refine deliver_elim ext s d (fun _ => absurd (lostRights_eq_zero rfl))
    @fun s' _ _ _ _ _ hstep hdone hlost => ?_
  have hacl := hdone.acl
  have hrows := hdone.resources
  rcases hstep.grants with hsame | ⟨actor, action, e, rfl, hgrant⟩
  · refine absurd (lostRights_eq_zero ?_) hlost
    rw [grantedRights, grantedRights, hacl, hsame]
  by_cases hkey : (e.key, e.subject) = (key, holder)
  · obtain ⟨rfl, rfl⟩ := Prod.mk.inj hkey
    have hafter : grantedRights s' e.key e.subject = action.rights := by
      rw [grantedRights, hacl]
      exact hgrant.grantedRights_after
    rw [lostRights, hafter] at hlost
    -- a held row is there, so the fence reads it and not the default
    cases hrow : s.resources[e.key]? with
    | none =>
      rw [State.rowOf, hrow] at hheld
      cases hheld
    | some row =>
      rw [State.rowOf, hrow] at hheld hholder
      have hfenced := hgrant.fences hrow hheld hholder hlost
      have hnew : s'.rowOf e.key = row.regranted row.aclRevision true := by
        rw [State.rowOf, hrows]
        simp only [RowChange.resources, Table.get?_insert, if_true, Option.getD_some, hgrant.row,
          hrow, hfenced]
      rw [hnew, State.rowOf, hrow]
      exact ⟨rfl, rfl, rfl⟩
  · refine absurd (lostRights_eq_zero ?_) hlost
    rw [grantedRights, grantedRights, hacl, RowChange.grant_acl_of_ne s.acl hkey]

/-- **A tenure never outlives its sustaining rights.**  In every run, across every delivery and for
every resource with a holder:

* if the resource stays held by the same holder in the same epoch, the holder keeps every `RENEW`,
  `MUTATE` and `RELEASE` right it had on it;
* a delivery that takes one of these rights from the holder frees the resource and takes the next
  epoch and the next lease revision. -/
theorem tenure_needs_rights (s₀ : State) (es : List Delivery) (key : ResourceKey)
    (holder : NodeId) :
    (∀ pre d post, es = pre ++ d :: post →
      let s := run (deliver ext) s₀ pre
      let t := run (deliver ext) s₀ (pre ++ [d])
      (s.rowOf key).held = true → (s.rowOf key).holder = some holder →
      (t.rowOf key).held = true → (t.rowOf key).holder = some holder →
      (t.rowOf key).epoch = (s.rowOf key).epoch → lostRights s t key holder = 0) ∧
    (∀ pre d post, es = pre ++ d :: post →
      let s := run (deliver ext) s₀ pre
      let t := run (deliver ext) s₀ (pre ++ [d])
      (s.rowOf key).held = true → (s.rowOf key).holder = some holder →
      lostRights s t key holder ≠ 0 →
        (t.rowOf key).held = false ∧ (t.rowOf key).epoch = (s.rowOf key).epoch + 1 ∧
        (t.rowOf key).leaseRevision = (s.rowOf key).leaseRevision + 1) := by
  have hends : ∀ pre d, let s := run (deliver ext) s₀ pre
      let t := run (deliver ext) s₀ (pre ++ [d])
      (s.rowOf key).held = true → (s.rowOf key).holder = some holder →
      lostRights s t key holder ≠ 0 →
        (t.rowOf key).held = false ∧ (t.rowOf key).epoch = (s.rowOf key).epoch + 1 ∧
        (t.rowOf key).leaseRevision = (s.rowOf key).leaseRevision + 1 := by
    intro pre d s t hheld hholder
    have ht : t = (deliver ext s d).1 := by simp only [s, t, run_append, run_cons, run_nil]
    rw [ht]
    exact deliver_lostRights ext s d key holder hheld hholder
  refine ⟨?_, fun pre d _ _ => hends pre d⟩
  intro pre d post _ s t hheld hholder hheld' _ _
  by_contra hlost
  have hfree := (hends pre d hheld hholder hlost).1
  rw [hheld'] at hfree
  cases hfree

end

end AsterRpc.Coordination

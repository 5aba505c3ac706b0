import AsterRpc.Storage.Valid
import AsterRpc.Coordination.Budget

/-!
# The ledger of a whole run

The two byte counters of a group, from a state whose counters are right to every
state a run of commands reaches.  A state that a store accepts has right counters;
what it need not have is room for the administrators of a genesis that is still to
come, and that is asked for separately.
-/

namespace AsterRpc.Coordination

open AsterRpc.Foundation

/-- The tip is the latest row, and it is not past the log. -/
theorem State.TipValid.auditInPast {s : State} (h : s.TipValid) : AuditInPast s := by
  intro key row hrow
  obtain ⟨top, topRow, -, hle, htip⟩ := rebuildAuditTip_of_row hrow
  obtain ⟨last, hlast, hbehind⟩ := h.behind _ (h.rebuilt.trans htip)
  refine ⟨last, hlast, ?_⟩
  rcases hbehind with hlt | rfl
  · exact Nat.le_trans hle (Nat.le_of_lt hlt)
  · exact hle

section

variable (ext : Externals)

/-- **Byte accounting is exact and bounded.**  From a state whose counters are what its rows weigh
and within their budgets, that keeps no more journals than its cap and no audit row of an entry
still to come, and that, while it has no genesis, has no grants and room for the administrators of
one: in every state a run reaches both counters are what the rows weigh and within their budgets,
and the next command, whichever it is, subtracts nothing below zero. -/
theorem byte_accounting_exact (s₀ : State) (es : List Delivery) (hcounters : CountersMatch ext s₀)
    (hgrowth : s₀.growthBytes ≤ growthBudget) (hreserve : s₀.reserveBytes ≤ reserveBudget)
    (hsess : s₀.sessions.size ≤ maxRetainedSessionsPerGroup) (haudit : AuditInPast s₀)
    (hroom : GenesisRoom s₀) :
    let s := run (deliver ext) s₀ es
    s.growthBytes = s.recomputeGrowth ext ∧ s.reserveBytes = s.recomputeReserve ∧
      s.growthBytes ≤ growthBudget ∧ s.reserveBytes ≤ reserveBudget ∧
      ∀ d : Delivery,
        (applyCommandRecording ext (Working.start s) d.1 d.2).1.underflowed = false := by
  intro s
  have hs : Accounted ext s := run_invariant (fun _ d hs => (hs.deliver d).1)
    ⟨hcounters, hgrowth, hreserve, hsess, haudit, hroom⟩ es
  exact ⟨hs.counters.growth, hs.counters.reserve, hs.growth, hs.reserve, fun d => (hs.deliver d).2⟩

end

/-! ### A row from the future -/

namespace Sample

/-- The voter takes the resource. -/
def acquireResource : Delivery :=
  (entry 2, .client ⟨voter, client, 1, FixedBytes.fill 32 4⟩
    (.resource (.acquire ⟨resource.ns, resource.key⟩ minTtlMs)))

/-- A report that the lease of a resource nobody holds has run out. -/
def staleExpiry (index : ℕ) : Delivery := (entry index, .expire ⟨resource, 0, 0⟩)

/-- The small group before anything is applied, but with an audit row of its first entry; the
counters are what the rows weigh. -/
def foreseen : State :=
  { model with
    audit := (∅ : Table AuditKey AuditRow).insert (1, 1)
      (systemAuditRow (entry 1) operationExpire none sysExpiryStale 0)
    reserveBytes := chargeAudit none
    lastApplied := none }

end Sample

open Sample

theorem byte_accounting_exact_acquire :
    (run (deliver externals) model [acquireResource]).growthBytes = (run (deliver externals) model
          [acquireResource]).recomputeGrowth externals ∧
      (run (deliver externals) model [acquireResource]).reserveBytes =
        (run (deliver externals) model [acquireResource]).recomputeReserve :=
  have h := byte_accounting_exact externals model [acquireResource]
    ⟨by decide +kernel, by decide +kernel⟩ (by decide +kernel) (by decide +kernel)
    (by decide +kernel)
    (checkAuditTip_eq_ok.mp state_validated.rows.tip).auditInPast
    (fun hrev => absurd hrev (by decide))
  ⟨h.1, h.2.1⟩

/-- With an audit row under the key of the next entry, matching counters within their budgets are
not enough: the entry's own row replaces it and is charged on top. -/
theorem foreseen_row_breaks_accounting :
    CountersMatch externals foreseen ∧
    foreseen.growthBytes ≤ growthBudget ∧ foreseen.reserveBytes ≤ reserveBudget ∧
    (deliver externals foreseen (staleExpiry 1)).2.isOk = true ∧
    (deliver externals foreseen (staleExpiry 1)).1.reserveBytes ≠
      (deliver externals foreseen (staleExpiry 1)).1.recomputeReserve :=
  ⟨⟨by decide +kernel, by decide +kernel⟩, by decide +kernel, by decide +kernel,
    by decide +kernel, by decide +kernel⟩

end AsterRpc.Coordination

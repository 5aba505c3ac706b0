import AsterRpc.Foundation.Run

/-!
# Fenced registers

A register names its present tenant and counts, in its epoch, how often the
tenant was replaced.  Whoever holds a copy of the epoch can tell whether it still
speaks for the tenant it was given: an epoch names at most one tenant, and an
epoch that has been left never comes back.

`Fenced.Step` is the abstract machine; a program refines it by showing that each
of its own steps is one of these on every register it keeps.
-/

namespace AsterRpc.Foundation

universe u v w x

/-- A register: who holds it, and under which epoch. -/
structure Fenced (τ : Type u) where
  epoch : ℕ
  tenant : τ

namespace Fenced

variable {τ : Type u}

/-- One step of a register: it stays as it is, or it gets a tenant under the next epoch. -/
inductive Step : Fenced τ → Fenced τ → Prop where
  | stay (r : Fenced τ) : Step r r
  | replace (r : Fenced τ) (tenant : τ) : Step r ⟨r.epoch + 1, tenant⟩

/-- `b` is `a` at the same time or later: the epoch did not go back, and within one epoch the
tenant is the same. -/
def Precedes (a b : Fenced τ) : Prop :=
  a.epoch ≤ b.epoch ∧ (a.epoch = b.epoch → a.tenant = b.tenant)

theorem Precedes.refl (a : Fenced τ) : Precedes a a := ⟨Nat.le_refl _, fun _ => rfl⟩

theorem Precedes.trans {a b c : Fenced τ} (hab : Precedes a b) (hbc : Precedes b c) :
    Precedes a c := by
  refine ⟨Nat.le_trans hab.1 hbc.1, fun heq => ?_⟩
  have hepoch : a.epoch = b.epoch := by
    have h₁ := hab.1
    have h₂ := hbc.1
    omega
  rw [hab.2 hepoch]
  exact hbc.2 (by omega)

variable {a b : Fenced τ}

theorem Step.precedes (h : Step a b) : Precedes a b := by
  cases h with
  | stay => exact Precedes.refl a
  | replace =>
    refine ⟨Nat.le_succ _, fun heq => ?_⟩
    exact absurd heq (Nat.ne_of_lt (Nat.lt_succ_self _))

theorem Step.lt_or_eq (h : Step a b) : a.epoch < b.epoch ∨ b = a := by
  cases h with
  | stay => exact .inr rfl
  | replace => exact .inl (Nat.lt_succ_self _)

/-- A change of tenant takes a new epoch. -/
theorem Precedes.epoch_lt (h : Precedes a b) (hne : a.tenant ≠ b.tenant) :
    a.epoch < b.epoch :=
  Nat.lt_of_le_of_ne h.1 fun heq => hne (h.2 heq)

variable {σ : Type v} {ι : Type w} {ρ : Type x} {step : σ → ι → σ × ρ}

/-- **Refinement carries over to runs**: if each step of a machine is a step of the register it
keeps, then over any run the register only moves forward. -/
theorem run_precedes (view : σ → Fenced τ) (hstep : ∀ s e, Step (view s) (view (step s e).1))
    (s : σ) (es : List ι) : Precedes (view s) (view (run step s es)) :=
  run_relates (R := fun a b => Precedes (view a) (view b)) (fun _ => Precedes.refl _)
    Precedes.trans (fun s e => (hstep s e).precedes) s es

/-- **Of two inputs that expect one epoch, at most one replaces the tenant**, whatever comes between
them: the first replacement leaves the epoch for good. -/
theorem replaces_once (view : σ → Fenced τ) (hstep : ∀ s e, Step (view s) (view (step s e).1))
    (expects : ι → Option ℕ)
    (hexp : ∀ s e r, expects e = some r → (view s).tenant ≠ (view (step s e).1).tenant →
      (view s).epoch = r)
    (s : σ) (mid : List ι) {e₁ e₂ : ι} {r : ℕ} (h₁ : expects e₁ = some r)
    (h₂ : expects e₂ = some r) :
    (view s).tenant = (view (step s e₁).1).tenant ∨
      (view (run step (step s e₁).1 mid)).tenant =
        (view (step (run step (step s e₁).1 mid) e₂).1).tenant := by
  by_contra hboth
  obtain ⟨hfirst, hsecond⟩ := not_or.mp hboth
  have hleft := (hstep s e₁).precedes.epoch_lt hfirst
  have hlater := (run_precedes view hstep (step s e₁).1 mid).1
  have hpre := hexp s e₁ r h₁ hfirst
  have hagain := hexp _ e₂ r h₂ hsecond
  omega

end Fenced

end AsterRpc.Foundation

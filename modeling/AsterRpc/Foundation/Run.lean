import Mathlib

/-!
# Runs of a deterministic machine

A machine takes a state and an input to the next state and an output.  A run
feeds it a list of inputs.  What every step preserves, every run preserves; what
every step relates, every run relates by reflexivity and transitivity; and when
only some steps behave, the steps of the run must be asked to.
-/

namespace AsterRpc.Foundation

universe u v w

variable {σ : Type u} {ι : Type v} {ρ : Type w} (step : σ → ι → σ × ρ) {P : σ → ι → Prop}
  {I J : σ → Prop} {s : σ} {es : List ι} {R : σ → σ → Prop}

/-- The state a list of inputs leads to. -/
def run (s : σ) : List ι → σ
  | [] => s
  | e :: rest => run (step s e).1 rest

@[simp] theorem run_nil (s : σ) : run step s [] = s := rfl

@[simp] theorem run_cons (s : σ) (e : ι) (rest : List ι) :
    run step s (e :: rest) = run step (step s e).1 rest := rfl

theorem run_append (s : σ) (xs ys : List ι) :
    run step s (xs ++ ys) = run step (run step s xs) ys := by
  induction xs generalizing s with
  | nil => rfl
  | cons e rest ih => exact ih (step s e).1

/-- The outputs of a run, one per input. -/
def outputs (s : σ) : List ι → List ρ
  | [] => []
  | e :: rest => (step s e).2 :: outputs (step s e).1 rest

/-- Every step of the run satisfies `P` in the state it is taken from. -/
def EveryStep (P : σ → ι → Prop) (s : σ) : List ι → Prop
  | [] => True
  | e :: rest => P s e ∧ EveryStep P (step s e).1 rest

variable {step}

/-- What each step that satisfies `P` preserves, a run of such steps preserves. -/
theorem run_invariant_of (hstep : ∀ s e, I s → P s e → I (step s e).1) (h : I s)
    (hsteps : EveryStep step P s es) : I (run step s es) := by
  induction es generalizing s with
  | nil => exact h
  | cons e rest ih => exact ih (hstep s e h hsteps.1) hsteps.2

/-- A condition on the inputs alone holds at every step if it holds of every input. -/
theorem everyStep_of_forall {P : ι → Prop} (h : ∀ e ∈ es, P e) :
    EveryStep step (fun _ e => P e) s es := by
  induction es generalizing s with
  | nil => trivial
  | cons e rest ih =>
    exact ⟨h e List.mem_cons_self, ih fun x hx => h x (List.mem_cons_of_mem e hx)⟩

theorem everyStep_true (s : σ) (es : List ι) : EveryStep step (fun _ _ => True) s es := by
  induction es generalizing s with
  | nil => trivial
  | cons e rest ih => exact ⟨trivial, ih _⟩

/-- Two conditions on steps that agree wherever `J` holds agree along a run, when the steps that
satisfy the second keep `J`. -/
theorem everyStep_congr_of {Q : σ → ι → Prop} (hkeeps : ∀ s e, J s → Q s e → J (step s e).1)
    (hiff : ∀ s e, J s → (P s e ↔ Q s e)) (hs : J s) (es : List ι) :
    EveryStep step P s es ↔ EveryStep step Q s es := by
  induction es generalizing s with
  | nil => exact Iff.rfl
  | cons e rest ih =>
    rw [EveryStep, EveryStep, hiff s e hs]
    exact and_congr_right fun he => ih (hkeeps s e hs he)

theorem run_invariant (hstep : ∀ s e, I s → I (step s e).1) (h : I s) (es : List ι) :
    I (run step s es) :=
  run_invariant_of (fun s e hs _ => hstep s e hs) h (everyStep_true s es)

/-- When exactly the steps that satisfy `P` preserve `I`, every state a run reaches satisfies `I`
exactly when every step of the run satisfies `P`; `J` may be used along the way. -/
theorem reached_iff_everyStep (hkeeps : ∀ s e, J s → J (step s e).1)
    (hstep : ∀ s e, J s → I s → (I (step s e).1 ↔ P s e)) (hj : J s) (hi : I s) (es : List ι) :
    (∀ pre, pre <+: es → I (run step s pre)) ↔ EveryStep step P s es := by
  induction es generalizing s with
  | nil =>
    refine ⟨fun _ => trivial, fun _ pre hpre => ?_⟩
    rw [List.prefix_nil.mp hpre]
    exact hi
  | cons e rest ih =>
    constructor
    · intro h
      have hnext : I (step s e).1 := h [e] (by simp)
      refine ⟨(hstep s e hj hi).mp hnext, (ih (hkeeps s e hj) hnext).mp fun pre hpre => ?_⟩
      exact h (e :: pre) (List.cons_prefix_cons.mpr ⟨rfl, hpre⟩)
    · rintro ⟨he, hrest⟩ pre hpre
      have hnext := (hstep s e hj hi).mpr he
      cases pre with
      | nil => exact hi
      | cons e' pre =>
        obtain ⟨rfl, htail⟩ := List.cons_prefix_cons.mp hpre
        exact (ih (hkeeps s e' hj) hnext).mpr hrest pre htail

/-- A reflexive and transitive relation that holds across each step from a state with the invariant
`J` holds across a run. -/
theorem run_relates_of (hrefl : ∀ s, R s s) (htrans : ∀ {a b c}, R a b → R b c → R a c)
    (hkeeps : ∀ s e, J s → J (step s e).1) (hstep : ∀ s e, J s → R s (step s e).1) (hs : J s)
    (es : List ι) : R s (run step s es) := by
  induction es generalizing s with
  | nil => exact hrefl s
  | cons e rest ih => exact htrans (hstep s e hs) (ih (hkeeps s e hs))

/-- A reflexive and transitive relation that holds across each step holds across a run. -/
theorem run_relates (hrefl : ∀ s, R s s) (htrans : ∀ {a b c}, R a b → R b c → R a c)
    (hstep : ∀ s e, R s (step s e).1) (s : σ) (es : List ι) : R s (run step s es) :=
  run_relates_of (J := fun _ => True) hrefl htrans (fun _ _ _ => trivial) (fun s e _ => hstep s e)
    trivial es

/-- A run that leaves `I` leaves it at one of its steps. -/
theorem run_leaves (h : I s) (hnot : ¬ I (run step s es)) :
    ∃ pre e post, es = pre ++ e :: post ∧ I (run step s pre) ∧
      ¬ I (step (run step s pre) e).1 := by
  induction es generalizing s with
  | nil => exact absurd h hnot
  | cons e rest ih =>
    by_cases hnext : I (step s e).1
    · obtain ⟨pre, e', post, rfl, hpre, hleaves⟩ := ih hnext hnot
      exact ⟨e :: pre, e', post, rfl, hpre, hleaves⟩
    · exact ⟨[], e, rest, rfl, h, hnext⟩

end AsterRpc.Foundation

import Mathlib

/-!
# Checks that refuse

A validator is a sequence of tests, each of which refuses with its own error;
the first test that fires decides the error.  Written in the `Except` monad such
a validator accepts exactly when none of its tests fires, and the simp set below
turns "accepts" into that conjunction.
-/

namespace AsterRpc.Foundation

universe u v

variable {ε : Type u}

/-- Refuse with `e` when `c` holds: `if c { return Err(e) }`. -/
def refuseIf (c : Bool) (e : ε) : Except ε Unit := if c then .error e else .ok ()

/-- Run one check on every element, in order, up to the first refusal. -/
def checkAll {α : Type v} (check : α → Except ε Unit) : List α → Except ε Unit
  | [] => .ok ()
  | x :: rest => do
    check x
    checkAll check rest

/-- Run a check on a value that may be absent; `if let Some(x) = o { check(x)? }`. -/
def checkOption {α : Type v} (check : α → Except ε Unit) : Option α → Except ε Unit
  | none => .ok ()
  | some a => check a

/-- What an optional lookup must yield: `ok_or(e)?`. -/
def requireSome {α : Type v} (x : Option α) (e : ε) : Except ε α :=
  match x with
  | some a => .ok a
  | none => .error e

section Accepts

variable {α β : Type} {c : Bool} {e e' : ε} {a : α} {x : Except ε α} {f : α → Except ε β} {r : β}
  {check : α → Except ε Unit} {xs : List α}

@[simp] theorem refuseIf_eq_ok : refuseIf c e = .ok () ↔ c = false := by
  cases c <;> simp [refuseIf]

theorem refuseIf_eq_error : refuseIf c e = .error e' ↔ c = true ∧ e = e' := by
  cases c <;> simp [refuseIf]

@[simp] theorem requireSome_eq_ok {x : Option α} : requireSome x e = .ok a ↔ x = some a := by
  cases x <;> simp [requireSome]

theorem requireSome_eq_error {x : Option α} : requireSome x e = .error e' ↔ x = none ∧ e = e' := by
  cases x <;> simp [requireSome]

/-- A sequenced check accepts when the first part does and then the second. -/
@[simp] theorem bind_accepts : (x >>= f) = .ok r ↔ ∃ a, x = .ok a ∧ f a = .ok r := by
  cases x with
  | error => simp [bind, Except.bind]
  | ok => simp [bind, Except.bind]

/-- What was accepted is passed on. -/
theorem ok_bind (a : α) (f : α → Except ε β) : (Except.ok a >>= f) = f a := rfl

theorem refuseIf_false (e : ε) : refuseIf false e = .ok () := rfl

theorem requireSome_some (a : α) (e : ε) : requireSome (some a) e = .ok a := rfl

/-- A sequenced check refuses when the first part does, or the second after it. -/
theorem bind_refuses : (x >>= f) = .error e ↔ x = .error e ∨ ∃ a, x = .ok a ∧ f a = .error e := by
  cases x with
  | error => simp [bind, Except.bind]
  | ok => simp [bind, Except.bind]

/-- A check that accepts yields nothing to choose. -/
@[simp] theorem exists_unit {p : Unit → Prop} : (∃ u, p u) ↔ p () :=
  ⟨fun ⟨(), h⟩ => h, fun h => ⟨(), h⟩⟩

@[simp] theorem checkAll_eq_ok : checkAll check xs = .ok () ↔ ∀ x ∈ xs, check x = .ok () := by
  induction xs with
  | nil => simp [checkAll]
  | cons x rest ih => simp [checkAll, ih]

/-- The first refusal of a list of checks is that of one of its elements. -/
theorem checkAll_error (h : checkAll check xs = .error e) : ∃ x ∈ xs, check x = .error e := by
  induction xs with
  | nil => cases h
  | cons x rest ih =>
    rw [checkAll, bind_refuses] at h
    rcases h with hx | ⟨_, -, hrest⟩
    · exact ⟨x, List.mem_cons_self, hx⟩
    · obtain ⟨y, hy, hcheck⟩ := ih hrest
      exact ⟨y, List.mem_cons_of_mem x hy, hcheck⟩

theorem map_eq_ok {f : α → β} : x.map f = .ok r ↔ ∃ a, x = .ok a ∧ f a = r := by
  cases x <;> simp [Except.map]

/-- Naming an error anew refuses nothing else. -/
theorem mapError_accepts {ε' : Type} {f : ε → ε'} : x.mapError f = .ok a ↔ x = .ok a := by
  cases x <;> simp [Except.mapError]

theorem ok_or_error (x : Except ε α) : (∃ a, x = .ok a) ∨ ∃ e, x = .error e := by
  cases x with
  | ok a => exact .inl ⟨a, rfl⟩
  | error e => exact .inr ⟨e, rfl⟩

theorem isOk_iff : x.isOk = true ↔ ∃ a, x = .ok a := by
  cases x <;> simp [Except.isOk, Except.toBool]

@[simp] theorem checkOption_eq_ok {o : Option α} :
    checkOption check o = .ok () ↔ ∀ a, o = some a → check a = .ok () := by
  cases o <;> simp [checkOption]

end Accepts

/-- The simp set of a sequence of checks: what it takes to accept. -/
theorem accepts_iff :
    (∀ {ε α β : Type} {x : Except ε α} {f : α → Except ε β} {r : β},
      (x >>= f) = .ok r ↔ ∃ a, x = .ok a ∧ f a = .ok r) ∧
    (∀ {p : Unit → Prop}, (∃ u, p u) ↔ p ()) ∧
    (∀ {ε : Type} {c : Bool} {e : ε}, refuseIf c e = .ok () ↔ c = false) ∧
    (∀ {ε α : Type} {x : Option α} {e : ε} {a : α}, requireSome x e = .ok a ↔ x = some a) ∧
    (∀ {ε α : Type} {a b : α}, (Except.ok a : Except ε α) = .ok b ↔ a = b) ∧
    (∀ {ε α : Type} {a b : α}, (pure a : Except ε α) = .ok b ↔ a = b) ∧
    (∀ {α β : Type} {p : α × β → Prop}, (∃ x, p x) ↔ ∃ a b, p (a, b)) ∧
    (∀ {b : Bool}, (!b) = false ↔ b = true) ∧
    (∀ {α : Type} [BEq α] [LawfulBEq α] {a b : α}, (a != b) = false ↔ a = b) ∧
    (∀ {p : Prop} [Decidable p], decide p = false ↔ ¬ p) ∧
    (∀ {a b : ℕ}, a > b ↔ b < a) ∧ ∀ {a b : ℕ}, ¬ a < b ↔ b ≤ a :=
  ⟨bind_accepts, exists_unit, refuseIf_eq_ok, requireSome_eq_ok, by simp,
    by simp [pure, Except.pure],
    Prod.exists, by simp, bne_eq_false_iff_eq, decide_eq_false_iff_not, Iff.rfl, Nat.not_lt⟩

/-! ### Two computations side by side -/

/-- Two computations that refuse alike, and accept with related results. -/
inductive Alike {α β : Type v} (R : α → β → Prop) : Except ε α → Except ε β → Prop where
  | error (e : ε) : Alike R (.error e) (.error e)
  | ok {a : α} {b : β} (h : R a b) : Alike R (.ok a) (.ok b)

namespace Alike

variable {α β γ δ : Type v} {R : α → β → Prop} {Q : γ → δ → Prop} {x : Except ε α} {y : Except ε β}
  {f : α → Except ε γ}

theorem bind {g : β → Except ε δ} (h : Alike R x y) (hrest : ∀ a b, R a b → Alike Q (f a) (g b)) :
    Alike Q (x >>= f) (y >>= g) := by
  cases h with
  | error e => exact .error e
  | ok hab => exact hrest _ _ hab

/-- After a common first part. -/
theorem after (x : Except ε α) {g : α → Except ε δ} (hrest : ∀ a, Alike Q (f a) (g a)) :
    Alike Q (x >>= f) (x >>= g) := by
  cases x with
  | error e => exact .error e
  | ok a => exact hrest a

theorem ok_left {a : α} (h : Alike R (.ok a) y) : ∃ b, y = .ok b ∧ R a b := by
  cases h with
  | ok hab => exact ⟨_, rfl, hab⟩

theorem error_left {e : ε} (h : Alike R (.error e) y) : y = .error e := by
  cases h with
  | error => rfl

theorem map {f : α → γ} {g : β → δ} (h : Alike R x y) (hmap : ∀ a b, R a b → Q (f a) (g b)) :
    Alike Q (x.map f) (y.map g) := by
  cases h with
  | error e => exact .error e
  | ok hab => exact .ok (hmap _ _ hab)

end Alike

/-! ### Lists read element by element -/

section Lists

open List

variable {α β : Type} {R : α → β → Prop} {as : List α} {bs : List β}

theorem forall₂_mem (h : Forall₂ R as bs) :
    (∀ a ∈ as, ∃ b ∈ bs, R a b) ∧ ∀ b ∈ bs, ∃ a ∈ as, R a b := by
  induction h with
  | nil => simp
  | cons hab _ ih =>
    refine ⟨forall_mem_cons.mpr ⟨⟨_, mem_cons_self, hab⟩, fun a ha => ?_⟩,
      forall_mem_cons.mpr ⟨⟨_, mem_cons_self, hab⟩, fun b hb => ?_⟩⟩
    · obtain ⟨b, hb, hr⟩ := ih.1 a ha
      exact ⟨b, mem_cons_of_mem _ hb, hr⟩
    · obtain ⟨a, ha, hr⟩ := ih.2 b hb
      exact ⟨a, mem_cons_of_mem _ ha, hr⟩

theorem exists_forall₂ (h : ∀ a ∈ as, ∃ b, R a b) : ∃ bs, Forall₂ R as bs := by
  induction as with
  | nil => exact ⟨[], .nil⟩
  | cons a rest ih =>
    obtain ⟨⟨b, hb⟩, hrest⟩ := forall_mem_cons.mp h
    obtain ⟨bs, hbs⟩ := ih hrest
    exact ⟨b :: bs, .cons hb hbs⟩

end Lists

end AsterRpc.Foundation

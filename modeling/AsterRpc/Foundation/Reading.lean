import AsterRpc.Foundation.Checks

/-!
# Readers

A reader takes a value off the front of some bytes.  It is exact for a writer
when it accepts precisely what the writer writes of a valid value, whatever
stands behind it; then reading inverts writing and writing inverts reading.  A
reader extends another when it accepts all that the other accepts, alike.
-/

namespace AsterRpc.Foundation

open List

universe u

/-- Take a value off the front of some bytes. -/
abbrev Reader (ε α : Type) := List UInt8 → Except ε (α × List UInt8)

section

variable {ε α β : Type}

/-- The reader accepts exactly what the writer writes of a valid value. -/
def Exact (read : Reader ε α) (write : α → List UInt8) (valid : α → Prop) : Prop :=
  ∀ bytes a rest, read bytes = .ok (a, rest) ↔ valid a ∧ bytes = write a ++ rest

/-- The second reader accepts what the first does, alike. -/
def Extends (read read' : Reader ε α) : Prop :=
  ∀ bytes r, read bytes = .ok r → read' bytes = .ok r

/-- Read a number of values one after the other. -/
def readMany (read : Reader ε α) : ℕ → Reader ε (List α)
  | 0, bytes => .ok ([], bytes)
  | count + 1, bytes => do
    let (a, bytes) ← read bytes
    let (rest, bytes) ← readMany read count bytes
    return (a :: rest, bytes)

theorem readMany_eq_ok {read : Reader ε α} {write : α → List UInt8} {valid : α → Prop}
    (h : Exact read write valid) {count : ℕ} {bytes rest : List UInt8} {xs : List α} :
    readMany read count bytes = .ok (xs, rest) ↔
      xs.length = count ∧ (∀ x ∈ xs, valid x) ∧ bytes = (xs.map write).flatten ++ rest := by
  induction count generalizing bytes xs with
  | zero =>
    constructor
    · intro hok
      cases hok
      exact ⟨rfl, fun x hx => absurd hx not_mem_nil, rfl⟩
    · rintro ⟨hlen, -, rfl⟩
      rw [length_eq_zero_iff.mp hlen]
      rfl
  | succ count ih =>
    simp only [readMany, accepts_iff, h _ _ _]
    constructor
    · rintro ⟨a, mid, ⟨ha, rfl⟩, as, end', has, hok⟩
      cases hok
      obtain ⟨hlen, hvalid, rfl⟩ := ih.mp has
      refine ⟨by rw [length_cons, hlen], ?_, ?_⟩
      · intro x hx
        rcases mem_cons.mp hx with rfl | hx
        · exact ha
        · exact hvalid x hx
      · rw [map_cons, flatten_cons, append_assoc]
    · rintro ⟨hlen, hvalid, rfl⟩
      cases xs with
      | nil => cases hlen
      | cons a as =>
        refine ⟨a, _, ⟨hvalid a mem_cons_self, ?_⟩, as, rest, ih.mpr ⟨?_, ?_, rfl⟩, rfl⟩
        · rw [map_cons, flatten_cons, append_assoc]
        · exact Nat.succ.inj hlen
        · exact fun x hx => hvalid x (mem_cons_of_mem a hx)

/-- Read a value and go on.  What is left to read says of which values (`same`) it accepts what. -/
theorem exact_bind {read : Reader ε α} {write : α → List UInt8} {valid : α → Prop}
    (h : Exact read write valid) (a : α) {bytes tail : List UInt8} {r : β × List UInt8}
    {next : α × List UInt8 → Except ε (β × List UInt8)} {same ok : Prop}
    (hnext : ∀ a' mid, next (a', mid) = .ok r ↔ (same ∧ a' = a) ∧ ok ∧ mid = tail) :
    read bytes >>= next = .ok r ↔ same ∧ (valid a ∧ ok) ∧ bytes = write a ++ tail := by
  rw [bind_accepts]
  constructor
  · rintro ⟨⟨a', mid⟩, hread, hok⟩
    obtain ⟨⟨hsame, rfl⟩, hvalid, rfl⟩ := (hnext a' mid).mp hok
    obtain ⟨ha, rfl⟩ := (h _ _ _).mp hread
    exact ⟨hsame, ⟨ha, hvalid⟩, rfl⟩
  · rintro ⟨hsame, ⟨ha, hok⟩, rfl⟩
    exact ⟨(a, tail), (h _ _ _).mpr ⟨ha, rfl⟩, (hnext a tail).mpr ⟨⟨hsame, rfl⟩, hok, rfl⟩⟩

theorem exact_pure {same : Prop} {a b : β} {mid rest : List UInt8} (h : a = b ↔ same) :
    (.ok (a, mid) : Except ε _) = .ok (b, rest) ↔ same ∧ True ∧ mid = rest := by
  rw [Except.ok.injEq, Prod.mk.injEq, h, true_and]

/-- One step after the other, each accepting what its like accepts. -/
theorem extends_bind {x x' : Except ε β} {k k' : β → Except ε α}
    (h : ∀ b, x = .ok b → x' = .ok b) (hk : ∀ b a, k b = .ok a → k' b = .ok a) :
    ∀ a, x >>= k = .ok a → x' >>= k' = .ok a := by
  intro a hok
  obtain ⟨b, hb, ha⟩ := bind_accepts.mp hok
  exact bind_accepts.mpr ⟨b, h b hb, hk b a ha⟩

theorem readMany_extends {read read' : Reader ε α} (h : Extends read read') (count : ℕ) :
    Extends (readMany read count) (readMany read' count) := by
  induction count with
  | zero => exact fun bytes r hok => hok
  | succ count ih =>
    exact fun bytes => extends_bind (h bytes) fun (_, r) => extends_bind (ih r) fun _ _ hok => hok

end

end AsterRpc.Foundation

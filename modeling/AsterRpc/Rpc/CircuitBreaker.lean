import AsterRpc.Foundation.Run

/-!
# The circuit breaker of a client

The unary calls of a connection share a breaker.  A call asks it before each
attempt and tells it how the attempt ended.  After enough failures in a row the
breaker opens, and a call that asks once the recovery time has passed is let
through as a probe, which starts the recovery time anew.

Nothing ties what is told to the call that was let through.  A second probe goes
through when the first takes longer than the recovery time, and the success of an
attempt from before the opening closes the breaker.  These are the only ways: in
every other run one probe at a time is unresolved, and only its success closes.
-/

namespace AsterRpc.Rpc

open AsterRpc.Foundation Function

/-! ### The breaker -/

structure CbState where
  failures : ℕ
  threshold : ℕ
  recovery : ℕ
  openedAt : Option ℕ

namespace CbState

def new (failureThreshold recovery : ℕ) : CbState := ⟨0, max failureThreshold 1, recovery, none⟩

def allow (s : CbState) (now : ℕ) : CbState × Bool :=
  match s.openedAt with
  | none => (s, true)
  | some opened =>
    if now - opened ≥ s.recovery then ({ s with openedAt := some now }, true) else (s, false)

def recordSuccess (s : CbState) : CbState := { s with failures := 0, openedAt := none }

/-- The count is a `u32`. -/
def recordFailure (s : CbState) (now : ℕ) : CbState :=
  let failures := (s.failures + 1) % 2 ^ 32
  { s with
    failures := failures
    openedAt := if failures ≥ s.threshold then some now else s.openedAt }

end CbState

/-! ### Calls that share a breaker -/

/-- The calls of a connection.  Of each call whose attempt is unresolved there is a history: whether
it was let through after the breaker opened. -/
structure Caller where
  breaker : CbState
  now : ℕ
  attempts : ℕ → Option Bool

/-- Time passes; a call in `run_unary` asks before its next attempt, has the attempt succeed or
fail, or is dropped. -/
inductive CallEvent where
  | tick (elapsed : ℕ)
  | ask (call : ℕ)
  | succeed (call : ℕ)
  | fail (call : ℕ)
  | abandon (call : ℕ)

namespace Caller

def start (failureThreshold recovery : ℕ) : Caller :=
  ⟨.new failureThreshold recovery, 0, fun _ => none⟩

/-- One event, with the message of an error that is returned without reaching the transport. -/
def step (s : Caller) : CallEvent → Caller × Option String
  | .tick elapsed => ({ s with now := s.now + elapsed }, none)
  | .ask call =>
    match s.attempts call, s.breaker.allow s.now with
    | none, (breaker, true) =>
      ({ s with
         breaker := breaker
         attempts := update s.attempts call (some s.breaker.openedAt.isSome) }, none)
    | none, (_, false) => (s, some "circuit breaker open")
    | some _, _ => (s, none)
  | .succeed call =>
    match s.attempts call with
    | none => (s, none)
    | some _ =>
      ({ s with
         breaker := s.breaker.recordSuccess
         attempts := update s.attempts call none }, none)
  | .fail call =>
    match s.attempts call with
    | none => (s, none)
    | some _ =>
      ({ s with
         breaker := s.breaker.recordFailure s.now
         -- when the breaker opens now, nobody was let through after that
         attempts := update (fun other => (s.attempts other).map fun probe =>
           probe && s.breaker.openedAt.isSome) call none }, none)
  | .abandon call => ({ s with attempts := update s.attempts call none }, none)

/-- The call was let through after the breaker opened, and is unresolved. -/
def Probes (s : Caller) (call : ℕ) : Prop := s.attempts call = some true

/-- While the breaker is open, there is at most one probe. -/
def OneProbe (s : Caller) : Prop :=
  s.breaker.openedAt ≠ none → ∀ call call', s.Probes call → s.Probes call' → call = call'

/-- What the breaker is for, over one event: there is one probe, a call that asks meanwhile is
refused, and only the success of a probe closes the breaker. -/
structure Guarded (s : Caller) (e : CallEvent) : Prop where
  one : (step s e).1.OneProbe
  refused : ∀ call, e = .ask call → s.attempts call = none → s.breaker.openedAt ≠ none →
    (∃ probe, s.Probes probe) → (step s e).2 = some "circuit breaker open"
  closed : s.breaker.openedAt ≠ none → (step s e).1.breaker.openedAt = none →
    ∃ call, e = .succeed call ∧ s.Probes call

/-- When the recovery time has passed for a call that asks, no probe is unresolved; and a success
while the breaker is open is that of a probe. -/
structure Timely (s : Caller) (e : CallEvent) : Prop where
  ask : ∀ call opened, e = .ask call → s.attempts call = none → s.breaker.openedAt = some opened →
    s.now - opened ≥ s.breaker.recovery → ∀ probe, ¬ s.Probes probe
  succeed : ∀ call probe, e = .succeed call → s.attempts call = some probe →
    s.breaker.openedAt ≠ none → s.Probes call

variable {s : Caller}

/-- Fewer probes, under a breaker that was open. -/
theorem OneProbe.of_probes (h : s.OneProbe) {s' : Caller}
    (hopened : s'.breaker.openedAt ≠ none → (∃ call, s'.Probes call) → s.breaker.openedAt ≠ none)
    (hprobes : ∀ call, s'.Probes call → s.Probes call) : s'.OneProbe :=
  fun hopen a b ha hb => h (hopened hopen ⟨a, ha⟩) a b (hprobes a ha) (hprobes b hb)

/-- A call whose attempt ends is no probe any more. -/
theorem of_update_none {attempts : ℕ → Option Bool} {call other : ℕ}
    (h : update attempts call none other = some true) : attempts other = some true := by
  rw [update_apply] at h
  split_ifs at h
  exact h

theorem step_oneProbe (hone : s.OneProbe) {e : CallEvent} (h : s.Timely e) :
    (step s e).1.OneProbe := by
  cases e with
  | tick => exact hone
  | abandon => exact hone.of_probes (fun hopen _ => hopen) fun _ => of_update_none
  | ask call =>
    cases hcall : s.attempts call with
    | some => simpa only [step, hcall] using hone
    | none =>
      cases hopened : s.breaker.openedAt with
      | none =>
        simp only [step, hcall, CbState.allow, hopened]
        exact fun hopen => absurd hopened hopen
      | some opened =>
        by_cases helapsed : s.now - opened ≥ s.breaker.recovery
        · -- no probe is unresolved, so that the call becomes the only one
          have honly : ∀ other, update s.attempts call (some true) other = some true →
              other = call := by
            intro other hprobe
            by_contra hne
            rw [update_of_ne hne] at hprobe
            exact h.ask call opened rfl hcall hopened helapsed other hprobe
          simp only [step, hcall, CbState.allow, hopened, helapsed, if_true]
          exact fun _ a b ha hb => (honly a ha).trans (honly b hb).symm
        · simpa only [step, hcall, CbState.allow, hopened, helapsed, if_false] using hone
  | succeed call =>
    cases hcall : s.attempts call with
    | none => simpa only [step, hcall] using hone
    | some =>
      simp only [step, hcall]
      exact fun hopen => absurd rfl hopen
  | fail call =>
    cases hcall : s.attempts call with
    | none => simpa only [step, hcall] using hone
    | some =>
      have hkept : ∀ other, (step s (.fail call)).1.Probes other →
          s.Probes other ∧ s.breaker.openedAt ≠ none := by
        intro other hprobe
        simp only [step, hcall, Probes] at hprobe
        simpa [Probes, Option.ne_none_iff_isSome] using of_update_none hprobe
      exact hone.of_probes (fun _ ⟨other, hprobe⟩ => (hkept other hprobe).2)
        fun other hprobe => (hkept other hprobe).1

/-- Where there is one probe at most, an event is guarded exactly when it is timely. -/
theorem guarded_iff (hone : s.OneProbe) (e : CallEvent) : s.Guarded e ↔ s.Timely e := by
  constructor
  · intro h
    constructor
    · rintro call opened rfl hcall hopened helapsed probe hprobe
      have hrefused := h.refused call rfl hcall (by simp [hopened]) ⟨probe, hprobe⟩
      simp [step, hcall, CbState.allow, hopened, helapsed] at hrefused
    · rintro call probe rfl hcall hopen
      obtain ⟨_, heq, hprobe⟩ := h.closed hopen (by simp [step, hcall, CbState.recordSuccess])
      cases heq
      exact hprobe
  · intro h
    refine ⟨step_oneProbe hone h, ?_, fun hopen hclosed => ?_⟩
    · rintro call rfl hcall hopen ⟨probe, hprobe⟩
      obtain ⟨opened, hopened⟩ := Option.ne_none_iff_exists'.mp hopen
      have hwait : ¬ s.now - opened ≥ s.breaker.recovery := fun helapsed =>
        h.ask call opened rfl hcall hopened helapsed probe hprobe
      simp [step, hcall, CbState.allow, hopened, hwait]
    · obtain ⟨opened, hopened⟩ := Option.ne_none_iff_exists'.mp hopen
      cases e with
      | tick | abandon => exact absurd hclosed hopen
      | ask call =>
        cases hcall : s.attempts call <;> simp only [step, hcall, CbState.allow, hopened] at hclosed
        · split_ifs at hclosed
          exact absurd hclosed hopen
        · cases hclosed
      | succeed call =>
        cases hcall : s.attempts call with
        | some probe => exact ⟨call, rfl, h.succeed call probe rfl hcall hopen⟩
        | none => simp [step, hcall, hopened] at hclosed
      | fail call =>
        cases hcall : s.attempts call <;>
          simp only [step, hcall, CbState.recordFailure, hopened] at hclosed
        · cases hclosed
        · split_ifs at hclosed

/-- **One probe at a time, when probes are fast.**  In every run of concurrent calls, on every
clock: at most one call that was let through after the breaker opened is unresolved, every call that
asks meanwhile is refused, and only the success of such a call closes the breaker, exactly when no
probe is unresolved at the time the next is let through and no attempt from before the opening
succeeds while the breaker is open. -/
theorem guarded_iff_timely (failureThreshold recovery : ℕ) (es : List CallEvent) :
    EveryStep step Guarded (start failureThreshold recovery) es ↔
      EveryStep step Timely (start failureThreshold recovery) es := by
  have hone : (start failureThreshold recovery).OneProbe := fun hopen => absurd rfl hopen
  exact everyStep_congr_of (J := OneProbe) (fun _ _ hs htimely => step_oneProbe hs htimely)
    (fun _ e hs => guarded_iff hs e) hone es

/-- **A slow probe and a late success.**  With a recovery time of 10, call 1 opens the breaker while
call 0 is in flight; the probes 2 and 3, let through 10 apart, are unresolved together, and the
success of call 0 closes the breaker. -/
theorem two_probes_and_stale_success :
    let s := run step (start 1 10)
      [.ask 0, .ask 1, .fail 1, .tick 10, .ask 2, .tick 10, .ask 3]
    s.breaker.openedAt = some 20 ∧ s.attempts 2 = some true ∧ s.attempts 3 = some true ∧
      s.attempts 0 = some false ∧ (step s (.succeed 0)).1.breaker.openedAt = none := by
  decide

end Caller

end AsterRpc.Rpc

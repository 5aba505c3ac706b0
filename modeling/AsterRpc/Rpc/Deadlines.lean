import AsterRpc.Foundation.Table
import Mathlib.Logic.Relation

/-!
# The deadline queue

Calls register what is to run when their time is over, and a single task sleeps until the earliest
of these entries.  A registration whose entry is the earliest wakes the task, but only after it has
given the lock up: until it does, the task may sleep past the new entry.  But for that moment it
never does, and an action runs once, not before its time, and only if its guard was still there.
-/

namespace AsterRpc.Rpc

open AsterRpc.Foundation List
open Std (ExtTreeMap)

/-- The expiry, and a number that makes equal instants distinct. -/
abbrev DeadlineKey := ℕ × ℕ

/-- Where the timer task is in its loop.  Once it has scanned it runs what it fired, and then waits
until the next expiry or a permit. -/
inductive TimerTask where
  | unstarted
  | scanning
  | scanned (next : Option ℕ)
  | exited

/-- The queue with its task and its callers.  An action is the number of its registration. -/
structure DeadlineQueue where
  entries : Table DeadlineKey ℕ := ∅
  nextSeq : ℕ := 0
  /-- The permit that `wake` stores. -/
  permit : Bool := false
  /-- Some reference to the queue is left. -/
  alive : Bool := true
  task : TimerTask := .unstarted
  fired : List ℕ := []
  /-- The registrations that are about to signal. -/
  signalling : ℕ := 0
  clock : ℕ := 0
  /-- The key in the guard of each registration. -/
  guards : List DeadlineKey := []
  -- the history: the guards dropped, what ran when, and whether a scan came after the guard's drop
  dropped : List ℕ := []
  ran : List (ℕ × ℕ) := []
  late : Bool := false

namespace DeadlineQueue

/-- What `register` does under the lock. -/
def register (s : DeadlineQueue) (expiry : ℕ) : DeadlineQueue :=
  let key := (expiry, s.nextSeq)
  let entries := s.entries.insert key s.guards.length
  { s with
    entries
    nextSeq := (s.nextSeq + 1) % 2 ^ 64
    guards := s.guards ++ [key]
    signalling := if entries.minKey? = some key then s.signalling + 1 else s.signalling }

/-- What the drop of a guard does under the lock. -/
def dropGuard (s : DeadlineQueue) (action : ℕ) (key : DeadlineKey) : DeadlineQueue :=
  { s with entries := s.entries.erase key, dropped := action :: s.dropped }

/-- The entries that have expired, one by one. -/
def fire (now : ℕ) : ℕ → DeadlineQueue → DeadlineQueue
  | 0, s => s
  | n + 1, s =>
    match s.entries.toList.head? with
    | none => s
    | some (key, action) =>
      if now < key.1 then s
      else fire now n { s with
        entries := s.entries.erase key
        fired := s.fired ++ [action]
        late := s.late || s.dropped.contains action }

/-- What the task does under the lock. -/
def scan (s : DeadlineQueue) (now : ℕ) : DeadlineQueue :=
  let s := fire now s.entries.size s
  { s with task := .scanned (s.entries.minKey?.map Prod.fst) }

/-- A step of a caller, of a guard, of the task or of the clock. -/
inductive Step (s : DeadlineQueue) : DeadlineQueue → Prop
  | tick (clock : ℕ) (h : s.clock ≤ clock) : Step s { s with clock }
  -- the last reference goes, which no registration is using
  | drop (h : s.signalling = 0) : Step s { s with alive := false, permit := true }
  | start (h : s.task = .unstarted) (halive : s.alive = true) : Step s { s with task := .scanning }
  | register (expiry : ℕ) (h : s.task ≠ .unstarted) (halive : s.alive = true) :
      Step s (s.register expiry)
  | signal (h : 0 < s.signalling) :
      Step s { s with signalling := s.signalling - 1, permit := true }
  | dropGuard (action : ℕ) (key : DeadlineKey) (h : s.guards[action]? = some key)
      (halive : s.alive = true) : Step s (s.dropGuard action key)
  -- the task reads the clock before it takes the lock
  | scan (now : ℕ) (h : s.task = .scanning) (halive : s.alive = true) (hnow : now ≤ s.clock) :
      Step s (s.scan now)
  | exit (h : s.task = .scanning) (hgone : s.alive = false) : Step s { s with task := .exited }
  | run (next : Option ℕ) (action : ℕ) (fired : List ℕ) (h : s.task = .scanned next)
      (hfired : s.fired = action :: fired) :
      Step s { s with fired, ran := (action, s.clock) :: s.ran }
  | wake (next : Option ℕ) (h : s.task = .scanned next) (hfired : s.fired = [])
      (hpermit : s.permit = true) : Step s { s with task := .scanning, permit := false }
  | elapse (expiry : ℕ) (h : s.task = .scanned (some expiry)) (hfired : s.fired = [])
      (hclock : expiry ≤ s.clock) : Step s { s with task := .scanning }

/-- No entry expires before the instant that the task sleeps until. -/
def SleepsUntil (s : DeadlineQueue) (next : Option ℕ) : Prop :=
  ∀ key : DeadlineKey, key ∈ s.entries → ∃ expiry, next = some expiry ∧ expiry ≤ key.1

def Due (s : DeadlineQueue) (action clock : ℕ) : Prop :=
  ∃ key, s.guards[action]? = some key ∧ key.1 ≤ clock

/-- The actions that have left the queue. -/
def gone (s : DeadlineQueue) : List ℕ := s.dropped ++ (s.fired ++ s.ran.map Prod.fst)

structure Sound (s : DeadlineQueue) : Prop where
  rows : Table.AllRows (fun key action => s.guards[action]? = some key ∧ action ∉ s.gone) s.entries
  gone : ∀ action ∈ s.gone, action < s.guards.length
  fired : ∀ action ∈ s.fired, s.Due action s.clock
  ran : ∀ r ∈ s.ran, s.Due r.1 r.2
  once : (s.fired ++ s.ran.map Prod.fst).Nodup
  late : s.late = false
  wake : ∀ next, s.task = .scanned next →
    s.permit = true ∨ 0 < s.signalling ∨ s.SleepsUntil next

variable {s s' : DeadlineQueue} {key : DeadlineKey} {action now : ℕ}

theorem minKey?_le {entries : Table DeadlineKey ℕ} (h : key ∈ entries) :
    ∃ first ∈ entries, entries.minKey? = some first ∧ first.1 ≤ key.1 := by
  obtain ⟨first, hfirst⟩ := Option.isSome_iff_exists.mp (ExtTreeMap.isSome_minKey?_of_mem h)
  obtain ⟨hmem, hle⟩ := ExtTreeMap.minKey?_eq_some_iff_mem_and_forall.mp hfirst
  refine ⟨first, hmem, hfirst, ?_⟩
  have hkey : ((compare first.1 key.1).then (compare first.2 key.2)).isLE = true := hle key h
  by_contra hgt
  rw [Nat.compare_eq_gt.mpr (Nat.not_le.mp hgt)] at hkey
  cases hkey

theorem Sound.register (hs : s.Sound) (expiry : ℕ) : (s.register expiry).Sound := by
  have hguards : ∀ {a : ℕ} {k}, s.guards[a]? = some k →
      (s.guards ++ [(expiry, s.nextSeq)])[a]? = some k := by grind
  have hdue : ∀ {a clock}, s.Due a clock → (s.register expiry).Due a clock :=
    fun ⟨k, hk, hclock⟩ => ⟨k, hguards hk, hclock⟩
  refine { hs with
    rows := .insert (hs.rows.mono fun k a h => ⟨hguards h.1, h.2⟩)
      ⟨getElem?_concat_length, fun h => Nat.lt_irrefl _ (hs.gone _ h)⟩
    gone := fun a ha => (hs.gone a ha).trans (by simp [DeadlineQueue.register])
    fired := fun a ha => hdue (hs.fired a ha)
    ran := fun r hr => hdue (hs.ran r hr)
    wake := fun next hnext => (hs.wake next hnext).imp_right fun h => ?_ }
  dsimp only [DeadlineQueue.register]
  split_ifs with hearliest
  · exact .inl (Nat.succ_pos _)
  · refine h.imp_right fun hsleeps k hk => ?_
    -- the first entry was there before, and the new one is no earlier
    obtain ⟨first, hmem, hfirst, hle⟩ := minKey?_le hk
    obtain heq | hold := ExtTreeMap.mem_insert.mp hmem
    · exact absurd (Std.LawfulEqOrd.eq_of_compare heq ▸ hfirst) hearliest
    · obtain ⟨wake, hwake, hearlier⟩ := hsleeps first hold
      exact ⟨wake, hwake, hearlier.trans hle⟩

/-- An entry leaves the queue, and its action with it. -/
theorem Sound.erase (hs : s.Sound) (h : s.guards[action]? = some key) (gone : List ℕ)
    (hgone : ∀ a, a ∈ gone ↔ a = action ∨ a ∈ s.gone) :
    Table.AllRows (fun k a => s.guards[a]? = some k ∧ a ∉ gone) (s.entries.erase key) ∧
      (∀ a ∈ gone, a < s.guards.length) ∧ ∀ next, s.task = .scanned next → s.permit = true ∨
        0 < s.signalling ∨ { s with entries := s.entries.erase key }.SleepsUntil next := by
  refine ⟨fun k a ha => ?_, fun a ha => ?_, fun next hnext => (hs.wake next hnext).imp_right
    (.imp_right fun hsleeps k hk => hsleeps k (ExtTreeMap.mem_of_mem_erase hk))⟩
  · rw [Table.get?_erase] at ha
    split_ifs at ha with hkey
    obtain ⟨hguard, hleft⟩ := hs.rows k a ha
    refine ⟨hguard, fun hmem => ?_⟩
    obtain rfl | hmem := (hgone a).mp hmem
    · exact hkey (Option.some.inj (h.symm.trans hguard))
    · exact hleft hmem
  · obtain rfl | ha := (hgone a).mp ha
    · exact (List.getElem?_eq_some_iff.mp h).1
    · exact hs.gone a ha

theorem Sound.fire (hs : s.Sound) (h : now ≤ s.clock) (n : ℕ) : (fire now n s).Sound := by
  induction n generalizing s with
  | zero => exact hs
  | succ n ih =>
    rw [DeadlineQueue.fire]
    split
    · exact hs
    · rename_i key action hhead
      split_ifs with hnow
      · exact hs
      · obtain ⟨hguard, hleft⟩ := hs.rows key action (Table.get?_of_head? hhead)
        rw [DeadlineQueue.gone, mem_append, not_or] at hleft
        obtain ⟨hrows, hgone, hwake⟩ := hs.erase hguard
          (s.dropped ++ (s.fired ++ [action] ++ s.ran.map Prod.fst))
          (by simp [DeadlineQueue.gone]; tauto)
        have hdue : s.Due action s.clock := ⟨key, hguard, (Nat.not_lt.mp hnow).trans h⟩
        refine ih { hs with
          rows := hrows
          gone := hgone
          fired := forall_mem_append.mpr ⟨hs.fired, forall_mem_singleton.mpr hdue⟩
          once := ?_
          late := by simpa [hs.late] using hleft.1
          wake := hwake } h
        rw [append_assoc, singleton_append, nodup_middle]
        exact nodup_cons.mpr ⟨hleft.2, hs.once⟩

theorem Sound.step (hs : s.Sound) (h : Step s s') : s'.Sound := by
  cases h with
  | tick clock h =>
    refine { hs with fired := fun a ha => ?_ }
    obtain ⟨key, hkey, hdue⟩ := hs.fired a ha
    exact ⟨key, hkey, hdue.trans h⟩
  | start | exit | wake | elapse => exact { hs with wake := nofun }
  | signal | drop => exact { hs with wake := fun _ _ => .inl rfl }
  | register expiry => exact hs.register expiry
  | dropGuard action key h =>
    obtain ⟨hrows, hgone, hwake⟩ := hs.erase h (action :: s.gone) fun a => mem_cons
    exact { hs with rows := hrows, gone := hgone, wake := hwake }
  | scan now _ _ hnow =>
    refine { hs.fire hnow s.entries.size with wake := fun next hnext => ?_ }
    cases hnext
    refine .inr (.inr fun k hk => ?_)
    obtain ⟨first, -, hfirst, hle⟩ := minKey?_le hk
    exact ⟨first.1, congrArg _ hfirst, hle⟩
  | run next action fired h hfired =>
    have hdue := hs.fired
    have honce := hs.once
    rw [hfired] at hdue honce
    have hperm : s.gone.Perm (s.dropped ++ (fired ++ action :: s.ran.map Prod.fst)) := by
      rw [DeadlineQueue.gone, hfired]
      exact perm_middle.symm.append_left _
    exact { hs with
      rows := hs.rows.mono fun k a ha => ⟨ha.1, fun h => ha.2 (hperm.mem_iff.mpr h)⟩
      gone := fun a ha => hs.gone a (hperm.mem_iff.mpr ha)
      fired := (forall_mem_cons.mp hdue).2
      ran := forall_mem_cons.mpr ⟨(forall_mem_cons.mp hdue).1, hs.ran⟩
      once := nodup_middle.mpr honce }

/-- **The deadline queue does not oversleep** once whoever registers has signalled: when the task
waits, a permit is stored, or a registration whose entry was the earliest is about to signal, or
the task sleeps until an instant before which no entry expires.  An action runs at most once, not
before its time, and no scan takes one out whose guard had been dropped. -/
theorem deadlines_in_time (h : Relation.ReflTransGen Step {} s) :
    (∀ next, s.task = .scanned next → s.fired = [] → s.alive = true →
      s.permit = true ∨ 0 < s.signalling ∨ s.SleepsUntil next) ∧
    (s.ran.map Prod.fst).Nodup ∧ (∀ r ∈ s.ran, s.Due r.1 r.2) ∧ s.late = false := by
  have hs : s.Sound := by
    induction h with
    | refl => exact ⟨by simp [Table.AllRows], nofun, nofun, nofun, nodup_nil, rfl, nofun⟩
    | tail _ hstep hs => exact hs.step hstep
  exact ⟨fun next hscanned _ _ => hs.wake next hscanned, hs.once.of_append_right, hs.ran, hs.late⟩

/-- A registration has put its entry in and not signalled yet. -/
def registering : DeadlineQueue := { task := .scanned none : DeadlineQueue }.register 10

theorem registering_reached : Relation.ReflTransGen Step {} registering := by
  have hscan : Step { task := .scanning } { task := .scanned none } := by
    simpa [DeadlineQueue.scan, fire] using Step.scan (s := { task := .scanning }) 0 rfl rfl
  exact ((Relation.ReflTransGen.single (.start rfl rfl)).tail hscan).tail (.register 10 nofun rfl)

theorem deadlines_in_time_registering :
    registering.permit = true ∨ 0 < registering.signalling ∨ registering.SleepsUntil none :=
  (deadlines_in_time registering_reached).1 none rfl rfl rfl

theorem deadlines_oversleep : ∃ s next, Relation.ReflTransGen Step {} s ∧
    s.task = .scanned next ∧ s.fired = [] ∧ s.alive = true ∧
      ¬ (s.permit = true ∨ s.SleepsUntil next) := by
  refine ⟨_, none, registering_reached, rfl, rfl, rfl, ?_⟩
  rintro (h | h)
  · cases h
  · obtain ⟨_, hnone, -⟩ := h (10, 0) ExtTreeMap.mem_insert_self
    cases hnone

end DeadlineQueue

end AsterRpc.Rpc

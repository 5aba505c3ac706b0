import AsterRpc.Coordination.Ids
import AsterRpc.Foundation.Run

/-!
# The stream pool

`core/src/pool.rs`: streams that are opened on demand up to a bound, reused when
they come back, and waited for in turn when all are out.

Every section that runs under the lock is one step; between two sections of a
call any other section may run.  A call, a handle and a stream on its way back
are tasks of the pool, and what a task holds is told by its phase.  A waiting
call is its own channel: the signal that was sent to it lies in its inbox until
it is received, or until the call is dropped and the signal with it.
-/

namespace AsterRpc.Streams

open Std List
open AsterRpc.Foundation Table
open AsterRpc.Coordination (Bytes)

/-! ### The pool -/

/-- `None` is the shared pool, `Some` the pool of a session. -/
abbrev PoolKey := Option Bytes

inductive WakeSignal (T : Type) where
  | handoff (stream : T)
  | retry
deriving DecidableEq

/-- What runs against the pool. -/
inductive Task (T : Type) where
  /-- A call of `acquire` before its fast path. -/
  | acquiring (key : PoolKey)
  /-- The factory opens a stream for a slot that is reserved. -/
  | opening (key : PoolKey)
  /-- The call waits for a signal. -/
  | waiting (key : PoolKey) (inbox : Option (WakeSignal T))
  /-- A handle is out. -/
  | holding (key : PoolKey) (stream : T)
  /-- A stream is on its way back; `release` reads the bound before it takes the lock. -/
  | returning (key : PoolKey) (stream : T) (bound : Option ℕ)
  /-- A retry token that was not consumed is dropped. -/
  | passing (key : PoolKey)
  /-- `set_shared_pool_size` has stored the bound and not yet gone over the waiters. -/
  | resizing (size : ℕ)
  | ended
deriving DecidableEq

/-- `SubPool`; the stream that came back last is at the head of `free`. -/
structure SubPool (T : Type) where
  free : List T
  openCount : ℕ
  waiters : List ℕ
  maxSize : ℕ

structure Pool (T : Type) where
  sessionPoolSize : ℕ
  effectiveSharedSize : ℕ
  subs : PoolKey → Option (SubPool T)
  tasks : Table ℕ (Task T)
  nextTask : ℕ

open Pool

variable {T : Type}

/-- `StreamPool::new`. -/
def Pool.new (sharedPoolSize sessionPoolSize : ℕ) : Pool T where
  sessionPoolSize := sessionPoolSize
  effectiveSharedSize := sharedPoolSize
  subs := fun _ => none
  tasks := ∅
  nextTask := 0

namespace Pool

/-- `max_size_for`. -/
def maxSizeFor (pool : Pool T) : PoolKey → ℕ
  | none => pool.effectiveSharedSize
  | some _ => pool.sessionPoolSize

/-- `open_count`. -/
def openCount (pool : Pool T) (key : PoolKey) : ℕ :=
  ((pool.subs key).map SubPool.openCount).getD 0

/-- `free_count`. -/
def freeCount (pool : Pool T) (key : PoolKey) : ℕ :=
  ((pool.subs key).map fun sub => sub.free.length).getD 0

def waiters (pool : Pool T) (key : PoolKey) : List ℕ :=
  ((pool.subs key).map SubPool.waiters).getD []

def setSub (pool : Pool T) (key : PoolKey) (sub : SubPool T) : Pool T :=
  { pool with subs := Function.update pool.subs key (some sub) }

def setTasks (pool : Pool T) (tasks : Table ℕ (Task T)) : Pool T := { pool with tasks := tasks }

def setTask (pool : Pool T) (id : ℕ) (task : Task T) : Pool T :=
  pool.setTasks (pool.tasks.insert id task)

end Pool

/-! ### Sections under the lock -/

/-- Send a signal to the first waiter that listens; those before it, whose receivers are gone, leave
the queue. -/
def deliver (tasks : Table ℕ (Task T)) (signal : WakeSignal T) :
    List ℕ → List ℕ × Option (Table ℕ (Task T))
  | [] => ([], none)
  | id :: rest =>
    match tasks[id]? with
    | some (.waiting key none) => (rest, some (tasks.insert id (.waiting key (some signal))))
    | _ => deliver tasks signal rest

/-- `wake_one`. -/
def wakeOne (tasks : Table ℕ (Task T)) (sub : SubPool T) : Table ℕ (Task T) × SubPool T :=
  match deliver tasks .retry sub.waiters with
  | (rest, some tasks') => (tasks', { sub with waiters := rest })
  | (rest, none) => (tasks, { sub with waiters := rest })

/-- The loop of `set_shared_pool_size` over the new slots. -/
def wakeSome : ℕ → Table ℕ (Task T) → SubPool T → Table ℕ (Task T) × SubPool T
  | 0, tasks, sub => (tasks, sub)
  | slots + 1, tasks, sub =>
    if sub.waiters.isEmpty then (tasks, sub)
    else wakeSome slots (wakeOne tasks sub).1 (wakeOne tasks sub).2

/-- Close idle streams while there are more than `size`. -/
def closeSurplus (size : ℕ) : List T → ℕ → List T × ℕ
  | [], openCount => ([], openCount)
  | stream :: rest, openCount =>
    if openCount > size then closeSurplus size rest (openCount - 1)
    else (stream :: rest, openCount)

namespace Pool

/-- `release`, with the bound that was read before. -/
def release (pool : Pool T) (key : PoolKey) (stream : T) (max : ℕ) : Pool T :=
  match pool.subs key with
  | none => pool
  | some sub =>
    match deliver pool.tasks (.handoff stream) sub.waiters with
    | (rest, some tasks) =>
      (pool.setSub key { sub with maxSize := max, waiters := rest }).setTasks tasks
    | (rest, none) =>
      if sub.openCount > max then
        pool.setSub key
          { sub with maxSize := max, waiters := rest, openCount := sub.openCount - 1 }
      else pool.setSub key { sub with maxSize := max, waiters := rest, free := stream :: sub.free }

/-- A sub-pool is written back after `wake_one`. -/
def wake (pool : Pool T) (key : PoolKey) (sub : SubPool T) : Pool T :=
  (pool.setSub key (wakeOne pool.tasks sub).2).setTasks (wakeOne pool.tasks sub).1

/-- `pass_on_retry`. -/
def passOnRetry (pool : Pool T) (key : PoolKey) : Pool T :=
  match pool.subs key with
  | none => pool
  | some sub => pool.wake key sub

/-- `drop_slot`; the subtraction saturates. -/
def dropSlot (pool : Pool T) (key : PoolKey) : Pool T :=
  match pool.subs key with
  | none => pool
  | some sub => pool.wake key { sub with openCount := sub.openCount - 1 }

/-- The section of `set_shared_pool_size` after it has stored the bound. -/
def resizeShared (pool : Pool T) (size : ℕ) : Pool T :=
  match pool.subs none with
  | none => pool
  | some sub =>
    let (free, openCount) := closeSurplus size sub.free sub.openCount
    let (tasks, sub) := wakeSome (size - openCount) pool.tasks
      { sub with maxSize := size, free := free, openCount := openCount }
    (pool.setSub none sub).setTasks tasks

/-- The fast path of `acquire`, for the call `id`. -/
def fastPath (pool : Pool T) (id : ℕ) (key : PoolKey) : Pool T :=
  let max := pool.maxSizeFor key
  let sub := (pool.subs key).getD ⟨[], 0, [], max⟩
  match sub.free with
  | stream :: rest =>
    (pool.setSub key { sub with maxSize := max, free := rest }).setTask id (.holding key stream)
  | [] =>
    if sub.openCount < max then
      (pool.setSub key { sub with maxSize := max, openCount := sub.openCount + 1 }).setTask id
        (.opening key)
    else
      (pool.setSub key { sub with maxSize := max, waiters := sub.waiters ++ [id] }).setTask id
        (.waiting key none)

end Pool

/-! ### Steps -/

inductive PoolEvent (T : Type) where
  /-- A call of `acquire` begins. -/
  | acquire (key : PoolKey)
  /-- It takes its fast path. -/
  | enter (id : ℕ)
  /-- The factory gives a stream. -/
  | opened (id : ℕ) (stream : T)
  /-- The factory fails. -/
  | openFailed (id : ℕ)
  /-- A waiting call takes the signal that was sent to it. -/
  | receive (id : ℕ)
  /-- The call is dropped, or its time is over. -/
  | abandon (id : ℕ)
  /-- The drop of an unconsumed retry token runs. -/
  | passOn (id : ℕ)
  /-- A handle is dropped. -/
  | dropHandle (id : ℕ)
  /-- `discard` or `into_inner`. -/
  | discard (id : ℕ)
  /-- `release` reads the bound. -/
  | readBound (id : ℕ)
  /-- `release` runs under the lock. -/
  | giveBack (id : ℕ)
  /-- `set_shared_pool_size` stores the bound. -/
  | setSharedPoolSize (size : ℕ)
  /-- `set_shared_pool_size` goes over the shared pool. -/
  | resize (id : ℕ)

namespace Pool

/-- A new task. -/
def spawn (pool : Pool T) (task : Task T) : Pool T :=
  { pool.setTask pool.nextTask task with nextTask := pool.nextTask + 1 }

/-- One step; an event that does not apply changes nothing. -/
def next (pool : Pool T) : PoolEvent T → Pool T
  | .acquire key => pool.spawn (.acquiring key)
  | .enter id =>
    match pool.tasks[id]? with
    | some (.acquiring key) => pool.fastPath id key
    | _ => pool
  | .opened id stream =>
    match pool.tasks[id]? with
    | some (.opening key) => pool.setTask id (.holding key stream)
    | _ => pool
  | .openFailed id =>
    match pool.tasks[id]? with
    | some (.opening key) => (pool.setTask id .ended).dropSlot key
    | _ => pool
  | .receive id =>
    match pool.tasks[id]? with
    | some (.waiting key (some (.handoff stream))) => pool.setTask id (.holding key stream)
    -- no await between the token and the fast path: nothing shared is touched in between
    | some (.waiting key (some .retry)) => pool.fastPath id key
    | _ => pool
  | .abandon id =>
    match pool.tasks[id]? with
    | some (.acquiring _) => pool.setTask id .ended
    | some (.opening key) => (pool.setTask id .ended).dropSlot key
    | some (.waiting _ none) => pool.setTask id .ended
    | some (.waiting key (some (.handoff stream))) => pool.setTask id (.returning key stream none)
    | some (.waiting key (some .retry)) => pool.setTask id (.passing key)
    | _ => pool
  | .passOn id =>
    match pool.tasks[id]? with
    | some (.passing key) => (pool.setTask id .ended).passOnRetry key
    | _ => pool
  | .dropHandle id =>
    match pool.tasks[id]? with
    | some (.holding key stream) => pool.setTask id (.returning key stream none)
    | _ => pool
  | .discard id =>
    match pool.tasks[id]? with
    | some (.holding key _) => (pool.setTask id .ended).dropSlot key
    | _ => pool
  | .readBound id =>
    match pool.tasks[id]? with
    | some (.returning key stream none) =>
      pool.setTask id (.returning key stream (some (pool.maxSizeFor key)))
    | _ => pool
  | .giveBack id =>
    match pool.tasks[id]? with
    | some (.returning key stream (some max)) => (pool.setTask id .ended).release key stream max
    | _ => pool
  | .setSharedPoolSize size =>
    { pool.spawn (.resizing (max size 1)) with effectiveSharedSize := max size 1 }
  | .resize id =>
    match pool.tasks[id]? with
    | some (.resizing size) => (pool.setTask id .ended).resizeShared size
    | _ => pool

def step (pool : Pool T) (event : PoolEvent T) : Pool T × Unit := (pool.next event, ())

end Pool

/-! ### What the tasks hold -/

namespace Task

/-- The key a task works for. -/
def key : Task T → Option PoolKey
  | acquiring key | opening key | waiting key _ | holding key _ | returning key _ _ | passing key =>
    some key
  | resizing _ | ended => none

/-- Reserved slots whose streams are being opened. -/
def openings (key : PoolKey) : Task T → ℕ
  | opening k => if k = key then 1 else 0
  | _ => 0

def handles (key : PoolKey) : Task T → ℕ
  | holding k _ => if k = key then 1 else 0
  | _ => 0

/-- Streams in an inbox or on their way back. -/
def transits (key : PoolKey) : Task T → ℕ
  | waiting k (some (.handoff _)) | returning k _ _ => if k = key then 1 else 0
  | _ => 0

def slots (key : PoolKey) (task : Task T) : ℕ :=
  task.openings key + task.handles key + task.transits key

/-- Retry signals that were sent and not consumed. -/
def retries (key : PoolKey) : Task T → ℕ
  | waiting k (some .retry) | passing k => if k = key then 1 else 0
  | _ => 0

theorem slots_opening (key : PoolKey) : (opening key : Task T).slots key = 1 := by
  simp [slots, openings, handles, transits]

theorem slots_holding (key : PoolKey) (stream : T) : (holding key stream).slots key = 1 := by
  simp [slots, openings, handles, transits]

theorem slots_of_key_ne {task : Task T} {key : PoolKey} (h : task.key ≠ some key) :
    task.slots key = 0 := by
  have hne : ∀ k, task.key = some k → k ≠ key := fun k hk heq => h (heq ▸ hk)
  unfold slots
  rcases task with k | k | ⟨k, _ | _ | _⟩ | ⟨k, _⟩ | ⟨k, _, _⟩ | k | _ | _ <;>
    simp [openings, handles, transits, hne k rfl]

theorem retries_of_key_ne {task : Task T} {key : PoolKey} (h : task.key ≠ some key) :
    task.retries key = 0 := by
  have hne : ∀ k, task.key = some k → k ≠ key := fun k hk heq => h (heq ▸ hk)
  rcases task with k | k | ⟨k, _ | _ | _⟩ | ⟨k, _⟩ | ⟨k, _, _⟩ | k | _ | _ <;>
    simp [retries] <;> exact hne k rfl

end Task

/-- A call in the queue waits for a signal. -/
def Listens (key : PoolKey) (tasks : Table ℕ (Task T)) (queue : List ℕ) : Prop :=
  ∃ id ∈ queue, tasks[id]? = some (.waiting key none)

namespace Pool

def slots (pool : Pool T) (key : PoolKey) : ℕ := pool.tasks.total fun _ task => task.slots key

def retries (pool : Pool T) (key : PoolKey) : ℕ := pool.tasks.total fun _ task => task.retries key

/-- A waiter is queued whose receiver is there and has got nothing yet. -/
def Waits (pool : Pool T) (key : PoolKey) : Prop := Listens key pool.tasks (pool.waiters key)

/-- `set_shared_pool_size` with at least the bound in force has not gone over the waiters yet. -/
def Resizing (pool : Pool T) : Prop :=
  ∃ (id size : ℕ), pool.tasks[id]? = some (.resizing size) ∧ pool.effectiveSharedSize ≤ size

end Pool

/-- A waiter has as many signals before it as there are idle streams and, unless a bound is still
to be applied, free slots. -/
structure Served (max openCount free retries : ℕ) (pending : Prop) : Prop where
  idle : free ≤ retries
  settled : max - openCount + free ≤ retries ∨ pending

/-- What holds between any two steps. -/
structure Sound (pool : Pool T) : Prop where
  fresh : ∀ id task, pool.tasks[id]? = some task → id < pool.nextTask
  queued : ∀ key, ∀ id ∈ pool.waiters key, id < pool.nextTask ∧
    ∀ task k, pool.tasks[id]? = some task → task.key = some k → k = key
  counted : ∀ key, pool.openCount key = pool.freeCount key + pool.slots key
  served : ∀ key, pool.Waits key → Served (pool.maxSizeFor key) (pool.openCount key)
    (pool.freeCount key) (pool.retries key) (key = none ∧ pool.Resizing)

/-- What a step leads to: slots are taken only within the bound in force. -/
structure Goes (pool pool' : Pool T) : Prop where
  sound : Sound pool'
  within : ∀ key, pool'.openCount key ≤ pool.openCount key ∨
    pool'.openCount key ≤ pool'.maxSizeFor key

theorem Sound.stays {pool : Pool T} (h : Sound pool) : Goes pool pool :=
  ⟨h, fun _ => .inl (Nat.le_refl _)⟩

/-! ### The effect of a section -/

/-- Only tasks for `key` change, and for the shared pool those that resize it. -/
def Touches (key : PoolKey) (tasks tasks' : Table ℕ (Task T)) : Prop :=
  ∀ id : ℕ, tasks'[id]? = tasks[id]? ∨ ∃ task task', tasks[id]? = some task ∧
    tasks'[id]? = some task' ∧ (task.key = some key ∨ key = none ∧ task.key = none) ∧
    (task'.key = task.key ∨ task'.key = none)

section Effects

variable {pool pool' : Pool T} {tasks tasks' : Table ℕ (Task T)} {key : PoolKey} {id : ℕ}
  {task task' : Task T} {k : PoolKey} {sub : SubPool T}

theorem Touches.trans {tasks'' : Table ℕ (Task T)} (h : Touches key tasks tasks')
    (h' : Touches key tasks' tasks'') : Touches key tasks tasks'' := by
  intro id
  rcases h id with hsame | ⟨task, task', htask, htask', hown, hkey⟩
  · rw [← hsame]
    exact h' id
  · rcases h' id with hsame | ⟨_, task'', hmid, htask'', -, hkey'⟩
    · exact .inr ⟨task, task', htask, hsame.trans htask', hown, hkey⟩
    · obtain rfl := Option.some.inj (htask'.symm.trans hmid)
      refine .inr ⟨task, task'', htask, htask'', hown, ?_⟩
      rcases hkey' with hkey' | hkey'
      · exact hkey.imp hkey'.trans hkey'.trans
      · exact .inr hkey'

theorem touches_insert (htask : tasks[id]? = some task)
    (hown : task.key = some key ∨ key = none ∧ task.key = none)
    (hkey : task'.key = task.key ∨ task'.key = none) :
    Touches key tasks (tasks.insert id task') := by
  intro i
  by_cases hi : id = i
  · subst hi
    exact .inr ⟨task, task', htask, get?_insert_self _ _ _, hown, hkey⟩
  · exact .inl (get?_insert_of_ne _ _ hi)

/-- A task for a key was there before, or it is in the place of one for the section's key. -/
theorem Touches.before (h : Touches key tasks tasks') (htask' : tasks'[id]? = some task')
    (hk : task'.key = some k) :
    tasks[id]? = some task' ∨ k = key ∧ ∃ task, tasks[id]? = some task ∧ task.key = some k := by
  rcases h id with hsame | ⟨task, _, htask, hnew, hown, hkey⟩
  · exact .inl (hsame ▸ htask')
  · obtain rfl := Option.some.inj (htask'.symm.trans hnew)
    rw [hk] at hkey
    have hold : task.key = some k := (hkey.resolve_right (by simp)).symm
    rw [hold] at hown
    exact .inr ⟨Option.some.inj (hown.resolve_right (by simp)), task, htask, hold⟩

/-- What is counted for another key stays as it is. -/
theorem Touches.total_eq {weight : Task T → ℕ} {other : PoolKey} (h : Touches key tasks tasks')
    (hother : other ≠ key) (hweight : ∀ task, task.key ≠ some other → weight task = 0) :
    tasks'.total (fun _ task => weight task) = tasks.total fun _ task => weight task := by
  have hne : ∀ t : Task T, t.key = some key ∨ t.key = none → t.key ≠ some other := by
    rintro t (ht | ht) heq
    · exact hother (Option.some.inj (heq.symm.trans ht))
    · rw [ht] at heq
      cases heq
  refine total_eq_of_weightAt (fun id => ?_) fun id => ?_
  · rcases h id with hsame | ⟨t, t', ht, ht', -⟩
    · rw [hsame]
    · rw [ht, ht']
      rfl
  · rcases h id with hsame | ⟨t, t', ht, ht', hown, hkey⟩
    · rw [weightAt, weightAt, hsame]
    · rw [weightAt, weightAt, ht, ht']
      have hold : t.key ≠ some other := hne t (hown.imp_right And.right)
      have hnew : t'.key ≠ some other := hkey.elim (fun heq => heq ▸ hold) fun heq => by simp [heq]
      exact (hweight t' hnew).trans (hweight t hold).symm

/-- A section that works on one key keeps what holds of the others. -/
theorem Sound.change (h : Sound pool) (hbound : pool'.maxSizeFor = pool.maxSizeFor)
    (hnext : pool'.nextTask = pool.nextTask) (htouches : Touches key pool.tasks pool'.tasks)
    (hsubs : ∀ other, other ≠ key → pool'.subs other = pool.subs other)
    (hqueue : ∀ id ∈ pool'.waiters key, id ∈ pool.waiters key ∨
      id < pool.nextTask ∧ ∃ task, pool'.tasks[id]? = some task ∧ task.key = some key)
    (hwithin : pool'.openCount key ≤ pool.openCount key ∨
      pool'.openCount key ≤ pool'.maxSizeFor key)
    (hcount : pool'.openCount key = pool'.freeCount key + pool'.slots key)
    (hserve : pool'.Waits key → Served (pool'.maxSizeFor key) (pool'.openCount key)
      (pool'.freeCount key) (pool'.retries key) (key = none ∧ pool'.Resizing)) :
    Goes pool pool' := by
  have heffective : pool'.effectiveSharedSize = pool.effectiveSharedSize := congrFun hbound none
  have hwaiters : ∀ other, other ≠ key → pool'.waiters other = pool.waiters other :=
    fun other hne => by rw [waiters, waiters, hsubs other hne]
  have hwaits : ∀ other, other ≠ key → pool'.Waits other → pool.Waits other := by
    rintro other hne ⟨id, hid, htask⟩
    rw [hwaiters other hne] at hid
    exact ⟨id, hid, (htouches.before htask rfl).resolve_right fun hkey => hne hkey.1⟩
  have hpending : key ≠ none → pool.Resizing → pool'.Resizing := by
    rintro hne ⟨id, size, htask, hsize⟩
    refine ⟨id, size, ?_, heffective ▸ hsize⟩
    rcases htouches id with hsame | ⟨task, _, htask', -, hown, -⟩
    · rwa [hsame]
    · obtain rfl := Option.some.inj (htask.symm.trans htask')
      rcases hown with hkey | ⟨hnone, -⟩
      · cases hkey
      · exact absurd hnone hne
  refine ⟨?_, fun other => ?_⟩
  swap
  · by_cases hother : other = key
    · rw [hother]
      exact hwithin
    · rw [openCount, openCount, hsubs other hother]
      exact .inl (Nat.le_refl _)
  constructor
  case fresh =>
    intro id task htask
    rw [hnext]
    rcases htouches id with hsame | ⟨old, _, hold, -, -⟩
    · exact h.fresh id task (hsame ▸ htask)
    · exact h.fresh id old hold
  case queued =>
    intro other id hid
    by_cases hold : id ∈ pool.waiters other
    · obtain ⟨hlt, hkeys⟩ := h.queued other id hold
      refine ⟨hnext ▸ hlt, fun task k htask hk => ?_⟩
      rcases htouches.before htask hk with hsame | ⟨-, old, hold, hkey⟩
      · exact hkeys task k hsame hk
      · exact hkeys old k hold hkey
    · by_cases hother : other = key
      · subst hother
        obtain ⟨hlt, _, htask, htkey⟩ := (hqueue id hid).resolve_left hold
        refine ⟨hnext ▸ hlt, fun task₁ k htask₁ hk => ?_⟩
        rw [htask] at htask₁
        rw [← Option.some.inj htask₁, htkey] at hk
        exact (Option.some.inj hk).symm
      · exact absurd (hwaiters other hother ▸ hid) hold
  case counted =>
    intro other
    by_cases hother : other = key
    · rw [hother]
      exact hcount
    · have hslots : pool'.slots other = pool.slots other :=
        htouches.total_eq hother fun _ => Task.slots_of_key_ne
      rw [openCount, freeCount, hsubs other hother, hslots]
      exact h.counted other
  case served =>
    intro other hw
    by_cases hother : other = key
    · subst hother
      exact hserve hw
    · have hretry : pool'.retries other = pool.retries other :=
        htouches.total_eq hother fun _ => Task.retries_of_key_ne
      rw [openCount, freeCount, hsubs other hother, hretry, hbound]
      obtain ⟨hidle, hdone⟩ := h.served other (hwaits other hother hw)
      refine ⟨hidle, hdone.imp_right fun hpend => ?_⟩
      exact ⟨hpend.1, hpending (fun hkey => hother (hpend.1.trans hkey.symm)) hpend.2⟩

@[simp] theorem Pool.openCount_setSub (sub : SubPool T) :
    (pool.setSub key sub).openCount key = sub.openCount := by
  simp [openCount, setSub]

@[simp] theorem Pool.freeCount_setSub (sub : SubPool T) :
    (pool.setSub key sub).freeCount key = sub.free.length := by
  simp [freeCount, setSub]

@[simp] theorem Pool.waiters_setSub (sub : SubPool T) :
    (pool.setSub key sub).waiters key = sub.waiters := by
  simp [waiters, setSub]

theorem Pool.openCount_of_sub (h : pool.subs key = some sub) :
    pool.openCount key = sub.openCount := by
  rw [openCount, h]
  rfl

theorem Pool.freeCount_of_sub (h : pool.subs key = some sub) :
    pool.freeCount key = sub.free.length := by
  rw [freeCount, h]
  rfl

theorem Pool.waiters_of_sub (h : pool.subs key = some sub) : pool.waiters key = sub.waiters := by
  rw [waiters, h]
  rfl

/-- A section writes the sub-pool of its key and tasks. -/
theorem Sound.work (h : Sound pool) (sub' : SubPool T) (htouches : Touches key pool.tasks tasks')
    (hqueue : ∀ id ∈ sub'.waiters, id ∈ pool.waiters key ∨
      id < pool.nextTask ∧ ∃ task, tasks'[id]? = some task ∧ task.key = some key)
    (hwithin : sub'.openCount ≤ pool.openCount key ∨ sub'.openCount ≤ pool.maxSizeFor key)
    (hcount : sub'.openCount = sub'.free.length + tasks'.total fun _ t => t.slots key)
    (hserve : Listens key tasks' sub'.waiters → Served (pool.maxSizeFor key) sub'.openCount
      sub'.free.length (tasks'.total fun _ t => t.retries key)
      (key = none ∧ (pool.setTasks tasks').Resizing)) :
    Goes pool ((pool.setSub key sub').setTasks tasks') := by
  have hopen : ((pool.setSub key sub').setTasks tasks').openCount key = sub'.openCount :=
    pool.openCount_setSub sub'
  have hfree : ((pool.setSub key sub').setTasks tasks').freeCount key = sub'.free.length :=
    pool.freeCount_setSub sub'
  have hwaiters : ((pool.setSub key sub').setTasks tasks').waiters key = sub'.waiters :=
    pool.waiters_setSub sub'
  have hbound : ((pool.setSub key sub').setTasks tasks').maxSizeFor = pool.maxSizeFor := by
    funext k
    cases k <;> rfl
  refine h.change hbound rfl htouches (fun other hne => Function.update_of_ne hne _ _) ?_ ?_ ?_
    fun hw => ?_
  · rw [hwaiters]
    exact hqueue
  · rw [hopen, hbound]
    exact hwithin
  · rw [hopen, hfree]
    exact hcount
  · rw [hopen, hfree, hbound]
    exact hserve (hwaiters ▸ hw)

theorem total_insert_task (weight : Task T → ℕ) (htask : tasks[id]? = some task)
    (task' : Task T) :
    total (fun _ t => weight t) (tasks.insert id task') + weight task =
      total (fun _ t => weight t) tasks + weight task' :=
  total_insert_of_some (fun _ t => weight t) htask task'

theorem total_insert_alike {weight : Task T → ℕ} (htask : tasks[id]? = some task)
    (hweight : weight task' = weight task) :
    total (fun _ t => weight t) (tasks.insert id task') =
      total (fun _ t => weight t) tasks := by
  have hsum := total_insert_task weight htask task'
  rw [hweight] at hsum
  exact Nat.add_right_cancel hsum

/-- Either no waiter of the queue listens, and all leave it, or the first that does gets the
signal. -/
theorem deliver_cases (tasks : Table ℕ (Task T)) (signal : WakeSignal T) (queue : List ℕ) :
    (deliver tasks signal queue = ([], none) ∧
      ∀ id ∈ queue, ∀ key, tasks[id]? ≠ some (.waiting key none)) ∨
    ∃ id key rest, id ∈ queue ∧ rest ⊆ queue ∧ tasks[id]? = some (.waiting key none) ∧
      deliver tasks signal queue = (rest, some (tasks.insert id (.waiting key (some signal)))) := by
  induction queue with
  | nil => exact .inl ⟨rfl, by simp⟩
  | cons id rest ih =>
    by_cases hlisten : ∃ key, tasks[id]? = some (.waiting key none)
    · obtain ⟨key, htask⟩ := hlisten
      refine .inr ⟨id, key, rest, mem_cons_self, subset_cons_self id rest, htask, ?_⟩
      simp [deliver, htask]
    · have hskip : deliver tasks signal (id :: rest) = deliver tasks signal rest := by
        rw [deliver]
        split
        case h_1 key htask => exact absurd ⟨key, htask⟩ hlisten
        case h_2 => rfl
      rw [hskip]
      rcases ih with ⟨hnone, hall⟩ | ⟨i, key, rest', hi, hsub, htask, hsome⟩
      · refine .inl ⟨hnone, fun i hi key htask => ?_⟩
        rcases mem_cons.mp hi with rfl | hi
        · exact hlisten ⟨key, htask⟩
        · exact hall i hi key htask
      · exact .inr ⟨i, key, rest', mem_cons_of_mem _ hi,
          fun x hx => mem_cons_of_mem _ (hsub hx), htask, hsome⟩

/-- Who listens in the end listened before, when no task is made to. -/
theorem Listens.of_insert {queue rest : List ℕ} (h : Listens key (tasks.insert id task') rest)
    (hqueue : rest ⊆ queue) (hnot : task' ≠ .waiting key none) : Listens key tasks queue := by
  obtain ⟨i, hi, htask⟩ := h
  refine ⟨i, hqueue hi, ?_⟩
  rw [get?_insert] at htask
  by_cases heq : id = i
  · rw [if_pos heq] at htask
    exact absurd (Option.some.inj htask) hnot
  · rwa [if_neg heq] at htask

/-- A task that is not a resize is replaced. -/
theorem Pool.Resizing.of_touched {id : ℕ} {task' : Task T} (h : pool.Resizing)
    (hsize : pool'.effectiveSharedSize = pool.effectiveSharedSize)
    (htasks : pool'.tasks = pool.tasks.insert id task') (htask : pool.tasks[id]? = some task)
    (hnot : task.key ≠ none) : pool'.Resizing := by
  obtain ⟨i, size, hi, hle⟩ := h
  refine ⟨i, size, ?_, hsize ▸ hle⟩
  rw [htasks, get?_insert_of_ne]
  · exact hi
  · rintro rfl
    rw [htask] at hi
    rw [Option.some.inj hi] at hnot
    exact hnot rfl

theorem Task.retries_le_one (task : Task T) : task.retries key ≤ 1 := by
  rcases task with _ | _ | ⟨_, _ | _ | _⟩ | _ | _ | _ | _ | _ <;> simp only [retries] <;>
    first | omega | (split <;> omega)

section

variable (h : Sound pool)

include h

/-- A task ends, and without a sub-pool nobody waits. -/
theorem Sound.ends (htask : pool.tasks[id]? = some task)
    (hkey : task.key = some key ∨ key = none ∧ task.key = none) (hslots : task.slots key = 0)
    (hsub : pool.subs key = none) : Goes pool (pool.setTask id .ended) := by
  have hwaits : ¬ (pool.setTask id .ended).Waits key := by
    rintro ⟨i, hi, -⟩
    have hnone : (pool.setTask id .ended).subs key = none := hsub
    rw [waiters, hnone] at hi
    cases hi
  have htotal : (pool.setTask id .ended).slots key = pool.slots key :=
    total_insert_alike htask hslots.symm
  refine h.change rfl rfl (touches_insert htask hkey (.inr rfl)) (fun _ _ => rfl)
    (fun _ hi => .inl hi) (Or.inl (Nat.le_refl _)) ?_ fun hw => absurd hw hwaits
  rw [htotal]
  exact h.counted key

/-- A task that holds a slot is one of those that were opened. -/
theorem Sound.sub_of_slot (htask : pool.tasks[id]? = some task) (hslot : task.slots key = 1) :
    ∃ sub, pool.subs key = some sub ∧ 0 < sub.openCount := by
  have hle := weightAt_le_total (fun _ t => Task.slots key t) pool.tasks id
  have hweight : weightAt (fun _ t => Task.slots key t) pool.tasks id = 1 := by
    rw [weightAt, htask]
    exact hslot
  have hcount := h.counted key
  rw [slots] at hcount
  have hpos : 0 < pool.openCount key := by omega
  cases hsub : pool.subs key with
  | none =>
    rw [openCount, hsub] at hpos
    exact absurd hpos (Nat.lt_irrefl 0)
  | some sub => exact ⟨sub, rfl, openCount_of_sub hsub ▸ hpos⟩

/-- Who listens for a signal once the task `id` has ended listens for this key. -/
theorem Sound.queued_insert (hsub : pool.subs key = some sub) (id : ℕ) :
    ∀ w ∈ sub.waiters, ∀ k,
      (pool.tasks.insert id .ended)[w]? = some (.waiting k none) → k = key := by
  intro w hw k hlistens
  refine (h.queued key w (waiters_of_sub hsub ▸ hw)).2 (.waiting k none) k ?_ rfl
  rw [get?_insert] at hlistens
  by_cases heq : id = w
  · rw [if_pos heq] at hlistens
    cases hlistens
  · rwa [if_neg heq] at hlistens

/-- What `deliver` does once the task `id` has ended. -/
theorem Sound.deliver_cases (hsub : pool.subs key = some sub) (id : ℕ) (signal : WakeSignal T) :
    deliver (pool.tasks.insert id .ended) signal sub.waiters = ([], none) ∨
    ∃ w rest, rest ⊆ sub.waiters ∧
      (pool.tasks.insert id .ended)[w]? = some (.waiting key none) ∧
      deliver (pool.tasks.insert id .ended) signal sub.waiters =
        (rest, some ((pool.tasks.insert id .ended).insert w (.waiting key (some signal)))) := by
  rcases AsterRpc.Streams.deliver_cases (pool.tasks.insert id .ended) signal sub.waiters with
    ⟨hnone, -⟩ | ⟨w, k, rest, hw, hrest, hlistens, hsome⟩
  · exact .inl hnone
  · obtain rfl := h.queued_insert hsub id w hw k hlistens
    exact .inr ⟨w, rest, hrest, hlistens, hsome⟩

end

section

variable (h : Sound pool) (htask : pool.tasks[id]? = some task) (hkey : task.key = some key)

include h htask hkey

/-- A task goes on with what it has. -/
theorem Sound.setTask (hkey' : task'.key = task.key ∨ task'.key = none)
    (hslots : task'.slots key = task.slots key) (hretry : task'.retries key = task.retries key)
    (hnot : task' ≠ .waiting key none) : Goes pool (pool.setTask id task') := by
  have htotal : (pool.setTask id task').slots key = pool.slots key :=
    total_insert_alike htask hslots
  have hsignals : (pool.setTask id task').retries key = pool.retries key :=
    total_insert_alike htask hretry
  refine h.change rfl rfl (touches_insert htask (.inl hkey) hkey') (fun _ _ => rfl)
    (fun _ hi => .inl hi) (Or.inl (Nat.le_refl _)) ?_ fun hw => ?_
  · rw [htotal]
    exact h.counted key
  · rw [hsignals]
    obtain ⟨hidle, hdone⟩ := h.served key (hw.of_insert (fun _ hi => hi) hnot)
    refine ⟨hidle, hdone.imp_right fun hpend => ⟨hpend.1, ?_⟩⟩
    exact hpend.2.of_touched rfl rfl htask (by rw [hkey]; simp)

/-- A task for `key` ends and the first waiter that listens gets a signal. -/
theorem Sound.woken {signal : WakeSignal T} {w : ℕ} (sub' : SubPool T)
    (hsub : pool.subs key = some sub)
    (hlistens : (pool.tasks.insert id .ended)[w]? = some (.waiting key none))
    (hrest : sub'.waiters ⊆ sub.waiters) (hfree : sub'.free = sub.free)
    (hopen : sub'.openCount + task.slots key =
      sub.openCount + (Task.waiting key (some signal)).slots key)
    (hless : sub'.openCount ≤ sub.openCount)
    (hfair : sub.openCount + task.retries key ≤
      sub'.openCount + (Task.waiting key (some signal)).retries key) :
    Goes pool ((pool.setSub key sub').setTasks
      ((pool.tasks.insert id .ended).insert w (.waiting key (some signal)))) := by
  have htotal : ∀ weight : Task T → ℕ, weight .ended = 0 → weight (.waiting key none) = 0 →
      total (fun _ t => weight t)
        ((pool.tasks.insert id .ended).insert w (.waiting key (some signal))) + weight task =
          total (fun _ t => weight t) pool.tasks + weight (.waiting key (some signal)) := by
    intro weight hended hwaiting
    have hown := total_insert_task weight htask .ended
    have hother := total_insert_task weight hlistens (.waiting key (some signal))
    omega
  have hslots : _ = pool.slots key + _ := htotal (Task.slots key) rfl rfl
  have hretry : _ = pool.retries key + _ := htotal (Task.retries key) rfl rfl
  have hqueue : sub'.waiters ⊆ pool.waiters key := by
    rw [waiters_of_sub hsub]
    exact hrest
  have hwaits : Listens key ((pool.tasks.insert id .ended).insert w (.waiting key (some signal)))
      sub'.waiters → pool.Waits key := by
    intro hw
    have hmid : Listens key (pool.tasks.insert id .ended) (pool.waiters key) :=
      hw.of_insert hqueue (by simp)
    exact hmid.of_insert (fun _ hi => hi) (by simp)
  have hcount := h.counted key
  have hserve := h.served key
  rw [freeCount_of_sub hsub, openCount_of_sub hsub] at hcount hserve
  refine h.work sub' ((touches_insert htask (.inl hkey) (.inr rfl)).trans
      (touches_insert hlistens (.inl rfl) (.inl rfl))) (fun _ hi => .inl (hqueue hi))
    (Or.inl (openCount_of_sub hsub ▸ hless)) ?_ fun hw => ?_
  · rw [hfree]
    omega
  · obtain ⟨hidle, hdone⟩ := hserve (hwaits hw)
    rw [hfree]
    refine ⟨by omega, ?_⟩
    rcases hdone with hle | ⟨hnone, hpend⟩
    · left
      omega
    · have hmid : (pool.setTask id .ended).Resizing :=
        hpend.of_touched rfl rfl htask (by rw [hkey]; simp)
      exact .inr ⟨hnone, hmid.of_touched rfl rfl hlistens (by simp [Task.key])⟩

/-- A task for `key` ends and no waiter listens. -/
theorem Sound.unheard (sub' : SubPool T) (hsub : pool.subs key = some sub)
    (hnone : sub'.waiters = []) (hless : sub'.openCount ≤ sub.openCount)
    (hopen : sub'.openCount + task.slots key + sub.free.length = sub'.free.length + sub.openCount) :
    Goes pool ((pool.setSub key sub').setTasks (pool.tasks.insert id .ended)) := by
  have hslots : total (fun _ t => t.slots key) (pool.tasks.insert id .ended) +
      task.slots key = pool.slots key := total_insert_task (fun t => t.slots key) htask .ended
  have hempty : ∀ i, i ∉ sub'.waiters := by
    intro i hi
    rw [hnone] at hi
    cases hi
  have hcount := h.counted key
  rw [freeCount_of_sub hsub, openCount_of_sub hsub] at hcount
  exact h.work sub' (touches_insert htask (.inl hkey) (.inr rfl))
    (fun i hi => absurd hi (hempty i)) (Or.inl (openCount_of_sub hsub ▸ hless)) (by omega)
    fun ⟨i, hi, _⟩ => absurd hi (hempty i)

/-- A waiter is woken, when the task that ends leaves a slot or a token. -/
theorem Sound.wake {openCount : ℕ} (hsub : pool.subs key = some sub)
    (hopen : openCount + task.slots key = sub.openCount)
    (hfair : task.slots key + task.retries key ≤ 1) :
    Goes pool ((pool.setTask id .ended).wake key { sub with openCount := openCount }) := by
  have hless : openCount ≤ sub.openCount := Nat.le_of_add_right_le hopen.le
  have hretry : (Task.waiting key (some .retry) : Task T).retries key = 1 := by
    simp [Task.retries]
  have hslot : (Task.waiting key (some .retry) : Task T).slots key = 0 := rfl
  have htasks : (pool.setTask id .ended).tasks = pool.tasks.insert id .ended := rfl
  rw [Pool.wake, htasks]
  rcases h.deliver_cases hsub id .retry with hnone | ⟨w, rest, hrest, hlistens, hsome⟩
  · have hwake : wakeOne (pool.tasks.insert id .ended) { sub with openCount := openCount } =
        (pool.tasks.insert id .ended, ⟨sub.free, openCount, [], sub.maxSize⟩) := by
      simp [wakeOne, hnone]
    rw [hwake]
    refine h.unheard htask hkey ⟨sub.free, openCount, [], sub.maxSize⟩ hsub rfl hless ?_
    dsimp only
    omega
  · have hwake : wakeOne (pool.tasks.insert id .ended) { sub with openCount := openCount } =
        ((pool.tasks.insert id .ended).insert w (.waiting key (some .retry)),
          ⟨sub.free, openCount, rest, sub.maxSize⟩) := by
      simp [wakeOne, hsome]
    rw [hwake]
    refine h.woken htask hkey ⟨sub.free, openCount, rest, sub.maxSize⟩ hsub hlistens hrest
      rfl ?_ hless ?_ <;> dsimp only <;> omega

/-- A task gives up its slot. -/
theorem Sound.dropSlot (hslot : task.slots key = 1) (hretry : task.retries key = 0) :
    Goes pool ((pool.setTask id .ended).dropSlot key) := by
  obtain ⟨sub, hsub, hpos⟩ := h.sub_of_slot htask hslot
  have hsub' : (pool.setTask id .ended).subs key = some sub := hsub
  rw [Pool.dropSlot, hsub']
  exact h.wake htask hkey hsub (by omega) (by omega)

/-- A call without a slot goes on with one, or waits for one. -/
theorem Sound.advance (sub : SubPool T) (hslot : task.slots key = 0)
    (hkey' : task'.key = some key) (hretry' : task'.retries key = 0)
    (hqueue : ∀ i ∈ sub.waiters, i ∈ pool.waiters key ∨ i = id)
    (hwithin : sub.openCount ≤ pool.openCount key ∨ sub.openCount ≤ pool.maxSizeFor key)
    (hcount : sub.openCount = sub.free.length + (pool.slots key + task'.slots key))
    (hserve : Listens key (pool.tasks.insert id task') sub.waiters →
      Served (pool.maxSizeFor key) sub.openCount (sub.free.length + task.retries key)
        (pool.retries key) (key = none ∧ pool.Resizing)) :
    Goes pool ((pool.setSub key sub).setTask id task') := by
  have hslots := total_insert_task (fun t => t.slots key) htask task'
  have hretry : total (fun _ t => t.retries key) (pool.tasks.insert id task') +
      task.retries key = pool.retries key := by
    have hsum := total_insert_task (fun t => t.retries key) htask task'
    rwa [hretry'] at hsum
  rw [hslot] at hslots
  show Goes pool ((pool.setSub key sub).setTasks (pool.tasks.insert id task'))
  refine h.work sub (touches_insert htask (.inl hkey) (Or.inl (hkey'.trans hkey.symm)))
    (fun i hi => ?_) hwithin
      (hcount.trans (congrArg (sub.free.length + ·) hslots.symm)) fun hw => ?_
  · refine (hqueue i hi).imp_right ?_
    rintro rfl
    exact ⟨h.fresh i task htask, task', get?_insert_self _ _ _, hkey'⟩
  · obtain ⟨hidle, hdone⟩ := hserve hw
    refine ⟨by omega, hdone.imp (fun hle => by omega) fun hpend => ⟨hpend.1, ?_⟩⟩
    exact hpend.2.of_touched rfl rfl htask (by rw [hkey]; simp)

/-- The fast path of a call that has no slot, before it waits or with a token. -/
theorem Sound.fastPath (hslot : task.slots key = 0) : Goes pool (pool.fastPath id key) := by
  obtain ⟨sub, hsub⟩ : ∃ sub, (pool.subs key).getD ⟨[], 0, [], pool.maxSizeFor key⟩ = sub :=
    ⟨_, rfl⟩
  have hopen : pool.openCount key = sub.openCount := by
    rw [← hsub, openCount]
    cases pool.subs key <;> rfl
  have hfree : pool.freeCount key = sub.free.length := by
    rw [← hsub, freeCount]
    cases pool.subs key <;> rfl
  have hwaiters : pool.waiters key = sub.waiters := by
    rw [← hsub, waiters]
    cases pool.subs key <;> rfl
  have hcount := h.counted key
  have hserve := h.served key
  rw [hfree, hopen] at hcount hserve
  have hone : task.retries key ≤ 1 := task.retries_le_one
  -- the call's own retry token is among those that were sent
  have hown : task.retries key ≤ pool.retries key := by
    have hle := weightAt_le_total (fun _ t => Task.retries key t) pool.tasks id
    rwa [weightAt, htask] at hle
  simp only [Pool.fastPath, hsub]
  cases hstreams : sub.free with
  | cons stream rest =>
    rw [hstreams, length_cons] at hcount hserve
    have hlistens : Listens key (pool.tasks.insert id (.holding key stream)) sub.waiters →
        pool.Waits key := fun hw => hw.of_insert (fun _ hi => hwaiters ▸ hi) (by simp)
    have hheld := Task.slots_holding key stream
    refine h.advance htask hkey ⟨rest, sub.openCount, sub.waiters, pool.maxSizeFor key⟩ hslot rfl
      rfl (fun i hi => .inl (hwaiters ▸ hi)) (.inl hopen.ge) ?_ fun hw => ?_
    · dsimp only
      omega
    · obtain ⟨hidle, hdone⟩ := hserve (hlistens hw)
      dsimp only
      exact ⟨by omega, hdone.imp_left fun hle => by omega⟩
  | nil =>
    rw [hstreams, length_nil] at hcount hserve
    by_cases hroom : sub.openCount < pool.maxSizeFor key
    · rw [if_pos hroom]
      have hlistens : Listens key (pool.tasks.insert id (.opening key)) sub.waiters →
          pool.Waits key := fun hw => hw.of_insert (fun _ hi => hwaiters ▸ hi) (by simp)
      have hheld : (Task.opening key : Task T).slots key = 1 := Task.slots_opening key
      refine h.advance htask hkey ⟨[], sub.openCount + 1, sub.waiters, pool.maxSizeFor key⟩ hslot
        rfl rfl (fun i hi => .inl (hwaiters ▸ hi)) (.inr hroom) ?_ fun hw => ?_
      · dsimp only [length_nil]
        omega
      · dsimp only [length_nil]
        exact ⟨by omega, (hserve (hlistens hw)).settled.imp_left fun hle => by omega⟩
    · rw [if_neg hroom]
      have hheld : (Task.waiting key none : Task T).slots key = 0 := rfl
      refine h.advance htask hkey ⟨[], sub.openCount, sub.waiters ++ [id], pool.maxSizeFor key⟩
        hslot rfl rfl (fun i hi => ?_) (.inl hopen.ge) ?_ fun hw => ?_
      · exact (mem_append.mp hi).imp (fun hi => hwaiters ▸ hi) fun hi => by simpa using hi
      · dsimp only [length_nil]
        omega
      · dsimp only [length_nil]
        exact ⟨by omega, .inl (by omega)⟩

end

/-- A stream comes back. -/
theorem Sound.release {stream : T} {bound : Option ℕ} (h : Sound pool)
    (htask : pool.tasks[id]? = some (.returning key stream bound)) (max : ℕ) :
    Goes pool ((pool.setTask id .ended).release key stream max) := by
  have hslot : (Task.returning key stream bound).slots key = 1 := by
    simp [Task.slots, Task.openings, Task.handles, Task.transits]
  obtain ⟨sub, hsub, hpos⟩ := h.sub_of_slot htask hslot
  have hsub' : (pool.setTask id .ended).subs key = some sub := hsub
  rw [Pool.release, hsub']
  rcases h.deliver_cases hsub id (.handoff stream) with hnone | ⟨w, rest, hrest, hlistens, hsome⟩
  · simp only [Pool.setTask, Pool.setTasks, hnone]
    by_cases hover : sub.openCount > max
    · rw [if_pos hover]
      refine h.unheard htask rfl ⟨sub.free, sub.openCount - 1, [], max⟩ hsub rfl
        (Nat.sub_le _ _) ?_
      dsimp only
      omega
    · rw [if_neg hover]
      refine h.unheard htask rfl ⟨stream :: sub.free, sub.openCount, [], max⟩ hsub rfl
        (Nat.le_refl _) ?_
      dsimp only [length_cons]
      omega
  · simp only [Pool.setTask, Pool.setTasks, hsome]
    refine h.woken htask rfl ⟨sub.free, sub.openCount, rest, max⟩ hsub hlistens hrest rfl
      ?_ (Nat.le_refl _) ?_
    · simp [Task.slots, Task.openings, Task.handles, Task.transits]
    · simp [Task.retries]

/-- A token that was not consumed goes to the next waiter. -/
theorem Sound.passOnRetry (h : Sound pool) (htask : pool.tasks[id]? = some (.passing key)) :
    Goes pool ((pool.setTask id .ended).passOnRetry key) := by
  rw [Pool.passOnRetry]
  cases hsub : (pool.setTask id .ended).subs key with
  | some sub =>
    have hsub' : pool.subs key = some sub := hsub
    refine h.wake htask rfl hsub' rfl ?_
    simp [Task.slots, Task.openings, Task.handles, Task.transits, Task.retries]
  | none => exact h.ends htask (.inl rfl) rfl hsub

/-! ### The bound changes -/

/-- As many streams are closed as slots are freed. -/
theorem closeSurplus_spec (size : ℕ) (free : List T) (openCount : ℕ)
    (h : free.length ≤ openCount) :
    (closeSurplus size free openCount).2 + free.length =
      openCount + (closeSurplus size free openCount).1.length ∧
      (closeSurplus size free openCount).1.length ≤ free.length := by
  induction free generalizing openCount with
  | nil => exact ⟨rfl, Nat.le_refl _⟩
  | cons stream rest ih =>
    rw [length_cons] at h
    rw [closeSurplus]
    split
    case isTrue hover =>
      have hrest := ih (openCount - 1) (Nat.le_sub_one_of_lt h)
      simp only [length_cons]
      omega
    case isFalse => exact ⟨rfl, Nat.le_refl _⟩

/-- What waking up to `count` waiters of a queue leaves. -/
structure Woken (key : PoolKey) (count : ℕ) (tasks : Table ℕ (Task T)) (sub : SubPool T)
    (tasks' : Table ℕ (Task T)) (sub' : SubPool T) : Prop where
  free : sub'.free = sub.free
  openCount : sub'.openCount = sub.openCount
  waiters : sub'.waiters ⊆ sub.waiters
  changes : ∀ id : ℕ, tasks'[id]? = tasks[id]? ∨
    tasks[id]? = some (.waiting key none) ∧ tasks'[id]? = some (.waiting key (some .retry))
  slots : total (fun _ t => t.slots key) tasks' = total (fun _ t => t.slots key) tasks
  more : total (fun _ t => t.retries key) tasks ≤
    total (fun _ t => t.retries key) tasks'
  enough : Listens key tasks' sub'.waiters →
    total (fun _ t => t.retries key) tasks + count ≤
      total (fun _ t => t.retries key) tasks'

theorem Woken.refl : Woken key 0 tasks sub tasks sub :=
  ⟨rfl, rfl, fun _ h => h, fun _ => .inl rfl, rfl, Nat.le_refl _, fun _ => Nat.le_refl _⟩

theorem wakeSome_woken (count : ℕ) (sub : SubPool T)
    (hqueued : ∀ id ∈ sub.waiters, ∀ k, tasks[id]? = some (.waiting k none) → k = key) :
    Woken key count tasks sub (wakeSome count tasks sub).1 (wakeSome count tasks sub).2 := by
  induction count generalizing tasks sub with
  | zero => exact Woken.refl
  | succ count ih =>
    rw [wakeSome]
    by_cases hempty : sub.waiters.isEmpty
    · rw [if_pos hempty]
      refine { (Woken.refl : Woken key 0 tasks sub tasks sub) with enough := ?_ }
      rintro ⟨i, hi, -⟩
      rw [isEmpty_iff.mp hempty] at hi
      cases hi
    · rw [if_neg hempty]
      rcases deliver_cases tasks .retry sub.waiters with
        ⟨hnone, -⟩ | ⟨w, k, rest, hw, hrest, hlistens, hsome⟩
      · have hwake : wakeOne tasks sub = (tasks, { sub with waiters := [] }) := by
          simp [wakeOne, hnone]
        rw [hwake]
        have hlater := @ih tasks { sub with waiters := [] } (by simp)
        refine ⟨hlater.free, hlater.openCount, fun i hi => ?_, hlater.changes, hlater.slots,
          hlater.more, ?_⟩
        · cases hlater.waiters hi
        · rintro ⟨i, hi, -⟩
          cases hlater.waiters hi
      · obtain rfl := hqueued w hw k hlistens
        have hwake : wakeOne tasks sub =
            (tasks.insert w (.waiting k (some .retry)), { sub with waiters := rest }) := by
          simp [wakeOne, hsome]
        rw [hwake]
        dsimp only
        have hslots := total_insert_task (fun t => t.slots k) hlistens (.waiting k (some .retry))
        have hretry :=
          total_insert_task (fun t => t.retries k) hlistens (.waiting k (some .retry))
        have hsignal : (Task.waiting k (some .retry) : Task T).retries k = 1 := by
          simp [Task.retries]
        have hquiet : (Task.waiting k none : Task T).retries k = 0 := rfl
        have hlater := @ih (tasks.insert w (.waiting k (some .retry)))
          { sub with waiters := rest } fun i hi k' hi' => by
            rw [get?_insert] at hi'
            by_cases heq : w = i
            · rw [if_pos heq] at hi'
              cases hi'
            · rw [if_neg heq] at hi'
              exact hqueued i (hrest hi) k' hi'
        refine ⟨hlater.free, hlater.openCount, fun i hi => hrest (hlater.waiters hi), fun i => ?_,
          hlater.slots.trans (Nat.add_right_cancel hslots), ?_, fun hw' => ?_⟩
        · have hchange := hlater.changes i
          by_cases heq : w = i
          · subst heq
            refine .inr ⟨hlistens, hchange.elim (fun hsame => ?_) And.right⟩
            exact hsame.trans (get?_insert_self _ _ _)
          · rwa [get?_insert_of_ne _ _ heq] at hchange
        · have hmore := hlater.more
          omega
        · have henough := hlater.enough hw'
          omega

/-- The new bound is applied to the shared pool. -/
theorem Sound.resize {size : ℕ} (h : Sound pool) (htask : pool.tasks[id]? = some (.resizing size)) :
    Goes pool ((pool.setTask id .ended).resizeShared size) := by
  have hslots : total (fun _ t => t.slots none) (pool.tasks.insert id .ended) =
      pool.slots none := total_insert_task (fun t => t.slots none) htask .ended
  have hretry : total (fun _ t => t.retries none) (pool.tasks.insert id .ended) =
      pool.retries none := total_insert_task (fun t => t.retries none) htask .ended
  have hown : Touches none pool.tasks (pool.tasks.insert id .ended) :=
    touches_insert htask (.inr ⟨rfl, rfl⟩) (.inr rfl)
  have hcount := h.counted none
  cases hsub : (pool.setTask id .ended).subs none with
  | none =>
    rw [resizeShared, hsub]
    exact h.ends htask (.inr ⟨rfl, rfl⟩) rfl hsub
  | some sub =>
    have hsub' : pool.subs none = some sub := hsub
    have hserve := h.served none
    rw [freeCount_of_sub hsub', openCount_of_sub hsub'] at hcount hserve
    obtain ⟨hclosed, hfewer⟩ := closeSurplus_spec size sub.free sub.openCount (by omega)
    rcases hsurplus : closeSurplus size sub.free sub.openCount with ⟨free, openCount⟩
    rw [hsurplus] at hclosed hfewer
    dsimp only at hclosed hfewer
    have hwoken := wakeSome_woken (size - openCount) ⟨free, openCount, sub.waiters, size⟩
      (h.queued_insert hsub' id)
    rcases hwake : wakeSome (size - openCount) (pool.tasks.insert id .ended)
      ⟨free, openCount, sub.waiters, size⟩ with ⟨tasks', sub''⟩
    rw [hwake] at hwoken
    dsimp only at hwoken
    have htasks : (pool.setTask id .ended).tasks = pool.tasks.insert id .ended := rfl
    have hpool : (pool.setTask id .ended).resizeShared size =
        (pool.setSub none sub'').setTasks tasks' := by
      simp only [resizeShared, hsub, hsurplus, htasks, hwake]
      rfl
    rw [hpool]
    have hfree : sub''.free.length = free.length := congrArg length hwoken.free
    have hopen : sub''.openCount = openCount := hwoken.openCount
    have hmore := hwoken.more
    have hsame := hwoken.slots
    have hqueue : sub''.waiters ⊆ pool.waiters none := by
      rw [waiters_of_sub hsub']
      exact hwoken.waiters
    have hwaits : Listens none tasks' sub''.waiters → pool.Waits none := by
      rintro ⟨i, hi, hi'⟩
      have hlistens : Listens none (pool.tasks.insert id .ended) (pool.waiters none) := by
        refine ⟨i, hqueue hi, ?_⟩
        rcases hwoken.changes i with hkept | ⟨hold, -⟩
        · exact hkept ▸ hi'
        · exact hold
      exact hlistens.of_insert (fun _ hj => hj) (by simp)
    refine h.work sub'' (hown.trans fun i => (hwoken.changes i).imp_right fun hi =>
        ⟨.waiting none none, .waiting none (some .retry), hi.1, hi.2, .inl rfl, .inl rfl⟩)
      (fun _ hi => .inl (hqueue hi)) (.inl ?_) ?_ fun hw => ?_
    · rw [openCount_of_sub hsub']
      omega
    · omega
    · have henough := hwoken.enough hw
      obtain ⟨hidle, hdone⟩ := hserve (hwaits hw)
      refine ⟨by omega, ?_⟩
      rcases hdone with hle | ⟨-, i, size', hi, hsize⟩
      · left
        omega
      · by_cases heq : id = i
        · -- this was the last to go over the waiters
          subst heq
          rw [htask] at hi
          obtain rfl : size = size' := by simpa using hi
          have hbound : pool.maxSizeFor none = pool.effectiveSharedSize := rfl
          left
          omega
        · refine .inr ⟨rfl, i, size', ?_, hsize⟩
          have hstays : (pool.tasks.insert id .ended)[i]? = some (.resizing size') :=
            (get?_insert_of_ne _ _ heq).trans hi
          rcases hwoken.changes i with hkept | ⟨hold, -⟩
          · exact hkept.trans hstays
          · rw [hstays] at hold
            cases hold

/-- A new task that holds nothing. -/
theorem Sound.spawn (h : Sound pool) (task : Task T) (hslots : ∀ key, task.slots key = 0)
    (hretry : ∀ key, task.retries key = 0) (hnot : ∀ key, task ≠ .waiting key none) (shared : ℕ)
    (hshared : shared = pool.effectiveSharedSize ∨
      Pool.Resizing { pool.spawn task with effectiveSharedSize := shared }) :
    Goes pool { pool.spawn task with effectiveSharedSize := shared } := by
  have hunused : pool.tasks[pool.nextTask]? = none := by
    cases hold : pool.tasks[pool.nextTask]? with
    | none => rfl
    | some old => exact absurd (h.fresh _ old hold) (Nat.lt_irrefl _)
  have htotal : ∀ weight : Task T → ℕ, weight task = 0 →
      total (fun _ t => weight t) (pool.tasks.insert pool.nextTask task) =
        total (fun _ t => weight t) pool.tasks := by
    intro weight hzero
    rw [total_insert_of_none _ hunused, hzero, Nat.add_zero]
  have hwaits : ∀ key, Listens key (pool.tasks.insert pool.nextTask task) (pool.waiters key) →
      pool.Waits key := fun key hw => hw.of_insert (fun _ hi => hi) (hnot key)
  have hslots' : ∀ key, pool.slots key = (pool.spawn task).slots key :=
    fun key => (htotal (fun t => t.slots key) (hslots key)).symm
  have hretry' : ∀ key, pool.retries key = (pool.spawn task).retries key :=
    fun key => (htotal (fun t => t.retries key) (hretry key)).symm
  refine ⟨?_, fun key => .inl (Nat.le_refl _)⟩
  constructor
  case fresh =>
    intro i t ht
    replace ht : (pool.tasks.insert pool.nextTask task)[i]? = some t := ht
    rw [get?_insert] at ht
    by_cases heq : pool.nextTask = i
    · exact heq ▸ Nat.lt_succ_self _
    · rw [if_neg heq] at ht
      exact Nat.lt_succ_of_lt (h.fresh i t ht)
  case queued =>
    intro key i hi
    obtain ⟨hlt, hkeys⟩ := h.queued key i hi
    refine ⟨Nat.lt_succ_of_lt hlt, fun t k ht hk => ?_⟩
    exact hkeys t k ((get?_insert_of_ne _ _ (Nat.ne_of_gt hlt)).symm.trans ht) hk
  case counted =>
    intro key
    exact (h.counted key).trans (congrArg (pool.freeCount key + ·) (hslots' key))
  case served =>
    intro key hw
    have hserve := h.served key (hwaits key hw)
    rw [hretry' key] at hserve
    obtain ⟨hidle, hdone⟩ := hserve
    refine ⟨hidle, ?_⟩
    cases key with
    | some => exact hdone.imp_right fun hpend => absurd hpend.1 (by simp)
    | none =>
      rcases hshared with rfl | hpend
      · refine hdone.imp_right fun hpend => ⟨rfl, ?_⟩
        obtain ⟨i, size, hi, hsize⟩ := hpend.2
        have hne := Nat.ne_of_gt (h.fresh i _ hi)
        exact ⟨i, size, (get?_insert_of_ne _ _ hne).trans hi, hsize⟩
      · exact .inr ⟨rfl, hpend⟩

/-! ### Runs -/

theorem sound_new (shared session : ℕ) : Sound (new shared session : Pool T) := by
  have hnone : ∀ (key : PoolKey) (i : ℕ), i ∉ (new shared session : Pool T).waiters key :=
    fun key i hi => by cases hi
  constructor
  case fresh =>
    intro i t ht
    simp [new] at ht
  case queued => exact fun key i hi => absurd hi (hnone key i)
  case counted =>
    exact fun key => rfl
  case served => exact fun key hw => absurd hw.choose_spec.1 (hnone key _)

theorem Sound.next (h : Sound pool) (event : PoolEvent T) : Goes pool (pool.next event) := by
  cases event with
  | acquire key =>
    exact h.spawn (.acquiring key) (fun _ => rfl) (fun _ => rfl) (by simp) _ (.inl rfl)
  | enter =>
    rw [Pool.next]
    split
    case h_1 key htask => exact h.fastPath htask rfl rfl
    case h_2 => exact h.stays
  | opened id stream =>
    rw [Pool.next]
    split
    case h_1 key htask =>
      have hslots : (Task.holding key stream).slots key = (Task.opening key : Task T).slots key :=
        (Task.slots_holding key stream).trans (Task.slots_opening key).symm
      exact h.setTask htask rfl (.inl rfl) hslots rfl (by simp)
    case h_2 => exact h.stays
  | openFailed =>
    rw [Pool.next]
    split
    case h_1 key htask => exact h.dropSlot htask rfl (Task.slots_opening key) rfl
    case h_2 => exact h.stays
  | receive =>
    rw [Pool.next]
    split
    case h_1 key stream htask => exact h.setTask htask rfl (.inl rfl) rfl rfl (by simp)
    case h_2 key htask => exact h.fastPath htask rfl rfl
    case h_3 => exact h.stays
  | abandon =>
    rw [Pool.next]
    split
    case h_1 key htask => exact h.setTask htask rfl (.inr rfl) rfl rfl (by simp)
    case h_2 key htask => exact h.dropSlot htask rfl (Task.slots_opening key) rfl
    case h_3 key htask => exact h.setTask htask rfl (.inr rfl) rfl rfl (by simp)
    case h_4 key stream htask => exact h.setTask htask rfl (.inl rfl) rfl rfl (by simp)
    case h_5 key htask => exact h.setTask htask rfl (.inl rfl) rfl rfl (by simp)
    case h_6 => exact h.stays
  | passOn =>
    rw [Pool.next]
    split
    case h_1 key htask => exact h.passOnRetry htask
    case h_2 => exact h.stays
  | dropHandle | readBound =>
    rw [Pool.next]
    split
    case h_1 key stream htask => exact h.setTask htask rfl (.inl rfl) rfl rfl (by simp)
    case h_2 => exact h.stays
  | discard =>
    rw [Pool.next]
    split
    case h_1 key stream htask => exact h.dropSlot htask rfl (Task.slots_holding key stream) rfl
    case h_2 => exact h.stays
  | giveBack =>
    rw [Pool.next]
    split
    case h_1 key stream max htask => exact h.release htask max
    case h_2 => exact h.stays
  | setSharedPoolSize size =>
    refine h.spawn (.resizing (max size 1)) (fun _ => rfl) (fun _ => rfl) (by simp) _
      (.inr ⟨pool.nextTask, max size 1, ?_, Nat.le_refl _⟩)
    exact get?_insert_self _ _ _
  | resize =>
    rw [Pool.next]
    split
    case h_1 size htask => exact h.resize htask
    case h_2 => exact h.stays

theorem sound_run (shared session : ℕ) (events : List (PoolEvent T)) :
    Sound (run step (new shared session) events) :=
  run_invariant (fun _ event h => (h.next event).sound) (sound_new shared session) events

end Effects

/-! ### The pool over all interleavings -/

namespace Pool

/-- Streams that are being opened. -/
def openings (pool : Pool T) (key : PoolKey) : ℕ := pool.tasks.total fun _ task => task.openings key

/-- Handles that are out. -/
def handles (pool : Pool T) (key : PoolKey) : ℕ := pool.tasks.total fun _ task => task.handles key

/-- Streams that are handed over or given back. -/
def transits (pool : Pool T) (key : PoolKey) : ℕ := pool.tasks.total fun _ task => task.transits key

theorem slots_eq (pool : Pool T) (key : PoolKey) :
    pool.slots key = pool.openings key + pool.handles key + pool.transits key := by
  rw [openings, handles, transits, ← total_add, ← total_add]
  rfl

/-- Nothing is lost, the bound holds where slots are taken, and nobody waits for what is there. -/
structure Accounted (pool : Pool T) : Prop where
  /-- Every open stream is idle, out, on its way or being opened. -/
  slots : ∀ key, pool.openCount key =
    pool.freeCount key + pool.handles key + pool.transits key + pool.openings key
  /-- `drop_slot` has a slot to give up. -/
  dropped : ∀ (id : ℕ) key, pool.tasks[id]? = some (.opening key) ∨
    (∃ stream, pool.tasks[id]? = some (.holding key stream)) → 0 < pool.openCount key
  /-- A waiter has as many signals before it as there are slots and streams. -/
  waiters : ∀ key, pool.Waits key → (key = none → ¬ pool.Resizing) →
    pool.maxSizeFor key - pool.openCount key + pool.freeCount key ≤ pool.retries key

/-- The step takes slots only within the bound in force. -/
def TakesWithin (pool : Pool T) (event : PoolEvent T) : Prop :=
  ∀ key, pool.openCount key < (pool.next event).openCount key →
    (pool.next event).openCount key ≤ (pool.next event).maxSizeFor key

end Pool

theorem Sound.accounted {pool : Pool T} (h : Sound pool) : pool.Accounted := by
  refine ⟨fun key => ?_, fun id key hslot => ?_, fun key hwaits hquiet => ?_⟩
  · have hcount := h.counted key
    rw [pool.slots_eq] at hcount
    omega
  · obtain ⟨_, htask, hone⟩ : ∃ task, pool.tasks[id]? = some task ∧ task.slots key = 1 := by
      rcases hslot with hopening | ⟨stream, hholding⟩
      · exact ⟨_, hopening, Task.slots_opening key⟩
      · exact ⟨_, hholding, Task.slots_holding key stream⟩
    obtain ⟨_, hsub, hpos⟩ := h.sub_of_slot htask hone
    exact openCount_of_sub hsub ▸ hpos
  · exact (h.served key hwaits).settled.resolve_right fun hpend => hquiet hpend.1 hpend.2

/-- **The pool in every interleaving**: in every state that the pool reaches all slots are
accounted for and nobody waits for what is there, unless a new shared bound is stored and not yet
applied; and no step raises the number of open streams above the bound in force. -/
theorem pool_accounted (shared session : ℕ) (events : List (PoolEvent T)) :
    (run step (new shared session) events).Accounted ∧
      ∀ event, (run step (new shared session) events).TakesWithin event := by
  refine ⟨(sound_run shared session events).accounted, fun event key hgrows => ?_⟩
  exact (((sound_run shared session events).next event).within key).resolve_left
    (Nat.not_le_of_gt hgrows)

/-- One stream is out and a call waits.  The bound is raised to two: a slot is free, no signal was
sent and none is on its way until the call that raised the bound goes on. -/
theorem raised_bound_strands_waiter :
    ∃ (events : List (PoolEvent ℕ)) (pool : Pool ℕ),
      run step (new 1 1) events = pool ∧ pool.Waits none ∧
        ¬ pool.maxSizeFor none - pool.openCount none + pool.freeCount none ≤
          pool.retries none + pool.transits none := by
  refine ⟨[.acquire none, .enter 0, .opened 0 7, .acquire none, .enter 1, .setSharedPoolSize 2], _,
    rfl, ⟨1, ?_, ?_⟩, ?_⟩ <;> decide +kernel

end AsterRpc.Streams

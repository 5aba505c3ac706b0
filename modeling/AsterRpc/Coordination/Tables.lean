import AsterRpc.Coordination.Grant
import AsterRpc.Coordination.Membership

/-!
# Writing rows

`model/tables.rs` and the writers of `model/apply.rs`.  Every write goes through
a `put` or a `remove` that also names the key in the change set, and every byte
counter moves by an addition followed by a subtraction.

Rust's `u64` subtraction panics below zero in a debug build and wraps in a
release build.  `Working` carries the wrapped value, as a release build computes
it, and a flag that stays up once any subtraction went below zero.
-/

namespace AsterRpc.Coordination

open AsterRpc.Foundation

/-- The state being written, what has been touched, and whether a counter ever underflowed. -/
structure Working where
  state : State
  changes : ChangeSet
  underflowed : Bool

/-- `total - amount` on `u64`, wrapping. -/
def wrappingSub (total amount : ℕ) : ℕ :=
  if amount ≤ total then total - amount else total + 2 ^ 64 - amount

theorem wrappingSub_of_le {total amount : ℕ} (h : amount ≤ total) :
    wrappingSub total amount = total - amount := if_pos h

namespace Working

/-- Nothing touched yet. -/
def start (s : State) : Working := ⟨s, ChangeSet.empty, false⟩

/-! ### Byte counters -/

/-- `growth_bytes = growth_bytes + added - freed`. -/
def moveGrowth (w : Working) (added freed : ℕ) : Working :=
  { w with
    state := { w.state with growthBytes := wrappingSub (w.state.growthBytes + added) freed }
    underflowed := w.underflowed || decide (w.state.growthBytes + added < freed) }

/-- `reserve_bytes = reserve_bytes + added - freed`. -/
def moveReserve (w : Working) (added freed : ℕ) : Working :=
  { w with
    state := { w.state with reserveBytes := wrappingSub (w.state.reserveBytes + added) freed }
    underflowed := w.underflowed || decide (w.state.reserveBytes + added < freed) }

/-! ### `tables.rs` -/

def putResource (w : Working) (key : ResourceKey) (row : ResourceRow) : Working :=
  { w with
    state := { w.state with resources := w.state.resources.insert key row }
    changes := { w.changes with resources := insert key w.changes.resources } }

def putGrant (w : Working) (key : GrantKey) (rights : Rights) : Working :=
  { w with
    state := { w.state with acl := w.state.acl.insert key rights }
    changes := { w.changes with grants := insert key w.changes.grants } }

def removeGrant (w : Working) (key : GrantKey) : Working :=
  { w with
    state := { w.state with acl := w.state.acl.erase key }
    changes := { w.changes with grants := insert key w.changes.grants } }

def putAdmin (w : Working) (target : NodeId) : Working :=
  { w with
    state := { w.state with admins := insert target w.state.admins }
    changes := { w.changes with admins := insert target w.changes.admins } }

def removeAdmin (w : Working) (target : NodeId) : Working :=
  { w with
    state := { w.state with admins := w.state.admins.erase target }
    changes := { w.changes with admins := insert target w.changes.admins } }

def putSession (w : Working) (key : SessionKey) (row : Session) : Working :=
  { w with
    state := { w.state with sessions := w.state.sessions.insert key row }
    changes := { w.changes with sessions := insert key w.changes.sessions } }

def putIntent (w : Working) (id : OperationId) (intent : Intent) : Working :=
  { w with
    state := { w.state with intents := w.state.intents.insert id intent }
    changes := { w.changes with intents := insert id w.changes.intents } }

def removeIntent (w : Working) (id : OperationId) : Working :=
  { w with
    state := { w.state with intents := w.state.intents.erase id }
    changes := { w.changes with intents := insert id w.changes.intents } }

def putRoute (w : Working) (node : NodeId) (route : Route) : Working :=
  { w with
    state := { w.state with routes := w.state.routes.insert node route }
    changes := { w.changes with routes := insert node w.changes.routes } }

def removeRoute (w : Working) (node : NodeId) : Working :=
  { w with
    state := { w.state with routes := w.state.routes.erase node }
    changes := { w.changes with routes := insert node w.changes.routes } }

def putAudit (w : Working) (key : AuditKey) (row : AuditRow) : Working :=
  { w with
    state := { w.state with audit := w.state.audit.insert key row }
    changes := { w.changes with audit := insert key w.changes.audit } }

def removeAudit (w : Working) (key : AuditKey) : Working :=
  { w with
    state := { w.state with audit := w.state.audit.erase key }
    changes := { w.changes with audit := insert key w.changes.audit } }

/-! ### Resources, grants and administrators -/

/-- `charge_resource_row`, then `put_resource`. -/
def writeResource (w : Working) (key : ResourceKey) (row : ResourceRow) : Working :=
  (w.moveGrowth (resourceCharge key row)
    (w.state.resources.weightAt resourceCharge key)).putResource
    key row

/-- The grant half of an effective `SetGrant`. -/
def writeGrant (w : Working) (e : GrantEffect) : Working :=
  match e.rights with
  | some rights =>
    (if e.createsAclRow then w.moveGrowth (chargeAcl e.key) 0 else w).putGrant (e.key, e.subject)
      rights
  | none =>
    let removed := w.removeGrant (e.key, e.subject)
    if w.state.acl.contains (e.key, e.subject) then removed.moveGrowth 0 (chargeAcl e.key)
    else removed

/-- An effective `SetAdmin`. -/
def writeAdmin (w : Working) (e : AdminEffect) : Working :=
  let written :=
    if e.enabled then
      let put := w.putAdmin e.target
      if e.target ∈ w.state.admins then put else put.moveGrowth chargeAdmin 0
    else
      let removed := w.removeAdmin e.target
      if e.target ∈ w.state.admins then removed.moveGrowth 0 chargeAdmin else removed
  { written with state := { written.state with adminRevision := e.adminRevision } }

/-! ### Intents and routes -/

section Intents

variable (ext : Externals)

/-- One turn of the loop that drops evicted intents. -/
def evictIntent (w : Working) (id : OperationId) : Working :=
  let removed := w.removeIntent id
  match w.state.intents[id]? with
  | some old => removed.moveGrowth 0 (intentCharge ext id old)
  | none => removed

/-- Stamp what the decision left open: the acceptance, and the completion of a terminal intent. -/
def stampIntent (logId : LogId) (intent : Intent) : Intent :=
  { intent with
    acceptedLogId := if intent.acceptedLogId.index = 0 then logId else intent.acceptedLogId
    completedLogId :=
      if isTerminalPhase intent.statusCode ∧ intent.completedLogId = none then some logId
      else intent.completedLogId }

/-- The intent row itself. -/
def writeIntentRow (w : Working) (id : OperationId) (intent : Intent) : Working :=
  (w.moveGrowth (intentCharge ext id intent)
    (w.state.intents.weightAt (intentCharge ext) id)).putIntent id intent

/-- One turn of the loop that drops evicted routes. -/
def evictRoute (w : Working) (node : NodeId) : Working :=
  let removed := w.removeRoute node
  match w.state.routes[node]? with
  | some old => removed.moveGrowth 0 (routeCharge node old)
  | none => removed

def stampRoute (logId : LogId) (route : Route) : Route :=
  { route with
    introducedLogId := if route.introducedLogId.index = 0 then logId else route.introducedLogId }

/-- One turn of the loop that writes the plan's routes. -/
def writeRoute (logId : LogId) (w : Working) (entry : NodeId × Route) : Working :=
  let route := stampRoute logId entry.2
  (w.moveGrowth (routeCharge entry.1 route) (w.state.routes.weightAt routeCharge entry.1)).putRoute
    entry.1 route

/-- `write_intent`. -/
def writeIntent (w : Working) (logId : LogId) (e : IntentEffect) : Working :=
  let evicted := e.evict.foldl (evictIntent ext) w
  let written := evicted.writeIntentRow ext e.operationId (stampIntent logId e.intent)
  let pruned := e.evictRoutes.foldl evictRoute written
  e.routes.foldl (writeRoute logId) pruned

end Intents

/-! ### The audit trail -/

/-- The oldest audit row. -/
def oldestAudit (s : State) : Option (AuditKey × AuditRow) := s.audit.toList.head?

/-- Drop the oldest audit row and move the floor to the next one. -/
def pruneOldest (w : Working) (oldest : AuditKey × AuditRow) : Working :=
  let removed := (w.removeAudit oldest.1).moveReserve 0 (auditCharge oldest.1 oldest.2)
  let floor := (oldestAudit removed.state).getD oldest
  { removed with
    state := { removed.state with
      auditFloor := some ⟨floor.1.1, floor.2.leaderNodeId, floor.1.2⟩ } }

/-- `prune_audit`; every turn removes a row, so the number of rows bounds the turns. -/
def pruneLoop : ℕ → Working → Working
  | 0, w => w
  | fuel + 1, w =>
    if w.state.audit.size > maxAuditRows then
      match oldestAudit w.state with
      | none => w
      | some oldest => pruneLoop fuel (w.pruneOldest oldest)
    else w

def pruneAudit (w : Working) : Working := pruneLoop w.state.audit.size w

/-- `write_audit_row`. -/
def writeAuditRow (w : Working) (logId : LogId) (row : AuditRow) : Working :=
  let key : AuditKey := (logId.term, logId.index)
  let put := (w.moveReserve (auditCharge key row) 0).putAudit key row
  let tipped := { put with state := { put.state with auditTip := some logId } }
  tipped.pruneAudit

/-! ### Journals -/

/-- The journal row a resolved request leaves. -/
def sessionRow (existing : Option Session) (sequence : ℕ) (requestHash : Hash)
    (reply : SavedReply) : Session where
  lastSequence := sequence
  requestHash := requestHash
  lastResult := some reply
  retired := existing.any (·.retired)

/-- Write a journal row and move the reserve with it. -/
def writeSessionRow (w : Working) (key : SessionKey) (row : Session) : Working :=
  (w.moveReserve (sessionCharge key row) (w.state.sessions.weightAt sessionCharge key)).putSession
    key row

end Working

end AsterRpc.Coordination

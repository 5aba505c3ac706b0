import AsterRpc.Coordination.Ids

/-!
# Limits and charges

`model/limits.rs`: the ceilings of the coordination state machine and the byte
charge of each kind of row.
-/

namespace AsterRpc.Coordination

/-! ### Request shapes -/

def maxNamespace : ℕ := 64
def maxKey : ℕ := 512
def maxValue : ℕ := 65536
def maxTicket : ℕ := 4095
def maxJoinPermit : ℕ := 8192
def maxEncodedCommand : ℕ := 262144
def maxRowKey : ℕ := maxNamespace + maxKey

/-- `i64::MAX`: every counter of the state machine stays at or below it. -/
def maxCounter : ℕ := 9223372036854775807

def minTtlMs : ℕ := 5000
def maxTtlMs : ℕ := 300000

/-! ### Budgets and table caps -/

def growthBudget : ℕ := 201326592
def reserveBudget : ℕ := 134217728

def maxResourcesPerGroup : ℕ := 100000
def maxAclRowsPerGroup : ℕ := 100000
def maxGrantsPerResource : ℕ := 256
def maxAdminsPerGroup : ℕ := 64
def maxAuditRows : ℕ := 100000
def maxRetainedIntents : ℕ := 64
def maxIntentRows : ℕ := maxRetainedIntents + 1
def maxRetainedRoutes : ℕ := 64
def maxRetainedSessionsPerGroup : ℕ := 16384
def maxRetainedSessionsPerActor : ℕ := 256
def maxActiveClientsPerGroup : ℕ := 1024
def maxActiveClientsPerActor : ℕ := 8

/-! ### Rights -/

/-- A set of rights, a `u64` bit mask. -/
abbrev Rights := BitVec 64

def rightRead : Rights := 0x01
def rightAcquire : Rights := 0x02
def rightRenew : Rights := 0x04
def rightMutate : Rights := 0x08
def rightRelease : Rights := 0x10
def rightRevoke : Rights := 0x20

def allRights : Rights :=
  rightRead ||| rightAcquire ||| rightRenew ||| rightMutate ||| rightRelease ||| rightRevoke

/-- Rights a holder needs to keep, use or end a lease. -/
def leaseSustainingRights : Rights := rightRenew ||| rightMutate ||| rightRelease

def rightsAreKnown (rights : Rights) : Bool := rights &&& ~~~allRights == 0

/-! ### Charges -/

def keyCharge (k : ResourceKey) : ℕ := k.chargeLen
def chargeResource (k : ResourceKey) (valueLen : ℕ) : ℕ := 256 + keyCharge k + valueLen
def chargeAcl (k : ResourceKey) : ℕ := 256 + keyCharge k
def chargeAdmin : ℕ := 128
def chargeIntent (encodedPlanLen : ℕ) : ℕ := 1024 + encodedPlanLen
def chargeRoute (ticketLen : ℕ) : ℕ := 256 + ticketLen

/-- A session row, charged for the key its saved reply names. -/
def chargeSession (savedKey : Option ResourceKey) : ℕ := 256 + (savedKey.map keyCharge).getD 0

/-- An audit row, charged for the key it names. -/
def chargeAudit (resource : Option ResourceKey) : ℕ := 256 + (resource.map keyCharge).getD 0

/-- The most a session or an audit row can be charged. -/
def maxReserveRowCharge : ℕ := 256 + maxRowKey

theorem keyCharge_le (k : ResourceKey) : keyCharge k ≤ maxRowKey := k.chargeLen_le

theorem chargeSession_le (k : Option ResourceKey) : chargeSession k ≤ maxReserveRowCharge := by
  cases k with
  | none => simp [chargeSession, maxReserveRowCharge]
  | some k =>
    have hk := keyCharge_le k
    simp only [chargeSession, maxReserveRowCharge, Option.map_some, Option.getD_some]
    omega

theorem chargeAudit_le (k : Option ResourceKey) : chargeAudit k ≤ maxReserveRowCharge :=
  chargeSession_le k

/-- The compile-time assertion `_RESERVE_FITS`: the reserve funds its own worst case. -/
theorem reserve_fits :
    (maxAuditRows + maxRetainedSessionsPerGroup) * maxReserveRowCharge ≤ reserveBudget := by
  decide

end AsterRpc.Coordination

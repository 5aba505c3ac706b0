import AsterRpc.Storage.Slots

/-!
# Bounded histories

Terminal intents and node routes are kept as histories of 64 rows.  A new row is
never refused; the oldest rows make room for it.  For intents there is always
enough to evict.  For routes the rows of members and of the plan's own nodes may
not go, so there is enough to evict only because members and plans are few.
-/

namespace AsterRpc.Coordination

open AsterRpc.Foundation List Table RowChange

section

variable {ext : Externals} {s : State} {logId : LogId} {command : Command} {change : RowChange}
  {entry : Option (SessionKey × Session)} {row : AuditRow} {reply : CommandReply} {actor : NodeId}
  {requestHash : Hash} {action : ChangeMembershipAction} {e : IntentEffect} {existing : Intent}
  {incoming : List (NodeId × Route)}

/-! ### Terminal intents -/

/-- How many intents are terminal. -/
def terminalIntents (s : State) : ℕ :=
  s.intents.countWhere fun _ intent => isTerminalPhase intent.statusCode

theorem terminalIntents_add_activeIntents (s : State) :
    terminalIntents s + activeIntents s = s.intents.size :=
  countWhere_add_countWhere_not _ s.intents

/-- What the caps on intents are: one under way, and a bounded history. -/
structure State.IntentsCapped (s : State) : Prop where
  active : activeIntents s ≤ 1
  terminal : terminalIntents s ≤ maxRetainedIntents

theorem checkIntentRows_eq_ok :
    checkIntentRows ext s = .ok () ↔
      s.IntentsCapped ∧ s.intents.AllRows fun _ intent =>
        checkStoredPlan ext s intent.plan = .ok () := by
  have hsplit := terminalIntents_add_activeIntents s
  have hterm : s.intents.size - activeIntents s = terminalIntents s := by omega
  simp only [checkIntentRows, accepts_iff, checkRows_eq_ok, hterm]
  exact ⟨fun h => ⟨⟨h.1, h.2.1⟩, h.2.2⟩, fun h => ⟨h.1.active, h.1.terminal, h.2⟩⟩

theorem State.IntentsCapped.size_le (h : s.IntentsCapped) : s.intents.size ≤ maxIntentRows := by
  have hsplit := terminalIntents_add_activeIntents s
  have hactive := h.active
  have hterm := h.terminal
  simp only [maxIntentRows]
  omega

theorem evictions_length (s : State) :
    (evictions s 1).length = terminalIntents s + 1 - maxRetainedIntents := by
  have hcount : (terminalByAge s).length = terminalIntents s := by
    rw [terminalByAge, (sortAscending_perm _).length_eq, length_map]
    rfl
  simp only [evictions, length_map, length_take, hcount, maxRetainedIntents]
  omega

section

variable (h : ChangeStep ext s actor requestHash action e)

include h

/-- The count of intents after a new one. -/
theorem ChangeStep.countWhere_intents (logId : LogId) (p : Intent → Bool) :
    ((intent e).intents logId s.intents).countWhere (fun _ i => p i) =
      s.intents.countWhere (fun _ i => p i) +
        if p (Working.stampIntent logId (newIntent actor requestHash action)) then 1 else 0 := by
  have heffect := h.effect
  subst heffect
  have hcount := countWhere_insert (fun _ i => p i) s.intents action.operationId
    (Working.stampIntent logId (newIntent actor requestHash action))
  rwa [h.fresh] at hcount

/-- A new intent is the only one under way. -/
theorem ChangeStep.activeIntents_le :
    activeIntents { s with intents := (intent e).intents logId s.intents } ≤ 1 := by
  have hactive : activeIntents s = 0 := by
    refine Nat.eq_zero_of_not_pos fun hpos => ?_
    obtain ⟨id, intent, hintent, hlive⟩ := countWhere_pos_iff.mp hpos
    rw [h.idle id intent hintent] at hlive
    cases hlive
  have hcount := h.countWhere_intents logId fun i => !isTerminalPhase i.statusCode
  simp only [activeIntents] at hactive ⊢
  split_ifs at hcount <;> omega

theorem ChangeStep.terminalIntents_eq :
    terminalIntents { s with intents := (intent e).intents logId s.intents } = terminalIntents s :=
  h.countWhere_intents logId fun i => isTerminalPhase i.statusCode

end

section

variable (h : IntentUpdate s e existing)

include h

/-- The count of intents after one is changed: the evicted ones go, and the changed one trades
places with its old row. -/
theorem IntentUpdate.countWhere_intents (logId : LogId) (p : Intent → Bool) :
    ((RowChange.intent e).intents logId s.intents).countWhere (fun _ i => p i) +
        (if p existing then 1 else 0) =
      countWhere (fun _ i => p i) (e.evict.foldl (fun t id => t.erase id) s.intents) +
        if p (Working.stampIntent logId e.intent) then 1 else 0 := by
  have hfound : (e.evict.foldl (fun t id => t.erase id) s.intents)[e.operationId]? =
      some existing := by
    rw [get?_foldl_erase_of_notMem s.intents h.notMem_evict]
    exact h.found
  have hcount := countWhere_insert (fun _ i => p i)
    (e.evict.foldl (fun t id => t.erase id) s.intents) e.operationId
    (Working.stampIntent logId e.intent)
  rwa [hfound] at hcount

theorem IntentUpdate.activeIntents_le :
    activeIntents { s with intents := (RowChange.intent e).intents logId s.intents } ≤
      activeIntents s := by
  have hle := countWhere_foldl_erase_le (fun _ i => !isTerminalPhase i.statusCode)
    s.intents e.evict
  have hreplaced := h.countWhere_intents logId fun i => !isTerminalPhase i.statusCode
  simp only [h.live, Bool.not_false, if_true] at hreplaced
  simp only [activeIntents]
  split_ifs at hreplaced <;> omega

/-- A changed intent that ends pushes out what the history cannot hold. -/
theorem IntentUpdate.terminalIntents_le (hterm : terminalIntents s ≤ maxRetainedIntents) :
    terminalIntents { s with intents := (RowChange.intent e).intents logId s.intents } ≤
      maxRetainedIntents := by
  have hreplaced := h.countWhere_intents logId fun i => isTerminalPhase i.statusCode
  have hstat : (Working.stampIntent logId e.intent).statusCode = e.intent.statusCode := rfl
  simp only [h.live, Bool.false_eq_true, if_false, hstat] at hreplaced
  simp only [terminalIntents] at hterm ⊢
  cases hend : isTerminalPhase e.intent.statusCode with
  | false =>
    have hle := countWhere_foldl_erase_le (fun _ i => isTerminalPhase i.statusCode)
      s.intents e.evict
    simp only [hend, Bool.false_eq_true, if_false] at hreplaced
    omega
  | true =>
    have hevict : e.evict = evictions s 1 := by rw [h.evict, hend]; rfl
    have hgone := countWhere_foldl_erase (t := s.intents)
      (p := fun _ i => isTerminalPhase i.statusCode) (evictions_nodup s 1)
      fun _ hid => evictions_terminal hid
    have hlen := evictions_length s
    rw [hevict] at hreplaced
    simp only [hend, if_true] at hreplaced
    simp only [terminalIntents, maxRetainedIntents] at hlen hterm ⊢
    omega

end

/-- **At most one intent is under way** after any step, if that was so before. -/
theorem Step.activeIntents_le (h : Step ext s logId command change entry row reply)
    (hactive : activeIntents s ≤ 1) :
    activeIntents { s with intents := change.intents logId s.intents } ≤ 1 := by
  rcases h.intents with ⟨hsame, -⟩ | ⟨e, rfl, hmove⟩
  · rw [hsame]
    exact hactive
  · rcases hmove.cases with ⟨_, _, _, hchange⟩ | ⟨_, hupd⟩
    · exact hchange.activeIntents_le
    · exact Nat.le_trans hupd.activeIntents_le hactive

theorem Step.intentsCapped (h : Step ext s logId command change entry row reply)
    (hcap : s.IntentsCapped) :
    ({ s with intents := change.intents logId s.intents } : State).IntentsCapped := by
  refine ⟨h.activeIntents_le hcap.active, ?_⟩
  rcases h.intents with ⟨hsame, -⟩ | ⟨e, rfl, hmove⟩
  · rw [hsame]
    exact hcap.terminal
  · rcases hmove.cases with ⟨_, _, _, hchange⟩ | ⟨_, hupd⟩
    · rw [hchange.terminalIntents_eq]
      exact hcap.terminal
    · exact hupd.terminalIntents_le hcap.terminal

/-! ### Routes -/

/-- The routes of a plan that are of nodes without one. -/
def newRoutes (s : State) (incoming : List (NodeId × Route)) : ℕ :=
  (incoming.filter fun r => !s.routes.contains r.1).length

/-- A route that may go for a plan. -/
def mayEvict (s : State) (incoming : List (NodeId × Route)) (node : NodeId) : Bool :=
  !s.membership.contains node && !incoming.any fun r => r.1 == node

theorem routeCandidates_length (s : State) (incoming : List (NodeId × Route)) :
    (routeCandidates s incoming).length =
      s.routes.countWhere fun node _ => mayEvict s incoming node := by
  rw [routeCandidates, (sortAscending_perm _).length_eq, length_map, filter_filter]
  refine congrArg length (filter_congr fun e _ => ?_)
  rw [Bool.and_comm]
  rfl

/-- The routes that may not go are of members, or of the plan's own nodes. -/
theorem kept_routes_le (s : State) (incoming : List (NodeId × Route)) :
    (s.routes.countWhere fun node _ => !mayEvict s incoming node) + newRoutes s incoming ≤
      s.membership.members.card + incoming.length := by
  have hsplit := length_eq_length_filter_add (l := incoming)
    fun r => s.routes.contains r.1
  have hsub : ((s.routes.toList.filter fun e => !mayEvict s incoming e.1).map Prod.fst) ⊆
      s.membership.members.toList ++
        (incoming.filter fun r => s.routes.contains r.1).map Prod.fst := by
    intro node hnode
    obtain ⟨e, he, rfl⟩ := mem_map.mp hnode
    obtain ⟨hmem, hkept⟩ := mem_filter.mp he
    have hrow := Table.mem_toList.mp hmem
    simp only [mayEvict, Bool.not_and, Bool.not_not, Bool.or_eq_true, any_eq_true,
      CommittedMembership.contains_iff, beq_iff_eq] at hkept
    rw [mem_append]
    rcases hkept with hmember | ⟨r, hr, heq⟩
    · exact .inl (Finset.mem_toList.mpr hmember)
    · refine .inr (mem_map.mpr ⟨r, mem_filter.mpr ⟨hr, ?_⟩, heq⟩)
      rw [heq, contains_eq_isSome, hrow]
      rfl
  have hnodup : ((s.routes.toList.filter fun e => !mayEvict s incoming e.1).map Prod.fst).Nodup :=
    (keys_nodup s.routes).sublist (filter_sublist.map Prod.fst)
  have hlen := (hnodup.subperm hsub).length_le
  rw [length_map, length_append, length_map, Finset.length_toList] at hlen
  simp only [countWhere, newRoutes]
  omega

/-- **There is always enough to evict**: with few members and a small plan, the routes that may go
are at least as many as have to. -/
theorem routeCandidates_suffice
    (hfew : s.membership.members.card + incoming.length ≤ maxRetainedRoutes) :
    s.routes.size + newRoutes s incoming - maxRetainedRoutes ≤
      (routeCandidates s incoming).length := by
  have hkept := kept_routes_le s incoming
  have hsplit := countWhere_add_countWhere_not (fun node _ => mayEvict s incoming node)
    s.routes
  rw [routeCandidates_length]
  omega

theorem routeEvictions_suffice
    (hfew : s.membership.members.card + incoming.length ≤ maxRetainedRoutes)
    (hcap : s.routes.size ≤ maxRetainedRoutes) :
    s.routes.size + newRoutes s incoming ≤
      maxRetainedRoutes + (routeEvictions s incoming).length := by
  have henough := routeCandidates_suffice hfew
  change _ ≤ _ + length (if newRoutes s incoming = 0 then _ else _)
  split_ifs with hnone
  · rw [hnone]
    exact hcap
  · change _ ≤ _ + (((routeCandidates s incoming).take
      (s.routes.size + newRoutes s incoming - maxRetainedRoutes)).map Prod.snd).length
    rw [length_map, length_take]
    omega

theorem routeEvictions_present {node : NodeId} (h : node ∈ routeEvictions s incoming) :
    ∃ route, s.routes[node]? = some route := by
  obtain ⟨e, he, rfl⟩ := mem_map.mp ((routeEvictions_subperm s incoming).subset h)
  have hmem := mem_of_mem_filter (mem_of_mem_filter he)
  exact ⟨e.2, Table.mem_toList.mp hmem⟩

theorem ChangeStep.routes_size (h : ChangeStep ext s actor requestHash action e) (logId : LogId) :
    Std.ExtTreeMap.size ((intent e).routes logId s.routes) +
        (routeEvictions s (routesFrom action)).length =
      s.routes.size + newRoutes s (routesFrom action) := by
  have heffect := h.effect
  subst heffect
  have hnodup := (nodup_of_sortedUnique (planShape_ok ext h.shape).seeds).sublist
    (routesFrom_sublist action)
  have hwrote := size_foldl_insert
    (fun r : NodeId × Route => Working.stampRoute logId r.2) hnodup
    ((routeEvictions s (routesFrom action)).foldl (fun t node => t.erase node) s.routes)
  have hgone := countWhere_foldl_erase (p := fun _ _ => true) (t := s.routes)
    (routeEvictions_nodup s (routesFrom action)) fun _ hnode =>
      (routeEvictions_present hnode).imp fun _ hroute => ⟨hroute, rfl⟩
  -- An evicted route is none of the plan's, so the plan's new routes are new before and after.
  have hsame : ((routesFrom action).filter fun r => !Std.ExtTreeMap.contains
      ((routeEvictions s (routesFrom action)).foldl (fun t node => t.erase node) s.routes) r.1) =
      (routesFrom action).filter fun r => !s.routes.contains r.1 := by
    refine filter_congr fun r hr => ?_
    rw [contains_eq_isSome, contains_eq_isSome,
      get?_foldl_erase_of_notMem s.routes fun hmem =>
        routeEvictions_not_incoming hmem (mem_map_of_mem hr)]
  rw [hsame] at hwrote
  rw [← size_eq_countWhere, ← size_eq_countWhere] at hgone
  simp only [routes, changeEffect, newRoutes]
  omega

/-- The most members a group can have while a change of membership is under way. -/
def maxMembers : ℕ := 2 * maxVoters + maxLearnerEnvelope

theorem members_and_plan_fit (hmembers : s.membership.members.card ≤ maxMembers)
    (hplan : PlanShaped ext action.plan s.membership s.authority s.deploymentProfileCode) :
    s.membership.members.card + (routesFrom action).length ≤ maxRetainedRoutes := by
  have hroutes := (routesFrom_sublist action).length_le
  rw [length_map, length_map] at hroutes
  have hseeds := hplan.seeds_length
  simp only [maxMembers, maxVoters, maxLearnerEnvelope, maxRetainedLearners, maxNewVoters,
    maxRetainedRoutes] at hmembers hseeds ⊢
  omega

theorem Step.routes_size_le (h : Step ext s logId command change entry row reply)
    (hmembers : s.membership.members.card ≤ maxMembers) (hcap : s.routes.size ≤ maxRetainedRoutes) :
    (change.routes logId s.routes).size ≤ maxRetainedRoutes := by
  rcases h.intents with ⟨-, hsame⟩ | ⟨e, rfl, hmove⟩
  · rw [hsame]
    exact hcap
  · rcases hmove.cases with ⟨_, _, _, hchange⟩ | ⟨_, hupd⟩
    · have hsize := hchange.routes_size logId
      have hplan := planShape_ok ext hchange.shape
      have hroom := routeEvictions_suffice (members_and_plan_fit hmembers hplan) hcap
      omega
    · simp only [routes, hupd.routes, hupd.evictRoutes, foldl_nil]
      exact hcap

end

end AsterRpc.Coordination

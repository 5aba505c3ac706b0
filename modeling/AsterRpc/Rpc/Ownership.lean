import AsterRpc.Rpc.Sessions

/-!
# Whose session an instance serves

A call on a connection-scoped session is routed to the session's instance.  Without
an authenticator its principal is known then; with one, the instance is handed out
first and claimed once the caller is known.  In between, the connection may close or
the service may be withdrawn, and then the claim finds nothing to check.

An instance is run for the principal that took it first, unless a call that was
authenticating when its session was dropped comes from someone else: such a call is
let through, and that is the only way.
-/

namespace AsterRpc.Rpc

open AsterRpc.Foundation Std List SessionStore

/-- A call that `authenticate` runs for, with the instance it was routed to. -/
structure Authenticating where
  call : SessionCall
  inst : ℕ

/-- A handler run: `inst` is dispatched to on behalf of `principal`. -/
structure Dispatch where
  call : SessionCall
  inst : ℕ
  principal : String
deriving DecidableEq

/-- Instances are numbered in the order they are made; `opened` says for what.  `takes` has the
principals that resolved an instance while they were known, or claimed it, in order. -/
structure Dispatching where
  store : SessionStore ℕ
  opened : List SessionCall
  pending : List Authenticating
  takes : List (ℕ × String)
  dispatched : List Dispatch

/-- `route` of a call, with its principal when no authenticator is configured, and whether the
factory succeeds and the call reaches its handler; the end of an authentication, with the caller's
principal when everything before `claim` passed; connections close and services are withdrawn. -/
inductive DispatchEvent where
  | route (call : SessionCall) (principal : Option String) (factory runs : Bool)
  | authenticated (index : ℕ) (principal : String) (runs : Bool)
  | refused (index : ℕ)
  | closeConnection (connectionId : ℕ)
  | dropServices (keys : List ServiceKey)

namespace Dispatching

variable {owned : OpenSession ℕ} {principal : String} {call : SessionCall} {inst : ℕ} {runs : Bool}

def start (maxPerConnection : ℕ) : Dispatching := ⟨new maxPerConnection, [], [], [], []⟩

/-- The session a call is for. -/
def session (s : Dispatching) (call : SessionCall) : Option (OpenSession ℕ) :=
  s.store.session call.connectionId call.service call.sessionId

/-- The first principal that resolved the instance while it was known, or claimed it. -/
def owner (s : Dispatching) (inst : ℕ) : Option String :=
  (s.takes.find? (·.1 = inst)).map (·.2)

/-- `principal` takes the instance and, if nothing else is wrong with the call, runs in it. -/
def take (s : Dispatching) (call : SessionCall) (inst : ℕ) (principal : String) (runs : Bool) :
    Dispatching :=
  { s with
    takes := s.takes ++ [(inst, principal)]
    dispatched := if runs then s.dispatched ++ [⟨call, inst, principal⟩] else s.dispatched }

/-- What `route` does with the instance it gets, or with a refusal. -/
def routed (s : Dispatching) (call : SessionCall) (principal : Option String) (runs : Bool)
    (r : SessionStore ℕ × Except SessionError ℕ) : Dispatching :=
  let next := { s with
    store := r.1
    opened := if s.session call = none ∧ r.2.isOk then s.opened ++ [call] else s.opened }
  match r.2, principal with
  | .error _, _ => next
  | .ok inst, none => { next with pending := next.pending ++ [⟨call, inst⟩] }
  | .ok inst, some principal => next.take call inst principal runs

/-- `route`: a call without a session id is refused. -/
def route (s : Dispatching) (call : SessionCall) (principal : Option String)
    (factory runs : Bool) : Dispatching :=
  if call.sessionId = 0 then s
  else s.routed call principal runs
    (s.store.resolveConnection call.connectionId call.service call.sessionId principal
      (if factory then some s.opened.length else none))

/-- The end of `authenticate` for a call that passed Gate 3. -/
def claim (s : Dispatching) (r : Authenticating) (principal : String) (runs : Bool) : Dispatching :=
  let c := s.store.claim r.call.connectionId r.call.service r.call.sessionId principal
  let next := { s with store := c.1 }
  match c.2 with
  | .error _ => next
  | .ok () => next.take r.call r.inst principal runs

def step (s : Dispatching) : DispatchEvent → Dispatching × Unit
  | .route call principal factory runs => (s.route call principal factory runs, ())
  | .authenticated index principal runs =>
    match s.pending[index]? with
    | none => (s, ())
    | some r => ({ s with pending := s.pending.eraseIdx index }.claim r principal runs, ())
  | .refused index => ({ s with pending := s.pending.eraseIdx index }, ())
  | .closeConnection connectionId => ({ s with store := s.store.closeConnection connectionId }, ())
  | .dropServices keys => ({ s with store := s.store.dropServices keys }, ())

/-- Every handler run is for the instance's first principal and for the call it was opened for. -/
def OnePrincipal (s : Dispatching) : Prop :=
  ∀ d ∈ s.dispatched, s.owner d.inst = some d.principal ∧ s.opened[d.inst]? = some d.call

/-- A call that no longer finds the instance it was routed to, but no session at all or one that is
free or its principal's own, comes from the instance's first principal, if it has one. -/
def Current (s : Dispatching) (e : DispatchEvent) : Prop :=
  ∀ index principal r, e = .authenticated index principal true → s.pending[index]? = some r →
    (s.session r.call).map (·.inst) ≠ some r.inst →
    (∀ session ∈ s.session r.call, ∀ owner ∈ session.owner, owner = principal) →
    ∀ first, s.owner r.inst = some first → first = principal

/-- Every instance in use was opened for the call it is found by, and a live one belongs to its
first principal. -/
structure Sound (s : Dispatching) : Prop where
  live : ∀ call session, s.session call = some session → s.opened[session.inst]? = some call ∧
    ∀ first, s.owner session.inst = some first → session.owner = some first
  pending : ∀ r ∈ s.pending, s.opened[r.inst]? = some r.call
  takes : ∀ t ∈ s.takes, t.1 < s.opened.length

variable {s : Dispatching} {session : OpenSession ℕ} {sessionId : ℤ}

/-! ### Instances and their owners -/

theorem owner_take (call : SessionCall) (inst j : ℕ) (principal : String) (runs : Bool) :
    (s.take call inst principal runs).owner j =
      (s.owner j).or (if inst = j then some principal else none) := by
  simp only [owner, take, find?_append, find?_singleton]
  cases s.takes.find? (·.1 = j) <;> by_cases h : inst = j <;> simp [h]

theorem session_of_store {s' : Dispatching} {lastOpened : ℤ}
    (h : s'.store = s.store.setSession call.connectionId call.service call.sessionId lastOpened
      session) (call' : SessionCall) :
    s'.session call' = if call' = call then some session else s.session call' := by
  simp only [Dispatching.session, h, session_setSession]
  have hkey : (call'.connectionId = call.connectionId ∧ call'.service = call.service ∧
      call'.sessionId = call.sessionId) ↔ call' = call := by
    cases call
    cases call'
    simp
  simp [hkey]

/-- A run for the first principal of an instance, or for the first one to take it. -/
theorem OnePrincipal.take (h : s.OnePrincipal) (hinst : s.opened[inst]? = some call)
    (hfirst : runs = true → ∀ first, s.owner inst = some first → first = principal) :
    (s.take call inst principal runs).OnePrincipal := by
  have hold : ∀ d ∈ s.dispatched, (s.take call inst principal runs).owner d.inst =
      some d.principal ∧ s.opened[d.inst]? = some d.call := by
    intro d hd
    rw [owner_take, (h d hd).1]
    exact ⟨rfl, (h d hd).2⟩
  cases runs with
  | false => exact hold
  | true =>
    intro d hd
    rcases mem_append.mp hd with hd | hd
    · exact hold d hd
    · rw [mem_singleton.mp hd]
      refine ⟨?_, hinst⟩
      rw [owner_take]
      cases hpre : s.owner inst with
      | none => simp
      | some first => simp [hfirst rfl first hpre]

/-- Only a run for the first principal keeps the instance to one principal. -/
theorem onePrincipal_take_iff (h : s.OnePrincipal) (hinst : s.opened[inst]? = some call) :
    (s.take call inst principal runs).OnePrincipal ↔
      (runs = true → ∀ first, s.owner inst = some first → first = principal) := by
  refine ⟨?_, fun hfirst => h.take hinst hfirst⟩
  rintro htaken rfl first hfirst
  have hnew := (htaken ⟨call, inst, principal⟩ (by simp [take])).1
  rw [owner_take, hfirst] at hnew
  exact Option.some.inj hnew

theorem checkOwner_of_free (h : ∀ q ∈ session.owner, q = principal) :
    checkOwner session principal sessionId = .ok { session with owner := some principal } := by
  obtain ⟨inst, _ | q⟩ := session
  · rfl
  · rw [← h q rfl]
    simp [checkOwner]

theorem checkOwner_ok (h : checkOwner session principal sessionId = .ok owned) :
    owned = ⟨session.inst, some principal⟩ ∧ ∀ q, session.owner = some q → q = principal := by
  unfold checkOwner at h
  cases howner : session.owner with
  | none =>
    rw [howner] at h
    cases h
    simp
  | some q =>
    simp only [howner] at h
    split at h
    · cases h
      subst q
      exact ⟨by rw [← howner], by simp⟩
    · cases h

section

variable (hs : s.Sound)

include hs

theorem owner_eq_none : s.owner s.opened.length = none := by
  have hfind : s.takes.find? (·.1 = s.opened.length) = none := by
    refine find?_eq_none.mpr fun t ht => ?_
    simpa using (hs.takes t ht).ne
  rw [owner, hfind]
  rfl

/-- A principal takes an instance that is not live, or that is live and its own. -/
theorem Sound.take (runs : Bool) (hinst : s.opened[inst]? = some call)
    (hown : ∀ session, s.session call = some session → session.inst = inst →
      session.owner = some principal) : (s.take call inst principal runs).Sound where
  live := by
    intro call' session hlive
    obtain ⟨hopen, hfirst⟩ := hs.live call' session hlive
    refine ⟨hopen, fun first howner => ?_⟩
    rw [owner_take] at howner
    cases hpre : s.owner session.inst with
    | some =>
      rw [hpre] at howner
      exact hfirst first (hpre.trans howner)
    | none =>
      rw [hpre, Option.none_or] at howner
      split at howner
      · -- The instance is found by the call it was opened for, and by no other.
        rename_i hsame
        subst hsame
        obtain rfl : call' = call := Option.some.inj (hopen.symm.trans hinst)
        exact (hown session hlive rfl).trans howner
      · cases howner
  pending := hs.pending
  takes := List.forall_mem_append.mpr
    ⟨hs.takes, List.forall_mem_singleton.mpr (List.getElem?_eq_some_iff.mp hinst).1⟩

/-- A live session is given to the principal that may have it. -/
theorem Sound.own (lastOpened : ℤ) (hlive : s.session call = some session)
    (hcheck : checkOwner session principal call.sessionId = .ok owned) :
    ({ s with
       store := s.store.setSession call.connectionId call.service call.sessionId lastOpened
        owned } : Dispatching).Sound where
  live := by
    intro call' session' hlive'
    rw [session_of_store rfl] at hlive'
    split at hlive'
    · rename_i hcall
      subst hcall
      obtain ⟨rfl, hpre⟩ := checkOwner_ok hcheck
      cases hlive'
      obtain ⟨hopen, hfirst⟩ := hs.live call' session hlive
      exact ⟨hopen, fun first howner => by rw [hpre first (hfirst first howner)]⟩
    · exact hs.live call' session' hlive'
  pending := hs.pending
  takes := hs.takes

/-- Sessions only go away. -/
theorem Sound.of_sessions {store : SessionStore ℕ}
    (h : ∀ call session, ({ s with store := store } : Dispatching).session call = some session →
      s.session call = some session) : ({ s with store := store } : Dispatching).Sound :=
  ⟨fun call session hlive => hs.live call session (h call session hlive), hs.pending, hs.takes⟩

/-- A new instance is opened for a call. -/
theorem Sound.opens (call : SessionCall) (principal : Option String) :
    ({ s with
       store := s.store.setSession call.connectionId call.service call.sessionId call.sessionId
        ⟨s.opened.length, principal⟩
       opened := s.opened ++ [call] } : Dispatching).Sound := by
  have hkeep : ∀ {i : ℕ} {c}, s.opened[i]? = some c → (s.opened ++ [call])[i]? = some c := by
    intro i c h
    rw [List.getElem?_append_left (List.getElem?_eq_some_iff.mp h).1]
    exact h
  refine ⟨fun call' session hlive => ?_, fun r hr => hkeep (hs.pending r hr), fun t ht => ?_⟩
  · rw [session_of_store rfl] at hlive
    split at hlive
    · rename_i hcall
      cases hlive
      subst hcall
      refine ⟨by simp, fun first howner => ?_⟩
      have hnone := owner_eq_none hs
      simp only [owner] at hnone howner
      rw [hnone] at howner
      cases howner
    · obtain ⟨hopen, hfirst⟩ := hs.live call' session hlive
      exact ⟨hkeep hopen, hfirst⟩
  · have := hs.takes t ht
    simp only [List.length_append, List.length_singleton]
    omega

theorem Sound.await (hinst : s.opened[inst]? = some call) :
    ({ s with pending := s.pending ++ [⟨call, inst⟩] } : Dispatching).Sound := by
  refine ⟨hs.live, fun r hr => ?_, hs.takes⟩
  rcases mem_append.mp hr with hr | hr
  · exact hs.pending r hr
  · rw [mem_singleton.mp hr]
    exact hinst

/-- Routing keeps the instances sound, and never runs one for anyone but its first principal. -/
theorem route_sound (call : SessionCall) (principal : Option String) (factory runs : Bool) :
    (s.route call principal factory runs).Sound ∧
      (s.OnePrincipal → (s.route call principal factory runs).OnePrincipal) := by
  unfold route
  split
  · exact ⟨hs, id⟩
  have hrefused : ∀ e, (s.routed call principal runs (s.store, .error e)).Sound ∧
      (s.OnePrincipal → (s.routed call principal runs (s.store, .error e)).OnePrincipal) := by
    intro e
    simp only [routed, Except.isOk, Except.toBool, Bool.false_eq_true, and_false, ite_false]
    exact ⟨hs, id⟩
  refine resolveConnection_cases s.store principal _
    (P := fun r => (s.routed call principal runs r).Sound ∧
      (s.OnePrincipal → (s.routed call principal runs r).OnePrincipal))
    (fun session owned hlive howned => ?_) (fun _ _ _ _ _ => hrefused _) (fun _ _ _ => hrefused _)
    (fun _ _ _ _ => hrefused _) (fun inst hnone _ _ hinst => ?_)
  · have hlive' : s.session call = some session := hlive
    have hinst := (hs.live call session hlive').1
    rcases howned with ⟨rfl, rfl⟩ | ⟨p, rfl, hcheck⟩
    · rw [setSession_self hlive]
      simp only [routed, hlive', reduceCtorEq, false_and, ite_false]
      exact ⟨hs.await hinst, id⟩
    · have hnext := hs.own (s.store.connections call.connectionId).lastOpened hlive' hcheck
      simp only [routed, hlive', reduceCtorEq, false_and, ite_false]
      obtain ⟨rfl, hpre⟩ := checkOwner_ok hcheck
      refine ⟨hnext.take runs hinst (by rw [session_of_store rfl]; simp), fun h => ?_⟩
      refine OnePrincipal.take (s := { s with store := _ }) h hinst fun _ first hfirst => ?_
      exact hpre first ((hs.live call session hlive').2 first hfirst)
  · obtain rfl : s.opened.length = inst := by
      split at hinst
      · exact Option.some.inj hinst
      · cases hinst
    have hnext := hs.opens call principal
    have hnone' : s.session call = none := hnone
    have hlast : (s.opened ++ [call])[s.opened.length]? = some call := by simp
    have hdone : s.OnePrincipal → ({ s with
        store := s.store.setSession call.connectionId call.service call.sessionId call.sessionId
          ⟨s.opened.length, principal⟩
        opened := s.opened ++ [call] } : Dispatching).OnePrincipal := by
      intro h d hd
      obtain ⟨howner, hopen⟩ := h d hd
      refine ⟨howner, ?_⟩
      simp only
      rw [List.getElem?_append_left (List.getElem?_eq_some_iff.mp hopen).1]
      exact hopen
    simp only [routed, hnone', Except.isOk, Except.toBool, and_self, ite_true]
    cases principal with
    | none => exact ⟨hnext.await hlast, hdone⟩
    | some p =>
      refine ⟨hnext.take runs hlast (by rw [session_of_store rfl]; simp), fun h =>
        (hdone h).take hlast fun _ first hfirst => ?_⟩
      have hfresh := owner_eq_none hs
      simp only [owner] at hfresh hfirst
      rw [hfresh] at hfirst
      cases hfirst

theorem claim_sound {r : Authenticating} (hinst : s.opened[r.inst]? = some r.call)
    (principal : String) (runs : Bool) :
    (s.claim r principal runs).Sound ∧
      (s.OnePrincipal → ((s.claim r principal runs).OnePrincipal ↔
        (runs = true → (s.session r.call).map (·.inst) ≠ some r.inst →
          (∀ session ∈ s.session r.call, ∀ owner ∈ session.owner, owner = principal) →
          ∀ first, s.owner r.inst = some first → first = principal))) := by
  have hkey : s.store.session r.call.connectionId r.call.service r.call.sessionId =
      s.session r.call := rfl
  cases hlive : s.session r.call with
  | none =>
    simp only [claim, SessionStore.claim, hkey, hlive]
    refine ⟨hs.take runs hinst fun session hsess _ => ?_, fun h => ?_⟩
    · rw [hlive] at hsess
      cases hsess
    · simpa using onePrincipal_take_iff h hinst
  | some session =>
    cases hcheck : checkOwner session principal r.call.sessionId with
    | error =>
      simp only [claim, SessionStore.claim, hkey, hlive, hcheck]
      refine ⟨hs, fun h => iff_of_true h fun _ _ hfree => ?_⟩
      rw [checkOwner_of_free (hfree session rfl)] at hcheck
      cases hcheck
    | ok =>
      simp only [claim, SessionStore.claim, hkey, hlive, hcheck]
      have hnext := hs.own (s.store.connections r.call.connectionId).lastOpened hlive hcheck
      obtain ⟨rfl, hpre⟩ := checkOwner_ok hcheck
      refine ⟨hnext.take runs hinst (by rw [session_of_store rfl]; simp), fun h => ?_⟩
      refine (onePrincipal_take_iff (s := { s with store := _ }) h hinst).trans
        (forall_congr' fun _ => ?_)
      by_cases hsame : session.inst = r.inst
      · -- The instance is still the session's: its owner was checked.
        simp only [hsame, Option.map_some, ne_eq, not_true_eq_false, false_implies, iff_true]
        intro first hfirst
        exact hpre first ((hs.live r.call session hlive).2 first (hsame ▸ hfirst))
      · simpa [hsame, owner] using Or.inl hpre

theorem Sound.erasePending (index : ℕ) :
    ({ s with pending := s.pending.eraseIdx index } : Dispatching).Sound :=
  ⟨hs.live, fun r hr => hs.pending r (mem_of_mem_eraseIdx hr), hs.takes⟩

/-- One event keeps the instances sound, and keeps them to one principal exactly when it is
current. -/
theorem step_sound (e : DispatchEvent) :
    (step s e).1.Sound ∧ (s.OnePrincipal → ((step s e).1.OnePrincipal ↔ s.Current e)) := by
  cases e with
  | route call principal factory runs =>
    obtain ⟨hnext, hone⟩ := route_sound hs call principal factory runs
    exact ⟨hnext, fun h => iff_of_true (hone h) (by simp [Current])⟩
  | authenticated index principal runs =>
    cases hpend : s.pending[index]? with
    | none =>
      refine ⟨by simpa [step, hpend] using hs, fun h => iff_of_true ?_ ?_⟩
      · simpa [step, hpend] using h
      · rintro _ _ r he hpend'
        cases he
        rw [hpend] at hpend'
        cases hpend'
    | some r =>
      have hinst := hs.pending r (mem_of_getElem? hpend)
      obtain ⟨hnext, hone⟩ := claim_sound (hs.erasePending index) hinst principal runs
      simp only [step, hpend]
      refine ⟨hnext, fun h => (hone h).trans ?_⟩
      constructor
      · rintro hcurr _ _ r' he hpend'
        cases he
        obtain rfl : r = r' := Option.some.inj (hpend.symm.trans hpend')
        exact hcurr rfl
      · rintro hcurr rfl
        exact hcurr index principal r rfl hpend
  | refused index =>
    exact ⟨hs.erasePending index, fun h => iff_of_true h (by simp [Current])⟩
  | closeConnection =>
    refine ⟨hs.of_sessions fun call session hlive => ?_, fun h => iff_of_true h (by simp [Current])⟩
    simp only [Dispatching.session, session_closeConnection] at hlive
    split at hlive
    · cases hlive
    · exact hlive
  | dropServices =>
    refine ⟨hs.of_sessions fun call session hlive => ?_, fun h => iff_of_true h (by simp [Current])⟩
    simp only [Dispatching.session, session_dropServices] at hlive
    split at hlive
    · cases hlive
    · exact hlive

end

theorem start_sound (maxPerConnection : ℕ) : (start maxPerConnection).Sound := by
  refine ⟨fun call session hlive => ?_, by simp [start], by simp [start]⟩
  have hnone : (start maxPerConnection).session call = none := ExtTreeMap.getElem?_empty
  rw [hnone] at hlive
  cases hlive

/-- **One principal for each instance.** In every run, every handler run of every state reached is
for the first principal of its instance and for the call the instance was opened for, exactly when
no call that lost its session while it was authenticating gets through for another principal. -/
theorem instance_one_principal_iff (maxPerConnection : ℕ) (es : List DispatchEvent) :
    (∀ pre, pre <+: es → (run step (start maxPerConnection) pre).OnePrincipal) ↔
      EveryStep step Current (start maxPerConnection) es :=
  reached_iff_everyStep (J := Sound) (fun _ e hs => (step_sound hs e).1)
    (fun _ e hs h => (step_sound hs e).2 h) (start_sound maxPerConnection)
    (by simp [start, OnePrincipal]) es

/-- **A session dropped before its second caller is known.** Alice and Bob call the same session;
Alice claims it, the service is withdrawn, and Bob is then run in Alice's instance. -/
theorem instance_serves_two :
    (run step (start 4)
      [.route ⟨7, ("svc", 1), 1⟩ none true true, .route ⟨7, ("svc", 1), 1⟩ none true true,
        .authenticated 0 "alice" true, .dropServices [("svc", 1)],
        .authenticated 0 "bob" true]).dispatched =
      [⟨⟨7, ("svc", 1), 1⟩, 0, "alice"⟩, ⟨⟨7, ("svc", 1), 1⟩, 0, "bob"⟩] := by
  decide +kernel

end Dispatching

end AsterRpc.Rpc

import AsterRpc.Foundation.Run
import AsterRpc.Foundation.Table

/-!
# Session instances of a connection

The session store keeps, for each connection, the highest session id opened on it
and the instances that are live, each with the principal it belongs to.  A call
looks its session up or opens it; an id at or below the highest one that is not
live counts as closed.

Ids are handed out by the client in order, but calls of different sessions travel
on different streams.  A session is served exactly when the first calls of the
sessions of a connection arrive in the order of their ids and a session keeps to
one service: otherwise a session that was never opened is told that it was closed.
-/

namespace AsterRpc.Rpc

open AsterRpc.Foundation Std Function

/-! ### The store -/

/-- `(service, version)`. -/
abbrev ServiceKey := String × ℤ

/-- What a call on a session carries. -/
structure SessionCall where
  connectionId : ℕ
  service : ServiceKey
  sessionId : ℤ
deriving DecidableEq

inductive SessionError where
  | scopeMismatch (message : String)
  | notFound (message : String)
  | exhausted (message : String)
  | notOwner (message : String)
deriving DecidableEq

/-- A live session and the principal it belongs to, if that is known yet. -/
structure OpenSession (ι : Type) where
  inst : ι
  owner : Option String

structure ConnectionState (ι : Type) where
  lastOpened : ℤ
  active : Table (ℤ × ServiceKey) (OpenSession ι)

/-- `SessionStore` without its HTTP sessions.  A connection that has no entry is one with the
default entry: no function tells them apart. -/
structure SessionStore (ι : Type) where
  maxPerConnection : ℕ
  connections : ℕ → ConnectionState ι

open SessionStore

variable {ι : Type}

def ConnectionState.default : ConnectionState ι := ⟨0, ∅⟩

def SessionStore.new (maxPerConnection : ℕ) : SessionStore ι :=
  ⟨maxPerConnection, fun _ => ConnectionState.default⟩

def notOwner (sessionId : ℤ) : SessionError :=
  .notOwner s!"session {sessionId} belongs to another principal on this connection"

/-- The first principal to claim a session gets it; anyone else is refused. -/
def checkOwner (session : OpenSession ι) (principal : String) (sessionId : ℤ) :
    Except SessionError (OpenSession ι) :=
  match session.owner with
  | some owner => if owner = principal then .ok session else .error (notOwner sessionId)
  | none => .ok { session with owner := some principal }

namespace SessionStore

variable (store : SessionStore ι)

/-- The session of `service` with id `sessionId` on a connection. -/
def session (connectionId : ℕ) (service : ServiceKey) (sessionId : ℤ) : Option (OpenSession ι) :=
  (store.connections connectionId).active[(sessionId, service)]?

def setSession (connectionId : ℕ) (service : ServiceKey) (sessionId lastOpened : ℤ)
    (session : OpenSession ι) : SessionStore ι :=
  { store with
    connections := update store.connections connectionId
      ⟨lastOpened, (store.connections connectionId).active.insert (sessionId, service) session⟩ }

/-- `resolve_connection`.  `factory` is what the factory returns; the only error a factory has is
that nothing more is admitted. -/
def resolveConnection (connectionId : ℕ) (service : ServiceKey) (sessionId : ℤ)
    (principal : Option String) (factory : Option ι) :
    SessionStore ι × Except SessionError ι :=
  let state := store.connections connectionId
  match store.session connectionId service sessionId with
  | some session =>
    match principal with
    | none => (store, .ok session.inst)
    | some principal =>
      match checkOwner session principal sessionId with
      | .error e => (store, .error e)
      | .ok owned =>
        (store.setSession connectionId service sessionId state.lastOpened owned, .ok session.inst)
  | none =>
    if sessionId ≤ state.lastOpened then
      (store, .error (.notFound
        s!"session {sessionId} was previously opened on this connection and is now closed"))
    else if state.active.size ≥ store.maxPerConnection then
      (store, .error (.exhausted
        s!"session limit reached (max_sessions_per_connection={store.maxPerConnection})"))
    else
      match factory with
      | none => (store, .error (.exhausted "foreign dispatch admission limit reached"))
      | some inst =>
        (store.setSession connectionId service sessionId sessionId ⟨inst, principal⟩, .ok inst)

/-- `claim`: a session that is gone has nothing to claim and passes. -/
def claim (connectionId : ℕ) (service : ServiceKey) (sessionId : ℤ) (principal : String) :
    SessionStore ι × Except SessionError Unit :=
  match store.session connectionId service sessionId with
  | none => (store, .ok ())
  | some session =>
    match checkOwner session principal sessionId with
    | .error e => (store, .error e)
    | .ok owned =>
      (store.setSession connectionId service sessionId
        (store.connections connectionId).lastOpened owned, .ok ())

def closeConnection (connectionId : ℕ) : SessionStore ι :=
  { store with
    connections := update store.connections connectionId ConnectionState.default }

/-- `drop_services`: the instances of the services go, the highest ids stay. -/
def dropServices (keys : List ServiceKey) : SessionStore ι :=
  { store with
    connections := fun connectionId =>
      let state := store.connections connectionId
      { state with active := state.active.filter fun key _ => key.2 ∉ keys } }

/-! ### What each operation leaves of a session -/

variable {store} {connectionId other : ℕ} {service service' : ServiceKey} {sessionId sid : ℤ}

theorem session_setSession (lastOpened : ℤ) (session : OpenSession ι) :
    (store.setSession connectionId service sessionId lastOpened session).session other service'
        sid =
      if other = connectionId ∧ service' = service ∧ sid = sessionId then some session
      else store.session other service' sid := by
  simp only [SessionStore.session, setSession, update_apply]
  by_cases hother : other = connectionId
  · subst hother
    rw [if_pos rfl, Table.get?_insert]
    by_cases hkey : service' = service ∧ sid = sessionId
    · simp [hkey]
    · rw [if_neg (by simpa [eq_comm, and_comm] using hkey), if_neg (by tauto)]
  · rw [if_neg hother, if_neg (by tauto)]

theorem session_closeConnection :
    (store.closeConnection connectionId).session other service sid =
      if other = connectionId then none else store.session other service sid := by
  simp only [session, closeConnection, update_apply]
  split
  · exact ExtTreeMap.getElem?_empty
  · rfl

theorem session_dropServices (keys : List ServiceKey) :
    (store.dropServices keys).session connectionId service sid =
      if service ∈ keys then none else store.session connectionId service sid := by
  simp only [session, dropServices]
  rw [Table.get?_filter (p := fun key : ℤ × ServiceKey => decide (key.2 ∉ keys))]
  by_cases h : service ∈ keys <;> simp [h]

theorem setSession_self {session : OpenSession ι}
    (h : store.session connectionId service sessionId = some session) :
    store.setSession connectionId service sessionId (store.connections connectionId).lastOpened
      session = store := by
  rw [setSession, Table.insert_eq_self h, update_eq_self]

/-- The ways `resolve_connection` can end. -/
theorem resolveConnection_cases (store : SessionStore ι) (principal : Option String)
    (factory : Option ι) {P : SessionStore ι × Except SessionError ι → Prop}
    (hlive : ∀ session owned, store.session connectionId service sessionId = some session →
      (principal = none ∧ owned = session ∨
        ∃ p, principal = some p ∧ checkOwner session p sessionId = .ok owned) →
      P (store.setSession connectionId service sessionId
        (store.connections connectionId).lastOpened owned, .ok session.inst))
    (hother : ∀ session p, store.session connectionId service sessionId = some session →
      principal = some p → checkOwner session p sessionId = .error (notOwner sessionId) →
      P (store, .error (notOwner sessionId)))
    (hclosed : ∀ message, store.session connectionId service sessionId = none →
      sessionId ≤ (store.connections connectionId).lastOpened →
      P (store, .error (.notFound message)))
    (hfull : ∀ message, store.session connectionId service sessionId = none →
      (store.connections connectionId).lastOpened < sessionId →
      (store.maxPerConnection ≤ (store.connections connectionId).active.size ∨ factory = none) →
      P (store, .error (.exhausted message)))
    (hopen : ∀ inst, store.session connectionId service sessionId = none →
      (store.connections connectionId).lastOpened < sessionId →
      (store.connections connectionId).active.size < store.maxPerConnection →
      factory = some inst →
      P (store.setSession connectionId service sessionId sessionId ⟨inst, principal⟩, .ok inst)) :
    P (store.resolveConnection connectionId service sessionId principal factory) := by
  unfold resolveConnection
  cases hsess : store.session connectionId service sessionId with
  | some session =>
    cases principal with
    | none =>
      have h := hlive session session hsess (.inl ⟨rfl, rfl⟩)
      rwa [setSession_self hsess] at h
    | some p =>
      cases howner : checkOwner session p sessionId with
      | ok owned => simpa [howner] using hlive session owned hsess (.inr ⟨p, rfl, howner⟩)
      | error e =>
        obtain rfl : e = notOwner sessionId := by
          unfold checkOwner at howner
          split at howner
          · split at howner <;> cases howner
            rfl
          · cases howner
        simpa [howner] using hother session p hsess rfl howner
  | none =>
    simp only
    split
    · exact hclosed _ hsess ‹_›
    · split
      · exact hfull _ hsess (by omega) (.inl ‹_›)
      · cases factory with
        | none => exact hfull _ hsess (by omega) (.inr rfl)
        | some inst => exact hopen inst hsess (by omega) (by omega) rfl

end SessionStore

/-! ### A client and its sessions -/

/-- `next_session_id`. -/
def nextSessionId (last : ℕ) : Option ℕ := if last < 2 ^ 31 - 1 then some (last + 1) else none

/-- What happens on a server, seen from one connection: the client of the connection opens a
session, calls reach `resolve_connection` and `claim`, connections close and services are withdrawn.
-/
inductive Arrival (ι : Type) where
  | openSession
  | call (connectionId : ℕ) (service : ServiceKey) (sessionId : ℤ) (principal : Option String)
      (factory : Option ι)
  | claim (connectionId : ℕ) (service : ServiceKey) (sessionId : ℤ) (principal : String)
  | closeConnection (connectionId : ℕ)
  | dropServices (keys : List ServiceKey)

/-- The store, and of one connection: how many ids its client took, the ids opened on it in order,
and whether it is closed. -/
structure Life (ι : Type) where
  sessionIds : ℕ
  store : SessionStore ι
  opened : List ℤ
  closed : Bool

namespace Life

def start (maxPerConnection : ℕ) : Life ι := ⟨0, new maxPerConnection, [], false⟩

section

variable (conn : ℕ)

/-- A call on the connection is delivered while it is open, and its client uses only ids it took. -/
def Delivered (s : Life ι) (sessionId : ℤ) : Prop :=
  s.closed = false ∧ 1 ≤ sessionId ∧ sessionId ≤ s.sessionIds

instance (s : Life ι) (sessionId : ℤ) : Decidable (s.Delivered sessionId) :=
  inferInstanceAs (Decidable (_ ∧ _ ∧ _))

/-- One event, with the answer to a call. -/
def step (s : Life ι) : Arrival ι → Life ι × Option (Except SessionError ι)
  | .openSession =>
    ({ s with sessionIds := (nextSessionId s.sessionIds).getD s.sessionIds }, none)
  | .call c service sessionId principal factory =>
    if c = conn ∧ ¬s.Delivered sessionId then (s, none)
    else
      let r := s.store.resolveConnection c service sessionId principal factory
      ({ s with
         store := r.1
         opened :=
           if c = conn ∧ s.store.session c service sessionId = none ∧ r.2.isOk then
             s.opened ++ [sessionId]
           else s.opened }, some r.2)
  | .claim c service sessionId principal =>
    ({ s with store := (s.store.claim c service sessionId principal).1 }, none)
  | .closeConnection c =>
    ({ s with
       store := s.store.closeConnection c
       closed := s.closed || c == conn }, none)
  | .dropServices keys => ({ s with store := s.store.dropServices keys }, none)

/-- The session id is live on the connection, for some service. -/
def Live (s : Life ι) (sessionId : ℤ) : Prop :=
  ∃ service, (s.store.session conn service sessionId).isSome

/-- A call is served: the first call of an id that was never opened opens it when there is room and
the factory succeeds, and only an id that was opened and dropped is told that it is closed. -/
def Served (s : Life ι) (e : Arrival ι) : Prop :=
  ∀ service sessionId principal factory, e = .call conn service sessionId principal factory →
    s.Delivered sessionId →
    (∀ inst, sessionId ∉ s.opened →
      (s.store.connections conn).active.size < s.store.maxPerConnection → factory = some inst →
      (step conn s e).2 = some (.ok inst) ∧
        (step conn s e).1.store.session conn service sessionId = some ⟨inst, principal⟩) ∧
    (∀ message, (step conn s e).2 = some (.error (.notFound message)) →
      sessionId ∈ s.opened ∧ ¬s.Live conn sessionId)

/-- A call is in order: an id that was never opened is above every id opened so far, and a live id
is used with a service it is live for. -/
def InOrder (s : Life ι) (e : Arrival ι) : Prop :=
  ∀ service sessionId principal factory, e = .call conn service sessionId principal factory →
    s.Delivered sessionId →
    (sessionId ∉ s.opened → ∀ i ∈ s.opened, i < sessionId) ∧
    (s.Live conn sessionId → (s.store.session conn service sessionId).isSome)

/-- The highest id is the last one opened, and every live session was opened. -/
structure Sound (cap : ℕ) (s : Life ι) : Prop where
  bounded : s.closed = false → ∀ i ∈ s.opened, i ≤ (s.store.connections conn).lastOpened
  reached : s.closed = false →
    (s.store.connections conn).lastOpened = 0 ∨ (s.store.connections conn).lastOpened ∈ s.opened
  live : ∀ service sessionId, (s.store.session conn service sessionId).isSome →
    sessionId ∈ s.opened
  once : s.opened.Nodup
  limit : s.store.maxPerConnection = cap
  room : (s.store.connections conn).active.size ≤ cap

variable {conn} {cap : ℕ} {s : Life ι}

theorem start_sound (maxPerConnection : ℕ) :
    (start maxPerConnection : Life ι).Sound conn maxPerConnection where
  bounded := by
    intro _ i hi
    cases hi
  reached _ := Or.inl rfl
  live := by
    intro service sessionId h
    have hnone : (start maxPerConnection : Life ι).store.session conn service sessionId = none :=
      ExtTreeMap.getElem?_empty
    rw [hnone] at h
    cases h
  once := List.nodup_nil
  limit := rfl
  room := Nat.zero_le _

variable (hs : s.Sound conn cap)

include hs

/-- What another connection does is not seen. -/
theorem Sound.of_connection (store : SessionStore ι)
    (hmax : store.maxPerConnection = s.store.maxPerConnection)
    (hconn : store.connections conn = s.store.connections conn) :
    ({ s with store := store } : Life ι).Sound conn cap where
  bounded hopen := by simpa only [hconn] using hs.bounded hopen
  reached hopen := by simpa only [hconn] using hs.reached hopen
  live := by simpa only [session, hconn] using hs.live
  once := hs.once
  limit := hmax.trans hs.limit
  room := by simpa only [hconn] using hs.room

/-- A session that is live gets an owner. -/
theorem Sound.own {service : ServiceKey} {sessionId : ℤ} {session : OpenSession ι} {c : ℕ}
    (owned : OpenSession ι) (h : s.store.session c service sessionId = some session) :
    ({ s with
       store := s.store.setSession c service sessionId (s.store.connections c).lastOpened owned } :
      Life ι).Sound conn cap := by
  by_cases hc : c = conn
  · subst hc
    have hsize := Table.size_insert_of_some owned h
    constructor
    · simpa [setSession] using hs.bounded
    · simpa [setSession] using hs.reached
    · intro service' sid hlive
      rw [session_setSession] at hlive
      split at hlive
      · obtain ⟨-, rfl, rfl⟩ := ‹_ ∧ _ ∧ _›
        exact hs.live service' sid (by rw [h]; rfl)
      · exact hs.live service' sid hlive
    · exact hs.once
    · exact hs.limit
    · simpa [setSession, hsize] using hs.room
  · exact hs.of_connection _ rfl (update_of_ne (Ne.symm hc) _ _)

/-- A session above every id opened so far is opened. -/
theorem Sound.opens {service : ServiceKey} {sessionId : ℤ} (session : OpenSession ι)
    (hopen : s.closed = false) (hnone : s.store.session conn service sessionId = none)
    (hlast : (s.store.connections conn).lastOpened < sessionId)
    (hroom : (s.store.connections conn).active.size < s.store.maxPerConnection) :
    ({ s with
       store := s.store.setSession conn service sessionId sessionId session
       opened := s.opened ++ [sessionId] } : Life ι).Sound conn cap where
  bounded := by
    intro _ i hi
    simp only [setSession, update_self]
    rcases List.mem_append.mp hi with hi | hi
    · exact (hs.bounded hopen i hi).trans hlast.le
    · exact (List.mem_singleton.mp hi).le
  reached := by simp [setSession]
  live := by
    intro service' sid hlive
    rw [session_setSession] at hlive
    split at hlive
    · obtain ⟨-, -, rfl⟩ := ‹_ ∧ _ ∧ _›
      exact List.mem_append_right _ (List.mem_singleton.mpr rfl)
    · exact List.mem_append_left _ (hs.live service' sid hlive)
  once := by
    refine List.nodup_append.mpr ⟨hs.once, List.nodup_singleton sessionId, ?_⟩
    rintro i hi j hj rfl
    rw [List.mem_singleton.mp hj] at hi
    exact absurd (hs.bounded hopen sessionId hi) hlast.not_ge
  limit := hs.limit
  room := by
    have hsize := Table.size_insert_of_none session hnone
    simp only [setSession, update_self, hsize]
    exact hs.limit ▸ hroom

theorem step_sound (e : Arrival ι) : (step conn s e).1.Sound conn cap := by
  cases e with
  | openSession => exact ⟨hs.bounded, hs.reached, hs.live, hs.once, hs.limit, hs.room⟩
  | call c service sessionId principal factory =>
    simp only [step]
    split
    · exact hs
    · rename_i hdeliv
      refine resolveConnection_cases s.store principal factory
        (P := fun r => Sound conn cap { s with
          store := r.1
          opened := if c = conn ∧ s.store.session c service sessionId = none ∧ r.2.isOk then
            s.opened ++ [sessionId] else s.opened })
        (fun session owned hlive _ => ?_) (fun session p hlive _ _ => ?_) (fun m hnone _ => ?_)
        (fun m hnone _ _ => ?_) (fun inst hnone hlast hroom _ => ?_)
      · simpa [hlive] using hs.own owned hlive
      · simpa [hlive] using hs
      · simpa [Except.isOk, Except.toBool] using hs
      · simpa [Except.isOk, Except.toBool] using hs
      · by_cases hc : c = conn
        · subst hc
          have hopen : s.closed = false := by
            simp only [true_and, not_not] at hdeliv
            exact hdeliv.1
          simpa [hnone, Except.isOk, Except.toBool] using
            hs.opens ⟨inst, principal⟩ hopen hnone hlast hroom
        · simpa [hc] using hs.of_connection (s.store.setSession c service sessionId
            sessionId ⟨inst, principal⟩) rfl (update_of_ne (Ne.symm hc) _ _)
  | claim =>
    simp only [step, claim]
    split
    · exact hs
    · rename_i session hlive
      split
      · exact hs
      · exact hs.own _ hlive
  | closeConnection c =>
    by_cases hc : c = conn
    · subst hc
      have hnone : ∀ service sid, (s.store.closeConnection c).session c service sid = none :=
        fun _ _ => by rw [session_closeConnection, if_pos rfl]
      refine ⟨by simp [step], by simp [step], ?_, hs.once, hs.limit, ?_⟩
      · intro service sid hlive
        simp [step, hnone] at hlive
      · simp [step, closeConnection, ConnectionState.default]
    · have h := hs.of_connection (s.store.closeConnection c) rfl
        (update_of_ne (Ne.symm hc) _ _)
      simpa [step, beq_eq_false_iff_ne.mpr hc] using h
  | dropServices =>
    refine ⟨hs.bounded, hs.reached, ?_, hs.once, hs.limit, ?_⟩
    · intro service sid hlive
      simp only [step, session_dropServices] at hlive
      split at hlive
      · cases hlive
      · exact hs.live service sid hlive
    · exact ExtTreeMap.size_filter_le_size.trans hs.room

/-- Where the store is sound, a call is served exactly when it is in order. -/
theorem served_iff_inOrder (e : Arrival ι) : s.Served conn e ↔ s.InOrder conn e := by
  unfold Served InOrder
  refine forall_congr' fun service => forall_congr' fun sessionId => forall_congr' fun principal =>
    forall_congr' fun factory => forall_congr' fun he => forall_congr' fun hdeliv => ?_
  subst he
  obtain ⟨hopen, hpos, -⟩ := id hdeliv
  have hanswer : (step conn s (.call conn service sessionId principal factory)).2 =
      some (s.store.resolveConnection conn service sessionId principal factory).2 := by
    simp [step, hdeliv]
  have hstore : (step conn s (.call conn service sessionId principal factory)).1.store =
      (s.store.resolveConnection conn service sessionId principal factory).1 := by
    simp [step, hdeliv]
  rw [hanswer, hstore]
  -- An id that was opened is at most the highest one.
  have hfresh : (s.store.connections conn).lastOpened < sessionId → sessionId ∉ s.opened :=
    fun hlast hmem => absurd (hs.bounded hopen sessionId hmem) hlast.not_ge
  have hbelow : (s.store.connections conn).lastOpened < sessionId → ∀ i ∈ s.opened, i < sessionId :=
    fun hlast i hi => (hs.bounded hopen i hi).trans_lt hlast
  have hdead : sessionId ∉ s.opened → ¬s.Live conn sessionId :=
    fun hmem ⟨service', hlive⟩ => hmem (hs.live service' sessionId hlive)
  refine resolveConnection_cases s.store principal factory
    (P := fun r => (∀ inst, sessionId ∉ s.opened →
        (s.store.connections conn).active.size < s.store.maxPerConnection → factory = some inst →
        some r.2 = some (.ok inst) ∧
          r.1.session conn service sessionId = some ⟨inst, principal⟩) ∧
      (∀ message, some r.2 = some (.error (.notFound message)) →
        sessionId ∈ s.opened ∧ ¬s.Live conn sessionId) ↔ _)
    (fun session owned hlive _ => ?_) (fun session p hlive _ _ => ?_) (fun m hnone hlast => ?_)
    (fun m hnone hlast hfull => ?_) (fun inst hnone hlast hroom hinst => ?_)
  · have hmem := hs.live service sessionId (by rw [hlive]; rfl)
    simp [hmem, hlive]
  · have hmem := hs.live service sessionId (by rw [hlive]; rfl)
    simp [hmem, hlive, notOwner]
  · -- The id is not above the highest one and not live: the answer is that it was closed.
    constructor
    · rintro ⟨-, hclosed⟩
      obtain ⟨hmem, hgone⟩ := hclosed m rfl
      exact ⟨fun h => absurd hmem h, fun h => absurd h hgone⟩
    · rintro ⟨horder, hone⟩
      have hmem : sessionId ∈ s.opened := by
        by_contra hmem
        rcases hs.reached hopen with hzero | hreached
        · omega
        · exact absurd (horder hmem _ hreached) hlast.not_gt
      refine ⟨fun _ h => absurd hmem h, fun _ _ => ⟨hmem, fun hlive => ?_⟩⟩
      have := hone hlive
      rw [hnone] at this
      cases this
  · have hmem := hfresh hlast
    refine iff_of_true ⟨fun inst _ hroom hinst => ?_, by simp⟩
      ⟨fun _ => hbelow hlast, fun h => absurd h (hdead hmem)⟩
    rcases hfull with hfull | hfull
    · omega
    · rw [hfull] at hinst
      cases hinst
  · have hmem := hfresh hlast
    refine iff_of_true ⟨fun inst' _ _ hinst' => ?_, by simp⟩
      ⟨fun _ => hbelow hlast, fun h => absurd h (hdead hmem)⟩
    obtain rfl : inst = inst' := Option.some.inj (hinst.symm.trans hinst')
    exact ⟨rfl, by rw [session_setSession, if_pos ⟨rfl, rfl, rfl⟩]⟩

end

/-- **A session is served exactly in order.** In every run, however calls, claims, closed
connections and withdrawn services interleave: no id is opened twice on a connection and no more
sessions are live than allowed, and every call of its client is served exactly when every call is in
order. -/
theorem sessions_served_iff (maxPerConnection conn : ℕ) (es : List (Arrival ι)) :
    (∀ pre, pre <+: es →
      (run (step conn) (start maxPerConnection) pre).opened.Nodup ∧
      ((run (step conn) (start maxPerConnection) pre).store.connections conn).active.size ≤
        maxPerConnection) ∧
    (EveryStep (step conn) (Served conn) (start maxPerConnection) es ↔
      EveryStep (step conn) (InOrder conn) (start maxPerConnection) es) := by
  constructor
  · intro pre _
    have hs : (run (step conn) (start maxPerConnection : Life ι) pre).Sound conn maxPerConnection :=
      run_invariant (I := Sound conn maxPerConnection) (fun _ e hs => step_sound hs e)
        (start_sound maxPerConnection) pre
    exact ⟨hs.once, hs.room⟩
  · exact everyStep_congr_of (J := Sound conn maxPerConnection) (fun _ e hs _ => step_sound hs e)
      (fun _ e hs => served_iff_inOrder hs e) (start_sound maxPerConnection) es

/-- **Two sessions whose first calls change places.** The client opens sessions 1 and 2, the call of
session 2 arrives first, and the first call of session 1 is told that its session was closed, with
one of four sessions in use. -/
theorem session_never_opened_closed :
    outputs (step 7) (start 4 : Life ℕ)
      [.openSession, .openSession, .call 7 ("svc", 1) 2 (some "alice") (some 20),
        .call 7 ("svc", 1) 1 (some "alice") (some 10)] =
      [none, none, some (.ok 20), some (.error (.notFound
        "session 1 was previously opened on this connection and is now closed"))] ∧
    (run (step 7) (start 4 : Life ℕ) [.openSession, .openSession,
      .call 7 ("svc", 1) 2 (some "alice") (some 20)]).opened = [2] := by
  decide

end Life

end AsterRpc.Rpc

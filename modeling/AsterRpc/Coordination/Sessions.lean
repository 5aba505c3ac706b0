import AsterRpc.Coordination.Step

/-!
# Exactly-once journals

Over every run of deliveries: a journal's sequence never goes back, a request is
answered afresh only under the next sequence, an answered request that is
delivered again is answered from the journal and changes nothing but the audit
trail, no journal is ever dropped, and a retired journal is frozen.

No validity of the starting state is needed; the classifier alone carries it.
-/

namespace AsterRpc.Coordination

open AsterRpc.Foundation

/-- The request a client command carries, readable or not. -/
def Command.clientRef? : Command → Option ClientRef
  | .client ref _ => some ref
  | .rejectedClient ref _ _ => some ref
  | _ => none

/-- The rows a request can change, apart from its journal. -/
def SameRows (s s' : State) : Prop :=
  s'.resources = s.resources ∧ s'.acl = s.acl ∧ s'.admins = s.admins ∧ s'.intents = s.intents ∧
    s'.routes = s.routes

theorem SameRows.refl (s : State) : SameRows s s := ⟨rfl, rfl, rfl, rfl, rfl⟩

theorem Performed.sameRows {s s' : State} {logId : LogId} {entry : Option (SessionKey × Session)}
    {row : AuditRow} (h : Performed s s' logId .none entry row) : SameRows s s' := by
  obtain ⟨_, _, _, -, rfl⟩ := h
  exact ⟨rfl, rfl, rfl, rfl, rfl⟩

section

variable (ext : Externals) {s : State} {client : ClientRef} {reply : SavedReply} {d : Delivery}
  {x : Session}

/-- The delivery answers `client`'s request afresh, with this reply. -/
def Consumes (s : State) (d : Delivery) (client : ClientRef) (reply : SavedReply) : Prop :=
  d.2.clientRef? = some client ∧ (deliver ext s d).2 = .ok (.client ⟨.consumed, reply, false⟩)

/-- The journal row a fresh answer leaves. -/
def answeredRow (client : ClientRef) (reply : SavedReply) : Session where
  lastSequence := client.sequence
  requestHash := client.requestHash
  lastResult := some reply
  retired := false

theorem sessionRow_eq_answeredRow {row : Row} {creates : Bool}
    (h : classifyClient s client = .unresolved row creates) :
    Working.sessionRow s.sessions[client.key]? client.sequence client.requestHash reply =
      answeredRow client reply := by
  have hlive := (classify_unresolved h).live
  cases hsess : s.sessions[client.key]? with
  | none => rfl
  | some x => simp [Working.sessionRow, answeredRow, hlive x hsess]

/-! ### One delivery -/

/-- **What a delivery does to the journals**: nothing, a fresh answer under the next sequence, or a
retirement. -/
theorem deliver_sessions (s : State) (d : Delivery) :
    (deliver ext s d).1.sessions = s.sessions ∨
    (∃ client reply, Consumes ext s d client reply ∧
      Admitted s.sessions[client.key]? client.sequence (s.capacityFor client.actor) ∧
      (deliver ext s d).1.sessions = s.sessions.insert client.key (answeredRow client reply)) ∨
    (∃ command row, RetireStep s command row ∧ d.2 = .retireClient command ∧
      (deliver ext s d).1.sessions = s.sessions.insert command.target row) := by
  obtain ⟨_, command⟩ := d
  unfold Consumes
  refine deliver_elim ext s _ (fun _ => .inl rfl) fun _ hstep hdone => ?_
  obtain ⟨_, _, _, -, rfl⟩ := hdone
  cases hstep with
  | decided client action change reply row creates h =>
    refine .inr (.inl ⟨client, reply, ⟨rfl, rfl⟩, classify_unresolved h, ?_⟩)
    simp [journalled, sessionRow_eq_answeredRow h]
  | rejectedFresh client code resource row creates h =>
    refine .inr (.inl ⟨client, _, ⟨rfl, rfl⟩, classify_unresolved h, ?_⟩)
    simp [journalled, sessionRow_eq_answeredRow h]
  | retired command row h => exact .inr (.inr ⟨command, row, h, rfl, rfl⟩)
  | _ => exact .inl rfl

/-- A delivery that carries a request changes rows only by answering it afresh. -/
theorem deliver_sameRows (hcli : d.2.clientRef? = some client) :
    SameRows s (deliver ext s d).1 ∨ ∃ reply, Consumes ext s d client reply := by
  obtain ⟨_, _⟩ := d
  unfold Consumes
  refine deliver_elim ext s _ (fun _ => .inl (SameRows.refl s)) fun _ hstep hdone => ?_
  cases hstep with
  | decided client' action change reply =>
    cases hcli
    exact .inr ⟨reply, rfl, rfl⟩
  | expired | progressed | genesisInstalled => cases hcli
  | _ => exact .inl hdone.sameRows

/-- A fresh answer takes exactly the next sequence, and is what the journal then holds. -/
theorem consumes_next (h : Consumes ext s d client reply) :
    client.sequence = nextSequence s.sessions[client.key]? ∧
      (deliver ext s d).1.sessions[client.key]? = some (answeredRow client reply) := by
  obtain ⟨hcli, hreply⟩ := h
  obtain ⟨_, _⟩ := d
  revert hreply
  refine deliver_elim ext s _ (fun _ => nofun) fun _ hstep hdone hreply => ?_
  obtain ⟨_, _, _, -, rfl⟩ := hdone
  cases hstep with
  | decided client' action change reply'' row creates hclass hdec
  | rejectedFresh client' code resource row creates hclass =>
    cases hcli
    cases hreply
    refine ⟨(classify_unresolved hclass).next, ?_⟩
    simp only [journalled, sessionRow_eq_answeredRow hclass]
    exact Table.get?_insert_self _ _ _
  | shapeless => cases hcli
  | _ => cases hreply

/-! ### Journals only advance -/

/-- Every journal of `s` is still there in `s'`, no earlier, and untouched once retired. -/
def SessionsAdvance (s s' : State) : Prop :=
  ∀ (key : SessionKey) (x : Session), s.sessions[key]? = some x →
    ∃ y : Session, s'.sessions[key]? = some y ∧ x.lastSequence ≤ y.lastSequence ∧
      (x.retired = true → y = x)

theorem SessionsAdvance.refl (s : State) : SessionsAdvance s s :=
  fun _ x hx => ⟨x, hx, Nat.le_refl _, fun _ => rfl⟩

theorem SessionsAdvance.trans {a b c : State} (hab : SessionsAdvance a b)
    (hbc : SessionsAdvance b c) : SessionsAdvance a c := by
  intro key x hx
  obtain ⟨y, hy, hle, hfrozen⟩ := hab key x hx
  obtain ⟨z, hz, hle', hfrozen'⟩ := hbc key y hy
  refine ⟨z, hz, Nat.le_trans hle hle', fun hret => ?_⟩
  have hyx := hfrozen hret
  subst hyx
  exact hfrozen' hret

theorem SessionsAdvance.of_insert {s' : State} {key : SessionKey} {row : Session}
    (hsess : s'.sessions = s.sessions.insert key row)
    (hrow : ∀ x, s.sessions[key]? = some x →
      x.retired = false ∧ x.lastSequence ≤ row.lastSequence) :
    SessionsAdvance s s' := by
  intro k x hx
  rw [hsess]
  by_cases hk : key = k
  · subst hk
    obtain ⟨hlive, hle⟩ := hrow x hx
    refine ⟨row, Table.get?_insert_self _ _ _, hle, fun hret => ?_⟩
    rw [hlive] at hret
    cases hret
  · rw [Table.get?_insert_of_ne _ _ hk]
    exact ⟨x, hx, Nat.le_refl _, fun _ => rfl⟩

theorem deliver_sessionsAdvance (s : State) (d : Delivery) :
    SessionsAdvance s (deliver ext s d).1 := by
  obtain hsame | ⟨_, _, -, hadm, hins⟩ | ⟨_, _, hretire, -, hins⟩ :=
    deliver_sessions ext s d
  · intro key x hx
    exact ⟨x, by rw [hsame]; exact hx, Nat.le_refl _, fun _ => rfl⟩
  · refine SessionsAdvance.of_insert hins fun x hx => ⟨hadm.live x hx, ?_⟩
    have hnext := hadm.next
    rw [hx] at hnext
    simp only [answeredRow, hnext, nextSequence]
    omega
  · refine SessionsAdvance.of_insert hins fun x hx => ?_
    cases hretire with
    | convert existing hprev hlive =>
      rw [hprev] at hx
      cases hx
      exact ⟨hlive, Nat.le_refl _⟩
    | tombstone hnone =>
      rw [hnone] at hx
      cases hx

theorem run_sessionsAdvance (s : State) (es : List Delivery) :
    SessionsAdvance s (run (deliver ext) s es) :=
  run_relates SessionsAdvance.refl SessionsAdvance.trans (deliver_sessionsAdvance ext) s es

/-! ### Answered requests -/

/-- The journal's last answer is `reply`, to this very request. -/
def Answered (client : ClientRef) (reply : SavedReply) (s : State) : Prop :=
  ∃ x : Session, s.sessions[client.key]? = some x ∧ x.lastSequence = client.sequence ∧
    x.requestHash = client.requestHash ∧ x.lastResult = some reply

/-- Only a fresh answer in the same journal replaces the last one. -/
theorem deliver_answered (h : Answered client reply s)
    (hother : ∀ c r, c.key = client.key → ¬ Consumes ext s d c r) :
    Answered client reply (deliver ext s d).1 := by
  obtain ⟨x, hx, hseq, hhash, hlast⟩ := h
  obtain hsame | ⟨c, r, hcons, -, hins⟩ | ⟨command, _, hretire, -, hins⟩ :=
    deliver_sessions ext s d
  · exact ⟨x, by rw [hsame]; exact hx, hseq, hhash, hlast⟩
  · have hne : c.key ≠ client.key := fun hkey => hother c r hkey hcons
    exact ⟨x, by rw [hins, Table.get?_insert_of_ne _ _ hne]; exact hx, hseq, hhash, hlast⟩
  · by_cases hkey : command.target = client.key
    · cases hretire with
      | convert existing hprev =>
        rw [hkey, hx] at hprev
        cases hprev
        refine ⟨{ x with retired := true }, ?_, hseq, hhash, hlast⟩
        rw [hins, hkey]
        exact Table.get?_insert_self _ _ _
      | tombstone hnone =>
        rw [hkey, hx] at hnone
        cases hnone
    · exact ⟨x, by rw [hins, Table.get?_insert_of_ne _ _ hkey]; exact hx, hseq, hhash, hlast⟩

/-- A request that the guard lets through is answered. -/
theorem deliver_client_ok (hguard : guardDelivery s d.1 = .ok ())
    (hcli : d.2.clientRef? = some client) :
    ∃ result, (deliver ext s d).2 = .ok (.client result) := by
  obtain ⟨_, command⟩ := d
  simp only [deliver, applyCommand, applyCommandRecording, Working.start, hguard]
  cases command with
  | client => exact ⟨_, rfl⟩
  | rejectedClient => exact ⟨_, rfl⟩
  | _ => cases hcli

/-- **A repeated request is answered from the journal** and changes the audit trail alone. -/
theorem deliver_replay (hguard : guardDelivery s d.1 = .ok ())
    (hcli : d.2.clientRef? = some client) (hpos : client.sequence ≠ 0)
    (h : Answered client reply s) :
    (deliver ext s d).2 = .ok (.client ⟨.consumed, reply, true⟩) ∧
      SameRows s (deliver ext s d).1 ∧ (deliver ext s d).1.adminRevision = s.adminRevision ∧
      (deliver ext s d).1.sessions = s.sessions ∧
      (deliver ext s d).1.growthBytes = s.growthBytes := by
  have hclass : classifyClient s client = .replay .replay reply :=
    classify_replay_iff.mpr ⟨rfl, hpos, h⟩
  obtain ⟨_, hok⟩ := deliver_client_ok ext hguard hcli
  obtain ⟨_, _⟩ := d
  revert hok
  refine deliver_elim ext s _ (fun _ => nofun) fun _ hstep hdone hok => ?_
  cases hstep with
  | replay client' action row saved hclass'
  | rejectedReplay client' code resource row saved hclass' =>
    cases hcli
    rw [hclass] at hclass'
    cases hclass'
    obtain ⟨_, _, _, hgrowth, rfl⟩ := hdone
    exact ⟨rfl, ⟨rfl, rfl, rfl, rfl, rfl⟩, rfl, rfl, hgrowth rfl⟩
  | refused client' action row reason hclass'
  | decided client' action change reply' row creates hclass'
  | rejectedRefused client' code resource row reason hclass'
  | rejectedFresh client' code resource row creates hclass' =>
    cases hcli
    rw [hclass] at hclass'
    cases hclass'
  | _ => cases hcli

/-- A retired journal takes no fresh answer. -/
theorem consumes_live (h : Consumes ext s d client reply) (hx : s.sessions[client.key]? = some x) :
    x.retired = false := by
  obtain ⟨y, hy, hle, hfrozen⟩ := deliver_sessionsAdvance ext s d client.key x hx
  obtain ⟨hnext, hafter⟩ := consumes_next ext h
  by_contra hret
  have hret : x.retired = true := by simpa using hret
  have hyx := hfrozen hret
  rw [hy] at hafter
  cases hafter
  -- the frozen row would have to carry both its own sequence and the next one
  rw [hx, ← hyx] at hnext
  simp [answeredRow, nextSequence] at hnext

/-- What a request to a retired journal gets. -/
theorem deliver_retired (hcli : d.2.clientRef? = some client)
    (hx : s.sessions[client.key]? = some x) (hret : x.retired = true) :
    SameRows s (deliver ext s d).1 ∧ (deliver ext s d).1.sessions = s.sessions ∧
      ∀ result, (deliver ext s d).2 = .ok (.client result) →
        result.replayed = true ∨ result.disposition = .notConsumed := by
  have hnone : ∀ reply, ¬ Consumes ext s d client reply := by
    intro reply hcons
    have hlive := consumes_live ext hcons hx
    rw [hret] at hlive
    cases hlive
  refine ⟨?_, ?_, ?_⟩
  · rcases deliver_sameRows ext (s := s) hcli with hsame | ⟨reply, hcons⟩
    · exact hsame
    · exact absurd hcons (hnone reply)
  · obtain hsame | ⟨c, r, hcons, -, -⟩ | ⟨_, _, -, hcmd, -⟩ :=
      deliver_sessions ext s d
    · exact hsame
    · have hc := hcons.1
      rw [hcli] at hc
      cases hc
      exact absurd hcons (hnone r)
    · rw [hcmd] at hcli
      cases hcli
  · rintro ⟨disposition, reply, replayed⟩ hres
    cases replayed with
    | true => exact .inl rfl
    | false =>
      cases disposition with
      | notConsumed => exact .inr rfl
      | consumed => exact absurd ⟨hcli, hres⟩ (hnone reply)

/-- **Exactly once.**  In every run and for every journal:

* sequences never decrease, journals are never dropped, and a retired journal is never rewritten;
* a fresh answer is given only to the next sequence of its journal, 1 when there was none;
* of two deliveries of one sequence at most one changes rows;
* a request delivered again, with no other fresh answer of its journal in between, is answered with
  the very reply it got, marked as a replay, and leaves everything but the audit as it was;
* a request to a retired journal changes no row and no journal;
* where the log indices increase every delivery passes the guard, so the repeated request above is
  always answered. -/
theorem journals_exactly_once (s₀ : State) (es : List Delivery) :
    (∀ pre post, es = pre ++ post →
      SessionsAdvance (run (deliver ext) s₀ pre) (run (deliver ext) s₀ es)) ∧
    (∀ pre d post client reply, es = pre ++ d :: post →
      Consumes ext (run (deliver ext) s₀ pre) d client reply →
      client.sequence = nextSequence (run (deliver ext) s₀ pre).sessions[client.key]?) ∧
    (∀ pre d₁ mid d₂ post c₁ c₂, es = pre ++ d₁ :: (mid ++ d₂ :: post) →
      d₁.2.clientRef? = some c₁ → d₂.2.clientRef? = some c₂ →
      c₁.key = c₂.key → c₁.sequence = c₂.sequence →
      SameRows (run (deliver ext) s₀ pre) (run (deliver ext) s₀ (pre ++ [d₁])) ∨
      SameRows (run (deliver ext) s₀ (pre ++ d₁ :: mid))
        (run (deliver ext) s₀ (pre ++ d₁ :: (mid ++ [d₂])))) ∧
    (∀ pre d₁ mid d₂ post client reply, es = pre ++ d₁ :: (mid ++ d₂ :: post) →
      Consumes ext (run (deliver ext) s₀ pre) d₁ client reply →
      d₂.2.clientRef? = some client →
      EveryStep (deliver ext) (fun s d => ∀ c r, c.key = client.key → ¬ Consumes ext s d c r)
        (run (deliver ext) s₀ (pre ++ [d₁])) mid →
      guardDelivery (run (deliver ext) s₀ (pre ++ d₁ :: mid)) d₂.1 = .ok () →
      let before := run (deliver ext) s₀ (pre ++ d₁ :: mid)
      let answer := deliver ext before d₂
      answer.2 = .ok (.client ⟨.consumed, reply, true⟩) ∧ SameRows before answer.1 ∧
        answer.1.adminRevision = before.adminRevision ∧ answer.1.sessions = before.sessions ∧
        answer.1.growthBytes = before.growthBytes) ∧
    (∀ pre d post client x, es = pre ++ d :: post → d.2.clientRef? = some client →
      (run (deliver ext) s₀ pre).sessions[client.key]? = some x → x.retired = true →
      SameRows (run (deliver ext) s₀ pre) (run (deliver ext) s₀ (pre ++ [d])) ∧
      (run (deliver ext) s₀ (pre ++ [d])).sessions = (run (deliver ext) s₀ pre).sessions ∧
      ∀ result, (deliver ext (run (deliver ext) s₀ pre) d).2 = .ok (.client result) →
        result.replayed = true ∨ result.disposition = .notConsumed) ∧
    (AuditBehind s₀ → es.Pairwise (fun d₁ d₂ => d₁.1.index < d₂.1.index) →
      (∀ last, s₀.lastApplied = some last → ∀ d ∈ es, last.index < d.1.index) →
      ∀ pre d post, es = pre ++ d :: post →
        guardDelivery (run (deliver ext) s₀ pre) d.1 = .ok ()) := by
  refine ⟨?_, ?_, ?_, ?_, ?_, ?_⟩
  · rintro pre post rfl
    rw [run_append]
    exact run_sessionsAdvance ext _ post
  · intro pre d post client reply _ hcons
    exact (consumes_next ext hcons).1
  · intro pre d₁ mid d₂ post c₁ c₂ _ h₁ h₂ hkey hseq
    simp only [run_append, run_cons, run_nil]
    generalize run (deliver ext) s₀ pre = s
    rcases deliver_sameRows ext (s := s) h₁ with hsame | ⟨_, hcons₁⟩
    · exact .inl hsame
    rcases deliver_sameRows ext (s := run (deliver ext) (deliver ext s d₁).1 mid) h₂ with
      hsame | ⟨_, hcons₂⟩
    · exact .inr hsame
    -- the first answer moved the journal to this sequence, so it cannot be the next one again
    obtain ⟨y, hy, hle, -⟩ :=
      run_sessionsAdvance ext (deliver ext s d₁).1 mid c₁.key _ (consumes_next ext hcons₁).2
    have hnext := (consumes_next ext hcons₂).1
    rw [← hkey, hy] at hnext
    simp only [answeredRow, nextSequence] at hle hnext
    omega
  · intro pre d₁ mid d₂ post client reply _ hcons hcli hother hguard
    obtain ⟨hnext, hrow⟩ := consumes_next ext hcons
    have hpos : client.sequence ≠ 0 := by
      rw [hnext]
      unfold nextSequence
      split <;> omega
    have hanswered : Answered client reply (run (deliver ext) s₀ (pre ++ [d₁])) := by
      refine ⟨answeredRow client reply, ?_, rfl, rfl, rfl⟩
      rw [run_append]
      exact hrow
    refine deliver_replay ext hguard hcli hpos ?_
    have hrun := run_invariant_of (fun _ _ hs hd => deliver_answered ext hs hd) hanswered hother
    rwa [← run_append, List.append_assoc] at hrun
  · intro pre d post client x _ hcli hx hret
    simp only [run_append, run_cons, run_nil]
    exact deliver_retired ext hcli hx hret
  · rintro hbehind hindices hlast pre d post rfl
    refine run_guardDelivery ext hbehind (fun last h => hlast last h d (by simp)) fun e he => ?_
    exact (List.pairwise_append.mp hindices).2.2 e he d List.mem_cons_self

end

end AsterRpc.Coordination

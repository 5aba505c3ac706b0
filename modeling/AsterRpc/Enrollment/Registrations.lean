import AsterRpc.Enrollment.PolicyStore

/-!
# What a store makes of a history of registrations

A root writes registrations of one node with increasing revisions, and a store
observes some of them.  It keeps the last one that continues what it holds, and
a barrier at the last one that does not: a barrier below the newest registration
is gone.  So what a store answers after a registration depends on the history
only through the registration it held just before.

An active registration continues a denial only by naming its revision.  Two
stores that hold different denials when the same registration arrives can
therefore part ways for good, however well the root named its denials.
-/

namespace AsterRpc.Enrollment

open AsterRpc.Foundation AsterRpc.Coordination AsterRpc.Delegation Std Table Option

/-! ### One observation -/

/-- The registration reopens nothing, or names what it reopens. -/
def Continues (held : Option NodeRegistrationV1) (record : NodeRegistrationV1) : Prop :=
  ∀ r, requiredPredecessor held record = some r → record.reauthorizesRevision = some r

instance (held : Option NodeRegistrationV1) (record : NodeRegistrationV1) :
    Decidable (Continues held record) :=
  decidable_of_iff ((requiredPredecessor held record).all
      fun r => decide (record.reauthorizesRevision = some r)) (by
    unfold Continues
    cases requiredPredecessor held record <;> simp)

/-- The store holds `held` and the barrier `mark` about a subject, it works, and it has room for
another registration and another barrier. -/
structure Standing (st : State) (subject : Bytes) (held : Option NodeRegistrationV1)
    (mark : Option ℕ) : Prop where
  working : st.failed = false
  node : st.policy.nodes[subject]? = held
  barrier : st.policy.rejectedNodes[subject]? = mark
  authenticated : held.isSome = true → subject ∈ st.authenticatedNodes
  nodeRoom : held = none → st.policy.recordCount < maxPolicyRecords
  markRoom : mark = none → st.policy.rejectedNodes.size < maxPolicyRecords
  marks : st.policy.rejectedNodes.size ≤ maxPolicyRecords

/-- `persist` writes every snapshot. -/
def written (_ : PersistedPolicy) : Except RecordError Unit := .ok ()

/-- `observe_node` with a disk that works. -/
def State.observe (st : State) (record : NodeRegistrationV1) : State :=
  (observeNode written st record).state

/-- Registrations observed one after the other. -/
def State.observeAll (st : State) (records : List NodeRegistrationV1) : State :=
  records.foldl State.observe st

section Histories

variable {st : State} {subject : Bytes} {held : Option NodeRegistrationV1} {mark : Option ℕ}
  {record last : NodeRegistrationV1} {records earlier : List NodeRegistrationV1} {known : ℕ}
  {credential : Option VerifiedAdmissionEvidence}

/-- The registration is newer than everything the store holds about its subject. -/
structure Newer (held : Option NodeRegistrationV1) (mark : Option ℕ) (record : NodeRegistrationV1) :
    Prop where
  pos : 0 < record.revision
  held : ∀ old, held = some old → old.revision < record.revision
  mark : ∀ known, mark = some known → known < record.revision

theorem Newer.follows_iff (h : Newer held mark record) :
    NodeFollows held mark record ↔ Continues held record := by
  constructor
  · intro hfollows
    exact hfollows.1.named
  · intro hnamed
    refine ⟨⟨h.pos, fun known hknown => ?_, hnamed⟩, h.mark⟩
    obtain ⟨old, hold, hrev⟩ := map_eq_some_iff.mp hknown
    exact hrev ▸ h.held old hold

section

variable (h : Standing st record.subject held mark) (hnew : Newer held mark record)

include h hnew

/-- A newer registration that does not continue the held one is told to reauthorize. -/
theorem checkNodeUpdate_newer (hcont : ¬Continues held record) :
    checkNodeUpdate st record = .error .reauthorizationRequired := by
  have hcheck : ∀ same, checkRootRevision (held.map (·.revision)) mark record.revision same
      (requiredPredecessor held record) record.reauthorizesRevision =
        .error .reauthorizationRequired := by
    intro same
    have hmark : (mark.any fun known => decide (record.revision ≤ known)) = false := by
      simpa [any_eq_false] using hnew.mark
    have hheld : ((held.map (·.revision)).any fun known => decide (record.revision < known)) =
        false := by
      simpa [any_eq_false] using fun old hold => (hnew.held old hold).le
    have hother : held.map (·.revision) ≠ some record.revision := by
      intro heq
      obtain ⟨old, hold, hrev⟩ := map_eq_some_iff.mp heq
      exact absurd hrev (hnew.held old hold).ne
    have hrequired : (requiredPredecessor held record).isSome ∧
        record.reauthorizesRevision ≠ requiredPredecessor held record := by
      unfold Continues at hcont
      push Not at hcont
      obtain ⟨r, hr, hne⟩ := hcont
      rw [hr]
      exact ⟨rfl, hne⟩
    have hpos : record.revision ≠ 0 := hnew.pos.ne'
    unfold checkRootRevision
    rw [if_neg (by simp [hmark, hheld, hpos]), if_neg hother, if_pos hrequired]
  rw [checkNodeUpdate, h.node, h.barrier, hcheck]
  rfl

/-- **One observation.** A newer registration that continues the held one replaces it and clears
the barrier. -/
theorem Standing.observe_continues (hcont : Continues held record) :
    Standing (st.observe record) record.subject (some record) none := by
  have hcheck : checkNodeUpdate st record = .ok true := by
    rw [checkNodeUpdate_eq_true, h.node, h.barrier]
    exact ⟨hnew.follows_iff.mpr hcont, h.nodeRoom⟩
  have hstate : st.observe record = st.withNode record := by
    simp [State.observe, observeNode, checkState, h.working, refuseIf_false, hcheck,
      applyNode_of_true hcheck, commit, written]
  rw [hstate]
  constructor
  case working => exact h.working
  case node => exact get?_insert_self _ _ _
  case barrier => exact ExtTreeMap.getElem?_erase_self
  case authenticated => exact fun _ => Finset.mem_insert_self _ _
  case nodeRoom => exact fun hnone => by cases hnone
  case markRoom =>
    intro _
    show (st.policy.rejectedNodes.erase record.subject).size < maxPolicyRecords
    cases hm : mark with
    | none => exact (size_erase_le _ _).trans_lt (h.markRoom hm)
    | some =>
      have hsize := size_erase_of_some (h.barrier.trans hm)
      have hle := h.marks
      omega
  case marks => exact (size_erase_le _ _).trans h.marks

/-- A newer registration that does not continue the held one leaves it, and a barrier. -/
theorem Standing.observe_breaks (hcont : ¬Continues held record) :
    Standing (st.observe record) record.subject held (some record.revision) := by
  have hcheck := checkNodeUpdate_newer h hnew hcont
  have hrecord : shouldRecordRejection (st.policy.nodes[record.subject]?.map (·.revision))
      st.policy.rejectedNodes[record.subject]? record.revision = true := by
    rw [h.node, h.barrier]
    have hpos := hnew.pos
    have hheld : (held.map (·.revision)).all fun known => decide (known ≤ record.revision) := by
      simpa [all_eq_true] using fun old hold => (hnew.held old hold).le
    have hmark : mark.all fun known => decide (known < record.revision) := by
      simpa [all_eq_true] using hnew.mark
    simp [shouldRecordRejection, hpos, hheld, hmark]
  have hroom : (!st.policy.rejectedNodes.contains record.subject &&
      decide (st.policy.rejectedNodes.size ≥ maxPolicyRecords)) = false := by
    rw [contains_eq_isSome, h.barrier]
    cases hm : mark with
    | none => simpa using h.markRoom hm
    | some => rfl
  have happly : applyRejection st record.subject record.revision =
      .ok (st.withMark record.subject record.revision, true) := by
    simp only [applyRejection, hrecord, hroom]
    rfl
  have hnodes : (st.policy.nodes[record.subject]?.any
      fun node => decide (node.revision > record.revision)) = false := by
    simpa [h.node, any_eq_false] using fun old hold => (hnew.held old hold).le
  have hmarks : (st.policy.rejectedNodes[record.subject]?.any
      fun known => decide (known ≥ record.revision)) = false := by
    simpa [h.barrier, any_eq_false] using hnew.mark
  have hstate : st.observe record = st.withMark record.subject record.revision := by
    simp [State.observe, observeNode, checkState, h.working, refuseIf_false, hcheck, happly, hnodes,
      hmarks, commit, written]
  rw [hstate]
  constructor
  case working => exact h.working
  case node => exact h.node
  case barrier => exact get?_insert_self _ _ _
  case authenticated => exact h.authenticated
  case nodeRoom => exact h.nodeRoom
  case markRoom => exact fun hnone => by cases hnone
  case marks =>
    show (st.policy.rejectedNodes.insert record.subject record.revision).size ≤ maxPolicyRecords
    cases hm : mark with
    | none =>
      rw [size_insert_of_none _ (h.barrier.trans hm)]
      exact h.markRoom hm
    | some =>
      rw [size_insert_of_some _ (h.barrier.trans hm)]
      exact h.marks

end

/-! ### A history -/

/-- Registrations of one subject with increasing revisions. -/
structure About (subject : Bytes) (records : List NodeRegistrationV1) : Prop where
  subject : ∀ r ∈ records, r.subject = subject
  pos : ∀ r ∈ records, 0 < r.revision
  increasing : records.Pairwise fun a b => a.revision < b.revision

theorem About.sublist {sub : List NodeRegistrationV1} (h : About subject records)
    (hsub : sub.Sublist records) : About subject sub :=
  ⟨fun r hr => h.subject r (hsub.subset hr), fun r hr => h.pos r (hsub.subset hr),
    h.increasing.sublist hsub⟩

/-- The store holds and bars only what it observed. -/
structure Observed (records : List NodeRegistrationV1) (held : Option NodeRegistrationV1)
    (mark : Option ℕ) : Prop where
  held : ∀ old, held = some old → old ∈ records
  mark : ∀ known, mark = some known → ∃ r ∈ records, r.revision = known

theorem Observed.newer (h : Observed earlier held mark)
    (habout : About subject (earlier ++ [last])) : Newer held mark last := by
  have hbelow : ∀ r ∈ earlier, r.revision < last.revision := by
    intro r hr
    exact (List.pairwise_append.mp habout.increasing).2.2 r hr last (by simp)
  refine ⟨habout.pos last (by simp), fun old hold => hbelow old (h.held old hold), ?_⟩
  intro known hknown
  obtain ⟨r, hr, hrev⟩ := h.mark known hknown
  exact hrev ▸ hbelow r hr

theorem State.observeAll_append (st : State) (earlier : List NodeRegistrationV1)
    (last : NodeRegistrationV1) :
    st.observeAll (earlier ++ [last]) = (st.observeAll earlier).observe last := by
  simp [State.observeAll]

/-- Nothing is held about the subject, and there is room for it. -/
def Unheard (st : State) (subject : Bytes) : Prop := Standing st subject none none

theorem Unheard.observeAll (h : Unheard st subject) (habout : About subject records) :
    ∃ held mark, Standing (st.observeAll records) subject held mark ∧
      Observed records held mark := by
  -- by induction on the history, the newest registration last
  induction records using List.reverseRecOn with
  | nil => exact ⟨none, none, h, ⟨(by rintro old ⟨⟩), (by rintro known ⟨⟩)⟩⟩
  | append_singleton earlier last ih =>
    obtain ⟨held, mark, hstand, hobs⟩ :=
      ih (habout.sublist (List.sublist_append_left earlier [last]))
    have hnew := hobs.newer habout
    have hsubj : last.subject = subject := habout.subject last (by simp)
    subst hsubj
    rw [State.observeAll_append]
    by_cases hcont : Continues held last
    · refine ⟨some last, none, hstand.observe_continues hnew hcont, ?_, ?_⟩
      · rintro old ⟨⟩
        simp
      · rintro known ⟨⟩
    · refine ⟨held, some last.revision, hstand.observe_breaks hnew hcont, ?_, ?_⟩
      · exact fun old hold => List.mem_append_left _ (hobs.held old hold)
      · rintro known ⟨⟩
        exact ⟨last, by simp, rfl⟩

/-- The store takes `record` over what it holds about its subject. -/
def State.Takes (st : State) (record : NodeRegistrationV1) : Prop :=
  Continues st.policy.nodes[record.subject]? record

instance (st : State) (record : NodeRegistrationV1) : Decidable (st.Takes record) :=
  inferInstanceAs (Decidable (Continues _ record))

/-- **A history ends in its last registration, or in a barrier at it.** -/
theorem Unheard.observeAll_last (h : Unheard st subject)
    (habout : About subject (earlier ++ [last])) :
    (((st.observeAll earlier).Takes last) →
        Standing (st.observeAll (earlier ++ [last])) subject (some last) none) ∧
      (¬(st.observeAll earlier).Takes last →
        ∃ held, Standing (st.observeAll (earlier ++ [last])) subject held (some last.revision) ∧
          ∀ old, held = some old → old.revision < last.revision) := by
  obtain ⟨held, mark, hstand, hobs⟩ :=
    h.observeAll (habout.sublist (List.sublist_append_left earlier [last]))
  have hnew := hobs.newer habout
  have hsubj : last.subject = subject := habout.subject last (by simp)
  subst hsubj
  rw [State.observeAll_append]
  unfold State.Takes
  rw [hstand.node]
  exact ⟨hstand.observe_continues hnew,
    fun hcont => ⟨held, hstand.observe_breaks hnew hcont, hnew.held⟩⟩

/-- The store accepts each registration in turn. -/
def State.Accepts (st : State) : List NodeRegistrationV1 → Prop
  | [] => True
  | record :: rest => (observeNode written st record).result = .ok () ∧
    (st.observe record).Accepts rest

theorem State.Accepts.newest (h : st.Accepts (earlier ++ [last])) :
    (observeNode written (st.observeAll earlier) last).result = .ok () := by
  induction earlier generalizing st with
  | nil => exact h.1
  | cons record rest ih => exact ih h.2

/-- A registration that does not update the store is never answered with success. -/
theorem observeNode_refuses {persist : PersistedPolicy → Except RecordError Unit} {e : RecordError}
    (h : checkNodeUpdate st record = .error e) :
    (observeNode persist st record).result ≠ .ok () := by
  have hbind : ∀ x : Except RecordError Unit, (x.bind fun _ => Except.error e) ≠ .ok () := by
    intro x
    cases x <;> simp [Except.bind]
  unfold observeNode
  cases checkState st with
  | error => simp
  | ok =>
    rw [h]
    dsimp only
    generalize (if e = .tooManyRecords then { st with failed := true } else st) = failing
    split
    · simp
    · split
      · simp
      · exact hbind _

/-- A newer registration that is accepted was taken. -/
theorem Unheard.accepts_takes (h : Unheard st subject)
    (habout : About subject (earlier ++ [last])) (haccepts : st.Accepts (earlier ++ [last])) :
    (st.observeAll earlier).Takes last := by
  obtain ⟨held, mark, hstand, hobs⟩ :=
    h.observeAll (habout.sublist (List.sublist_append_left earlier [last]))
  have hnew := hobs.newer habout
  have hsubj : last.subject = subject := habout.subject last (by simp)
  subst hsubj
  by_contra hcont
  unfold State.Takes at hcont
  rw [hstand.node] at hcont
  have hres := haccepts.newest
  have hcheck := checkNodeUpdate_newer hstand hnew hcont
  exact observeNode_refuses hcheck hres

/-! ### What is stated about the node -/

theorem NodeRegistrationV1.view_revision (record : NodeRegistrationV1) :
    record.view.revision = record.revision := by
  unfold NodeRegistrationV1.view
  split <;> rfl

theorem Standing.view_held {peer : Key} (h : Standing st (hexKey peer) (some record) none) :
    registrationView st peer = some record.view := by
  simp [registrationView, h.node, h.barrier]

theorem Standing.view_barred {peer : Key} (h : Standing st (hexKey peer) held (some known))
    (hbelow : ∀ old, held = some old → old.revision < known) :
    registrationView st peer = some (.denied known .registrationRejected) := by
  cases hheld : held with
  | none => simp [registrationView, h.node, h.barrier, hheld]
  | some old =>
    have hle : old.view.revision ≤ known := by
      rw [old.view_revision]
      exact (hbelow old hheld).le
    simp only [registrationView, h.node, h.barrier, hheld, map_some]
    exact if_pos hle

/-- What is stated was observed. -/
theorem Standing.view_observed {peer : Key} {view : RegistrationView}
    (h : Standing st (hexKey peer) held mark) (hobs : Observed records held mark)
    (hview : registrationView st peer = some view) : ∃ r ∈ records, r.revision = view.revision := by
  have hcases : held.map NodeRegistrationV1.view = some view ∨
      mark.map (fun revision => RegistrationView.denied revision .registrationRejected) =
        some view := by
    simp only [registrationView, h.node, h.barrier] at hview
    cases held <;> cases mark <;> grind
  rcases hcases with hheld | hmark
  · obtain ⟨old, hold, rfl⟩ := map_eq_some_iff.mp hheld
    exact ⟨old, hobs.held old hold, old.view_revision.symm⟩
  · obtain ⟨known, hknown, rfl⟩ := map_eq_some_iff.mp hmark
    exact hobs.mark known hknown

/-! ### What is answered -/

/-- The evidence of a registration. -/
def StoreConfig.evidence (cfg : StoreConfig) (peer : Key) (record : NodeRegistrationV1) :
    VerifiedAdmissionEvidence where
  issuer := cfg.root
  subject := peer
  claims := record.claims
  audience := record.audience
  issuedAt := record.issuedAt
  notBefore := record.notBefore
  expiresAt := record.expiresAt
  credentialId := none
  presentedChain := none
  registration := none
  source := .rootAuthoredRecord cfg.ns record.revision
  activationLeeway := cfg.activationLeeway

/-- What a registration that was taken decides. -/
def StoreConfig.verdict (cfg : StoreConfig) (peer : Key) (record : NodeRegistrationV1) (now : ℕ) :
    Except RecordError VerifiedAdmissionEvidence :=
  if record.status ≠ .active then .error (.denied .nodeRevoked)
  else if cfg.active record now then .ok (cfg.evidence peer record)
  else .error (.denied .invalidValidity)

variable {lib : PolicyLibraries} {cfg : StoreConfig} {peer : Key} {now : ℕ}

/-- Whether a registration is valid does not depend on the namespace or the leeway. -/
theorem validateNode_config {other : StoreConfig} (hroot : other.root = cfg.root)
    (haudience : other.audience = cfg.audience) (h : validateNode lib cfg record = .ok ()) :
    validateNode lib other record = .ok () := by
  simp only [validateNode, fromRegistration, StoreConfig.evidenceData, accepts_iff,
    mapError_accepts, hroot, haudience] at h ⊢
  obtain ⟨h₁, h₂, issuer, h₃, h₄, h₅, h₆, subject, h₇, e, ⟨h₈, h₉, h₁₀, -⟩, h₁₁⟩ := h
  exact ⟨h₁, h₂, issuer, h₃, h₄, h₅, h₆, subject, h₇, _, ⟨h₈, h₉, h₁₀, rfl⟩, h₁₁⟩

section

variable (h : Standing st (hexKey peer) (some record) none)
  (hsubj : record.subject = hexKey peer)

include h hsubj

theorem selectEvidence_held (hvalid : validateNode lib cfg record = .ok ()) :
    selectEvidence lib cfg st peer credential now = cfg.verdict peer record now := by
  simp only [validateNode, accepts_iff, mapError_accepts] at hvalid
  obtain ⟨haudience, -, -, -, -, -, -, _, hident, _, hread, -⟩ := hvalid
  rw [hexKey_injective ((identity_eq_ok lib hident).1.symm.trans hsubj)] at hread
  -- what a valid registration is read as is its evidence
  have hfrom : fromRegistration lib (cfg.evidenceData peer record) cfg.activationLeeway =
      .ok (cfg.evidence peer record) := by
    have hevidence := hread
    simp only [fromRegistration, accepts_iff] at hevidence
    obtain ⟨-, -, -, rfl⟩ := hevidence
    exact hread
  have hmember : record.subject ∈ st.authenticatedNodes := hsubj ▸ h.authenticated rfl
  simp only [selectEvidence, h.working, refuseIf_false, ok_bind, contains_eq_isSome, h.barrier,
    h.node, isSome_none]
  by_cases hstat : record.status = .active
  · by_cases hactive : cfg.active record now = true
    · -- nothing denies the evidence of the registration a store holds
      have hdenial : denial cfg st (cfg.evidence peer record) now = none := by
        simp [denial, StoreConfig.evidence, h.working, haudience, contains_eq_isSome, h.barrier,
          h.node, hstat, hactive, hmember, sameClaims_refl]
      have hat : (cfg.evidence peer record).activationAt now = .active := by
        simpa [StoreConfig.active, VerifiedAdmissionEvidence.activationAt, StoreConfig.evidence]
          using hactive
      have hmatch : ((cfg.evidence peer record).subject != peer ||
          (cfg.evidence peer record).issuer != cfg.root ||
          !(cfg.evidence peer record).audience.contains cfg.audience) = false := by
        simp [StoreConfig.evidence, haudience]
      simp [hstat, hactive, hmember, hfrom, Except.mapError, refuseIf_false, ok_bind, hmatch,
        hdenial, hat, StoreConfig.verdict, pure, Except.pure]
    · simp [hstat, hactive, StoreConfig.verdict, refuseIf, bind, Except.bind]
  · simp [hstat, StoreConfig.verdict, refuseIf, bind, Except.bind]

end

theorem selectEvidence_unheard (h : Unheard st (hexKey peer)) :
    selectEvidence lib cfg st peer none now = .error .missingEvidence := by
  simp only [selectEvidence, h.working, refuseIf_false, ok_bind, contains_eq_isSome, h.barrier,
    h.node]
  rfl

theorem StoreConfig.verdict_ne_rejected :
    cfg.verdict peer record now ≠ .error (.denied .registrationRejected) := by
  unfold StoreConfig.verdict
  split
  · simp
  · split <;> simp

/-! ### Replicas -/

/-- A history the root may write about `peer`: valid registrations that do not expire, with
increasing revisions, where an active one names the denial directly before it. -/
structure RootHistory (lib : PolicyLibraries) (cfg : StoreConfig) (peer : Key)
    (history : List NodeRegistrationV1) : Prop where
  valid : ∀ r ∈ history, validateNode lib cfg r = .ok ()
  subject : ∀ r ∈ history, r.subject = hexKey peer
  increasing : history.Pairwise fun a b => a.revision < b.revision
  named : history.IsChain fun a b =>
    b.status = .active → a.status ≠ .active → b.reauthorizesRevision = some a.revision
  lasting : ∀ r ∈ history, r.expiresAt = none

theorem validateNode_pos (h : validateNode lib cfg record = .ok ()) : 0 < record.revision := by
  simp only [validateNode, accepts_iff] at h
  obtain ⟨-, -, _, -, hrev, -⟩ := h
  simp only [Bool.or_eq_false_iff, beq_eq_false_iff_ne] at hrev
  exact Nat.pos_of_ne_zero hrev.2

theorem RootHistory.about {history : List NodeRegistrationV1}
    (h : RootHistory lib cfg peer history) :
    About (hexKey peer) history :=
  ⟨h.subject, fun r hr => validateNode_pos (h.valid r hr), h.increasing⟩

/-- What a store answers after the history it saw. -/
theorem selectEvidence_observeAll (h : Unheard st (hexKey peer)) {seen : List NodeRegistrationV1}
    (habout : About (hexKey peer) (seen ++ [last]))
    (hvalid : validateNode lib cfg last = .ok ()) :
    selectEvidence lib cfg (st.observeAll (seen ++ [last])) peer none now =
      if (st.observeAll seen).Takes last then cfg.verdict peer last now
      else .error (.denied .registrationRejected) := by
  obtain ⟨htakes, hbars⟩ := h.observeAll_last habout
  have hsubj : last.subject = hexKey peer := habout.subject last (by simp)
  split
  · rename_i hcont
    exact selectEvidence_held (htakes hcont) hsubj hvalid
  · rename_i hcont
    obtain ⟨held, hstand, -⟩ := hbars hcont
    simp only [selectEvidence, hstand.working, refuseIf_false, ok_bind, contains_eq_isSome,
      hstand.barrier]
    rfl

/-- **Replicas agree exactly when they hold alike.** Two stores that saw different parts of one
history and both its last registration answer alike exactly when that registration continues what
each of them held before it, or neither. -/
theorem replicas_agree_iff {lib : PolicyLibraries} {cfg : StoreConfig} {peer : Key}
    {st₁ st₂ : State} (h₁ : Unheard st₁ (hexKey peer)) (h₂ : Unheard st₂ (hexKey peer))
    {earlier seen₁ seen₂ : List NodeRegistrationV1} {last : NodeRegistrationV1}
    (hhistory : RootHistory lib cfg peer (earlier ++ [last])) (hseen₁ : seen₁.Sublist earlier)
    (hseen₂ : seen₂.Sublist earlier) (now : ℕ) :
    selectEvidence lib cfg (st₁.observeAll (seen₁ ++ [last])) peer none now =
        selectEvidence lib cfg (st₂.observeAll (seen₂ ++ [last])) peer none now ↔
      ((st₁.observeAll seen₁).Takes last ↔ (st₂.observeAll seen₂).Takes last) := by
  have hvalid := hhistory.valid last (by simp)
  have habout₁ := hhistory.about.sublist (hseen₁.append_right [last])
  have habout₂ := hhistory.about.sublist (hseen₂.append_right [last])
  rw [selectEvidence_observeAll h₁ habout₁ hvalid, selectEvidence_observeAll h₂ habout₂ hvalid]
  by_cases htakes₁ : (st₁.observeAll seen₁).Takes last
  · by_cases htakes₂ : (st₂.observeAll seen₂).Takes last
    · simp [htakes₁, htakes₂]
    · simp [htakes₁, htakes₂, StoreConfig.verdict_ne_rejected]
  · by_cases htakes₂ : (st₂.observeAll seen₂).Takes last
    · simp [htakes₁, htakes₂, StoreConfig.verdict_ne_rejected.symm]
    · simp [htakes₁, htakes₂]

end Histories

/-! ### A small instance -/

namespace Sample

/-- Every URL parses and no JSON does: the records below are given decoded. -/
def libraries : PolicyLibraries where
  toLibraries := Delegation.Sample.libraries
  urlParses := fun _ => true
  parseScope := fun _ => none
  parseNode := fun _ => none
  parseCredential := fun _ => none
  parseIssuer := fun _ => none
  parseBinding := fun _ => none
  parseWatermark := fun _ => none
  nodeLen := fun _ => 0

def config : StoreConfig := ⟨Delegation.Sample.key 9, FixedBytes.fill 32 1, ascii "aud", 60, .fleet⟩

def peer : Key := Delegation.Sample.key 1

def fresh (cfg : StoreConfig) : State := ⟨∅, .empty cfg, false⟩

/-- A registration of the peer. -/
def registration (revision : ℕ) (status : NodeRegistrationStatus) (names : Option ℕ) :
    NodeRegistrationV1 where
  version := 1
  issuer := hexKey (Delegation.Sample.key 9)
  subject := hexKey peer
  audience := .one (ascii "aud")
  revision := revision
  issuedAt := revision
  notBefore := none
  expiresAt := none
  status := status
  claims := ⟨none, none, none⟩
  mandatory := []
  reauthorizesRevision := names
  reason := none

/-- Revoked twice, then reauthorized with the name of the second revocation. -/
def restored : List NodeRegistrationV1 :=
  [registration 1 .revoked none, registration 2 .revoked none, registration 3 .active (some 2)]

end Sample

open Sample

theorem Sample.unheard_fresh (cfg : StoreConfig) (subject : Bytes) :
    Unheard (fresh cfg) subject := by
  constructor <;> simp [fresh, PersistedPolicy.empty, PersistedPolicy.recordCount,
    maxPolicyRecords]

theorem Sample.restored_history :
    RootHistory libraries config peer restored := by
  constructor <;> decide +kernel

/-- **Replicas that part ways.** The store that missed the second revocation bars the registration
that names it. -/
theorem replicas_part :
    RootHistory libraries config peer restored ∧ Unheard (fresh config) (hexKey peer) ∧
      selectEvidence libraries config ((fresh config).observeAll restored) peer none 10 =
        .ok (config.evidence peer (registration 3 .active (some 2))) ∧
      selectEvidence libraries config ((fresh config).observeAll
            [registration 1 .revoked none, registration 3 .active (some 2)])
          peer none 10 =
        .error (.denied .registrationRejected) :=
  ⟨restored_history, unheard_fresh _ _, by decide +kernel, by decide +kernel⟩

/-- Two replicas that both hold the revocation a registration names agree. -/
theorem replicas_agree_iff_restored :
    ((fresh config).observeAll [registration 2 .revoked none]).Takes
        (registration 3 .active (some 2)) ∧
    selectEvidence libraries config ((fresh config).observeAll restored) peer none 10 =
      selectEvidence libraries config ((fresh config).observeAll
          [registration 2 .revoked none, registration 3 .active (some 2)])
        peer none 10 := by
  have hhistory : RootHistory libraries config peer
      ([registration 1 .revoked none, registration 2 .revoked none] ++
        [registration 3 .active (some 2)]) := restored_history
  have hseen : [registration 2 .revoked none].Sublist
      [registration 1 .revoked none, registration 2 .revoked none] :=
    List.sublist_cons_self _ _
  have hunheard := unheard_fresh config (hexKey peer)
  refine ⟨by decide +kernel, ?_⟩
  exact (replicas_agree_iff hunheard hunheard hhistory (List.Sublist.refl _) hseen 10).mpr
    (by decide +kernel)

end AsterRpc.Enrollment

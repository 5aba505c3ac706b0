import AsterRpc.Enrollment.Registrations
import AsterRpc.Foundation.Selection

/-!
# One policy from several namespaces

`enrollment/stores.rs`: the fleet store and one store for each membership
namespace it binds answer together.  The statement with the highest revision
wins, and an active one that outranks a denial held elsewhere must name it.

When the registrations of a node are spread over the stores, the one with the
highest revision decides, as it does in a single store that observes them all.
But its own store compares it with the last one of the same namespace, and the
resolver with the highest denial that another store still holds: neither need be
the registration that came directly before it.
-/

namespace AsterRpc.Enrollment

open AsterRpc.Foundation AsterRpc.Coordination AsterRpc.Delegation Std List

/-- `EnrollmentPolicyStore`, without its file. -/
structure PolicyStore where
  config : StoreConfig
  state : State

/-- The configuration `open_bound` gives the store of a bound namespace. -/
def StoreConfig.bound (cfg : StoreConfig) (ns : FixedBytes 32) : StoreConfig :=
  { cfg with ns, role := .membership }

open StoreConfig

/-- `PolicyStores`. -/
structure PolicyStores where
  fleet : PolicyStore
  membership : Table (FixedBytes 32) PolicyStore
  bound : ∀ ns store, membership[ns]? = some store → store.config = fleet.config.bound ns

open PolicyStores

namespace PolicyStores

/-- `stores`. -/
def stores (p : PolicyStores) : List PolicyStore := p.fleet :: p.membership.toList.map Prod.snd

def isDenied : RegistrationView → Bool
  | .denied _ _ => true
  | .active _ _ => false

/-- What a view ranks by: its revision, a denial above an active one. -/
def rank (view : RegistrationView) : ℕ ×ₗ Bool := toLex (view.revision, isDenied view)

def denialOf : RegistrationView → Option (ℕ × DenialReason)
  | .denied revision reason => some (revision, reason)
  | .active _ _ => none

/-- The statement of each store that has one. -/
def views (p : PolicyStores) (peer : Key) : List (PolicyStore × RegistrationView) :=
  p.stores.filterMap fun store => (registrationView store.state peer).map (store, ·)

/-- `resolve`. -/
def resolve (p : PolicyStores) (peer : Key) :
    Except RecordError (Option (PolicyStore × RegistrationView)) :=
  if p.stores.any fun store => store.state.failed then .error (.denied .policyStateUnavailable)
  else
    match maxByKey (fun v => rank v.2) (p.views peer) with
    | none => .ok none
    | some (store, .denied revision reason) => .ok (some (store, .denied revision reason))
    | some (store, .active current names) =>
      match maxByKey Prod.fst ((p.views peer).filterMap fun v => denialOf v.2) with
      | some (revision, reason) =>
        if names ≠ some revision then .ok (some (store, .denied revision reason))
        else .ok (some (store, .active current names))
      | none => .ok (some (store, .active current names))

/-- `select_evidence` across namespaces. -/
def selectEvidence (lib : PolicyLibraries) (p : PolicyStores) (peer : Key)
    (credential : Option VerifiedAdmissionEvidence) (now : ℕ) :
    Except RecordError VerifiedAdmissionEvidence := do
  match ← p.resolve peer with
  | some (store, .active _ _) =>
    Enrollment.selectEvidence lib store.config store.state peer none now
  | some (_, .denied _ reason) => .error (.denied reason)
  | none => Enrollment.selectEvidence lib p.fleet.config p.fleet.state peer credential now

/-! ### Registrations spread over the stores -/

/-- The store of a namespace; `none` is the fleet's. -/
def store? (p : PolicyStores) : Option (FixedBytes 32) → Option PolicyStore
  | none => some p.fleet
  | some ns => p.membership[ns]?

/-- The registrations that go to one namespace. -/
def share (assign : NodeRegistrationV1 → Option (FixedBytes 32)) (records : List NodeRegistrationV1)
    (ns : Option (FixedBytes 32)) : List NodeRegistrationV1 :=
  records.filter fun record => decide (assign record = ns)

/-- Each store observes its share. -/
def observe (p : PolicyStores) (assign : NodeRegistrationV1 → Option (FixedBytes 32))
    (records : List NodeRegistrationV1) : PolicyStores where
  fleet := ⟨p.fleet.config, p.fleet.state.observeAll (share assign records none)⟩
  membership := p.membership.map fun ns store =>
    ⟨store.config, store.state.observeAll (share assign records (some ns))⟩
  bound := by
    intro ns store hstore
    rw [ExtTreeMap.getElem?_map] at hstore
    obtain ⟨before, hpre, rfl⟩ := Option.map_eq_some_iff.mp hstore
    exact p.bound ns before hpre

variable {p : PolicyStores} {assign : NodeRegistrationV1 → Option (FixedBytes 32)}
  {records earlier : List NodeRegistrationV1} {last : NodeRegistrationV1}

theorem mem_stores {store : PolicyStore} : store ∈ p.stores ↔ ∃ ns, p.store? ns = some store := by
  simp only [stores, mem_cons, mem_map, Prod.exists, exists_eq_right,
    Table.mem_toList]
  constructor
  · rintro (rfl | ⟨ns, hns⟩)
    · exact ⟨none, rfl⟩
    · exact ⟨some ns, hns⟩
  · rintro ⟨ns, hns⟩
    cases ns with
    | none => exact .inl (Option.some.inj hns).symm
    | some ns => exact .inr ⟨ns, hns⟩

theorem store?_observe (ns : Option (FixedBytes 32)) :
    (p.observe assign records).store? ns =
      (p.store? ns).map fun store =>
        ⟨store.config, store.state.observeAll (share assign records ns)⟩ := by
  cases ns with
  | none => rfl
  | some => exact ExtTreeMap.getElem?_map

theorem mem_views {peer : Key} {store : PolicyStore} {view : RegistrationView} :
    (store, view) ∈ p.views peer ↔
      store ∈ p.stores ∧ registrationView store.state peer = some view := by
  simp only [views, mem_filterMap, Option.map_eq_some_iff, Prod.mk.injEq]
  constructor
  · rintro ⟨s, hs, v, hv, rfl, rfl⟩
    exact ⟨hs, hv⟩
  · rintro ⟨hs, hv⟩
    exact ⟨store, hs, view, hv, rfl, rfl⟩

/-! ### Who wins -/

section Spread

variable {lib : PolicyLibraries} {peer : Key} {now : ℕ} {store : PolicyStore}
  {ns : Option (FixedBytes 32)}

/-- No store holds anything about the peer, and each has room for it. -/
def Unheard (p : PolicyStores) (peer : Key) : Prop :=
  ∀ ns store, p.store? ns = some store → Enrollment.Unheard store.state (hexKey peer)

/-- Every registration goes to a store there is. -/
def Placed (p : PolicyStores) (assign : NodeRegistrationV1 → Option (FixedBytes 32))
    (records : List NodeRegistrationV1) : Prop :=
  ∀ r ∈ records, (p.store? (assign r)).isSome

/-- The highest revision at which some store denies the peer. -/
structure HighestDenial (p : PolicyStores) (peer : Key) (revision : ℕ) : Prop where
  denied : ∃ store ∈ p.stores, ∃ reason,
    registrationView store.state peer = some (.denied revision reason)
  highest : ∀ store ∈ p.stores, ∀ other reason,
    registrationView store.state peer = some (.denied other reason) → other ≤ revision

/-- The registration names the highest denial the stores hold, if they hold one. -/
def NamesDenial (p : PolicyStores) (peer : Key) (record : NodeRegistrationV1) : Prop :=
  ∀ revision, p.HighestDenial peer revision → record.reauthorizesRevision = some revision

theorem share_append_self : share assign (earlier ++ [last]) (assign last) =
    share assign earlier (assign last) ++ [last] := by
  simp [share]

theorem share_append_of_ne (h : assign last ≠ ns) :
    share assign (earlier ++ [last]) ns = share assign earlier ns := by
  simp [share, h]

theorem about_share (h : About (hexKey peer) records)
    (assign : NodeRegistrationV1 → Option (FixedBytes 32)) (ns : Option (FixedBytes 32)) :
    About (hexKey peer) (share assign records ns) := h.sublist filter_sublist

/-- Every store works while it observes its share. -/
theorem observe_working (hp : p.Unheard peer) (habout : About (hexKey peer) records)
    (assign : NodeRegistrationV1 → Option (FixedBytes 32)) :
    ((p.observe assign records).stores.any fun store => store.state.failed) = false := by
  rw [any_eq_false]
  intro store hstore
  obtain ⟨ns, hns⟩ := mem_stores.mp hstore
  rw [store?_observe] at hns
  obtain ⟨before, hpre, rfl⟩ := Option.map_eq_some_iff.mp hns
  obtain ⟨_, _, hstand, -⟩ := (hp ns before hpre).observeAll (about_share habout assign ns)
  simp [hstand.working]

/-- A store that did not observe the last registration states something older. -/
theorem view_elsewhere (hp : p.Unheard peer) (habout : About (hexKey peer) (earlier ++ [last]))
    (hne : assign last ≠ ns) {view : RegistrationView}
    (hstore : (p.observe assign (earlier ++ [last])).store? ns = some store)
    (hview : registrationView store.state peer = some view) : view.revision < last.revision := by
  rw [store?_observe, share_append_of_ne hne] at hstore
  obtain ⟨before, hpre, rfl⟩ := Option.map_eq_some_iff.mp hstore
  have habout' : About (hexKey peer) (share assign earlier ns) :=
    about_share (habout.sublist (sublist_append_left _ _)) assign ns
  obtain ⟨_, _, hstand, hobs⟩ := (hp ns before hpre).observeAll habout'
  obtain ⟨r, hr, hrev⟩ := hstand.view_observed hobs hview
  rw [← hrev]
  exact (pairwise_append.mp habout.increasing).2.2 r (mem_of_mem_filter hr) last (by simp)

/-- What the store that observed the last registration states. -/
def homeView (taken : Prop) [Decidable taken] (last : NodeRegistrationV1) : RegistrationView :=
  if taken then last.view else .denied last.revision .registrationRejected

variable {before : PolicyStore}

/-- The store of the last registration once it observed it. -/
def home (before : PolicyStore) (assign : NodeRegistrationV1 → Option (FixedBytes 32))
    (earlier : List NodeRegistrationV1) (last : NodeRegistrationV1) : PolicyStore :=
  ⟨before.config, before.state.observeAll (share assign earlier (assign last) ++ [last])⟩

/-- The store of the last registration takes it over the rest of its share. -/
abbrev Taken (before : PolicyStore) (assign : NodeRegistrationV1 → Option (FixedBytes 32))
    (earlier : List NodeRegistrationV1) (last : NodeRegistrationV1) : Prop :=
  (before.state.observeAll (share assign earlier (assign last))).Takes last

theorem store?_home (hpre : p.store? (assign last) = some before) :
    (p.observe assign (earlier ++ [last])).store? (assign last) =
      some (home before assign earlier last) := by
  rw [store?_observe, hpre, share_append_self]
  rfl

theorem about_home (habout : About (hexKey peer) (earlier ++ [last]))
    (assign : NodeRegistrationV1 → Option (FixedBytes 32)) :
    About (hexKey peer) (share assign earlier (assign last) ++ [last]) := by
  rw [← share_append_self]
  exact about_share habout assign _

/-- The denial the resolver compares with is the highest one. -/
theorem latestDenial_iff {revision : ℕ} :
    (∃ reason, maxByKey Prod.fst ((p.views peer).filterMap fun v => denialOf v.2) =
        some (revision, reason)) ↔ p.HighestDenial peer revision := by
  have hmem : ∀ revision reason,
    (revision, reason) ∈ (p.views peer).filterMap (fun v => denialOf v.2) ↔
      ∃ store ∈ p.stores, registrationView store.state peer = some (.denied revision reason) := by
    intro revision reason
    simp only [mem_filterMap, Prod.exists, mem_views]
    constructor
    · rintro ⟨store, view, ⟨hstore, hview⟩, hdenial⟩
      cases view with
      | active => cases hdenial
      | denied =>
        cases hdenial
        exact ⟨store, hstore, hview⟩
    · rintro ⟨store, hstore, hview⟩
      exact ⟨store, _, ⟨hstore, hview⟩, rfl⟩
  constructor
  · rintro ⟨reason, hmax⟩
    obtain ⟨store, hstore, hview⟩ := (hmem revision reason).mp (bestOf_mem hmax)
    refine ⟨⟨store, hstore, reason, hview⟩, fun other hother n r hn => ?_⟩
    exact maxByKey_le hmax (n, r) ((hmem n r).mpr ⟨other, hother, hn⟩)
  · rintro ⟨⟨store, hstore, reason, hview⟩, hhighest⟩
    have hin := (hmem revision reason).mpr ⟨store, hstore, hview⟩
    cases hmax : maxByKey Prod.fst ((p.views peer).filterMap fun v => denialOf v.2) with
    | none =>
      rw [bestOf_eq_none.mp hmax] at hin
      cases hin
    | some top =>
      obtain ⟨n, r⟩ := top
      have hge : revision ≤ n := maxByKey_le hmax _ hin
      obtain ⟨other, hother, hn⟩ := (hmem n r).mp (bestOf_mem hmax)
      have hle : n ≤ revision := hhighest other hother n r hn
      have heq : n = revision := by omega
      exact ⟨r, by rw [heq]⟩

section Home

variable (hp : p.Unheard peer) (habout : About (hexKey peer) (earlier ++ [last]))
  (hpre : p.store? (assign last) = some before)

include hp habout hpre

theorem view_home :
    registrationView (home before assign earlier last).state peer =
      some (homeView (Taken before assign earlier last) last) := by
  obtain ⟨htakes, hbars⟩ := (hp _ before hpre).observeAll_last (about_home habout assign)
  unfold homeView
  split
  · rename_i htaken
    exact (htakes htaken).view_held
  · rename_i htaken
    obtain ⟨_, hstand, hbelow⟩ := hbars htaken
    exact hstand.view_barred hbelow

/-- **The last registration wins**, or the barrier at it. -/
theorem winner_home :
    maxByKey (fun v => rank v.2) ((p.observe assign (earlier ++ [last])).views peer) =
      some (home before assign earlier last, homeView (Taken before assign earlier last) last) := by
  apply maxByKey_eq_of_lt
  · exact mem_views.mpr ⟨mem_stores.mpr ⟨_, store?_home hpre⟩, view_home hp habout hpre⟩
  · rintro ⟨store, _⟩ hmem
    obtain ⟨hstore, hview⟩ := mem_views.mp hmem
    obtain ⟨ns, hns⟩ := mem_stores.mp hstore
    by_cases hne : assign last = ns
    · subst hne
      rw [store?_home hpre] at hns
      cases hns
      rw [view_home hp habout hpre] at hview
      cases hview
      exact .inl rfl
    · refine .inr (Prod.Lex.toLex_lt_toLex.mpr (.inl ?_))
      unfold homeView
      split
      · rw [last.view_revision]
        exact view_elsewhere hp habout hne hns hview
      · exact view_elsewhere hp habout hne hns hview

/-! ### What the stores answer -/

/-- **What decides across namespaces.** An active registration that its store takes, and that names
the highest denial the stores hold, decides as it does in that store alone. -/
theorem selectEvidence_home (hvalid : validateNode lib before.config last = .ok ())
    (htaken : Taken before assign earlier last) (hstat : last.status = .active)
    (hnames : (p.observe assign (earlier ++ [last])).NamesDenial peer last) :
    (p.observe assign (earlier ++ [last])).selectEvidence lib peer none now =
      before.config.verdict peer last now := by
  have hworking := observe_working hp habout assign
  have hwinner := winner_home hp habout hpre
  rw [show homeView (Taken before assign earlier last) last =
    .active last.revision last.reauthorizesRevision from
      (if_pos htaken).trans (if_pos hstat)] at hwinner
  have hresolve : (p.observe assign (earlier ++ [last])).resolve peer =
      .ok (some (home before assign earlier last,
        .active last.revision last.reauthorizesRevision)) := by
    cases hmax : maxByKey Prod.fst (((p.observe assign (earlier ++ [last])).views peer).filterMap
        fun v => denialOf v.2) with
    | none => simp [resolve, hworking, hwinner, hmax]
    | some top =>
      obtain ⟨revision, reason⟩ := top
      have hnamed := hnames revision (latestDenial_iff.mp ⟨reason, hmax⟩)
      simp [resolve, hworking, hwinner, hmax, hnamed]
  have hstand := ((hp _ before hpre).observeAll_last (about_home habout assign)).1 htaken
  rw [selectEvidence, hresolve]
  exact selectEvidence_held hstand (habout.subject last (by simp)) hvalid

/-- A registration that denies, that its store does not take, or that leaves a denial unnamed admits
nobody. -/
theorem selectEvidence_denied
    (h : ¬(Taken before assign earlier last ∧ last.status = .active ∧
      (p.observe assign (earlier ++ [last])).NamesDenial peer last)) :
    ∃ reason, (p.observe assign (earlier ++ [last])).selectEvidence lib peer none now =
      .error (.denied reason) := by
  have hworking := observe_working hp habout assign
  have hwinner := winner_home hp habout hpre
  have hresolve : ∃ revision reason, (p.observe assign (earlier ++ [last])).resolve peer =
      .ok (some (home before assign earlier last, .denied revision reason)) := by
    by_cases htaken : Taken before assign earlier last
    · by_cases hstat : last.status = .active
      · -- the resolver finds a denial that the winner does not name
        unfold NamesDenial at h
        push Not at h
        obtain ⟨revision, hhighest, hne⟩ := h htaken hstat
        obtain ⟨reason, hmax⟩ := latestDenial_iff.mpr hhighest
        rw [show homeView (Taken before assign earlier last) last =
          .active last.revision last.reauthorizesRevision from
            (if_pos htaken).trans (if_pos hstat)] at hwinner
        exact ⟨revision, reason, by simp [resolve, hworking, hwinner, hmax, hne]⟩
      · rw [show homeView (Taken before assign earlier last) last =
          .denied last.revision .nodeRevoked from (if_pos htaken).trans (if_neg hstat)] at hwinner
        exact ⟨last.revision, .nodeRevoked, by simp [resolve, hworking, hwinner]⟩
    · rw [show homeView (Taken before assign earlier last) last =
        .denied last.revision .registrationRejected from if_neg htaken] at hwinner
      exact ⟨last.revision, .registrationRejected, by simp [resolve, hworking, hwinner]⟩
  obtain ⟨_, reason, hresolve⟩ := hresolve
  refine ⟨reason, ?_⟩
  rw [selectEvidence, hresolve]
  rfl

end Home

/-- Every store has the root, the audience and the leeway of the fleet. -/
theorem store?_config (hstore : p.store? ns = some store) :
    store.config.root = p.fleet.config.root ∧ store.config.audience = p.fleet.config.audience ∧
      store.config.activationLeeway = p.fleet.config.activationLeeway := by
  cases ns with
  | none =>
    cases hstore
    exact ⟨rfl, rfl, rfl⟩
  | some ns =>
    rw [p.bound ns store hstore]
    exact ⟨rfl, rfl, rfl⟩

theorem selectEvidence_nothing (hp : p.Unheard peer) :
    (p.observe assign []).selectEvidence lib peer none now = .error .missingEvidence := by
  have habout : About (hexKey peer) [] := ⟨by simp, by simp, List.Pairwise.nil⟩
  have hstate : ∀ ns store, (p.observe assign []).store? ns = some store →
      Enrollment.Unheard store.state (hexKey peer) := by
    intro ns store hstore
    rw [store?_observe] at hstore
    obtain ⟨before, hpre, rfl⟩ := Option.map_eq_some_iff.mp hstore
    exact hp ns before hpre
  have hviews : (p.observe assign []).views peer = [] := by
    rw [eq_nil_iff_forall_not_mem]
    rintro ⟨store, _⟩ hmem
    obtain ⟨hstore, hview⟩ := mem_views.mp hmem
    obtain ⟨ns, hns⟩ := mem_stores.mp hstore
    have hunheard := hstate ns store hns
    simp [registrationView, hunheard.node, hunheard.barrier] at hview
  have hresolve : (p.observe assign []).resolve peer = .ok none := by
    simp [resolve, observe_working hp habout assign, hviews, maxByKey, bestOf]
  rw [selectEvidence, hresolve]
  exact selectEvidence_unheard (hstate none _ rfl)

end Spread

end PolicyStores

/-! ### A split that changes nothing -/

/-- Two pieces of evidence grant the same, for the same time. -/
def SameGrant (a b : VerifiedAdmissionEvidence) : Prop :=
  a.claims = b.claims ∧ a.audience = b.audience ∧ a.issuedAt = b.issuedAt ∧
    a.notBefore = b.notBefore ∧ a.expiresAt = b.expiresAt

/-- Both answers admit, with the same grant, or neither does. -/
def Agree (x y : Except RecordError VerifiedAdmissionEvidence) : Prop :=
  (∀ a, x = .ok a → ∃ b, y = .ok b ∧ SameGrant a b) ∧
    ∀ b, y = .ok b → ∃ a, x = .ok a ∧ SameGrant a b

theorem agree_error (e e' : RecordError) : Agree (.error e) (.error e') := by
  constructor
  · rintro a ⟨⟩
  · rintro b ⟨⟩

/-- The registration admits its node. -/
def StoreConfig.Admits (cfg : StoreConfig) (record : NodeRegistrationV1) (now : ℕ) : Prop :=
  record.status = .active ∧ cfg.active record now = true

variable {cfg other : StoreConfig} {peer : Key} {record : NodeRegistrationV1} {now : ℕ}

theorem StoreConfig.verdict_of_admits (h : cfg.Admits record now) :
    cfg.verdict peer record now = .ok (cfg.evidence peer record) := by
  simp [verdict, h.1, h.2]

theorem StoreConfig.verdict_of_not_admits (h : ¬cfg.Admits record now) :
    ∃ e, cfg.verdict peer record now = .error e := by
  unfold verdict
  split
  · exact ⟨_, rfl⟩
  · rename_i hstat
    rw [if_neg fun hactive => h ⟨not_not.mp hstat, hactive⟩]
    exact ⟨_, rfl⟩

theorem agree_error_iff {e : RecordError} :
    Agree (.error e) (cfg.verdict peer record now) ↔ ¬cfg.Admits record now := by
  constructor
  · intro hagree hadmits
    obtain ⟨a, ha, -⟩ := hagree.2 _ (verdict_of_admits hadmits)
    cases ha
  · intro hadmits
    obtain ⟨e', he'⟩ := verdict_of_not_admits hadmits
    rw [he']
    exact agree_error e e'

/-- Stores with one leeway decide a registration alike. -/
theorem agree_verdict (hleeway : cfg.activationLeeway = other.activationLeeway) :
    Agree (cfg.verdict peer record now) (other.verdict peer record now) := by
  have hadmits : cfg.Admits record now ↔ other.Admits record now := by
    simp [StoreConfig.Admits, active, hleeway]
  by_cases h : other.Admits record now
  · rw [verdict_of_admits h, verdict_of_admits (hadmits.mpr h)]
    constructor
    · rintro a ⟨⟩
      exact ⟨_, rfl, rfl, rfl, rfl, rfl, rfl⟩
    · rintro b ⟨⟩
      exact ⟨_, rfl, rfl, rfl, rfl, rfl, rfl⟩
  · obtain ⟨e, he⟩ := verdict_of_not_admits (mt hadmits.mp h)
    rw [he]
    exact agree_error_iff.mpr h

/-- **Spreading registrations over namespaces.** The stores admit a peer exactly as a single store
that accepts all its registrations does, if and only if the last of them, when it admits the peer at
all, is taken by its own store and names the highest denial the stores hold. -/
theorem spread_agrees_iff {lib : PolicyLibraries} {p : PolicyStores} {single : PolicyStore}
    {peer : Key} {assign : NodeRegistrationV1 → Option (FixedBytes 32)}
    {records : List NodeRegistrationV1} (hp : p.Unheard peer)
    (hsingle : Unheard single.state (hexKey peer))
    (hroot : p.fleet.config.root = single.config.root)
    (haudience : p.fleet.config.audience = single.config.audience)
    (hleeway : p.fleet.config.activationLeeway = single.config.activationLeeway)
    (habout : About (hexKey peer) records)
    (hvalid : ∀ r ∈ records, validateNode lib single.config r = .ok ())
    (hplaced : p.Placed assign records) (haccepts : single.state.Accepts records) (now : ℕ) :
    Agree ((p.observe assign records).selectEvidence lib peer none now)
        (selectEvidence lib single.config (single.state.observeAll records) peer none now) ↔
      ∀ earlier last, records = earlier ++ [last] → single.config.Admits last now →
        (∀ store, (p.observe assign earlier).store? (assign last) = some store →
          store.state.Takes last) ∧
        (p.observe assign records).NamesDenial peer last := by
  rcases eq_nil_or_concat records with rfl | ⟨earlier, last, hrecords⟩
  · -- nothing was registered, and no chain is presented
    rw [selectEvidence_nothing hp]
    refine ⟨fun _ earlier last heq => by simp at heq, fun _ => ?_⟩
    rw [show single.state.observeAll [] = single.state from rfl, selectEvidence_unheard hsingle]
    exact agree_error _ _
  · rw [concat_eq_append] at hrecords
    subst hrecords
    have hlast := hvalid last (by simp)
    obtain ⟨before, hpre⟩ := Option.isSome_iff_exists.mp (hplaced last (by simp))
    obtain ⟨hbeforeRoot, hbeforeAudience, hbeforeLeeway⟩ := store?_config hpre
    have hobs : (p.observe assign earlier).store? (assign last) = some ⟨before.config,
        before.state.observeAll (share assign earlier (assign last))⟩ := by
      rw [store?_observe, hpre]
      rfl
    -- there is one way to split off the last registration, and it went to one store
    have hcondition : (∀ earlier' last', earlier ++ [last] = earlier' ++ [last'] →
        single.config.Admits last' now →
          (∀ store, (p.observe assign earlier').store? (assign last') = some store →
            store.state.Takes last') ∧
          (p.observe assign (earlier ++ [last])).NamesDenial peer last') ↔
        (single.config.Admits last now → PolicyStores.Taken before assign earlier last ∧
          (p.observe assign (earlier ++ [last])).NamesDenial peer last) := by
      constructor
      · intro h hadmits
        obtain ⟨htakes, hnames⟩ := h earlier last rfl hadmits
        exact ⟨htakes _ hobs, hnames⟩
      · intro h earlier' last' heq hadmits
        obtain ⟨rfl, hlast'⟩ := append_inj' heq rfl
        cases hlast'
        obtain ⟨htakes, hnames⟩ := h hadmits
        refine ⟨fun store hstore => ?_, hnames⟩
        rw [hobs] at hstore
        cases hstore
        exact htakes
    rw [hcondition, selectEvidence_observeAll hsingle habout hlast,
      if_pos (hsingle.accepts_takes habout haccepts)]
    by_cases hgood : PolicyStores.Taken before assign earlier last ∧ last.status = .active ∧
        (p.observe assign (earlier ++ [last])).NamesDenial peer last
    · obtain ⟨htaken, hstat, hnames⟩ := hgood
      rw [selectEvidence_home hp habout hpre (validateNode_config
        (hbeforeRoot.trans hroot) (hbeforeAudience.trans haudience) hlast) htaken hstat hnames]
      exact iff_of_true (agree_verdict (hbeforeLeeway.trans hleeway)) fun _ => ⟨htaken, hnames⟩
    · obtain ⟨_, hdenied⟩ := selectEvidence_denied hp habout hpre hgood
      rw [hdenied, agree_error_iff]
      constructor
      · intro hadmits h
        exact absurd h hadmits
      · intro h hadmits
        obtain ⟨htaken, hnames⟩ := h hadmits
        exact hgood ⟨htaken, hadmits.1, hnames⟩

namespace Sample

/-- A membership namespace the fleet binds. -/
def team : FixedBytes 32 := FixedBytes.fill 32 2

def teamStore : PolicyStore := ⟨config.bound team, fresh (config.bound team)⟩

/-- A fleet store and one membership store, nothing observed yet. -/
def policyStores : PolicyStores where
  fleet := ⟨config, fresh config⟩
  membership := (∅ : Table (FixedBytes 32) PolicyStore).insert team teamStore
  bound := by
    intro ns store hstore
    rw [Table.get?_insert] at hstore
    split at hstore
    · rename_i hns
      cases hstore
      rw [← hns]
      rfl
    · simp at hstore

/-- The first revocation is kept by the fleet, what follows by the membership namespace. -/
def split (record : NodeRegistrationV1) : Option (FixedBytes 32) :=
  if record.revision = 1 then none else some team

end Sample

open Sample

theorem Sample.policyStores_unheard : policyStores.Unheard Sample.peer := by
  intro ns store hstore
  cases ns with
  | none =>
    cases hstore
    exact unheard_fresh _ _
  | some ns =>
    have hget : ((∅ : Table (FixedBytes 32) PolicyStore).insert team teamStore)[ns]? =
        some store := hstore
    rw [Table.get?_insert] at hget
    split at hget
    · cases hget
      exact unheard_fresh _ _
    · simp at hget

theorem Sample.restored_accepted : (fresh config).Accepts restored :=
  ⟨by decide +kernel, by decide +kernel, by decide +kernel, trivial⟩

theorem Sample.restored_placed : policyStores.Placed split restored := by
  unfold PolicyStores.Placed
  decide +kernel

/-- **A split that locks a node out.** The registration names the newest revocation, as a single
store asks; the fleet still holds the older one, and no name satisfies both. -/
theorem spread_locks_out :
    policyStores.Unheard Sample.peer ∧ RootHistory libraries config Sample.peer restored ∧
      (fresh config).Accepts restored ∧
      policyStores.Placed split restored ∧
      selectEvidence libraries config ((fresh config).observeAll restored) Sample.peer none 10 =
        .ok (config.evidence Sample.peer (registration 3 .active (some 2))) ∧
      (policyStores.observe split restored).selectEvidence libraries Sample.peer none 10 =
        .error (.denied .nodeRevoked) :=
  ⟨policyStores_unheard, restored_history, restored_accepted,
    restored_placed, by decide +kernel, by decide +kernel⟩

/-- What the theorem asks of the split of three registrations. -/
theorem spread_agrees_iff_restored :
    Agree ((policyStores.observe split restored).selectEvidence libraries Sample.peer none 10)
        (selectEvidence libraries config ((fresh config).observeAll restored) Sample.peer none 10) ↔
      ∀ earlier last, restored = earlier ++ [last] → config.Admits last 10 →
        (∀ store, (policyStores.observe split earlier).store? (split last) =
          some store → store.state.Takes last) ∧
        (policyStores.observe split restored).NamesDenial Sample.peer last := by
  have hsingle : Unheard (PolicyStore.mk config (fresh config)).state
      (hexKey Sample.peer) := unheard_fresh _ _
  exact spread_agrees_iff policyStores_unheard hsingle rfl rfl rfl
    restored_history.about restored_history.valid restored_placed
    restored_accepted 10

end AsterRpc.Enrollment

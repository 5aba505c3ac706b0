import AsterRpc.Foundation.Run
import AsterRpc.Foundation.Table

/-!
# The traffic of a level

`LevelTrafficLedger` of `topology/mod.rs`: a peer's bytes count under the level at
which they were read.  They are banked there when the peer moves to another level
or is in no view any more.

Beside the ledger stands what it is to count: the largest traffic that was read of
each peer since the monitor keeps it, and of each peer that was forgotten what had
been read of it by then.
-/

namespace AsterRpc.Topology

open AsterRpc.Foundation Std List Table

/-- `CoreLadderLevel`. -/
inductive LadderLevel where
  | sameHost | sameLan | sameSite | sameRegion | far
deriving DecidableEq

instance : Fintype LadderLevel where
  elems := {.sameHost, .sameLan, .sameSite, .sameRegion, .far}
  complete := by
    intro level
    cases level <;> decide

/-- `CoreProtocolFamily`. -/
inductive ProtocolFamily where
  | blobs | blobsZstd | docs | gossip | rpc | other
deriving DecidableEq

inductive Direction where
  | sent | received
deriving DecidableEq

abbrev Counter := ProtocolFamily × Direction

/-- `CoreQuicTraffic`, its `u64` byte counters as naturals; `add_all`, `since` and `max` go counter
by counter. -/
abbrev QuicTraffic := Counter → ℕ

structure PeerView where
  nodeId : String
  level : LadderLevel
  quicTraffic : QuicTraffic

structure LedgerPeer where
  level : LadderLevel
  base : QuicTraffic
  last : QuicTraffic

/-- What the peer accumulated under its level. -/
def LedgerPeer.accumulated (peer : LedgerPeer) : QuicTraffic := peer.last - peer.base

/-- A level without an entry has banked nothing. -/
structure LevelTrafficLedger where
  banked : LadderLevel → QuicTraffic
  peers : Table String LedgerPeer

namespace LevelTrafficLedger

def bank (banked : LadderLevel → QuicTraffic) (peer : LedgerPeer) : LadderLevel → QuicTraffic :=
  Function.update banked peer.level (banked peer.level + peer.accumulated)

/-- One turn of the loop of `observe` over the views. -/
def see (ledger : LevelTrafficLedger) (view : PeerView) : LevelTrafficLedger :=
  match ledger.peers[view.nodeId]? with
  | none =>
    { ledger with peers := ledger.peers.insert view.nodeId ⟨view.level, 0, view.quicTraffic⟩ }
  | some peer =>
    let last := peer.last ⊔ view.quicTraffic
    if peer.level ≠ view.level then
      ⟨bank ledger.banked peer, ledger.peers.insert view.nodeId ⟨view.level, peer.last, last⟩⟩
    else { ledger with peers := ledger.peers.insert view.nodeId { peer with last := last } }

/-- The `retain` of `observe`. -/
def retain (ledger : LevelTrafficLedger) (seen : List String) : LevelTrafficLedger :=
  let gone := ledger.peers.toList.filter fun e => decide (e.1 ∉ seen)
  ⟨gone.foldl (fun banked e => bank banked e.2) ledger.banked,
    (gone.map Prod.fst).foldl (fun peers id => peers.erase id) ledger.peers⟩

/-- `observe`; what it returns are the `totals` of what it leaves. -/
def observe (ledger : LevelTrafficLedger) (views : List PeerView) : LevelTrafficLedger :=
  (views.foldl see ledger).retain (views.map PeerView.nodeId)

/-- What a peer counts for under a level. -/
def under (level : LadderLevel) (c : Counter) (_ : String)
    (peer : LedgerPeer) : ℕ :=
  if peer.level = level then peer.accumulated c else 0

def totals (ledger : LevelTrafficLedger) (level : LadderLevel) : QuicTraffic :=
  fun c => ledger.banked level c +
    ledger.peers.total (under level c)

/-- No peer has entered its level with more than was read of it. -/
def Ordered (ledger : LevelTrafficLedger) : Prop :=
  ledger.peers.AllRows fun _ peer => peer.base ≤ peer.last

/-- What the ledger has read of a peer. -/
def lastOf (ledger : LevelTrafficLedger) (id : String) : Option QuicTraffic :=
  ledger.peers[id]?.map LedgerPeer.last

variable {ledger : LevelTrafficLedger} {view : PeerView} {level : LadderLevel}
  {c : Counter} {seen : List String} {id : String}

/-- A view leaves its peer at its level, with what is the most that was read of it. -/
theorem see_peers (ledger : LevelTrafficLedger) (view : PeerView) :
    ∃ base, (ledger.see view).peers = ledger.peers.insert view.nodeId
        ⟨view.level, base, (ledger.lastOf view.nodeId).getD 0 ⊔ view.quicTraffic⟩ ∧
      (ledger.Ordered → base ≤ (ledger.lastOf view.nodeId).getD 0) := by
  unfold see lastOf
  cases hpeer : ledger.peers[view.nodeId]? with
  | none => exact ⟨0, by simp, fun _ => zero_le⟩
  | some peer =>
    dsimp only
    split
    · exact ⟨peer.last, rfl, fun _ => le_rfl⟩
    · rename_i hlevel
      rw [← not_ne_iff.mp hlevel]
      exact ⟨peer.base, rfl, fun h => h _ peer hpeer⟩

theorem lastOf_see (id : String) : (ledger.see view).lastOf id =
    if view.nodeId = id then some ((ledger.lastOf id).getD 0 ⊔ view.quicTraffic)
    else ledger.lastOf id := by
  obtain ⟨_, hpeers, -⟩ := ledger.see_peers view
  rw [lastOf, hpeers, get?_insert]
  split
  · subst id
    rfl
  · rfl

theorem Ordered.see (h : ledger.Ordered) (view : PeerView) : (ledger.see view).Ordered := by
  obtain ⟨_, hpeers, hbase⟩ := ledger.see_peers view
  rw [Ordered, hpeers]
  exact Table.AllRows.insert h ((hbase h).trans le_sup_left)

theorem bank_apply (id : String) (banked : LadderLevel → QuicTraffic) (peer : LedgerPeer) :
    bank banked peer level c = banked level c + under level c id peer := by
  rw [bank, under, Function.update_apply]
  by_cases hlevel : level = peer.level
  · subst hlevel
    simp
  · simp [hlevel, Ne.symm hlevel]

/-- **A view adds to its own level what is new in it**, and to no other. -/
theorem totals_see (h : ledger.Ordered) :
    (ledger.see view).totals level c = ledger.totals level c +
      if view.level = level then view.quicTraffic c - (ledger.lastOf view.nodeId).getD 0 c
      else 0 := by
  have hins := total_insert (under level c) ledger.peers view.nodeId
  unfold see totals lastOf
  cases hpeer : ledger.peers[view.nodeId]? with
  | none =>
    rw [Nat.add_assoc]
    have hins := hins ⟨view.level, 0, view.quicTraffic⟩
    rw [weightAt, hpeer] at hins
    exact congrArg (ledger.banked level c + ·) hins
  | some peer =>
    have hle : peer.base c ≤ peer.last c := h _ peer hpeer c
    have hsup : (peer.last ⊔ view.quicTraffic) c = max (peer.last c) (view.quicTraffic c) := rfl
    simp only [weightAt, hpeer, Option.map_some, Option.getD_some] at hins ⊢
    split
    · -- What the peer counted for under its old level is banked there.
      have hins := hins ⟨view.level, peer.last, peer.last ⊔ view.quicTraffic⟩
      dsimp only
      rw [bank_apply view.nodeId]
      simp only [under, LedgerPeer.accumulated, Pi.sub_apply, hsup] at hins ⊢
      by_cases hnew : view.level = level
      · simp only [hnew, if_true] at hins ⊢
        omega
      · simp only [hnew, if_false] at hins ⊢
        omega
    · rename_i hlevel
      have hins := hins ⟨peer.level, peer.base, peer.last ⊔ view.quicTraffic⟩
      rw [← not_ne_iff.mp hlevel]
      simp only [under, LedgerPeer.accumulated, Pi.sub_apply, hsup] at hins ⊢
      by_cases hsame : peer.level = level
      · simp only [hsame, if_true] at hins ⊢
        omega
      · simp only [hsame, if_false] at hins ⊢
        omega

/-- Banking a list of peers moves to each level what they count for under it. -/
theorem foldl_bank (gone : List (String × LedgerPeer)) (banked : LadderLevel → QuicTraffic) :
    gone.foldl (fun banked e => bank banked e.2) banked level c =
      banked level c + (gone.map fun e => under level c e.1 e.2).sum := by
  induction gone generalizing banked with
  | nil => rfl
  | cons e rest ih => rw [foldl_cons, ih, bank_apply e.1, map_cons, sum_cons, Nat.add_assoc]

/-- **A peer that leaves the views takes nothing from its level.** -/
theorem totals_retain : (ledger.retain seen).totals level c = ledger.totals level c := by
  have hnodup := (filter_sublist (p := fun e => decide (e.1 ∉ seen))).map Prod.fst
    |>.nodup (keys_nodup ledger.peers)
  have herase := total_foldl_erase (under level c) hnodup ledger.peers
  have hgone : ∀ e ∈ ledger.peers.toList.filter fun e => decide (e.1 ∉ seen),
      (weightAt (under level c) ledger.peers ∘ Prod.fst) e = under level c e.1 e.2 := by
    intro e he
    rw [Function.comp_apply, weightAt,
      mem_toList.mp (mem_filter.mp he).1]
    rfl
  rw [map_map, map_congr_left hgone] at herase
  unfold retain totals
  dsimp only
  rw [foldl_bank]
  omega

theorem lastOf_retain (h : id ∈ seen) : (ledger.retain seen).lastOf id = ledger.lastOf id := by
  unfold lastOf retain
  rw [get?_foldl_erase_of_notMem]
  intro hmem
  obtain ⟨e, he, rfl⟩ := mem_map.mp hmem
  simpa [h] using (mem_filter.mp he).2

/-- No total has become smaller. -/
def Grows (ledger ledger' : LevelTrafficLedger) : Prop :=
  ledger.Ordered → ledger'.Ordered ∧ ledger.totals ≤ ledger'.totals

theorem Grows.trans {a b c : LevelTrafficLedger} (h : a.Grows b) (h' : b.Grows c) : a.Grows c := by
  intro ha
  obtain ⟨hb, hab⟩ := h ha
  obtain ⟨hc, hbc⟩ := h' hb
  exact ⟨hc, hab.trans hbc⟩

theorem grows_foldl_see (views : List PeerView) : ledger.Grows (views.foldl see ledger) := by
  induction views generalizing ledger with
  | nil => exact fun h => ⟨h, le_rfl⟩
  | cons view rest ih =>
    refine Grows.trans (fun h => ⟨h.see view, fun level c => ?_⟩) ih
    rw [totals_see h]
    exact Nat.le_add_right _ _

/-- **No call of `observe` makes a total smaller.** -/
theorem grows_observe (views : List PeerView) : ledger.Grows (ledger.observe views) := by
  refine (grows_foldl_see views).trans fun h => ⟨Table.AllRows.foldl_erase h _, ?_⟩
  intro level c
  exact totals_retain.ge

end LevelTrafficLedger

open LevelTrafficLedger

/-- A ledger beside what it is to count: `current` has, for each peer that the monitor keeps, the
largest traffic read of it since it does, and `ended` sums this up for those it has forgotten. -/
structure Monitored where
  ledger : LevelTrafficLedger := ⟨0, ∅⟩
  current : Table String QuicTraffic := ∅
  ended : QuicTraffic := 0

/-- `forget id`: the monitor drops the peer (`forget_idle_peers`). -/
inductive Event where
  | observe (views : List PeerView)
  | forget (id : String)

namespace Monitored

/-- What is to be counted. -/
def largest (s : Monitored) : QuicTraffic :=
  fun c => s.ended c + s.current.total fun _ traffic => traffic c

/-- The largest traffic read of a peer, after one more view. -/
def raise (current : Table String QuicTraffic) (view : PeerView) : Table String QuicTraffic :=
  current.insert view.nodeId (current[view.nodeId]?.getD 0 ⊔ view.quicTraffic)

def step (s : Monitored) : Event → Monitored × Unit
  | .observe views =>
    ({ s with ledger := s.ledger.observe views, current := views.foldl raise s.current }, ())
  | .forget id =>
    ({ s with current := s.current.erase id, ended := s.ended + s.current[id]?.getD 0 }, ())

/-- The views name every peer the monitor keeps, and none that the ledger still has from before the
monitor forgot it. -/
def Noticed (s : Monitored) : Event → Prop
  | .observe views =>
    (∀ id traffic, s.current[id]? = some traffic → id ∈ views.map PeerView.nodeId) ∧
      ∀ view ∈ views, s.current[view.nodeId]? = none → s.ledger.lastOf view.nodeId = none
  | .forget _ => True

/-- The ledger has counted what it is to count. -/
structure Agrees (s : Monitored) : Prop where
  ordered : s.ledger.Ordered
  last : ∀ id traffic, s.current[id]? = some traffic → s.ledger.lastOf id = some traffic
  counted : ∀ c, ∑ level, s.ledger.totals level c = s.largest c

variable {s : Monitored} {view : PeerView} {views : List PeerView} {seen : List String}

theorem weightAt_current (current : Table String QuicTraffic) (id : String) (c : Counter) :
    weightAt (fun _ traffic => traffic c) current id = current[id]?.getD 0 c := by
  rw [weightAt]
  cases current[id]? <;> rfl

/-- **A view is counted as it is read**, unless the ledger has its peer from an earlier time. -/
theorem Agrees.read (h : s.Agrees)
    (hnew : s.current[view.nodeId]? = none → s.ledger.lastOf view.nodeId = none) :
    Agrees ⟨s.ledger.see view, raise s.current view, s.ended⟩ := by
  have hlast : s.ledger.lastOf view.nodeId = s.current[view.nodeId]? := by
    cases hcurr : s.current[view.nodeId]? with
    | none => exact hnew hcurr
    | some => exact h.last _ _ hcurr
  refine ⟨h.ordered.see view, fun id traffic hid => ?_, fun c => ?_⟩
  · rw [lastOf_see]
    rw [raise, get?_insert] at hid
    split
    · rename_i heq
      rw [if_pos heq] at hid
      rw [← heq, hlast]
      exact hid
    · rename_i hne
      rw [if_neg hne] at hid
      exact h.last id traffic hid
  · have hins := total_insert (fun _ traffic => traffic c) s.current
      view.nodeId (s.current[view.nodeId]?.getD 0 ⊔ view.quicTraffic)
    have hcount := h.counted c
    have hsum : ∑ level, (s.ledger.see view).totals level c =
        ∑ level, s.ledger.totals level c +
          (view.quicTraffic c - s.current[view.nodeId]?.getD 0 c) := by
      simp only [totals_see h.ordered, hlast]
      rw [Finset.sum_add_distrib, Finset.sum_ite_eq Finset.univ view.level,
        if_pos (Finset.mem_univ _)]
    rw [hsum, hcount]
    simp only [largest, raise, weightAt_current, Pi.sup_apply] at hins ⊢
    omega

/-- A list of views is counted as it is read; `seen` has the peers in it and those kept before. -/
theorem Agrees.foldl_read (h : s.Agrees)
    (hnew : ∀ view ∈ views, s.current[view.nodeId]? = none → s.ledger.lastOf view.nodeId = none)
    (hseen : ∀ id traffic, s.current[id]? = some traffic → id ∈ seen)
    (hviews : ∀ view ∈ views, view.nodeId ∈ seen) :
    Agrees ⟨views.foldl .see s.ledger, views.foldl raise s.current, s.ended⟩ ∧
      ∀ id traffic, (views.foldl raise s.current)[id]? = some traffic → id ∈ seen := by
  induction views generalizing s with
  | nil => exact ⟨h, hseen⟩
  | cons view rest ih =>
    obtain ⟨hview, hrest⟩ := forall_mem_cons.mp hviews
    obtain ⟨hfirst, hnew⟩ := forall_mem_cons.mp hnew
    refine ih (h.read hfirst) (fun other hother hnone => ?_) (fun id traffic hid => ?_) hrest
    · rw [raise, get?_insert] at hnone
      split at hnone
      · cases hnone
      · rename_i hne
        rw [lastOf_see, if_neg hne]
        exact hnew other hother hnone
    · rw [raise, get?_insert] at hid
      split at hid
      · subst id
        exact hview
      · exact hseen id traffic hid

theorem Agrees.step (h : s.Agrees) {e : Event} (he : s.Noticed e) : (s.step e).1.Agrees := by
  cases e with
  | observe =>
    obtain ⟨hread, hseen⟩ := h.foldl_read he.2 he.1 fun view => mem_map_of_mem
    refine ⟨Table.AllRows.foldl_erase hread.ordered _, fun id traffic hid => ?_, ?_⟩
    · exact (lastOf_retain (hseen id traffic hid)).trans
        (hread.last id traffic hid)
    · intro c
      simp only [Monitored.step, observe, totals_retain]
      exact hread.counted c
  | forget id =>
    refine ⟨h.ordered, fun other traffic hother => ?_, fun c => ?_⟩
    · rw [Monitored.step, get?_erase] at hother
      split at hother
      · cases hother
      · exact h.last other traffic hother
    · have herase := total_erase (fun _ traffic => traffic c) s.current id
      rw [weightAt_current] at herase
      have hcount := h.counted c
      simp only [largest, Monitored.step, Pi.add_apply] at hcount ⊢
      omega

/-- **In every run the totals only grow; and while every call names the peers the monitor keeps, and
the ledger has lost a forgotten peer before it comes back, their sum is the largest traffic read of
each peer each time it was kept.** -/
theorem totals_counted_once (events : List Event) :
    (∀ more, (run step {} events).ledger.totals ≤ (run step {} (events ++ more)).ledger.totals) ∧
      (EveryStep step Noticed {} events → ∀ c,
        ∑ level, (run step {} events).ledger.totals level c = (run step {} events).largest c) := by
  have hgrows : ∀ (s : Monitored) more, s.ledger.Grows (run step s more).ledger := by
    refine run_relates (R := fun (s s' : Monitored) => s.ledger.Grows s'.ledger)
      (fun _ h => ⟨h, le_rfl⟩) LevelTrafficLedger.Grows.trans fun s e => ?_
    cases e with
    | observe views => exact grows_observe views
    | forget => exact fun h => ⟨h, le_rfl⟩
  have hstart : ({} : Monitored).Agrees := by
    refine ⟨fun id peer hid => ?_, fun id traffic hid => ?_, fun c => ?_⟩
    · simp at hid
    · simp at hid
    · rfl
  refine ⟨fun more => ?_, fun h => ?_⟩
  · rw [run_append]
    exact (hgrows _ more (hgrows {} events hstart.ordered).1).2
  · exact (run_invariant_of (fun _ _ hs he => hs.step he) hstart h).counted

/-- A view of the peer `p` with this many bytes sent over RPC. -/
def sampleView (bytes : ℕ) : PeerView :=
  ⟨"p", .far, fun c => if c = (.rpc, .sent) then bytes else 0⟩

theorem sum_after_return :
    let events := [.observe [sampleView 1000], .forget "p", .observe [], .observe [sampleView 200]]
    ∑ level, (run step {} events).ledger.totals level (.rpc, .sent) =
      (run step {} events).largest (.rpc, .sent) := by
  intro events
  refine (totals_counted_once events).2 ?_ _
  refine ⟨⟨?_, ?_⟩, trivial, ⟨?_, ?_⟩, ⟨?_, ?_⟩, trivial⟩
  · simp
  · intro view _ _
    simp [lastOf]
  · simp [step, raise, sampleView]
  · simp
  · simp [step, raise, sampleView]
  · intro view hview _
    rw [mem_singleton.mp hview]
    decide +kernel

/-- A peer that is forgotten and is back before the next call is taken for the one that was there:
of its new bytes only those above its old count are counted. -/
theorem forgotten_between_calls :
    let s := run step {} [.observe [sampleView 1000], .forget "p", .observe [sampleView 200]]
    ∑ level, s.ledger.totals level (.rpc, .sent) = 1000 ∧ s.largest (.rpc, .sent) = 1200 := by
  decide +kernel

end Monitored

end AsterRpc.Topology

import AsterRpc.Foundation.Run

/-!
# Round robin

`ResolveState::rank` puts the ready leases of a contract before the degraded ones
and rotates both groups by the one counter of the contract, which each of them
turns on and reduces by its own length.  Without degraded leases the ready ones
take turns.  With as many of them the counter moves on by two, with fewer it falls
back below their number, and a ready lease may never come first.
-/

namespace AsterRpc.Registry

open AsterRpc.Foundation List Function

/-- What `rank` reads of an `EndpointLease`, and whose lease it is. -/
structure EndpointLease where
  endpointId : String
  healthStatus : String
deriving DecidableEq

def healthReady : String := "ready"

def healthDegraded : String := "degraded"

inductive Strategy where
  | roundRobin
  | leastLoad
  | random
  | unknown

structure RankCall where
  candidates : List EndpointLease
  strategy : Strategy
  contractId : String

/-- The counters of a `ResolveState`; a contract that has none starts at 0. -/
abbrev ResolveState := String → ℕ

def readyOf (candidates : List EndpointLease) : List EndpointLease :=
  candidates.filter (·.healthStatus == healthReady)

def degradedOf (candidates : List EndpointLease) : List EndpointLease :=
  candidates.filter (·.healthStatus == healthDegraded)

section

-- how the other strategies order a group; they do not touch the counters
variable (reorder : Strategy → List EndpointLease → List EndpointLease) (rr : ResolveState)

def applyStrategy (group : List EndpointLease) (strategy : Strategy) (contractId : String) :
    ResolveState × List EndpointLease :=
  if group.isEmpty then (rr, group)
  else
    match strategy with
    | .roundRobin =>
      let idx := rr contractId % group.length
      (update rr contractId ((idx + 1) % group.length), group.rotate idx)
    | _ => (rr, reorder strategy group)

def rank (call : RankCall) : ResolveState × List EndpointLease :=
  if call.candidates.isEmpty then (rr, call.candidates)
  else
    let ready := applyStrategy reorder rr (readyOf call.candidates) call.strategy call.contractId
    let degraded := applyStrategy reorder ready.1 (degradedOf call.candidates) call.strategy
      call.contractId
    (degraded.1, ready.2 ++ degraded.2)

/-- The answers to the calls for one contract, among calls for others. -/
def answers (contractId : String) (calls : List RankCall) : List (List EndpointLease) :=
  ((calls.zip (outputs (rank reorder) rr calls)).filter (·.1.contractId == contractId)).map Prod.snd

end

/-- Each answer has the ready candidates and then the degraded ones, and each ready candidate comes
first once. -/
structure Fair (candidates : List EndpointLease) (answers : List (List EndpointLease)) : Prop where
  grouped : ∀ answer ∈ answers, ∃ ready degraded, answer = ready ++ degraded ∧
    ready.Perm (readyOf candidates) ∧ degraded.Perm (degradedOf candidates)
  firsts : (answers.map head?).Perm ((readyOf candidates).map some)

/-! ### The counter -/

/-- What a group of this length makes of the counter. -/
def turn (len x : ℕ) : ℕ := if len = 0 then x else (x % len + 1) % len

section

variable {reorder : Strategy → List EndpointLease → List EndpointLease} {rr : ResolveState}
  {contractId : String} {candidates : List EndpointLease} {n m : ℕ}

theorem applyStrategy_roundRobin (group : List EndpointLease) :
    applyStrategy reorder rr group .roundRobin contractId =
      (update rr contractId (turn group.length (rr contractId)),
        group.rotate (rr contractId % group.length)) := by
  cases group with
  | nil => simp [applyStrategy, turn]
  | cons => rfl

theorem rank_other {call : RankCall} (h : call.contractId ≠ contractId) :
    (rank reorder rr call).1 contractId = rr contractId := by
  obtain ⟨candidates, strategy, id⟩ := call
  have hne : contractId ≠ id := Ne.symm h
  cases strategy <;> simp only [rank, applyStrategy] <;> split_ifs <;> simp [hne]

/-- The answers to equal calls among others, by the counter each of them finds. -/
theorem answers_eq (hn : (readyOf candidates).length = n) (hm : (degradedOf candidates).length = m)
    {k : ℕ} {calls : List RankCall} (hcalls : calls.filter (·.contractId == contractId) =
      replicate k ⟨candidates, .roundRobin, contractId⟩) :
    answers reorder rr contractId calls = (range k).map fun i =>
      (readyOf candidates).rotate ((turn m ∘ turn n)^[i] (rr contractId) % n) ++
        (degradedOf candidates).rotate (turn n ((turn m ∘ turn n)^[i] (rr contractId)) % m) := by
  induction calls generalizing rr k with
  | nil =>
    cases k with
    | zero => rfl
    | succ => cases hcalls
  | cons call rest ih =>
    unfold answers at ih ⊢
    by_cases hid : call.contractId = contractId
    · rw [filter_cons_of_pos (by simpa using hid)] at hcalls
      cases k with
      | zero => cases hcalls
      | succ k =>
        obtain ⟨rfl, hrest⟩ := cons.inj hcalls
        have hrank : rank reorder rr ⟨candidates, .roundRobin, contractId⟩ =
            (update rr contractId (turn m (turn n (rr contractId))),
              (readyOf candidates).rotate (rr contractId % n) ++
                (degradedOf candidates).rotate (turn n (rr contractId) % m)) := by
          subst hn hm
          cases candidates with
          | nil => simp [rank, readyOf, degradedOf, turn]
          | cons => simp [rank, applyStrategy_roundRobin]
        rw [outputs, hrank, zip_cons_cons, filter_cons_of_pos (by simp), map_cons, ih hrest,
          range_succ_eq_map]
        simp [Function.comp_def]
    · rw [filter_cons_of_neg (by simpa using hid)] at hcalls
      rw [outputs, zip_cons_cons, filter_cons_of_neg (by simpa using hid), ih hcalls,
        rank_other hid]

/-! ### Which indices it finds -/

/-- A counter that moves on by a step prime to their number finds every index once. -/
theorem indices_perm {f : ℕ → ℕ} {c : ℕ} (hc : n.Coprime c) (hf : ∀ x, f x % n = (x + c) % n)
    (x : ℕ) : ((range n).map fun i => f^[i] x % n).Perm (range n) := by
  have hiterate : ∀ i, f^[i] x % n = (x + c * i) % n := by
    intro i
    induction i with
    | zero => rfl
    | succ i ih => rw [iterate_succ_apply', hf, Nat.add_mod, ih, ← Nat.add_mod, Nat.mul_succ,
        Nat.add_assoc]
  have hnodup : ((range n).map fun i => f^[i] x % n).Nodup := by
    refine nodup_range.map_on fun i hi j hj heq => ?_
    rw [hiterate, hiterate] at heq
    have hmod := Nat.ModEq.cancel_left_of_coprime hc (Nat.ModEq.add_left_cancel' x heq)
    exact hmod.eq_of_lt_of_lt (mem_range.mp hi) (mem_range.mp hj)
  refine (subperm_of_subset hnodup fun i hi => ?_).perm_of_length_le (by simp)
  obtain ⟨k, hk, rfl⟩ := mem_map.mp hi
  exact mem_range.mpr (Nat.mod_lt _ (Nat.zero_lt_of_lt (mem_range.mp hk)))

/-- With as many degraded leases the counter moves on by two. -/
theorem turn_turn (hn : n ≠ 0) (hle : n ≤ m) (x : ℕ) : turn m (turn n x) % n = (x + 2) % n := by
  have hlt : (x % n + 1) % n < n := Nat.mod_lt _ (Nat.pos_of_ne_zero hn)
  have hnext : ((x % n + 1) % n + 1) % n = (x + 2) % n := by
    rw [Nat.mod_add_mod, Nat.add_assoc, Nat.mod_add_mod]
  rw [turn, turn, if_neg hn, if_neg (by omega), Nat.mod_eq_of_lt (Nat.lt_of_lt_of_le hlt hle),
    ← hnext]
  rcases Nat.lt_or_eq_of_le (Nat.le_trans hlt hle) with hless | heq
  · rw [Nat.mod_eq_of_lt hless]
  · have hsame : n = m := by omega
    rw [hsame, Nat.mod_mod]

/-- Where the counter moves on by an even step, or stays low, it never finds some index. -/
theorem exists_never (hn : n ≠ 0) (hm : m ≠ 0) (h : ¬ (n ≤ m ∧ Odd n)) :
    ∃ j < n, ∀ i, (turn m ∘ turn n)^[i] 0 % n ≠ j := by
  by_cases hle : n ≤ m
  · have htwo : 2 ∣ n := (Nat.not_odd_iff_even.mp fun hodd => h ⟨hle, hodd⟩).two_dvd
    refine ⟨1, by omega, fun i => ?_⟩
    have heven : (turn m ∘ turn n)^[i] 0 % n % 2 = 0 := by
      induction i with
      | zero => simp
      | succ i ih =>
        rw [Nat.mod_mod_of_dvd _ htwo] at ih
        rw [iterate_succ_apply', comp_apply, turn_turn hn hle, Nat.mod_mod_of_dvd _ htwo]
        omega
    omega
  · refine ⟨n - 1, by omega, fun i => ?_⟩
    have hlow : (turn m ∘ turn n)^[i] 0 < m := by
      cases i with
      | zero => exact Nat.pos_of_ne_zero hm
      | succ i =>
        rw [iterate_succ_apply', comp_apply, turn, if_neg hm]
        exact Nat.mod_lt _ (Nat.pos_of_ne_zero hm)
    rw [Nat.mod_eq_of_lt (by omega)]
    omega

/-- The leases that come first. -/
theorem firsts_eq (hn : (readyOf candidates).length = n) (hm : (degradedOf candidates).length = m)
    {calls : List RankCall} (hcalls : calls.filter (·.contractId == contractId) =
      replicate n ⟨candidates, .roundRobin, contractId⟩) :
    (answers reorder rr contractId calls).map head? =
      ((range n).map fun i => (turn m ∘ turn n)^[i] (rr contractId) % n).map
        ((readyOf candidates)[·]?) := by
  rw [answers_eq hn hm hcalls, map_map, map_map]
  refine map_congr_left fun i hi => ?_
  have hlt := Nat.mod_lt ((turn m ∘ turn n)^[i] (rr contractId))
    (Nat.zero_lt_of_lt (mem_range.mp hi))
  rw [← hn] at hlt
  rw [comp_apply, comp_apply, head?_append, ← hn, head?_rotate hlt, getElem?_eq_getElem hlt]
  rfl

end

/-- Some ready leases and some degraded ones. -/
def Sample.leases (n m : ℕ) : List EndpointLease :=
  (range n).map (fun i => ⟨String.ofList (replicate i 'r'), healthReady⟩) ++
    replicate m ⟨"d", healthDegraded⟩

open Sample

/-- **Where round robin is fair**: `n` calls over a list of `n` ready and `m` degraded leases,
whatever the counters hold and whatever is called for other contracts in between, put each ready
lease first once exactly when there is no degraded lease, or `n` is odd and there are as many. -/
theorem roundRobin_fair_iff (n m : ℕ) :
    (∀ (reorder : Strategy → List EndpointLease → List EndpointLease) (rr : ResolveState)
        (contractId : String) (candidates : List EndpointLease) (calls : List RankCall),
      (readyOf candidates).length = n → (degradedOf candidates).length = m →
      calls.filter (·.contractId == contractId) =
        replicate n ⟨candidates, .roundRobin, contractId⟩ →
      Fair candidates (answers reorder rr contractId calls)) ↔
      n = 0 ∨ m = 0 ∨ n ≤ m ∧ Odd n := by
  constructor
  · intro h
    by_contra hnot
    obtain ⟨hn, hm, hcond⟩ : n ≠ 0 ∧ m ≠ 0 ∧ ¬ (n ≤ m ∧ Odd n) := by simpa [not_or] using hnot
    obtain ⟨j, hj, hnever⟩ := exists_never hn hm hcond
    have hready : readyOf (leases n m) =
        (range n).map fun i => ⟨String.ofList (replicate i 'r'), healthReady⟩ := by
      simp [leases, readyOf, healthReady, healthDegraded]
    have hlen : (readyOf (leases n m)).length = n := by simp [hready]
    have hdegraded : (degradedOf (leases n m)).length = m := by
      simp [leases, degradedOf, healthReady, healthDegraded]
    have hcalls : (replicate n ⟨leases n m, .roundRobin, ""⟩ : List RankCall).filter
        (·.contractId == "") = replicate n ⟨leases n m, .roundRobin, ""⟩ := by simp
    have hfirsts := (h (fun _ group => group) (fun _ => 0) "" _ _ hlen hdegraded hcalls).firsts
    rw [firsts_eq hlen hdegraded hcalls, hready] at hfirsts
    -- the lease at the index that is never found
    have hmem := hfirsts.mem_iff.mpr (mem_map_of_mem (mem_map_of_mem (mem_range.mpr hj)))
    simp only [mem_map] at hmem
    obtain ⟨_, ⟨i, -, rfl⟩, hi⟩ := hmem
    have hlt := Nat.mod_lt ((turn m ∘ turn n)^[i] 0) (Nat.pos_of_ne_zero hn)
    have hid : String.ofList (replicate ((turn m ∘ turn n)^[i] 0 % n) 'r') =
        String.ofList (replicate j 'r') := by simpa [hlt] using hi
    exact hnever i (by simpa using congrArg String.length hid)
  · intro hcond reorder rr contractId candidates calls hn hm hcalls
    refine ⟨?_, ?_⟩
    · rw [answers_eq hn hm hcalls]
      intro answer hanswer
      obtain ⟨i, -, rfl⟩ := mem_map.mp hanswer
      exact ⟨_, _, rfl, rotate_perm _ _, rotate_perm _ _⟩
    · rw [firsts_eq hn hm hcalls]
      have hperm : ((range n).map fun i => (turn m ∘ turn n)^[i] (rr contractId) % n).Perm
          (range n) := by
        by_cases hzero : n = 0
        · rw [hzero]
          exact .refl _
        · rcases hcond with hnot | rfl | ⟨hle, hodd⟩
          · exact absurd hnot hzero
          · exact indices_perm n.coprime_one_right (fun x => by simp [turn, hzero]) _
          · exact indices_perm (Nat.coprime_two_right.mpr hodd) (turn_turn hzero hle) _
      have hlist : (range n).map ((readyOf candidates)[·]?) = (readyOf candidates).map some :=
        ext_getElem (by simp [hn]) fun i _ _ => by simp
      exact hlist ▸ hperm.map ((readyOf candidates)[·]?)

/-- Two ready leases and one degraded: the same ready lease comes first every time. -/
theorem roundRobin_starves :
    (answers (fun _ group => group) (fun _ => 0) "c"
      (replicate 2 ⟨leases 2 1, .roundRobin, "c"⟩)).map head? =
      [some ⟨"", "ready"⟩, some ⟨"", "ready"⟩] := by
  decide

end AsterRpc.Registry

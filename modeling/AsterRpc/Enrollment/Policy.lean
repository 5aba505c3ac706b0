import AsterRpc.Enrollment.Records

/-!
# Admission policies

`enrollment/policy.rs`: an expression over predicates on the evidence of a peer
and on what is known of its connection.  A predicate on data that is not there is
unknown, and the combinators keep that: what is known of some predicates is enough
for an answer only if nothing that could still become known would change it.

A `Duration` is compared with whole seconds alone, and is its whole seconds here.
Of a synchronization the observed revision is left out; no predicate reads it.
-/

namespace AsterRpc.Enrollment

open AsterRpc.Foundation AsterRpc.Coordination AsterRpc.Delegation List

def maxPolicyDepth : ℕ := 32
def maxPolicyNodes : ℕ := 256

/-! ### Predicates -/

inductive IpAddr where
  | v4 (bits : BitVec 32)
  | v6 (bits : BitVec 128)

/-- `SourceCidr`, as `new` makes it. -/
structure SourceCidr where
  network : IpAddr
  prefixLen : ℕ
  bounded : prefixLen ≤ match network with
    | .v4 _ => 32
    | .v6 _ => 128

/-- `SourceCidr::contains`; a shift by the whole width leaves nothing of the mask. -/
def SourceCidr.contains (cidr : SourceCidr) (address : IpAddr) : Bool :=
  match cidr.network, address with
  | .v4 network, .v4 address =>
    let mask := BitVec.allOnes 32 <<< (32 - cidr.prefixLen)
    network &&& mask == address &&& mask
  | .v6 network, .v6 address =>
    let mask := BitVec.allOnes 128 <<< (128 - cidr.prefixLen)
    network &&& mask == address &&& mask
  | _, _ => false

inductive SourceAddressProvenance where
  | directPeer
  | relay
  | peerReported
deriving DecidableEq

inductive SynchronizationSource where
  | root
  | replica (node : Key)
deriving DecidableEq

structure PolicySynchronization where
  completedAt : ℕ
  source : SynchronizationSource

/-- `AdmissionContext`, as the predicates read it. -/
structure PolicyContext where
  observedSource : Option (IpAddr × SourceAddressProvenance)
  policySync : Option PolicySynchronization
  pendingPolicyContent : Bool

inductive MatchState where
  | matched
  | noMatch
  | unknown
deriving DecidableEq

inductive PolicyError where
  | emptyCombinator
  | depthLimit
  | nodeLimit
  | invalidPredicate

inductive PolicyPredicate where
  | sourceCidr (cidr : SourceCidr)
  | audience (value : Bytes)
  | scope (value : Bytes)
  | tag (value : Bytes)
  | attributeEquals (key : Bytes) (value : TypedAttribute)
  | tolerateStalePolicy
  | policySynchronizedWithin (maxAge : ℕ) (requireRoot : Bool)
  | requireRegistration
  | issuedBy (key : Key)
  | maxCredentialAge (maxAge : ℕ)

/-- `==` on attributes: a NaN is not even equal to itself. -/
def sameAttribute (a b : TypedAttribute) : Bool :=
  let nan : Bool := match a with
    | .float bits => !isFinite bits && bits.extractLsb' 0 52 != 0
    | _ => false
  !nan && decide (foldZero a = foldZero b)

section

variable (evidence : VerifiedAdmissionEvidence) (context : PolicyContext) (now : ℕ)

/-- `PolicyPredicate::evaluate`. -/
def PolicyPredicate.evaluate (p : PolicyPredicate) : MatchState :=
  let result : Option Bool := match p with
    | .sourceCidr cidr =>
      (context.observedSource.filter (·.2 == .directPeer)).map (cidr.contains ·.1)
    | .audience value => some (evidence.audience.contains value)
    | .scope value => evidence.claims.scopes.map fun set => decide (value ∈ set)
    | .tag value => evidence.claims.tags.map fun set => decide (value ∈ set)
    | .attributeEquals key value =>
      evidence.claims.attributes.map fun attrs => attrs[key]?.any (sameAttribute · value)
    | .tolerateStalePolicy => some true
    | .requireRegistration => match evidence.source with
      | .rootAuthoredRecord _ _ => some true
      | _ => some false
    | .issuedBy key => match evidence.source with
      | .presentedChain _ issuers _ => some (issuers.contains key)
      | _ => some false
    | .maxCredentialAge maxAge => some (decide (now - evidence.issuedAt ≤ maxAge))
    | .policySynchronizedWithin maxAge requireRoot =>
      if context.pendingPolicyContent then none
      else context.policySync.bind fun sync =>
        if now < sync.completedAt then none
        else some ((!requireRoot || sync.source == .root) &&
          decide (now - sync.completedAt ≤ maxAge))
  match result with
  | some true => .matched
  | some false => .noMatch
  | none => .unknown

/-! ### Expressions -/

inductive Combinator where
  | allOf
  | anyOf
  | noneOf

/-- `PolicyExpressionV1`; `AllOf`, `AnyOf` and `NoneOf` are one constructor with a combinator. -/
inductive PolicyExpressionV1 where
  | predicate (p : PolicyPredicate)
  | combined (op : Combinator) (children : List PolicyExpressionV1)

/-- What a combinator makes of the answers of its children, of which it only asks whether there is
one of each kind. -/
def Combinator.combine (op : Combinator) (answers : List MatchState) : MatchState :=
  match op, answers.contains .matched, answers.contains .unknown, answers.contains .noMatch with
  | .anyOf, true, _, _ => .matched
  | .noneOf, true, _, _ => .noMatch
  | _, _, true, _ => .unknown
  | .allOf, _, _, true => .noMatch
  | .allOf, _, _, _ | .noneOf, _, _, _ => .matched
  | _, _, _, _ => .noMatch

/-- The `matches!` of `validate`. -/
def PolicyPredicate.nonFinite : PolicyPredicate → Bool
  | .attributeEquals _ (.float bits) => !isFinite bits
  | _ => false

namespace PolicyExpressionV1

section

variable {α : Type} (leaf : PolicyPredicate → α) (node : Combinator → List α → α)

mutual

/-- A recursion over the tree. -/
def fold : PolicyExpressionV1 → α
  | predicate p => leaf p
  | combined op children => node op (foldAll children)

def foldAll : List PolicyExpressionV1 → List α
  | [] => []
  | child :: rest => fold child :: foldAll rest

end

theorem fold_combined (op : Combinator) (children : List PolicyExpressionV1) :
    fold leaf node (combined op children) = node op (children.map (fold leaf node)) := by
  rw [fold]
  congr 1
  induction children with
  | nil => rfl
  | cons child rest ih => rw [foldAll, ih, map_cons]

end

/-- Induction on the tree, with the hypothesis for every child. -/
theorem induct {motive : PolicyExpressionV1 → Prop} (leaf : ∀ p, motive (predicate p))
    (node : ∀ op children, (∀ child ∈ children, motive child) → motive (combined op children)) :
    ∀ e, motive e
  | predicate p => leaf p
  | combined op children => node op children fun child _ => induct leaf node child

/-- `evaluate_validated`. -/
def evaluateValidated : PolicyExpressionV1 → MatchState :=
  fold (·.evaluate evidence context now) Combinator.combine

/-- The loop of `validate`, with the nodes that may still be visited; what was pushed last is at the
head. -/
def validateLoop : ℕ → List (PolicyExpressionV1 × ℕ) → Except PolicyError Unit
  | _, [] => .ok ()
  | 0, _ :: _ => .error .nodeLimit
  | left + 1, (node, depth) :: pending => do
    refuseIf (depth > maxPolicyDepth) .depthLimit
    match node with
    | predicate p =>
      refuseIf p.nonFinite .invalidPredicate
      validateLoop left pending
    | combined _ children =>
      refuseIf children.isEmpty .emptyCombinator
      refuseIf (children.length > left || pending.length + children.length > left) .nodeLimit
      validateLoop left (children.reverse.map (·, depth + 1) ++ pending)

def validate (e : PolicyExpressionV1) : Except PolicyError Unit :=
  validateLoop maxPolicyNodes [(e, 1)]

/-- `evaluate`. -/
def evaluate (e : PolicyExpressionV1) : Except PolicyError MatchState := do
  e.validate
  return e.evaluateValidated evidence context now

/-! ### What `validate` accepts -/

def nodes : PolicyExpressionV1 → ℕ := fold (fun _ => 1) fun _ counts => 1 + counts.sum

def depth : PolicyExpressionV1 → ℕ :=
  fold (fun _ => 1) fun _ depths => 1 + Multiset.sup (depths : Multiset ℕ)

def noEmptyCombinator : PolicyExpressionV1 → Bool :=
  fold (fun _ => true) fun _ fine => !fine.isEmpty && fine.all id

def finiteLiterals : PolicyExpressionV1 → Bool := fold (!·.nonFinite) fun _ fine => fine.all id

theorem nodes_combined (op : Combinator) (children : List PolicyExpressionV1) :
    (combined op children).nodes = 1 + (children.map nodes).sum :=
  fold_combined _ _ op children

theorem nodes_pos (e : PolicyExpressionV1) : 1 ≤ e.nodes := by
  cases e with
  | predicate => exact le_rfl
  | combined => rw [nodes_combined]; omega

theorem length_le_nodes {α : Type} (f : α → PolicyExpressionV1) (xs : List α) :
    xs.length ≤ (xs.map fun x => (f x).nodes).sum := by
  have h := length_le_sum_of_one_le (xs.map fun x => (f x).nodes) (by simp [nodes_pos])
  rwa [length_map] at h

/-- What is accepted of a node that stands at depth `d`, its size apart. -/
def Sound (e : PolicyExpressionV1) (d : ℕ) : Prop :=
  e.depth + d ≤ maxPolicyDepth + 1 ∧ e.noEmptyCombinator ∧ e.finiteLiterals

theorem sound_predicate (p : PolicyPredicate) (d : ℕ) :
    Sound (predicate p) d ↔ d ≤ maxPolicyDepth ∧ p.nonFinite = false := by
  simp [Sound, depth, noEmptyCombinator, finiteLiterals, fold, Nat.add_comm 1]

theorem sound_combined (op : Combinator) (children : List PolicyExpressionV1) (d : ℕ) :
    Sound (combined op children) d ↔
      d ≤ maxPolicyDepth ∧ children ≠ [] ∧ ∀ child ∈ children, Sound child (d + 1) := by
  have hdepth : (combined op children).depth = 1 + (children.map depth : Multiset ℕ).sup :=
    fold_combined _ _ op children
  have hempty : (combined op children).noEmptyCombinator ↔
      children ≠ [] ∧ ∀ child ∈ children, child.noEmptyCombinator := by
    rw [noEmptyCombinator, fold_combined]
    simp
  have hfinite : (combined op children).finiteLiterals ↔
      ∀ child ∈ children, child.finiteLiterals := by
    rw [finiteLiterals, fold_combined]
    simp
  simp only [Sound, hempty, hfinite, forall_and]
  have hsup (k : ℕ) : (children.map depth : Multiset ℕ).sup ≤ k ↔
      ∀ child ∈ children, child.depth ≤ k := by
    rw [Multiset.sup_le]
    simp
  have := hsup (maxPolicyDepth - d)
  grind

/-- **The bounded traversal refuses exactly what is too large, too deep or malformed.** -/
theorem validateLoop_eq_ok (left : ℕ) (pending : List (PolicyExpressionV1 × ℕ)) :
    validateLoop left pending = .ok () ↔
      (pending.map (nodes ·.1)).sum ≤ left ∧ ∀ x ∈ pending, Sound x.1 x.2 := by
  induction left generalizing pending with
  | zero =>
    cases pending with
    | nil => simp [validateLoop]
    | cons x =>
      have := nodes_pos x.1
      simp [validateLoop]
      omega
  | succ left ih =>
    match pending with
    | [] => simp [validateLoop]
    | (predicate p, d) :: rest =>
      have hnode : (predicate p).nodes = 1 := rfl
      simp only [validateLoop, accepts_iff, ih, sound_predicate, map_cons, sum_cons,
        forall_mem_cons, hnode]
      grind
    | (combined op children, d) :: rest =>
      have hchildren := length_le_nodes (fun child => child) children
      have hrest := length_le_nodes Prod.fst rest
      simp [validateLoop, ih, sound_combined, nodes_combined, Function.comp_def]
      grind

theorem validate_eq_ok (e : PolicyExpressionV1) :
    e.validate = .ok () ↔ e.nodes ≤ maxPolicyNodes ∧ e.depth ≤ maxPolicyDepth ∧
      e.noEmptyCombinator ∧ e.finiteLiterals := by
  simp [validate, validateLoop_eq_ok, Sound]

/-! ### What is unknown -/

/-- One level above a place in a tree: the combinator, and the other children. -/
structure Frame where
  op : Combinator
  before : List PolicyExpressionV1
  after : List PolicyExpressionV1

/-- The tree with `e` at the place. -/
def plug (frames : List Frame) (e : PolicyExpressionV1) : PolicyExpressionV1 :=
  frames.foldr (fun f inner => .combined f.op (f.before ++ inner :: f.after)) e

/-- The answer of the tree if that at the place is `v`. -/
def answerWith (frames : List Frame) (v : MatchState) : MatchState :=
  let answers := map (evaluateValidated evidence context now)
  frames.foldr (fun f inner => f.op.combine (answers f.before ++ inner :: answers f.after)) v

theorem evaluateValidated_plug (frames : List Frame) (e : PolicyExpressionV1) :
    (plug frames e).evaluateValidated evidence context now =
      answerWith evidence context now frames (e.evaluateValidated evidence context now) := by
  induction frames with
  | nil => rfl
  | cons f rest ih =>
    rw [answerWith, foldr_cons, ← answerWith, ← ih, ← map_cons, ← map_append]
    exact fold_combined _ _ f.op _

end PolicyExpressionV1

end

/-- All that becomes known is what was unknown. -/
def Refines (v v' : MatchState) : Prop := v = .unknown ∨ v' = v

/-- **A combinator that has an answer keeps it.** -/
theorem combine_refines (op : Combinator) {vs vs' : List MatchState} (h : Forall₂ Refines vs vs') :
    Refines (op.combine vs) (op.combine vs') := by
  have hkept : (.unknown ∈ vs ∨ vs' = vs) ∧ (.matched ∈ vs → .matched ∈ vs') := by
    induction h with
    | nil => simp
    | cons h => rcases h with rfl | rfl <;> grind
  obtain ⟨hunknown | rfl, hmatched⟩ := hkept
  · -- An unknown child leaves only the answers that one match decides.
    by_cases hm : .matched ∈ vs
    · cases op <;> simp [Refines, Combinator.combine, hunknown, hm, hmatched hm]
    · left
      cases op <;> simp [Combinator.combine, hunknown, hm]
  · exact .inr rfl

namespace PolicyExpressionV1

variable {evidence evidence' : VerifiedAdmissionEvidence} {context context' : PolicyContext}
  {now now' : ℕ}

theorem evaluateValidated_refines {e : PolicyExpressionV1}
    (h : ∀ frames p, e = plug frames (predicate p) →
      Refines (p.evaluate evidence context now) (p.evaluate evidence' context' now')) :
    Refines (e.evaluateValidated evidence context now)
      (e.evaluateValidated evidence' context' now') := by
  induction e using induct with
  | leaf p => exact h [] p rfl
  | node op children ih =>
    rw [evaluateValidated, evaluateValidated, fold_combined, fold_combined]
    refine combine_refines op (forall₂_map_left_iff.2 (forall₂_map_right_iff.2 (forall₂_same.2 ?_)))
    intro child hchild
    refine ih child hchild fun frames p hp => ?_
    obtain ⟨before, after, rfl⟩ := append_of_mem hchild
    exact h (⟨op, before, after⟩ :: frames) p (by rw [hp]; rfl)

theorem answerWith_refines (frames : List Frame) {v v' : MatchState} (h : Refines v v') :
    Refines (answerWith evidence context now frames v)
      (answerWith evidence context now frames v') := by
  induction frames with
  | nil => exact h
  | cons f rest ih =>
    refine combine_refines f.op (rel_append (forall₂_same.2 ?_) (.cons ih (forall₂_same.2 ?_))) <;>
      exact fun _ _ => .inr rfl

/-- **What is not known never decides.** An answer of an accepted expression stays when only unknown
predicates become known, and it stays whatever stands for the unknown answer of a part of it; and
the expressions accepted are those within the two limits that are well formed. -/
theorem missing_data_never_decides (e : PolicyExpressionV1) :
    (∀ evidence context now v, e.evaluate evidence context now = .ok v → v ≠ .unknown →
      (∀ evidence' context' now', (∀ frames p, e = plug frames (predicate p) →
          Refines (p.evaluate evidence context now) (p.evaluate evidence' context' now')) →
        e.evaluate evidence' context' now' = .ok v) ∧
      ∀ frames part, e = plug frames part →
        answerWith evidence context now frames (part.evaluateValidated evidence context now) = v ∧
        (part.evaluateValidated evidence context now = .unknown →
          ∀ known, answerWith evidence context now frames known = v)) ∧
    (e.validate = .ok () ↔ e.nodes ≤ 256 ∧ e.depth ≤ 32 ∧ e.noEmptyCombinator ∧
      e.finiteLiterals) := by
  refine ⟨fun evidence context now v h hv => ?_, validate_eq_ok e⟩
  simp only [evaluate, accepts_iff] at h ⊢
  obtain ⟨hvalid, rfl⟩ := h
  refine ⟨fun evidence' context' now' hknown => ⟨hvalid, ?_⟩, ?_⟩
  · exact (evaluateValidated_refines hknown).resolve_left hv
  · rintro frames part rfl
    rw [evaluateValidated_plug] at hv ⊢
    refine ⟨rfl, fun hpart known => ?_⟩
    exact (answerWith_refines frames (.inl hpart)).resolve_left hv

end PolicyExpressionV1

end AsterRpc.Enrollment

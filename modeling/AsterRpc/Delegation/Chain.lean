import AsterRpc.Delegation.Links

/-!
# Delegation chains

`delegation/mod.rs` and `delegation/verify.rs`: a chain is a list of links, leaf
first, each issued by the subject of the next and the last by a trusted anchor.
`verifyChain` runs the gates G0 to G7 in their order.

Attenuation is checked between a link and the one right above it only.  What a
parent allows its child is `Attenuates`; what an ancestor allows the leaf, with
any number of links between, is `Bounds`.  A direct parent bounds its child, and
the parent of a delegation that bounds the leaf bounds the leaf: this carries
every bound, lifetime and registration included, to the top of the chain.
-/

namespace AsterRpc.Delegation

open AsterRpc.Foundation AsterRpc.Coordination Std List

variable {D leaf link C : DecodedLink} {grant : DelegationGrant} {between : ℕ}
  {above below higher : List DecodedLink}

/-! ### Framing -/

def chainPrefix : Bytes := ascii "aster-chain-v1"
def maxChainBytes : ℕ := 24 * 1024
def maxLinks : ℕ := 8
def maxLinkLifetime : ℕ := 30 * 24 * 60 * 60
def maxLeewaySeconds : ℕ := 300
def digestContext : Bytes := ascii "aster.chain.v1\x00"

/-- `~`, the separator of a chain. -/
def tilde : UInt8 := 126

/-- `str::strip_prefix`. -/
def stripPrefix (pre text : Bytes) : Option Bytes :=
  if pre.isPrefixOf text then some (text.drop pre.length) else none

/-- G0, `split`: bounds and framing only. -/
def split (chain : Bytes) (max : ℕ) : Except ChainError (List Bytes) := do
  refuseIf (decide (chain.length > maxChainBytes)) .size
  refuseIf (!isUtf8 chain) .malformed
  let rest ← requireSome ((stripPrefix chainPrefix chain).bind (stripPrefix [tilde])) .malformed
  let links := rest.splitOn tilde
  refuseIf (decide (links.length > max) || links.any fun l =>
    decide (l.length > maxLinkBytes)) .size
  refuseIf (links.any isEmpty) .malformed
  return links

/-! ### What a verifier trusts -/

/-- `LeafKind`. -/
inductive LeafKind where
  | enrollment
  | action
  | locality

def LeafKind.linkKind : LeafKind → LinkKind
  | .enrollment => .enrollment
  | .action => .action
  | .locality => .locality

structure TrustContext where
  anchors : List Key
  audience : Bytes
  now : ℕ
  leeway : ℕ
  revoked : Key → Bool
  maxLinks : ℕ
  maxLinkLifetime : ℕ
  supportedRestrictions : List Bytes

/-- `u64::saturating_add`. -/
def saturatingAdd (a b : ℕ) : ℕ := min (a + b) (2 ^ 64 - 1)

/-- The latest start a link may carry. -/
def TrustContext.latestStart (trust : TrustContext) : ℕ := saturatingAdd trust.now trust.leeway

/-- `Mode`: verification, or the self-check at issuance. -/
inductive Mode where
  | verify
  | issue
deriving DecidableEq

/-! ### Gates -/

/-- G5, `attenuate`: what one delegation allows its direct child. -/
def attenuate (parent child : DecodedLink) : Except ChainError Unit :=
  match parent.delegation with
  | none => .error .grammar
  | some bounds =>
    refuseIf (!decide (child.kind.authorizedBy ∈ bounds.mayIssue ∧
      (∀ value ∈ child.aud.values, value ∈ bounds.audiences) ∧
      (bounds.subjects.all fun subjects => decide (hexEncode child.sub.bytes ∈ subjects)) ∧
      child.exp - child.iat ≤ bounds.maxChildLifetime ∧
      child.exp ≤ parent.exp ∧
      parent.iat ≤ child.iat ∧
      child.iat < parent.exp ∧
      child.claimed.scopes ⊆ bounds.scopes ∧
      child.claimed.tags ⊆ bounds.tags ∧
      child.claimed.attributeKeys ⊆ bounds.attributeKeys ∧
      child.claimed.operations ⊆ bounds.operations ∧
      (child.registers = true → bounds.mayRegister = true) ∧
      -- a sub-delegate may never grant more than it was granted
      (child.delegation.all fun grant => decide (0 < bounds.maxDepth ∧
        grant.maxDepth < bounds.maxDepth ∧ grant.mayIssue ⊆ bounds.mayIssue ∧
        grant.audiences ⊆ bounds.audiences)))) .attenuation

/-- G3 for one link: its own lifetime, then the clock. -/
def checkTime (trust : TrustContext) (mode : Mode) (index : ℕ) (link : DecodedLink) :
    Except ChainError Unit := do
  refuseIf (decide (link.exp ≤ link.iat) ||
    decide (link.exp - link.iat > trust.maxLinkLifetime)) .lifetime
  let futureLeaf := mode == .issue && index == 0
  refuseIf (decide (link.iat > trust.latestStart) ||
    (!futureLeaf && link.nbf.any fun nbf => decide (nbf > trust.latestStart))) .notYetValid
  refuseIf (decide (trust.now ≥ link.exp)) .expired

/-- `slice::windows(2)`. -/
def windows {α : Type} (xs : List α) : List (α × α) := xs.zip xs.tail

section Verification

variable (lib : Libraries)

/-- G1 for one link. -/
def decodeText (text : Bytes) : Except ChainError (Compact × DecodedLink) := do
  let compact ← (decode lib text).mapError ChainError.ofJws
  let link ← decodeLink lib compact.typ compact.payload
  return (compact, link)

/-- Every restriction of every link. -/
def mandatoryOf (links : List DecodedLink) : Finset Bytes :=
  links.foldr (fun link acc => link.mandatory ∪ acc) ∅

/-- G2 to G6 over the decoded links, `leaf` below `above`. -/
def checkLinks (leaf : DecodedLink) (above : List DecodedLink) (expect : LinkKind) (leafKey : Key)
    (trust : TrustContext) (mode : Mode) : Except ChainError (Finset Bytes) := do
  let links := leaf :: above
  refuseIf (leaf.kind != expect || above.any fun link => link.kind != .delegation) .grammar
  checkAll (fun e => checkTime trust mode e.2 e.1) links.zipIdx
  refuseIf (leaf.sub != leafKey || leaf.cnf != some leafKey) .leafMismatch
  refuseIf ((above.any fun link => link.cnf != some link.sub) ||
    (windows links).any fun pair => pair.1.iss != pair.2.sub) .bridge
  refuseIf (!decide ((above.getLast?.getD leaf).iss ∈ trust.anchors)) .untrustedAnchor
  -- every issuer and the leaf subject are distinct, an anchor's own one-link credential apart
  let selfIssuedAnchor := above.isEmpty && leaf.iss == leaf.sub
  refuseIf (!selfIssuedAnchor && !decide (leaf.sub :: links.map DecodedLink.iss).Nodup) .bridge
  refuseIf (!links.all fun link => link.aud.contains trust.audience) .audience
  checkAll (fun pair => attenuate pair.2 pair.1) (windows links)
  let mandatory := mandatoryOf links
  refuseIf (mode == .verify &&
    !decide (∀ restriction ∈ mandatory, restriction ∈ trust.supportedRestrictions))
    .unsupportedRestriction
  refuseIf (above.any fun link => trust.revoked link.iss || trust.revoked link.sub) .revoked
  return mandatory

/-- `gates`: G1 to G7 over framed links. -/
def gates (texts : List Bytes) (expect : LinkKind) (leafKey : Key) (trust : TrustContext)
    (mode : Mode) : Except ChainError (List DecodedLink × Finset Bytes) := do
  let decoded ← texts.mapM (decodeText lib)
  match decoded.map Prod.snd with
  -- a framed chain has at least one link
  | [] => .error .malformed
  | leaf :: above =>
    let mandatory ← checkLinks leaf above expect leafKey trust mode
    checkAll (fun e => (e.1.verify lib e.2.iss).mapError fun _ => ChainError.signature) decoded
    return (leaf :: above, mandatory)

/-- The leaf's kind-specific claims. -/
inductive LeafClaims where
  | enrollment (ext : EnrollmentExtension)
  | action (grant : ActionGrant)
  | locality (claims : LocalityClaims)

def LinkBody.leafClaims : LinkBody → Option LeafClaims
  | .enrollment ext => some (.enrollment ext)
  | .action grant => some (.action grant)
  | .locality claims => some (.locality claims)
  | .delegation _ => none

/-- A chain that passed every gate. -/
structure VerifiedChain where
  anchor : Key
  issuers : List Key
  subject : Key
  audience : Audience
  leaf : LeafClaims
  mandatory : Finset Bytes
  issuedAt : ℕ
  notBefore : Option ℕ
  notAfter : ℕ
  jtis : List Bytes
  digest : Hash

/-- `verify_chain`. -/
def verifyChain (chain : Bytes) (expect : LeafKind) (leafKey : Key) (trust : TrustContext) :
    Except ChainError VerifiedChain := do
  refuseIf (trust.anchors.isEmpty || decide (trust.leeway > maxLeewaySeconds) ||
    !decide (1 ≤ trust.maxLinks ∧ trust.maxLinks ≤ maxLinks) ||
    !decide (1 ≤ trust.maxLinkLifetime ∧ trust.maxLinkLifetime ≤ maxLinkLifetime)) .configuration
  let texts ← split chain trust.maxLinks
  let (links, mandatory) ← gates lib texts expect.linkKind leafKey trust .verify
  match links with
  | [] => .error .malformed
  | leaf :: above =>
    let claims ← requireSome leaf.body.leafClaims .grammar
    return {
      anchor := (above.getLast?.getD leaf).iss
      issuers := (leaf :: above).map DecodedLink.iss
      subject := leaf.sub
      audience := leaf.aud
      leaf := claims
      mandatory
      issuedAt := leaf.iat
      notBefore := ((leaf :: above).filterMap DecodedLink.nbf).max?
      notAfter := (((leaf :: above).map DecodedLink.exp).min?).getD leaf.exp
      jtis := (leaf :: above).map DecodedLink.jti
      digest := lib.blake3 (digestContext ++ chain) }

/-- The links of a chain text, decoded and not yet trusted. -/
def chainLinks (chain : Bytes) (max : ℕ) : Except ChainError (List DecodedLink) := do
  let texts ← split chain max
  let decoded ← texts.mapM (decodeText lib)
  return decoded.map Prod.snd

end Verification

/-! ### One parent and its child -/

/-- What the delegation `grant` of the link `parent` holds of its direct child. -/
structure Attenuates (parent : DecodedLink) (grant : DelegationGrant) (child : DecodedLink) :
    Prop where
  grants : parent.delegation = some grant
  issues : child.kind.authorizedBy ∈ grant.mayIssue
  audiences : ∀ value ∈ child.aud.values, value ∈ grant.audiences
  lifetime : child.exp - child.iat ≤ grant.maxChildLifetime
  expires : child.exp ≤ parent.exp
  starts : parent.iat ≤ child.iat
  scopes : child.claimed.scopes ⊆ grant.scopes
  tags : child.claimed.tags ⊆ grant.tags
  attributeKeys : child.claimed.attributeKeys ⊆ grant.attributeKeys
  operations : child.claimed.operations ⊆ grant.operations
  registers : child.registers = true → grant.mayRegister = true
  delegates : ∀ sub, child.delegation = some sub →
    sub.maxDepth < grant.maxDepth ∧ sub.mayIssue ⊆ grant.mayIssue ∧ sub.audiences ⊆ grant.audiences

theorem attenuate_accepts {parent child : DecodedLink} (h : attenuate parent child = .ok ()) :
    ∃ grant, Attenuates parent grant child := by
  unfold attenuate at h
  cases hgrant : parent.delegation with
  | none => rw [hgrant] at h; cases h
  | some grant =>
    rw [hgrant] at h
    simp only [refuseIf_eq_ok, Bool.not_eq_false', decide_eq_true_eq] at h
    obtain ⟨hissue, haud, -, hlife, hexp, hiat, -, hscopes, htags, hkeys, hops, hreg, hsub⟩ := h
    refine ⟨grant, hgrant, hissue, haud, hlife, hexp, hiat, hscopes, htags, hkeys, hops, hreg, ?_⟩
    intro sub hchild
    rw [hchild] at hsub
    simp only [Option.all_some, decide_eq_true_eq] at hsub
    exact hsub.2

/-! ### An ancestor and the leaf -/

/-- What the delegation `grant` of the link `D` holds of the leaf with `between` delegations on the
way. -/
structure Bounds (D : DecodedLink) (grant : DelegationGrant) (between : ℕ) (leaf : DecodedLink) :
    Prop where
  grants : D.delegation = some grant
  scopes : leaf.claimed.scopes ⊆ grant.scopes
  tags : leaf.claimed.tags ⊆ grant.tags
  attributeKeys : leaf.claimed.attributeKeys ⊆ grant.attributeKeys
  operations : leaf.claimed.operations ⊆ grant.operations
  audiences : ∀ value ∈ leaf.aud.values, value ∈ grant.audiences
  issues : leaf.kind.authorizedBy ∈ grant.mayIssue
  delegates : 0 < between → LinkKind.delegation ∈ grant.mayIssue
  depth : between ≤ grant.maxDepth
  expires : leaf.exp ≤ D.exp
  starts : D.iat ≤ leaf.iat
  lifetime : leaf.exp - leaf.iat ≤ grant.maxChildLifetime
  registers : leaf.registers = true → grant.mayRegister = true

/-- The link that signed the leaf bounds it. -/
theorem Attenuates.bounds (h : Attenuates D grant leaf) : Bounds D grant 0 leaf where
  grants := h.grants
  scopes := h.scopes
  tags := h.tags
  attributeKeys := h.attributeKeys
  operations := h.operations
  audiences := h.audiences
  issues := h.issues
  delegates := fun hpos => absurd hpos (lt_irrefl 0)
  depth := Nat.zero_le _
  expires := h.expires
  starts := h.starts
  lifetime := h.lifetime
  registers := h.registers

theorem DecodedLink.body_of_delegation (h : link.delegation = some grant) :
    link.body = .delegation grant := by
  unfold DecodedLink.delegation at h
  split at h
  · cases h; assumption
  · cases h

/-- The parent of a delegation that bounds the leaf bounds the leaf. -/
theorem Bounds.up {P : DecodedLink} {outer inner : DelegationGrant}
    (h : Bounds C inner between leaf) (hkind : C.kind = .delegation) (hP : Attenuates P outer C) :
    Bounds P outer (between + 1) leaf := by
  have hbody := DecodedLink.body_of_delegation h.grants
  -- what a delegation claims for itself is what it grants
  have hclaimed : C.claimed =
    ⟨inner.scopes, inner.tags, inner.attributeKeys, inner.operations⟩ := by
    simp [DecodedLink.claimed, hbody]
  have hregisters : C.registers = inner.mayRegister := by
    simp [DecodedLink.registers, hbody]
  have hissues : LinkKind.delegation ∈ outer.mayIssue := by
    have := hP.issues
    rwa [hkind] at this
  obtain ⟨hdepth, hmay, haudiences⟩ := hP.delegates inner h.grants
  have hscopes := hP.scopes
  have htags := hP.tags
  have hkeys := hP.attributeKeys
  have hops := hP.operations
  rw [hclaimed] at hscopes htags hkeys hops
  refine
    { grants := hP.grants
      scopes := h.scopes.trans hscopes
      tags := h.tags.trans htags
      attributeKeys := h.attributeKeys.trans hkeys
      operations := h.operations.trans hops
      audiences := fun value hvalue => haudiences (h.audiences value hvalue)
      issues := hmay h.issues
      delegates := fun _ => hissues
      depth := ?_
      expires := h.expires.trans hP.expires
      starts := hP.starts.trans h.starts
      lifetime := ?_
      registers := fun hleaf => hP.registers (hregisters.trans (h.registers hleaf)) }
  · have := h.depth
    omega
  · -- the leaf lives inside `C`, and `C` lives no longer than `P` allows
    have hlife := hP.lifetime
    have hstart := h.starts
    have hend := h.expires
    omega

theorem mem_windows {α : Type} (x y : α) (xs ys : List α) :
    (x, y) ∈ windows (xs ++ x :: y :: ys) := by
  induction xs with
  | nil => exact mem_cons_self
  | cons z rest ih =>
    cases rest with
    | nil => exact mem_cons_of_mem _ ih
    | cons => exact mem_cons_of_mem _ ih

/-- Every delegation above the leaf bounds it. -/
theorem bounds_leaf (hkinds : ∀ link ∈ above, link.kind = .delegation)
    (hpairs : ∀ pair ∈ windows (leaf :: above), attenuate pair.2 pair.1 = .ok ())
    (hsplit : above = below ++ D :: higher) : ∃ grant, Bounds D grant below.length leaf := by
  induction below using reverseRecOn generalizing D higher with
  | nil =>
    obtain ⟨grant, hD⟩ :=
      attenuate_accepts (hpairs (leaf, D) (hsplit ▸ mem_windows leaf D [] higher))
    exact ⟨grant, hD.bounds⟩
  | append_singleton below C ih =>
    -- the delegation right below bounds the leaf, and is itself attenuated
    rw [append_assoc, singleton_append] at hsplit
    obtain ⟨_, hC⟩ := ih hsplit
    have hadjacent : (C, D) ∈ windows (leaf :: above) :=
      hsplit ▸ mem_windows C D (leaf :: below) higher
    obtain ⟨outer, hD⟩ := attenuate_accepts (hpairs (C, D) hadjacent)
    have hkind : C.kind = .delegation := hkinds C (by simp [hsplit])
    rw [length_append, length_singleton]
    exact ⟨outer, hC.up hkind hD⟩

/-! ### What a verified chain is -/

theorem mem_mandatoryOf {links : List DecodedLink} (h : link ∈ links) :
    link.mandatory ⊆ mandatoryOf links := by
  induction links with
  | nil => cases h
  | cons first rest ih =>
    rcases mem_cons.mp h with rfl | hrest
    · exact Finset.subset_union_left
    · exact (ih hrest).trans Finset.subset_union_right

/-- What the gates G2 to G6 establish of the links. -/
structure Gated (leaf : DecodedLink) (above : List DecodedLink) (trust : TrustContext)
    (mandatory : Finset Bytes) : Prop where
  kinds : ∀ link ∈ above, link.kind = .delegation
  pairs : ∀ pair ∈ windows (leaf :: above), attenuate pair.2 pair.1 = .ok ()
  mandatory : mandatory = mandatoryOf (leaf :: above)
  unrevoked : ∀ link ∈ above, trust.revoked link.iss = false ∧ trust.revoked link.sub = false

theorem checkLinks_accepts {expect : LinkKind} {leafKey : Key} {trust : TrustContext}
    {mode : Mode} {mandatory : Finset Bytes}
    (h : checkLinks leaf above expect leafKey trust mode = .ok mandatory) :
    leaf.kind = expect ∧ Gated leaf above trust mandatory := by
  simp only [checkLinks, accepts_iff, checkAll_eq_ok, Bool.or_eq_false_iff, any_eq_false,
    bne_iff_ne, ne_eq, Decidable.not_not, Bool.or_eq_true, not_or, Bool.not_eq_true] at h
  obtain ⟨⟨hleaf, hkinds⟩, -, -, -, -, -, -, hpairs, -, hrevoked, rfl⟩ := h
  exact ⟨hleaf, hkinds, hpairs, rfl, hrevoked⟩

section Verified

variable {lib : Libraries} {chain : Bytes} {expect : LeafKind} {leafKey : Key}
  {trust : TrustContext} {verified : VerifiedChain}

theorem verifyChain_accepts (h : verifyChain lib chain expect leafKey trust = .ok verified) :
    ∃ leaf above, chainLinks lib chain trust.maxLinks = .ok (leaf :: above) ∧
      leaf.kind = expect.linkKind ∧ leaf.body.leafClaims = some verified.leaf ∧
      verified.audience = leaf.aud ∧ verified.issuedAt = leaf.iat ∧
      Gated leaf above trust verified.mandatory := by
  simp only [verifyChain, gates, accepts_iff] at h
  obtain ⟨-, texts, htexts, _, _, ⟨decoded, hdecoded, hgates⟩, h⟩ := h
  cases hlinks : decoded.map Prod.snd with
  | nil => rw [hlinks] at hgates; cases hgates
  | cons leaf above =>
    rw [hlinks] at hgates
    simp only [accepts_iff] at hgates
    obtain ⟨_, hcheck, -, hres⟩ := hgates
    cases hres
    simp only [accepts_iff] at h
    obtain ⟨_, hclaim, hver⟩ := h
    cases hver
    obtain ⟨hkind, hgated⟩ := checkLinks_accepts hcheck
    refine ⟨leaf, above, ?_, hkind, hclaim, rfl, rfl, hgated⟩
    simp only [chainLinks, bind_accepts]
    exact ⟨texts, htexts, decoded, hdecoded, by rw [hlinks]; rfl⟩

/-- **A delegated credential stays within every ancestor.**  Each delegation of a chain that
verifies bounds what the leaf claims, its audiences, its kind, its expiry and its lifetime; allows
the delegations below it, and no more of them than its depth; allows persistent registration if the
leaf asks for it; and its restrictions are among those returned.  No delegate is revoked. -/
theorem verifyChain_within_ancestors
    (h : verifyChain lib chain expect leafKey trust = .ok verified) :
    ∃ leaf above, chainLinks lib chain trust.maxLinks = .ok (leaf :: above) ∧
      leaf.body.leafClaims = some verified.leaf ∧ verified.audience = leaf.aud ∧
      (∀ link ∈ above, trust.revoked link.iss = false ∧ trust.revoked link.sub = false) ∧
      ∀ below D higher, above = below ++ D :: higher →
        ∃ grant, D.delegation = some grant ∧
          leaf.claimed.scopes ⊆ grant.scopes ∧
          leaf.claimed.tags ⊆ grant.tags ∧
          leaf.claimed.attributeKeys ⊆ grant.attributeKeys ∧
          leaf.claimed.operations ⊆ grant.operations ∧
          (∀ value ∈ leaf.aud.values, value ∈ grant.audiences) ∧
          expect.linkKind.authorizedBy ∈ grant.mayIssue ∧
          (∀ link ∈ below, link.kind = .delegation ∧ LinkKind.delegation ∈ grant.mayIssue) ∧
          below.length ≤ grant.maxDepth ∧
          leaf.exp ≤ D.exp ∧
          leaf.exp - leaf.iat ≤ grant.maxChildLifetime ∧
          (∀ ext, verified.leaf = .enrollment ext → ext.registration = .persistent →
            grant.mayRegister = true) ∧
          grant.mandatory ⊆ verified.mandatory := by
  obtain ⟨leaf, above, hlinks, hkind, hclaim, haud, -, hgated⟩ := verifyChain_accepts h
  refine ⟨leaf, above, hlinks, hclaim, haud, hgated.unrevoked, ?_⟩
  intro below D higher hsplit
  obtain ⟨grant, hbounds⟩ := bounds_leaf hgated.kinds hgated.pairs hsplit
  have hmem : D ∈ above := by
    rw [hsplit]
    exact mem_append_right below mem_cons_self
  have hissues : expect.linkKind.authorizedBy ∈ grant.mayIssue := hkind ▸ hbounds.issues
  have hbelow : ∀ link ∈ below, link.kind = .delegation ∧ LinkKind.delegation ∈ grant.mayIssue := by
    intro link hlink
    refine ⟨hgated.kinds link ?_, hbounds.delegates (length_pos_of_mem hlink)⟩
    rw [hsplit]
    exact mem_append_left _ hlink
  have hregister : ∀ ext, verified.leaf = .enrollment ext → ext.registration = .persistent →
      grant.mayRegister = true := by
    intro ext hleaf hpersistent
    apply hbounds.registers
    rw [hleaf] at hclaim
    cases hbody : leaf.body with
    | enrollment =>
      rw [hbody] at hclaim
      cases hclaim
      simp [DecodedLink.registers, hbody, hpersistent]
    | delegation | action | locality => rw [hbody] at hclaim; cases hclaim
  have hmandatory : grant.mandatory ⊆ verified.mandatory := by
    have hown : D.mandatory = grant.mandatory := by
      simp [DecodedLink.mandatory, DecodedLink.body_of_delegation hbounds.grants]
    rw [← hown, hgated.mandatory]
    exact mem_mandatoryOf (mem_cons_of_mem leaf hmem)
  exact ⟨grant, hbounds.grants, hbounds.scopes, hbounds.tags, hbounds.attributeKeys,
    hbounds.operations, hbounds.audiences, hissues, hbelow, hbounds.depth, hbounds.expires,
    hbounds.lifetime, hregister, hmandatory⟩

end Verified

namespace Sample

/-- Key 4 delegates to key 3, key 3 to key 2, and key 2 enrolls key 1. -/
def chain : Bytes :=
  chainPrefix ++ tilde :: compact enrollmentLinkType [1] 2 ++
    tilde :: compact delegationJwtType [2] 3 ++ tilde :: compact delegationJwtType [3] 4

def trust : TrustContext where
  anchors := [key 4]
  audience := ascii "aud"
  now := 105
  leeway := 60
  revoked := fun k => k == key 9
  maxLinks := 4
  maxLinkLifetime := maxLinkLifetime
  supportedRestrictions := [ascii "audit"]

end Sample

open Sample in
/-- Two delegations above an enrolled node. -/
theorem verifyChain_within_ancestors_chain :
    ∃ verified, verifyChain libraries chain .enrollment (key 1) trust = .ok verified ∧
      ∃ leaf above, chainLinks libraries chain trust.maxLinks = .ok (leaf :: above) ∧
        leaf.body.leafClaims = some verified.leaf := by
  have hok : (verifyChain libraries chain .enrollment (key 1) trust).isOk = true := by
    decide +kernel
  obtain ⟨verified, h⟩ := isOk_iff.mp hok
  obtain ⟨leaf, above, hlinks, hclaim, -⟩ := verifyChain_within_ancestors h
  exact ⟨verified, h, leaf, above, hlinks, hclaim⟩

end AsterRpc.Delegation

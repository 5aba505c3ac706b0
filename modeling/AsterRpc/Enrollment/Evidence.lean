import AsterRpc.Enrollment.Registrations

/-!
# The window of a chain

A verifier checks the start and the end of every link of a chain; what it reports
is the start of the leaf, the latest start and the earliest end.  Attenuation makes
the two the same: an ancestor is issued no later than the leaf.  Evidence that is
cached with the reported window is therefore active exactly when the chain would be
accepted anew.
-/

namespace AsterRpc.Enrollment

open AsterRpc.Foundation AsterRpc.Coordination AsterRpc.Delegation List

/-- `from_chain`. -/
def fromChain (lib : PolicyLibraries) (verified : VerifiedChain) (text : Bytes)
    (activationLeeway : ℕ) : Except EnrollmentError VerifiedAdmissionEvidence :=
  match verified.leaf with
  | .enrollment ext => do
    validateEvidenceShape lib verified.audience verified.issuedAt verified.notBefore
      (some verified.notAfter) ext.claims
    return {
      issuer := verified.anchor, subject := verified.subject, claims := ext.claims,
      audience := verified.audience, issuedAt := verified.issuedAt,
      notBefore := verified.notBefore, expiresAt := some verified.notAfter,
      credentialId := verified.jtis.head?, presentedChain := some text,
      registration := some ext.registration,
      source := .presentedChain verified.anchor verified.issuers verified.digest,
      activationLeeway }
  | _ => .error .invalidJwt

section

variable {trust : TrustContext} {link leaf : DecodedLink} {above : List DecodedLink}
  {mandatory : Finset Bytes} {expect : LinkKind} {leafKey : Key}

/-! ### The clock -/

/-- What the clock has to do with a link. -/
@[mk_iff]
structure InTime (trust : TrustContext) (link : DecodedLink) : Prop where
  issued : link.iat ≤ trust.latestStart
  started : ∀ nbf, link.nbf = some nbf → nbf ≤ trust.latestStart
  lasts : trust.now < link.exp

theorem checkTime_eq_ok {index : ℕ} :
    checkTime trust .verify index link = .ok () ↔
      (link.iat < link.exp ∧ link.exp - link.iat ≤ trust.maxLinkLifetime) ∧ InTime trust link := by
  have hmode : (Mode.verify == .issue) = false := rfl
  have hnbf : (link.nbf.any fun nbf => decide (nbf > trust.latestStart)) = false ↔
      ∀ nbf, link.nbf = some nbf → nbf ≤ trust.latestStart := by
    cases link.nbf <;> simp
  simp only [checkTime, accepts_iff, hmode, Bool.false_and, Bool.not_false, Bool.true_and,
    Bool.or_eq_false_iff, hnbf, Nat.not_le, ge_iff_le, inTime_iff, and_assoc]

/-- Where links are accepted, another time changes the answer only through the clock. -/
theorem checkLinks_at (h : checkLinks leaf above expect leafKey trust .verify = .ok mandatory)
    (t : ℕ) {found : Finset Bytes} :
    checkLinks leaf above expect leafKey { trust with now := t } .verify = .ok found ↔
      (∀ link ∈ leaf :: above, InTime { trust with now := t } link) ∧ mandatory = found := by
  have hindexed : ∀ link ∈ leaf :: above, ∃ e ∈ (leaf :: above).zipIdx, e.1 = link := by
    intro link hlink
    rw [← zipIdx_map_fst 0 (leaf :: above)] at hlink
    exact mem_map.mp hlink
  simp only [checkLinks, accepts_iff, checkAll_eq_ok, checkTime_eq_ok] at h ⊢
  obtain ⟨hgrammar, htime, hleaf, hbridge, hanchor, hdistinct, haudience, hpairs, hsupported,
    hrevoked, rfl⟩ := h
  constructor
  · rintro ⟨-, htime', -, -, -, -, -, -, -, -, hfound⟩
    refine ⟨fun link hlink => ?_, hfound⟩
    obtain ⟨e, he, rfl⟩ := hindexed link hlink
    exact (htime' e he).2
  · rintro ⟨htime', rfl⟩
    exact ⟨hgrammar, fun e he => ⟨(htime e he).1, htime' e.1 (fst_mem_of_mem_zipIdx he)⟩,
      hleaf, hbridge, hanchor, hdistinct, haudience, hpairs, hsupported, hrevoked, rfl⟩

/-! ### The reported window -/

/-- The start a verified chain reports. -/
def windowStart (verified : VerifiedChain) : ℕ :=
  verified.notBefore.elim verified.issuedAt fun nbf => max nbf verified.issuedAt

/-- **The window of a chain is that of all its links.** -/
theorem inTime_all_iff {verified : VerifiedChain} (hgated : Gated leaf above trust mandatory)
    (hissued : verified.issuedAt = leaf.iat)
    (hstart : verified.notBefore = ((leaf :: above).filterMap DecodedLink.nbf).max?)
    (hend : verified.notAfter = (((leaf :: above).map DecodedLink.exp).min?).getD leaf.exp)
    (t : ℕ) :
    (∀ link ∈ leaf :: above, InTime { trust with now := t } link) ↔
      windowStart verified ≤ saturatingAdd t trust.leeway ∧ t < verified.notAfter := by
  have hearlier : ∀ link ∈ leaf :: above, link.iat ≤ leaf.iat := by
    intro link hlink
    rcases mem_cons.mp hlink with rfl | hlink
    · exact Nat.le_refl _
    · obtain ⟨_, higher, hsplit⟩ := append_of_mem hlink
      obtain ⟨_, hbounds⟩ := bounds_leaf hgated.kinds hgated.pairs hsplit
      exact hbounds.starts
  have hstarts : windowStart verified ≤ saturatingAdd t trust.leeway ↔
      leaf.iat ≤ saturatingAdd t trust.leeway ∧
        ∀ nbf ∈ (leaf :: above).filterMap DecodedLink.nbf, nbf ≤ saturatingAdd t trust.leeway := by
    rw [windowStart, hissued, hstart]
    cases hmax : ((leaf :: above).filterMap DecodedLink.nbf).max? with
    | none =>
      rw [max?_eq_none_iff] at hmax
      simp [hmax]
    | some =>
      rw [Option.elim_some, max_le_iff, max?_le_iff hmax, and_comm]
  have hlasts : t < verified.notAfter ↔ ∀ link ∈ leaf :: above, t < link.exp := by
    cases hmin : ((leaf :: above).map DecodedLink.exp).min? with
    | none => simp at hmin
    | some =>
      rw [hend, hmin, Option.getD_some, ← Nat.succ_le_iff, le_min?_iff hmin,
        forall_mem_map]
      exact Iff.rfl
  rw [hstarts, hlasts]
  constructor
  · intro h
    refine ⟨⟨(h leaf mem_cons_self).issued, fun nbf hnbf => ?_⟩, fun link hlink =>
      (h link hlink).lasts⟩
    obtain ⟨link, hlink, hsome⟩ := mem_filterMap.mp hnbf
    exact (h link hlink).started nbf hsome
  · rintro ⟨⟨hleaf, hnbf⟩, hexp⟩ link hlink
    exact ⟨(hearlier link hlink).trans hleaf, fun nbf hsome =>
      hnbf nbf (mem_filterMap.mpr ⟨link, hlink, hsome⟩), hexp link hlink⟩

end

section

variable {lib : PolicyLibraries} {chain : Bytes} {expect : LeafKind} {leafKey : Key}
  {trust : TrustContext} {verified : VerifiedChain}

/-- A chain that was accepted is accepted at another time exactly within its window, and reported
alike. -/
theorem verifyChain_at {lib : Libraries}
    (h : verifyChain lib chain expect leafKey trust = .ok verified)
    (t : ℕ) {found : VerifiedChain} :
    verifyChain lib chain expect leafKey { trust with now := t } = .ok found ↔
      (windowStart verified ≤ saturatingAdd t trust.leeway ∧ t < verified.notAfter) ∧
        verified = found := by
  simp only [verifyChain, gates, bind_accepts, exists_unit] at h
  obtain ⟨hconf, _, htexts, ⟨_, _⟩, ⟨decoded, hdecoded, hgates⟩, h⟩ := h
  cases hlinks : decoded.map Prod.snd with
  | nil =>
    rw [hlinks] at hgates
    cases hgates
  | cons =>
    rw [hlinks] at hgates
    simp only [accepts_iff] at hgates
    obtain ⟨_, hcheck, hsigned, hres⟩ := hgates
    cases hres
    simp only [accepts_iff] at h
    obtain ⟨_, hclaim, hver⟩ := h
    cases hver
    rw [← inTime_all_iff (checkLinks_accepts hcheck).2 rfl rfl rfl]
    simp only [verifyChain, gates, hconf, htexts, hdecoded, ok_bind, hlinks, bind_accepts,
      checkLinks_at hcheck, hsigned]
    constructor
    · rintro ⟨_, ⟨_, ⟨htime, rfl⟩, hsame⟩, hfound⟩
      cases hsame
      simp only [hclaim, requireSome_some, ok_bind] at hfound
      cases hfound
      exact ⟨htime, rfl⟩
    · rintro ⟨htime, rfl⟩
      refine ⟨_, ⟨_, ⟨htime, rfl⟩, rfl⟩, ?_⟩
      simp only [hclaim, requireSome_some, ok_bind]
      rfl

/-- **A verified chain's window is exact.**  A chain that is accepted at some time is accepted at
any other exactly when the latest of its start times is reached, up to the leeway, and its earliest
end is not.  And evidence made of it is active at a time exactly when the chain would be accepted
then. -/
theorem chain_window_exact
    (h : verifyChain lib.toLibraries chain expect leafKey trust = .ok verified) (t : ℕ) :
    ((∃ found, verifyChain lib.toLibraries chain expect leafKey { trust with now := t } =
        .ok found) ↔
      windowStart verified ≤ saturatingAdd t trust.leeway ∧ t < verified.notAfter) ∧
    ∀ text evidence, fromChain lib verified text trust.leeway = .ok evidence →
      (evidence.activationAt t = .active ↔
        ∃ found, verifyChain lib.toLibraries chain expect leafKey { trust with now := t } =
          .ok found) := by
  have hwindow : (∃ found, verifyChain lib.toLibraries chain expect leafKey
      { trust with now := t } = .ok found) ↔
      windowStart verified ≤ saturatingAdd t trust.leeway ∧ t < verified.notAfter := by
    simp only [verifyChain_at h, exists_and_left, exists_eq', and_true]
  refine ⟨hwindow, fun text evidence hevidence => ?_⟩
  rw [hwindow]
  unfold fromChain at hevidence
  split at hevidence
  · simp only [accepts_iff] at hevidence
    cases hevidence.2
    simp only [VerifiedAdmissionEvidence.activationAt, activation, Option.any_some,
      decide_eq_true_eq, windowStart]
    split_ifs <;> simp <;> omega
  · cases hevidence

end

open Sample

open Delegation.Sample in
/-- Three links that are accepted in time. -/
theorem chain_window_exact_chain :
    ∃ verified, verifyChain libraries.toLibraries chain .enrollment (key 1) trust = .ok verified ∧
      ((∃ found, verifyChain libraries.toLibraries chain .enrollment (key 1)
          { trust with now := 1 } = .ok found) ↔
        windowStart verified ≤ saturatingAdd 1 trust.leeway ∧ 1 < verified.notAfter) := by
  have hok : (verifyChain libraries.toLibraries chain .enrollment (key 1) trust).isOk =
      true := by decide +kernel
  obtain ⟨verified, h⟩ := isOk_iff.mp hok
  exact ⟨verified, h, (chain_window_exact h 1).1⟩

end AsterRpc.Enrollment

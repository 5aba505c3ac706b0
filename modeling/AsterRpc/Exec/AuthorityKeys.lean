import AsterRpc.Delegation.Wire

/-!
# Authority keys

The Exec service keeps the standing of an authority under a text: the caller's
identity alone, or the actor, a slash and the principal.  An actor is a node, 64
hexadecimal digits, and a user principal is text of any kind, with slashes in it.
The service reads each authority it can build back from its key, so no two have
one key; and where it cuts a text at byte 64 a slash stands there, so that the cut
is between two characters.
-/

namespace AsterRpc.Exec

open AsterRpc.Foundation List
open AsterRpc.Coordination (Bytes)

/-- `(&text[..at], &text[at..])`, which panics inside of a character and past the end. -/
def cut : List Char → ℕ → Option (List Char × List Char)
  | text, 0 => some ([], text)
  | [], _ => none
  | c :: rest, n =>
    if (String.utf8EncodeChar c).length ≤ n then
      (cut rest (n - (String.utf8EncodeChar c).length)).map fun p => (c :: p.1, p.2)
    else none

/-- `parse_node_id`. -/
def parseNodeId (text : List Char) : Option Bytes :=
  if (asBytes text).length != 64 || (asBytes text).any fun b => 65 ≤ b && b ≤ 90 then none
  else hexDecode (asBytes text)

/-- `text.len() > len && text.as_bytes()[64] == b'/' && parse_node_id(&text[..64]).is_some()`. -/
def nodeThenSlash (len : ℕ) (text : List Char) : Option Bool :=
  if len < (asBytes text).length && (asBytes text)[64]? == some 47 then
    (cut text 64).map fun p => (parseNodeId p.1).isSome
  else some false

def maxUserPrincipalBytes : ℕ := 512

/-- `is_user_principal`. -/
def isUserPrincipal (text : List Char) : Option Bool :=
  match text.dropWhile (· != '|') with
  | [] => some false
  | _ :: subject => (nodeThenSlash 64 text).map fun ambiguous =>
    !(text.takeWhile (· != '|')).isEmpty && !subject.isEmpty &&
      decide ((asBytes text).length ≤ maxUserPrincipalBytes) && !text.any isControl && !ambiguous

structure Authority where
  actor : List Char
  principal : List Char

namespace Authority

def own (caller : List Char) : Authority := ⟨caller, caller⟩

def key (a : Authority) : List Char :=
  if a.actor = a.principal then a.actor else a.actor ++ '/' :: a.principal

def parse (key : List Char) : Option Authority := do
  if ← nodeThenSlash 65 key then
    some ⟨(← cut key 64).1, (← cut key 65).2⟩
  else some (own key)

/-- The authorities the service can build. -/
inductive Built : Authority → Prop where
  | node (id : List Char) (hid : (parseNodeId id).isSome) : Built (own id)
  | owner (user : List Char) (huser : isUserPrincipal user = some true) : Built (own user)
  | acting (actor principal : List Char) (hactor : (parseNodeId actor).isSome)
      (hprincipal : (parseNodeId principal).isSome ∨ isUserPrincipal principal = some true)
      (hother : actor ≠ principal) : Built ⟨actor, principal⟩

end Authority

/-! ### Cuts -/

section

variable {text a b : List Char} {n : ℕ}

theorem asBytes_cons (c : Char) (rest : List Char) :
    asBytes (c :: rest) = String.utf8EncodeChar c ++ asBytes rest := flatMap_cons

theorem cut_append (a b : List Char) : cut (a ++ b) (asBytes a).length = some (a, b) := by
  induction a with
  | nil => cases b <;> rfl
  | cons c rest ih =>
    have hlen : 0 < (String.utf8EncodeChar c).length := by
      rw [String.length_utf8EncodeChar]
      exact c.utf8Size_pos
    rw [asBytes_cons, length_append, cons_append, cut, if_pos (Nat.le_add_right _ _),
      Nat.add_sub_cancel_left, ih]
    · rfl
    · omega

/-- A byte that is a slash is a character of its own. -/
theorem slash_of_byte {c : Char} (h : 47 ∈ String.utf8EncodeChar c) : c = '/' := by
  have hbyte : ∀ k, (47 : UInt8) = UInt8.ofNat k ↔ k % 256 = 47 := by
    intro k
    rw [← UInt8.toNat_inj, UInt8.toNat_ofNat', eq_comm]
    rfl
  unfold String.utf8EncodeChar at h
  dsimp only at h
  split_ifs at h <;> simp only [mem_cons, not_mem_nil, or_false, hbyte] at h
  · refine Char.ext (UInt32.toNat_inj.mp ?_)
    show c.val.toNat = 47
    omega
  all_goals omega

/-- Where a slash stands, the text can be cut. -/
theorem exists_slash (h : (asBytes text)[n]? = some 47) :
    ∃ a b, text = a ++ '/' :: b ∧ (asBytes a).length = n := by
  induction text generalizing n with
  | nil => cases h
  | cons c rest ih =>
    rw [asBytes_cons] at h
    by_cases hlt : n < (String.utf8EncodeChar c).length
    · rw [getElem?_append_left hlt] at h
      obtain rfl := slash_of_byte (mem_of_getElem? h)
      exact ⟨[], rest, rfl, (Nat.lt_one_iff.mp hlt).symm⟩
    · rw [getElem?_append_right (Nat.not_lt.mp hlt)] at h
      obtain ⟨a, b, rfl, ha⟩ := ih h
      refine ⟨c :: a, b, rfl, ?_⟩
      rw [asBytes_cons, length_append]
      omega

/-! ### Keys -/

theorem length_of_parseNodeId (h : (parseNodeId a).isSome) : (asBytes a).length = 64 := by
  unfold parseNodeId at h
  split_ifs at h with hnot
  · cases h
  · simp at hnot
    exact hnot.1

theorem cut_node (ha : (parseNodeId a).isSome) : cut (a ++ b) 64 = some (a, b) := by
  rw [← length_of_parseNodeId ha]
  exact cut_append a b

theorem asBytes_slash (a b : List Char) : asBytes (a ++ '/' :: b) = asBytes a ++ 47 :: asBytes b :=
  flatMap_append

theorem nodeThenSlash_eq (n : ℕ) (text : List Char) :
    nodeThenSlash n text = some true ∧ (∃ a b, text = a ++ '/' :: b ∧ (parseNodeId a).isSome) ∧
        n < (asBytes text).length ∨
      nodeThenSlash n text = some false := by
  unfold nodeThenSlash
  split_ifs with h
  · simp only [Bool.and_eq_true, decide_eq_true_eq, beq_iff_eq] at h
    obtain ⟨a, b, rfl, ha⟩ := exists_slash h.2
    have hcut := cut_append a ('/' :: b)
    rw [ha] at hcut
    rw [hcut]
    cases hnode : (parseNodeId a).isSome with
    | true => exact .inl ⟨congrArg some hnode, ⟨a, b, rfl, hnode⟩, h.1⟩
    | false => exact .inr (congrArg some hnode)
  · exact .inr rfl

theorem nodeThenSlash_true (ha : (parseNodeId a).isSome)
    (hn : n < (asBytes (a ++ '/' :: b)).length) :
    nodeThenSlash n (a ++ '/' :: b) = some true := by
  have hlen := length_of_parseNodeId ha
  have hslash : (asBytes (a ++ '/' :: b))[64]? = some 47 := by
    rw [asBytes_slash, getElem?_append_right (by omega), hlen]
    rfl
  simp [nodeThenSlash, hn, hslash, cut_node ha, ha]

namespace Authority

theorem key_own (caller : List Char) : (own caller).key = caller := if_pos rfl

theorem parse_own (h : nodeThenSlash 65 text = some false) : parse text = some (own text) := by
  simp [parse, h]

theorem parse_acting (ha : (parseNodeId a).isSome) (hb : b ≠ []) :
    parse (a ++ '/' :: b) = some ⟨a, b⟩ := by
  have hafter := cut_append (a ++ ['/']) b
  rw [asBytes_slash, length_append, length_of_parseNodeId ha, append_assoc] at hafter
  have hnode : nodeThenSlash 65 (a ++ '/' :: b) = some true := by
    refine nodeThenSlash_true ha ?_
    cases b with
    | nil => exact absurd rfl hb
    | cons c rest =>
      have := c.utf8Size_pos
      rw [asBytes_slash, asBytes_cons, length_append, length_of_parseNodeId ha, length_cons,
        length_append, String.length_utf8EncodeChar]
      omega
  simp only [singleton_append, asBytes, flatMap_nil, length_singleton] at hafter
  simp [parse, hnode, cut_node ha, hafter]

end Authority

theorem isUserPrincipal_true (h : isUserPrincipal text = some true) :
    '|' ∈ text ∧ nodeThenSlash 64 text = some false := by
  unfold isUserPrincipal at h
  split at h
  · cases h
  · rename_i c subject hdrop
    obtain ⟨ambiguous, hambiguous, hall⟩ := Option.map_eq_some_iff.mp h
    simp only [Bool.and_eq_true, Bool.not_eq_true'] at hall
    refine ⟨?_, hall.2 ▸ hambiguous⟩
    by_contra hnot
    have hnone : text.dropWhile (· != '|') = [] :=
      dropWhile_eq_nil_iff.mpr fun x hx => bne_iff_ne.mpr (ne_of_mem_of_not_mem hx hnot)
    rw [hnone] at hdrop
    cases hdrop

theorem hexDecode_bar : ∀ {bytes : Bytes}, 124 ∈ bytes → hexDecode bytes = none
  | [], h => absurd h not_mem_nil
  | [_], _ => rfl
  | hi :: lo :: rest, h => by
    have hbar : hexValue 124 = none := rfl
    rw [hexDecode]
    rcases mem_cons.mp h with rfl | h
    · rw [hbar]
      rfl
    · rcases mem_cons.mp h with rfl | h
      · rw [hbar]
        cases hexValue hi <;> rfl
      · rw [hexDecode_bar h]
        cases hexValue hi <;> cases hexValue lo <;> rfl

end

/-- **No two authorities have one key.**  An authority the service can build is read back from its
key; no text is a node identity and a user principal at once; and on no text does a cut fall inside
of a character. -/
theorem authority_keys :
    (∀ a, Authority.Built a → Authority.parse a.key = some a) ∧
      (∀ a b, Authority.Built a → Authority.Built b → a.key = b.key → a = b) ∧
      (∀ text, isUserPrincipal text = some true → parseNodeId text = none) ∧
      ∀ text, (Authority.parse text).isSome ∧ (isUserPrincipal text).isSome := by
  have hparse : ∀ a, Authority.Built a → Authority.parse a.key = some a := by
    intro a ha
    cases ha with
    | node id hid =>
      rw [Authority.key_own]
      refine Authority.parse_own ((nodeThenSlash_eq 65 id).resolve_left ?_)
      rintro ⟨-, -, hlong⟩
      have := length_of_parseNodeId hid
      omega
    | owner user huser =>
      rw [Authority.key_own]
      refine Authority.parse_own ((nodeThenSlash_eq 65 user).resolve_left ?_)
      rintro ⟨-, ⟨a, b, rfl, ha⟩, hlong⟩
      have hnot := (isUserPrincipal_true huser).2
      rw [nodeThenSlash_true ha (by omega)] at hnot
      cases hnot
    | acting actor principal hactor hprincipal hother =>
      rw [Authority.key, if_neg hother]
      refine Authority.parse_acting hactor ?_
      rintro rfl
      rcases hprincipal with hnode | huser
      · cases length_of_parseNodeId hnode
      · cases huser
  refine ⟨hparse, fun a b ha hb heq => ?_, fun text huser => ?_, fun text => ⟨?_, ?_⟩⟩
  · have hsame := hparse a ha
    rw [heq, hparse b hb] at hsame
    exact (Option.some.inj hsame).symm
  · have hbar : 124 ∈ asBytes text :=
      mem_flatMap.mpr ⟨'|', (isUserPrincipal_true huser).1, by decide⟩
    rw [parseNodeId, hexDecode_bar hbar, ite_self]
  · rcases nodeThenSlash_eq 65 text with ⟨-, ⟨a, b, rfl, ha⟩, hlong⟩ | hnot
    · rw [Authority.parse_acting ha ?_]
      · rfl
      · rintro rfl
        have := length_of_parseNodeId ha
        rw [asBytes_slash, length_append, this] at hlong
        exact absurd hlong (Nat.lt_irrefl _)
    · rw [Authority.parse_own hnot]
      rfl
  · unfold isUserPrincipal
    split
    · rfl
    · rcases nodeThenSlash_eq 64 text with ⟨h, -⟩ | h <;> rw [h] <;> rfl

end AsterRpc.Exec

import AsterRpc.Foundation.TwoBit
import AsterRpc.Storage.Valid

/-!
# Tickets

`core/src/ticket.rs`: the compact form of an endpoint, its addresses and a
credential, in at most 256 bytes.  The reader keeps no position: it works on the
bytes still to be read, so that `pos + n <= bytes.len()` is `n ≤ rest.length`.

Every field's reader is described by the bytes it accepts, and both directions
of the format follow: what a ticket is written as reads as that ticket, and what
reads as a ticket is written back as the same bytes with what the reader ignores
cleared.
-/

namespace AsterRpc.Wire

open AsterRpc.Foundation List
open AsterRpc.Coordination (Bytes FixedBytes NodeId TicketCredential Externals checkSeedTicket)

open Coordination.Sample

variable {n : ℕ} {rest rest' bitfield w tlv : Bytes} {ty header countByte : UInt8}
  {credential : Option TicketCredential}

def maxWireSize : ℕ := 256
def maxCredentialPayload : ℕ := 220
def formatVersion : UInt8 := 1
def maxDirectAddrs : ℕ := 15

/-- `STRING_PREFIX`, `aster1`. -/
def stringPrefix : Bytes := [97, 115, 116, 101, 114, 49]

/-- `SocketAddr`. -/
inductive SocketAddr where
  | v4 (ip : FixedBytes 4) (port : UInt16)
  | v6 (ip : FixedBytes 16) (port : UInt16) (flowInfo scopeId : UInt32)
deriving DecidableEq

open SocketAddr

/-- `AsterTicket`. -/
structure AsterTicket where
  endpointId : NodeId
  relay : Option SocketAddr
  directAddrs : List SocketAddr
  credential : Option TicketCredential
deriving DecidableEq

inductive TicketError where
  | tooManyDirectAddrs
  | credentialTooLarge (length : ℕ)
  | encodedTooLarge (length : ℕ)
  | tooLarge (length : ℕ)
  | tooShort
  | unsupportedVersion (version : UInt8)
  | truncatedIpv4Relay
  | truncatedIpv6Relay
  | reservedRelayType (relayType : UInt8)
  | missingDirectAddrCount
  | truncatedTypeBitfield
  | truncatedIpv4DirectAddr
  | truncatedIpv6DirectAddr
  | reservedAddressType (addrType : UInt8)
  | truncatedCredentialHeader
  | credentialPayloadTooLarge
  | truncatedCredentialPayload
  | registryReadLength
  | unknownCredentialType (typeByte : UInt8)
  | trailingBytes (extra : ℕ)
  | missingPrefix
  | invalidBase58 (e : String)
deriving DecidableEq

/-! ### Credentials -/

/-- `type_byte`. -/
def typeByte : TicketCredential → UInt8
  | .openAccess => 0x00
  | .consumerRcan _ => 0x01
  | .enrollment _ => 0x02
  | .registryRead _ => 0x03

/-- `payload_bytes`. -/
def payloadBytes : TicketCredential → Bytes
  | .openAccess => []
  | .consumerRcan v => v
  | .enrollment v => v
  | .registryRead ns => ns.bytes

/-- `from_tlv`; an open credential ignores what it carries. -/
def fromTlv (typeByte : UInt8) (payload : Bytes) : Except TicketError TicketCredential :=
  if typeByte = 0x00 then .ok .openAccess
  else if typeByte = 0x01 then .ok (.consumerRcan payload)
  else if typeByte = 0x02 then .ok (.enrollment payload)
  else if typeByte = 0x03 then
    (requireSome (FixedBytes.fromSlice 32 payload) .registryReadLength).map .registryRead
  else .error (.unknownCredentialType typeByte)

/-! ### Writing -/

/-- The address octets and the port, big-endian. -/
def SocketAddr.octets : SocketAddr → Bytes
  | v4 ip port => ip.bytes ++ toBigEndian 2 port.toNat
  | v6 ip port _ _ => ip.bytes ++ toBigEndian 2 port.toNat

/-- The two type bits of a direct address. -/
def SocketAddr.typeBits : SocketAddr → UInt8
  | v4 .. => 0b00
  | v6 .. => 0b01

/-- The two relay bits of the header. -/
def relayType : Option SocketAddr → UInt8
  | none => 0b00
  | some (.v4 ..) => 0b01
  | some (.v6 ..) => 0b10

def relayOctets : Option SocketAddr → Bytes
  | none => []
  | some addr => addr.octets

/-- The type bitfield and the addresses; nothing at all without addresses. -/
def directOctets (addrs : List SocketAddr) : Bytes :=
  if UInt8.ofNat addrs.length > 0 then
    packEntries (addrs.map typeBits) ++ (addrs.map octets).flatten
  else []

/-- The credential TLV. -/
def credentialOctets : Option TicketCredential → Except TicketError Bytes
  | none => .ok []
  | some cred => do
    let payload := payloadBytes cred
    refuseIf (payload.length > maxCredentialPayload) (.credentialTooLarge payload.length)
    return typeByte cred :: toBigEndian 2 payload.length ++ payload

/-- `AsterTicket::encode`. -/
def AsterTicket.encode (t : AsterTicket) : Except TicketError Bytes := do
  refuseIf (t.directAddrs.length > maxDirectAddrs) .tooManyDirectAddrs
  let header := formatVersion <<< 4 ||| relayType t.relay <<< 2
  let count := UInt8.ofNat t.directAddrs.length
  let credential ← credentialOctets t.credential
  let buf := t.endpointId.bytes ++ header :: relayOctets t.relay ++
    (count <<< 4) :: directOctets t.directAddrs ++ credential
  refuseIf (buf.length > maxWireSize) (.encodedTooLarge buf.length)
  return buf

/-! ### Reading -/

/-- The next `n` bytes, or `e` when there are fewer. -/
def takeFixed (n : ℕ) (e : TicketError) (rest : Bytes) :
    Except TicketError (FixedBytes n × Bytes) :=
  if h : n ≤ rest.length then .ok (⟨rest.take n, length_take_of_le h⟩, rest.drop n)
  else .error e

/-- A port, after `u16::from_be_bytes`. -/
def portOf (bytes : FixedBytes 2) : UInt16 := UInt16.ofNat (ofBigEndian bytes.bytes)

/-- Six bytes of an IPv4 address; both parts refuse alike, as one length check does. -/
def readV4 (e : TicketError) (rest : Bytes) : Except TicketError (SocketAddr × Bytes) := do
  let (ip, rest) ← takeFixed 4 e rest
  let (port, rest) ← takeFixed 2 e rest
  return (.v4 ip (portOf port), rest)

/-- Eighteen bytes of an IPv6 address, with neither flow info nor scope id. -/
def readV6 (e : TicketError) (rest : Bytes) : Except TicketError (SocketAddr × Bytes) := do
  let (ip, rest) ← takeFixed 16 e rest
  let (port, rest) ← takeFixed 2 e rest
  return (.v6 ip (portOf port) 0 0, rest)

def readRelay (relayType : UInt8) (rest : Bytes) :
    Except TicketError (Option SocketAddr × Bytes) :=
  if relayType = 0b00 then .ok (none, rest)
  else if relayType = 0b01 then (readV4 .truncatedIpv4Relay rest).map fun r => (some r.1, r.2)
  else if relayType = 0b10 then (readV6 .truncatedIpv6Relay rest).map fun r => (some r.1, r.2)
  else .error (.reservedRelayType relayType)

def readDirect (addrType : UInt8) (rest : Bytes) : Except TicketError (SocketAddr × Bytes) :=
  if addrType = 0b00 then readV4 .truncatedIpv4DirectAddr rest
  else if addrType = 0b01 then readV6 .truncatedIpv6DirectAddr rest
  else .error (.reservedAddressType addrType)

/-- The loop over the direct addresses, by the positions still to be read. -/
def readDirects (bitfield : Bytes) :
    List ℕ → Bytes → Except TicketError (List SocketAddr × Bytes)
  | [], rest => .ok ([], rest)
  | i :: positions, rest => do
    let (addr, rest) ← readDirect (entry bitfield i) rest
    let (addrs, rest) ← readDirects bitfield positions rest
    return (addr :: addrs, rest)

def readDirectAddrs (count : ℕ) (rest : Bytes) : Except TicketError (List SocketAddr × Bytes) :=
  if count > 0 then do
    let (bitfield, rest) ← takeFixed (tableBytes count) .truncatedTypeBitfield rest
    readDirects bitfield.bytes (range count) rest
  else .ok ([], rest)

def readCredential (rest : Bytes) : Except TicketError (Option TicketCredential × Bytes) :=
  if rest.isEmpty then .ok (none, rest)
  else do
    let (header, rest) ← takeFixed 3 .truncatedCredentialHeader rest
    let payloadLen := ofBigEndian (header.bytes.drop 1)
    refuseIf (payloadLen > maxCredentialPayload) .credentialPayloadTooLarge
    let (payload, rest) ← takeFixed payloadLen .truncatedCredentialPayload rest
    let cred ← fromTlv (header.bytes.headD 0) payload.bytes
    return (some cred, rest)

/-- `AsterTicket::decode`. -/
def AsterTicket.decode (bytes : Bytes) : Except TicketError AsterTicket := do
  refuseIf (bytes.length > maxWireSize) (.tooLarge bytes.length)
  refuseIf (bytes.length < 34) .tooShort
  let (endpointId, rest) ← takeFixed 32 .tooShort bytes
  let (header, rest) ← takeFixed 1 .tooShort rest
  let header := header.bytes.headD 0
  let version := header >>> 4
  refuseIf (version != formatVersion) (.unsupportedVersion version)
  let (relay, rest) ← readRelay ((header >>> 2) &&& 0b11) rest
  let (countByte, rest) ← takeFixed 1 .missingDirectAddrCount rest
  let count := (countByte.bytes.headD 0 >>> 4).toNat
  let (directAddrs, rest) ← readDirectAddrs count rest
  let (credential, rest) ← readCredential rest
  refuseIf (rest.length != 0) (.trailingBytes rest.length)
  return ⟨endpointId, relay, directAddrs, credential⟩

/-! ### The text form -/

/-- The base58 library. -/
structure Base58 where
  encode : Bytes → Bytes
  decode : Bytes → Except String Bytes

/-- Base58 text is ASCII and reads back. -/
structure Base58.Lawful (base58 : Base58) : Prop where
  ascii : ∀ bytes, ∀ b ∈ base58.encode bytes, b < 0x80
  decode_encode : ∀ bytes, base58.decode (base58.encode bytes) = .ok bytes

section Text

variable (base58 : Base58)

/-- `to_base58_string`. -/
def AsterTicket.toBase58String (t : AsterTicket) : Except TicketError Bytes := do
  let wire ← t.encode
  return stringPrefix ++ base58.encode wire

/-- `from_base58_str`. -/
def AsterTicket.fromBase58Str (s : Bytes) : Except TicketError AsterTicket := do
  refuseIf (s.take 6 != stringPrefix) .missingPrefix
  let wire ← (base58.decode (s.drop 6)).mapError .invalidBase58
  AsterTicket.decode wire

end Text

/-! ### What the coordination service sees of a ticket -/

/-- The ticket with every address as its octets. -/
def AsterTicket.view (t : AsterTicket) : Coordination.AsterTicket :=
  ⟨t.endpointId, t.relay.map octets, t.directAddrs.map octets, t.credential⟩

/-- An address from its octets. -/
def SocketAddr.ofOctets (octets : Bytes) : Option SocketAddr :=
  if octets.length = 6 then ((readV4 .truncatedIpv4DirectAddr octets).toOption).map Prod.fst
  else if octets.length = 18 then ((readV6 .truncatedIpv6DirectAddr octets).toOption).map Prod.fst
  else none

/-- The ticket of a view; a list of octets that is no address has none. -/
def AsterTicket.ofView (view : Coordination.AsterTicket) : Option AsterTicket := do
  let relay ← view.relay.mapM ofOctets
  let directAddrs ← view.directAddrs.mapM ofOctets
  return ⟨view.endpointId, relay, directAddrs, view.credential⟩

/-- The state machine's libraries with this ticket format for theirs. -/
def withTickets (base58 : Base58) (ext : Externals) : Externals :=
  { ext with
    ticketFromText := fun text =>
      (AsterTicket.fromBase58Str base58 text).toOption.map AsterTicket.view
    ticketToText := fun view => do
      let t ← AsterTicket.ofView view
      (t.toBase58String base58).toOption }

/-! ### What each reader accepts -/

/-- The address as it is on the wire, without flow info and scope id. -/
def SocketAddr.zeroed : SocketAddr → SocketAddr
  | v4 ip port => v4 ip port
  | v6 ip port _ _ => v6 ip port 0 0

variable {e : TicketError}

theorem takeFixed_eq_ok {x : FixedBytes n} :
    takeFixed n e rest = .ok (x, rest') ↔ rest = x.bytes ++ rest' := by
  rw [takeFixed]
  constructor
  · intro h
    split_ifs at h with hn
    · cases h
      exact (take_append_drop n rest).symm
  · rintro rfl
    have hn : n ≤ (x.bytes ++ rest').length := by
      rw [length_append, x.length_eq]
      omega
    rw [dif_pos hn]
    congr 2
    · apply FixedBytes.bytes_injective
      exact take_left' x.length_eq
    · exact drop_left' x.length_eq

/-- One byte off the front. -/
theorem takeFixed_one {x : FixedBytes 1} :
    takeFixed 1 e rest = .ok (x, rest') ↔ rest = x.bytes.headD 0 :: rest' := by
  rw [takeFixed_eq_ok]
  obtain ⟨b, hb⟩ := length_eq_one_iff.mp x.length_eq
  rw [hb]
  rfl

theorem octets_portOf (port : FixedBytes 2) :
    toBigEndian 2 (portOf port).toNat = port.bytes := by
  have hlt : ofBigEndian port.bytes < 2 ^ 16 := by
    have h := ofBigEndian_lt port.bytes
    rw [port.length_eq] at h
    exact h
  have hwrite := toBigEndian_ofBigEndian port.bytes
  rw [port.length_eq] at hwrite
  rw [portOf, UInt16.toNat_ofNat_of_lt' hlt, hwrite]

theorem exists_portOf (port : UInt16) :
    ∃ bytes : FixedBytes 2, bytes.bytes = toBigEndian 2 port.toNat ∧ portOf bytes = port := by
  refine ⟨⟨toBigEndian 2 port.toNat, length_toBigEndian 2 _⟩, rfl, ?_⟩
  rw [portOf, ofBigEndian_toBigEndian (Nat.lt_of_lt_of_le port.toNat_lt (by decide)),
    UInt16.ofNat_toNat]

variable {addr : SocketAddr}

/-- An address of `n` bytes and a port. -/
theorem readIpPort_eq_ok {n : ℕ} (make : FixedBytes n → UInt16 → SocketAddr)
    (hoctets : ∀ ip port, (make ip port).octets = ip.bytes ++ toBigEndian 2 port.toNat) :
    (do
      let (ip, rest) ← takeFixed n e rest
      let (port, rest) ← takeFixed 2 e rest
      return (make ip (portOf port), rest)) = .ok (addr, rest') ↔
      ∃ ip port, addr = make ip port ∧ rest = addr.octets ++ rest' := by
  simp only [accepts_iff, takeFixed_eq_ok]
  constructor
  · rintro ⟨ip, _, rfl, port, _, rfl, hok⟩
    cases hok
    refine ⟨ip, portOf port, rfl, ?_⟩
    rw [hoctets, octets_portOf, append_assoc]
  · rintro ⟨ip, port, rfl, rfl⟩
    obtain ⟨bytes, hbytes, hport⟩ := exists_portOf port
    refine ⟨ip, _, ?_, bytes, rest', rfl, ?_⟩
    · rw [hoctets, hbytes, append_assoc]
    · rw [hport]

theorem readV4_eq_ok :
    readV4 e rest = .ok (addr, rest') ↔
      ∃ ip port, addr = .v4 ip port ∧ rest = addr.octets ++ rest' :=
  readIpPort_eq_ok .v4 fun _ _ => rfl

theorem readV6_eq_ok :
    readV6 e rest = .ok (addr, rest') ↔
      ∃ ip port, addr = .v6 ip port 0 0 ∧ rest = addr.octets ++ rest' :=
  readIpPort_eq_ok (.v6 · · 0 0) fun _ _ => rfl

theorem readDirect_eq_ok {addrType : UInt8} :
    readDirect addrType rest = .ok (addr, rest') ↔
      addr.zeroed = addr ∧ addrType = addr.typeBits ∧ rest = addr.octets ++ rest' := by
  rw [readDirect]
  constructor
  · intro h
    split_ifs at h with h4 h6
    · obtain ⟨ip, port, rfl, hrest⟩ := readV4_eq_ok.mp h
      exact ⟨rfl, h4, hrest⟩
    · obtain ⟨ip, port, rfl, hrest⟩ := readV6_eq_ok.mp h
      exact ⟨rfl, h6, hrest⟩
  · rintro ⟨hzeroed, rfl, hrest⟩
    cases addr with
    | v4 ip port => exact readV4_eq_ok.mpr ⟨ip, port, rfl, hrest⟩
    | v6 ip port =>
      obtain ⟨-, -, rfl, rfl⟩ := v6.inj hzeroed
      exact readV6_eq_ok.mpr ⟨ip, port, rfl, hrest⟩

variable {relay : Option SocketAddr}

theorem readRelay_eq_ok :
    readRelay ty rest = .ok (relay, rest') ↔
      relay.map zeroed = relay ∧ ty = relayType relay ∧
        rest = relayOctets relay ++ rest' := by
  rw [readRelay]
  constructor
  · intro h
    split_ifs at h with h0 h4 h6
    · cases h
      exact ⟨rfl, h0, rfl⟩
    · obtain ⟨⟨addr, rest₁⟩, hread, hok⟩ := map_eq_ok.mp h
      cases hok
      obtain ⟨ip, port, rfl, hrest⟩ := readV4_eq_ok.mp hread
      exact ⟨rfl, h4, hrest⟩
    · obtain ⟨⟨addr, rest₁⟩, hread, hok⟩ := map_eq_ok.mp h
      cases hok
      obtain ⟨ip, port, rfl, hrest⟩ := readV6_eq_ok.mp hread
      exact ⟨rfl, h6, hrest⟩
  · rintro ⟨hzeroed, rfl, hrest⟩
    match relay with
    | none =>
      rw [hrest]
      rfl
    | some (.v4 ip port) =>
      show (readV4 _ rest).map _ = _
      rw [readV4_eq_ok.mpr ⟨ip, port, rfl, hrest⟩]
      rfl
    | some (.v6 ip port flowInfo scopeId) =>
      obtain ⟨-, -, rfl, rfl⟩ := v6.inj (Option.some.inj hzeroed)
      show (readV6 _ rest).map _ = _
      rw [readV6_eq_ok.mpr ⟨ip, port, rfl, hrest⟩]
      rfl

variable {addrs : List SocketAddr}

theorem readDirects_eq_ok {positions : List ℕ} :
    readDirects bitfield positions rest = .ok (addrs, rest') ↔
      addrs.map zeroed = addrs ∧
        positions.map (entry bitfield) = addrs.map typeBits ∧
        rest = (addrs.map octets).flatten ++ rest' := by
  induction positions generalizing rest rest' addrs with
  | nil =>
    constructor
    · intro h
      cases h
      exact ⟨rfl, rfl, rfl⟩
    · rintro ⟨-, htypes, hrest⟩
      have hnil : addrs = [] := map_eq_nil_iff.mp htypes.symm
      rw [hrest, hnil]
      rfl
  | cons i positions ih =>
    simp only [readDirects, accepts_iff, readDirect_eq_ok, ih]
    constructor
    · rintro ⟨addr, _, ⟨hzeroed, htype, rfl⟩, _, _, ⟨hzeroeds, htypes, rfl⟩, hok⟩
      cases hok
      refine ⟨?_, ?_, ?_⟩
      · rw [map_cons, hzeroed, hzeroeds]
      · rw [map_cons, map_cons, htype, htypes]
      · rw [map_cons, flatten_cons, append_assoc]
    · rintro ⟨hzeroeds, htypes, hrest⟩
      cases addrs with
      | nil => cases htypes
      | cons addr addrs =>
        obtain ⟨htype, htypes⟩ := cons.inj htypes
        obtain ⟨hzeroed, hzeroeds⟩ := cons.inj hzeroeds
        rw [map_cons, flatten_cons, append_assoc] at hrest
        exact ⟨addr, _, ⟨hzeroed, htype, hrest⟩, addrs, rest', ⟨hzeroeds, htypes, rfl⟩, rfl⟩

theorem readDirectAddrs_eq_ok {count : ℕ} :
    readDirectAddrs count rest = .ok (addrs, rest') ↔
      ∃ bitfield : Bytes, bitfield.length = tableBytes count ∧
        addrs.map zeroed = addrs ∧
        (range count).map (entry bitfield) = addrs.map typeBits ∧
        rest = bitfield ++ ((addrs.map octets).flatten ++ rest') := by
  rw [readDirectAddrs]
  split_ifs with hcount
  · simp only [accepts_iff, takeFixed_eq_ok, readDirects_eq_ok]
    constructor
    · rintro ⟨bitfield, _, rfl, hzeroed, htypes, rfl⟩
      exact ⟨bitfield.bytes, bitfield.length_eq, hzeroed, htypes, rfl⟩
    · rintro ⟨bitfield, hlen, hzeroed, htypes, rfl⟩
      exact ⟨⟨bitfield, hlen⟩, _, rfl, hzeroed, htypes, rfl⟩
  · have hzero : count = 0 := by omega
    subst hzero
    constructor
    · intro h
      cases h
      exact ⟨[], rfl, rfl, rfl, rfl⟩
    · rintro ⟨bitfield, hlen, -, htypes, hrest⟩
      have hfield : bitfield = [] := length_eq_zero_iff.mp hlen
      have haddrs : addrs = [] := map_eq_nil_iff.mp htypes.symm
      rw [hrest, hfield, haddrs]
      rfl

/-- The bytes that read as a credential: an open one may carry anything. -/
def CredentialSpells (tlv : Bytes) : Option TicketCredential → Prop
  | none => tlv = []
  | some cred => ∃ payload : Bytes, payload.length ≤ maxCredentialPayload ∧
      tlv = typeByte cred :: (toBigEndian 2 payload.length ++ payload) ∧
      (cred = .openAccess ∨ payload = payloadBytes cred)

theorem fromTlv_eq_ok {payload : Bytes} {cred : TicketCredential} :
    fromTlv ty payload = .ok cred ↔
      ty = typeByte cred ∧ (cred = .openAccess ∨ payload = payloadBytes cred) := by
  rw [fromTlv]
  constructor
  · intro h
    split_ifs at h with h0 h1 h2 h3
    · cases h
      exact ⟨h0, .inl rfl⟩
    · cases h
      exact ⟨h1, .inr rfl⟩
    · cases h
      exact ⟨h2, .inr rfl⟩
    · obtain ⟨ns, hns, hok⟩ := map_eq_ok.mp h
      cases hok
      exact ⟨h3, .inr (FixedBytes.bytes_of_fromSlice (requireSome_eq_ok.mp hns)).symm⟩
  · rintro ⟨rfl, hpay⟩
    cases cred with
    | openAccess => rfl
    | consumerRcan | enrollment =>
      obtain rfl := hpay.resolve_left (by simp)
      rfl
    | registryRead ns =>
      obtain rfl := hpay.resolve_left (by simp)
      show (requireSome (FixedBytes.fromSlice 32 ns.bytes) _).map _ = _
      rw [FixedBytes.fromSlice_bytes]
      rfl

/-- A credential with nothing behind it. -/
theorem readCredential_eq_ok :
    readCredential rest = .ok (credential, []) ↔ CredentialSpells rest credential := by
  cases rest with
  | nil =>
    constructor
    · intro h
      cases h
      rfl
    · intro h
      cases credential with
      | none => rfl
      | some =>
        obtain ⟨payload, -, hnil, -⟩ := h
        cases hnil
  | cons =>
    simp only [readCredential, isEmpty_cons, Bool.false_eq_true, if_false, accepts_iff,
      takeFixed_eq_ok, fromTlv_eq_ok]
    constructor
    · rintro ⟨⟨_, hhead⟩, _, hrest, hsize, payload, _, rfl, cred, ⟨htype, hcred⟩,
        hok⟩
      cases hok
      obtain ⟨_, hi, lo, rfl⟩ := length_eq_three.mp hhead
      have hlen : toBigEndian 2 payload.bytes.length = [hi, lo] := by
        rw [payload.length_eq]
        exact toBigEndian_ofBigEndian [hi, lo]
      refine ⟨payload.bytes, ?_, ?_, hcred⟩
      · rw [payload.length_eq]
        exact hsize
      · rw [hrest, hlen, ← htype]
        simp
    · intro h
      cases credential with
      | none => cases h
      | some cred =>
        obtain ⟨payload, hsize, hrest, hcred⟩ := h
        have hback : ofBigEndian (toBigEndian 2 payload.length) = payload.length := by
          apply ofBigEndian_toBigEndian
          simp only [maxCredentialPayload] at hsize
          omega
        refine ⟨⟨typeByte cred :: toBigEndian 2 payload.length, by simp⟩, payload, ?_, ?_,
          ⟨payload, hback.symm⟩, [], by simp, cred, ⟨rfl, hcred⟩, rfl⟩
        · rw [hrest]
          rfl
        · show ofBigEndian (toBigEndian 2 payload.length) ≤ maxCredentialPayload
          rw [hback]
          exact hsize

/-! ### The layout of an accepted ticket -/

/-- The ticket as it is on the wire. -/
def AsterTicket.zeroed (t : AsterTicket) : AsterTicket :=
  { t with
    relay := t.relay.map SocketAddr.zeroed
    directAddrs := t.directAddrs.map SocketAddr.zeroed }

/-- The bytes `w` are those of the ticket `t`, with these values for what the ticket leaves open. -/
structure Spells (w : Bytes) (t : AsterTicket) (header countByte : UInt8) (bitfield tlv : Bytes) :
    Prop where
  bytes : w = t.endpointId.bytes ++ header :: (relayOctets t.relay ++
    countByte :: (bitfield ++ ((t.directAddrs.map octets).flatten ++ tlv)))
  size : w.length ≤ maxWireSize
  version : header >>> 4 = formatVersion
  relay : (header >>> 2) &&& 0b11 = relayType t.relay
  count : (countByte >>> 4).toNat = t.directAddrs.length
  field : bitfield.length = tableBytes t.directAddrs.length
  types : (range t.directAddrs.length).map (entry bitfield) =
    t.directAddrs.map typeBits
  credential : CredentialSpells tlv t.credential
  zeroed : t.zeroed = t

variable {t : AsterTicket}

/-- **What decodes**: exactly the spellings of a ticket. -/
theorem decode_eq_ok :
    AsterTicket.decode w = .ok t ↔
      ∃ header countByte bitfield tlv, Spells w t header countByte bitfield tlv := by
  simp only [AsterTicket.decode, accepts_iff, length_eq_zero_iff]
  constructor
  · rintro ⟨hsize, -, endpointId, _, hendpoint, header, _, hhead, hversion, relay, _,
      hrelay, countByte, _, hcount, addrs, rest₅, haddrs, credential, _, hcred, rfl,
      hok⟩
    cases hok
    rw [takeFixed_eq_ok] at hendpoint
    rw [takeFixed_one] at hhead hcount
    obtain ⟨hrelayZeroed, hrelayType, hrelayRest⟩ := readRelay_eq_ok.mp hrelay
    obtain ⟨bitfield, hfield, hzeroed, htypes, hrest⟩ := readDirectAddrs_eq_ok.mp haddrs
    have hlen : (countByte.bytes.headD 0 >>> 4).toNat = addrs.length := by
      have h := congrArg length htypes
      rwa [length_map, length_map, length_range] at h
    rw [hlen] at hfield htypes
    refine ⟨header.bytes.headD 0, countByte.bytes.headD 0, bitfield, rest₅, ?_, hsize, hversion,
      hrelayType, hlen, hfield, htypes, readCredential_eq_ok.mp hcred, ?_⟩
    · rw [hendpoint, hhead, hrelayRest, hcount, hrest]
    · simp [AsterTicket.zeroed, hrelayZeroed, hzeroed]
  · rintro ⟨header, countByte, bitfield, tlv, h⟩
    have hlong : 34 ≤ w.length := by
      rw [h.bytes]
      simp only [length_append, length_cons, t.endpointId.length_eq]
      omega
    refine ⟨h.size, hlong, t.endpointId, _, takeFixed_eq_ok.mpr h.bytes, ⟨[header], rfl⟩, _,
      takeFixed_one.mpr rfl, h.version, t.relay, _,
      readRelay_eq_ok.mpr ⟨congrArg AsterTicket.relay h.zeroed, h.relay, rfl⟩, ⟨[countByte], rfl⟩,
      _, takeFixed_one.mpr rfl, t.directAddrs, tlv, ?_, t.credential, [],
      readCredential_eq_ok.mpr h.credential, rfl, rfl⟩
    refine readDirectAddrs_eq_ok.mpr
      ⟨bitfield, ?_, congrArg AsterTicket.directAddrs h.zeroed, ?_, rfl⟩
    · show bitfield.length = tableBytes (countByte >>> 4).toNat
      rw [h.count]
      exact h.field
    · show (range (countByte >>> 4).toNat).map _ = _
      rw [h.count]
      exact h.types

/-! ### What a ticket is written as -/

/-- The TLV of a credential, with the payload that it has. -/
def tlvOf : Option TicketCredential → Bytes
  | none => []
  | some cred => typeByte cred :: (toBigEndian 2 (payloadBytes cred).length ++ payloadBytes cred)

theorem credentialOctets_eq_ok :
    credentialOctets credential = .ok tlv ↔
      (∀ cred, credential = some cred → (payloadBytes cred).length ≤ maxCredentialPayload) ∧
        tlv = tlvOf credential := by
  cases credential with
  | none =>
    constructor
    · intro h
      cases h
      exact ⟨fun cred hcred => (by cases hcred), rfl⟩
    · rintro ⟨-, rfl⟩
      rfl
  | some =>
    simp only [credentialOctets, accepts_iff, Option.some.injEq, forall_eq', tlvOf]
    exact and_congr_right fun _ => eq_comm

theorem directOctets_eq (h : addrs.length ≤ maxDirectAddrs) :
    directOctets addrs =
      packEntries (addrs.map typeBits) ++ (addrs.map octets).flatten := by
  rw [directOctets]
  cases addrs with
  | nil => rfl
  | cons addr rest =>
    have hsmall : (addr :: rest).length < 2 ^ 8 := Nat.lt_of_le_of_lt h (by decide)
    rw [if_pos]
    rw [gt_iff_lt, UInt8.lt_iff_toNat_lt, UInt8.toNat_ofNat_of_lt' hsmall]
    exact Nat.succ_pos _

/-- The bytes a ticket is written as. -/
def wireOf (t : AsterTicket) : Bytes :=
  t.endpointId.bytes ++ (formatVersion <<< 4 ||| relayType t.relay <<< 2) ::
    (relayOctets t.relay ++ (UInt8.ofNat t.directAddrs.length <<< 4) ::
      (packEntries (t.directAddrs.map typeBits) ++
        ((t.directAddrs.map octets).flatten ++ tlvOf t.credential)))

theorem encode_eq_ok :
    t.encode = .ok w ↔
      t.directAddrs.length ≤ maxDirectAddrs ∧
      (∀ cred, t.credential = some cred → (payloadBytes cred).length ≤ maxCredentialPayload) ∧
      (wireOf t).length ≤ maxWireSize ∧ w = wireOf t := by
  simp only [AsterTicket.encode, accepts_iff, credentialOctets_eq_ok]
  have hwire : t.directAddrs.length ≤ maxDirectAddrs →
      t.endpointId.bytes ++ (formatVersion <<< 4 ||| relayType t.relay <<< 2) ::
        relayOctets t.relay ++ (UInt8.ofNat t.directAddrs.length <<< 4) ::
        directOctets t.directAddrs ++ tlvOf t.credential = wireOf t := by
    intro hcount
    rw [directOctets_eq hcount, wireOf]
    simp
  constructor
  · rintro ⟨hcount, _, ⟨hcred, rfl⟩, hsize, hok⟩
    rw [hwire hcount] at hsize hok
    exact ⟨hcount, hcred, hsize, hok.symm⟩
  · rintro ⟨hcount, hcred, hsize, rfl⟩
    refine ⟨hcount, _, ⟨hcred, rfl⟩, ?_, ?_⟩
    · rw [hwire hcount]
      exact hsize
    · rw [hwire hcount]

/-! ### Both directions -/

theorem header_of_relay (relay : Option SocketAddr) :
    (formatVersion <<< 4 ||| relayType relay <<< 2) >>> 4 = formatVersion ∧
      ((formatVersion <<< 4 ||| relayType relay <<< 2) >>> 2) &&& 0b11 = relayType relay := by
  have htable : ∀ ty ∈ ([0b00, 0b01, 0b10] : List UInt8),
      (formatVersion <<< 4 ||| ty <<< 2) >>> 4 = formatVersion ∧
        ((formatVersion <<< 4 ||| ty <<< 2) >>> 2) &&& 0b11 = ty := by decide +kernel
  apply htable
  match relay with
  | none => simp [relayType]
  | some (.v4 ..) => simp [relayType]
  | some (.v6 ..) => simp [relayType]

theorem count_of_length (h : n ≤ maxDirectAddrs) : ((UInt8.ofNat n <<< 4) >>> 4).toNat = n := by
  have htable : ∀ k : Fin 16, ((UInt8.ofNat k.val <<< 4) >>> 4).toNat = k.val := by decide
  exact htable ⟨n, Nat.lt_succ_of_le h⟩

theorem typeBits_lt (addr : SocketAddr) : addr.typeBits.toNat < 4 := by
  cases addr with
  | v4 => exact (by decide : (0b00 : UInt8).toNat < 4)
  | v6 => exact (by decide : (0b01 : UInt8).toNat < 4)

theorem types_packed (addrs : List SocketAddr) :
    (range addrs.length).map (entry (packEntries (addrs.map typeBits))) =
      addrs.map typeBits := by
  have hentries : ∀ e ∈ addrs.map typeBits, e.toNat < 4 := by
    intro e he
    obtain ⟨addr, -, rfl⟩ := mem_map.mp he
    exact typeBits_lt addr
  apply ext_getElem
  · rw [length_map, length_map, length_range]
  · intro j hj hj'
    rw [getElem_map, getElem_range, entry_packEntries hentries,
      getD_eq_getElem _ _ hj']

theorem SocketAddr.zeroed_zeroed (addr : SocketAddr) : addr.zeroed.zeroed = addr.zeroed := by
  cases addr <;> rfl

theorem SocketAddr.octets_zeroed (addr : SocketAddr) : addr.zeroed.octets = addr.octets := by
  cases addr <;> rfl

theorem SocketAddr.typeBits_zeroed (addr : SocketAddr) : addr.zeroed.typeBits = addr.typeBits := by
  cases addr <;> rfl

theorem AsterTicket.zeroed_zeroed (t : AsterTicket) : t.zeroed.zeroed = t.zeroed := by
  simp only [zeroed, Option.map_map, map_map]
  congr 1
  · congr 1
    exact funext SocketAddr.zeroed_zeroed
  · exact map_congr_left fun addr _ => addr.zeroed_zeroed

theorem wireOf_zeroed (t : AsterTicket) : wireOf t.zeroed = wireOf t := by
  have hrelay : relayType t.zeroed.relay = relayType t.relay ∧
      relayOctets t.zeroed.relay = relayOctets t.relay := by
    simp only [AsterTicket.zeroed]
    match t.relay with
    | none => exact ⟨rfl, rfl⟩
    | some (.v4 ..) => exact ⟨rfl, rfl⟩
    | some (.v6 ..) => exact ⟨rfl, rfl⟩
  have htypes : t.zeroed.directAddrs.map typeBits =
      t.directAddrs.map SocketAddr.typeBits := by
    simp only [AsterTicket.zeroed, map_map]
    exact map_congr_left fun addr _ => addr.typeBits_zeroed
  have hoctets : t.zeroed.directAddrs.map SocketAddr.octets =
      t.directAddrs.map SocketAddr.octets := by
    simp only [AsterTicket.zeroed, map_map]
    exact map_congr_left fun addr _ => addr.octets_zeroed
  have hlen : t.zeroed.directAddrs.length = t.directAddrs.length := length_map ..
  rw [wireOf, wireOf, hrelay.1, hrelay.2, htypes, hoctets, hlen]
  rfl

theorem encode_zeroed : t.zeroed.encode = .ok w ↔ t.encode = .ok w := by
  have hlen : t.zeroed.directAddrs.length = t.directAddrs.length := length_map ..
  rw [encode_eq_ok, encode_eq_ok, wireOf_zeroed, hlen]
  rfl

/-- What a ticket is written as reads as that ticket. -/
theorem decode_encode (h : t.encode = .ok w) : AsterTicket.decode w = .ok t.zeroed := by
  rw [← encode_zeroed] at h
  obtain ⟨hcount, hcredential, hsize, rfl⟩ := encode_eq_ok.mp h
  obtain ⟨hversion, hrelay⟩ := header_of_relay t.zeroed.relay
  refine decode_eq_ok.mpr ⟨_, _, _, _, rfl, hsize, hversion, hrelay, count_of_length hcount, ?_,
    types_packed _, ?_, t.zeroed_zeroed⟩
  · rw [length_packEntries, length_map]
  · cases hcred : t.zeroed.credential with
    | none => rfl
    | some cred => exact ⟨payloadBytes cred, hcredential cred hcred, rfl, .inr rfl⟩

/-! ### Clearing what the reader ignores -/

/-- The bytes of a relay by its type bits. -/
def relayLength (relayType : UInt8) : ℕ :=
  if relayType = 0b01 then 6 else if relayType = 0b10 then 18 else 0

/-- The bytes of a direct address by its type bits. -/
def addrLength (addrType : UInt8) : ℕ := if addrType = 0b01 then 18 else 6

/-- An open credential without its payload; any other as it is. -/
def clearedCredential : Bytes → Bytes
  | 0 :: _ => [0, 0, 0]
  | tlv => tlv

/-- The bytes of a ticket with the reserved bits of the header and of the count byte, the unused
bits of the type bitfield and the payload of an open credential cleared. -/
def cleared (w : Bytes) : Bytes :=
  let header := w.getD 32 0
  let relay := relayLength ((header >>> 2) &&& 0b11)
  let body := w.drop (33 + relay)
  let count := (body.headD 0 >>> 4).toNat
  let bitfield := (body.drop 1).take (tableBytes count)
  let rest := body.drop (1 + tableBytes count)
  let addrs := ((range count).map fun i => addrLength (entry bitfield i)).sum
  w.take 32 ++ (header &&& 0xFC) :: ((w.drop 33).take relay ++ (body.headD 0 &&& 0xF0) ::
    (clearEntries count bitfield ++ (rest.take addrs ++ clearedCredential (rest.drop addrs))))

theorem length_octets (addr : SocketAddr) : addr.octets.length = addrLength addr.typeBits := by
  cases addr with
  | v4 ip | v6 ip => simp [octets, typeBits, addrLength, ip.length_eq]

theorem length_relayOctets (relay : Option SocketAddr) :
    (relayOctets relay).length = relayLength (relayType relay) := by
  match relay with
  | none => rfl
  | some (.v4 ip port) => simp [relayOctets, octets, relayType, relayLength, ip.length_eq]
  | some (.v6 ip port flowInfo scopeId) =>
    simp [relayOctets, octets, relayType, relayLength, ip.length_eq]

theorem clearedCredential_eq (h : CredentialSpells tlv credential) :
    clearedCredential tlv = tlvOf credential := by
  cases credential with
  | none =>
    rw [show tlv = [] from h]
    rfl
  | some cred =>
    obtain ⟨_, -, rfl, hcred⟩ := h
    cases cred with
    | openAccess => rfl
    | consumerRcan | enrollment | registryRead =>
      obtain rfl := hcred.resolve_left (by simp)
      rfl

theorem header_cleared (hversion : header >>> 4 = formatVersion)
    (hrelay : (header >>> 2) &&& 0b11 = relayType relay) :
    header &&& (0xFC : UInt8) = formatVersion <<< 4 ||| relayType relay <<< 2 := by
  have hsplit : header &&& (0xFC : UInt8) =
    (header >>> 4) <<< 4 ||| ((header >>> 2) &&& 0b11) <<< 2 :=
    forall_byte
      (P := fun b => b &&& (0xFC : UInt8) = (b >>> 4) <<< 4 ||| ((b >>> 2) &&& 0b11) <<< 2)
      (by decide +kernel) header
  rw [hsplit, hversion, hrelay]

theorem count_cleared (h : (countByte >>> 4).toNat = n) :
    countByte &&& (0xF0 : UInt8) = UInt8.ofNat n <<< 4 := by
  rw [← h, UInt8.ofNat_toNat]
  exact forall_byte (P := fun b => b &&& (0xF0 : UInt8) = (b >>> 4) <<< 4)
    (by decide +kernel) countByte

/-- Clearing a spelling of a ticket gives what the ticket is written as. -/
theorem Spells.cleared_eq (h : Spells w t header countByte bitfield tlv) :
    cleared w = wireOf t := by
  have hhead : w.getD 32 0 = header := by
    rw [h.bytes, getD_append_right _ _ _ _ (by rw [t.endpointId.length_eq]),
      t.endpointId.length_eq]
    rfl
  have hendpoint : w.take 32 = t.endpointId.bytes := by
    rw [h.bytes]
    exact take_left' t.endpointId.length_eq
  have hafter : w.drop 33 = relayOctets t.relay ++
      countByte :: (bitfield ++ ((t.directAddrs.map octets).flatten ++ tlv)) := by
    rw [h.bytes, append_cons]
    exact drop_left' (by rw [length_append, t.endpointId.length_eq]; rfl)
  have hrelay : relayLength ((header >>> 2) &&& 0b11) = (relayOctets t.relay).length := by
    rw [h.relay, length_relayOctets]
  have hbody : w.drop (33 + (relayOctets t.relay).length) =
      countByte :: (bitfield ++ ((t.directAddrs.map octets).flatten ++ tlv)) := by
    rw [← drop_drop, hafter, drop_left]
  have hfield : (bitfield ++ ((t.directAddrs.map octets).flatten ++ tlv)).take
      (tableBytes t.directAddrs.length) = bitfield := take_left' h.field
  have hrest : (countByte :: (bitfield ++ ((t.directAddrs.map octets).flatten ++ tlv))).drop
      (1 + tableBytes t.directAddrs.length) =
      (t.directAddrs.map octets).flatten ++ tlv := by
    rw [Nat.add_comm, drop_succ_cons]
    exact drop_left' h.field
  have haddrs : ((range t.directAddrs.length).map fun i => addrLength (entry bitfield i)).sum =
      (t.directAddrs.map octets).flatten.length := by
    have hlengths := congrArg (map addrLength) h.types
    rw [map_map, map_map] at hlengths
    rw [length_flatten, map_map]
    refine congrArg sum (hlengths.trans (map_congr_left fun addr _ => ?_))
    exact (length_octets addr).symm
  simp only [cleared, hhead, hendpoint, hrelay, hbody, hafter, headD_cons, h.count,
    drop_succ_cons, drop_zero, hfield, hrest, haddrs, take_left, drop_left]
  rw [header_cleared h.version h.relay, count_cleared h.count, ← packEntries_entries h.field,
    h.types, clearedCredential_eq h.credential]
  rfl

theorem length_tlvOf (h : CredentialSpells tlv credential) :
    (tlvOf credential).length ≤ tlv.length := by
  cases credential with
  | none => exact Nat.zero_le _
  | some =>
    obtain ⟨_, -, rfl, rfl | rfl⟩ := h
    · simp [tlvOf, payloadBytes]
    · exact le_refl _

/-- What reads as a ticket is written back, with what the reader ignores cleared. -/
theorem encode_decode (h : AsterTicket.decode w = .ok t) : t.encode = .ok (cleared w) := by
  obtain ⟨_, countByte, _, _, hspells⟩ := decode_eq_ok.mp h
  have hcount : t.directAddrs.length ≤ maxDirectAddrs := by
    rw [← hspells.count, UInt8.toNat_shiftRight]
    have hlt := countByte.toNat_lt
    show countByte.toNat >>> 4 ≤ 15
    rw [Nat.shiftRight_eq_div_pow]
    omega
  refine encode_eq_ok.mpr ⟨hcount, ?_, ?_, hspells.cleared_eq⟩
  · intro cred hcred
    have hcredential := hspells.credential
    rw [hcred] at hcredential
    obtain ⟨_, hsize, -, rfl | rfl⟩ := hcredential
    · exact Nat.zero_le _
    · exact hsize
  · -- clearing never makes a ticket longer
    have hshorter : (wireOf t).length ≤ w.length := by
      have htlv := length_tlvOf hspells.credential
      rw [wireOf, hspells.bytes]
      simp only [length_append, length_cons, length_packEntries, length_map,
        hspells.field]
      omega
    exact Nat.le_trans hshorter hspells.size

/-! ### Seeds -/

theorem SocketAddr.ofOctets_octets (addr : SocketAddr) :
    ofOctets addr.octets = some addr.zeroed := by
  have hlen := length_octets addr
  cases addr with
  | v4 ip port =>
    have hread : readV4 .truncatedIpv4DirectAddr (v4 ip port).octets =
        .ok (.v4 ip port, []) :=
      readV4_eq_ok.mpr ⟨ip, port, rfl, (append_nil _).symm⟩
    rw [ofOctets, if_pos (show _ = 6 from hlen), hread]
    rfl
  | v6 ip port flowInfo scopeId =>
    have hlen : (v6 ip port flowInfo scopeId).octets.length = 18 := hlen
    have hread : readV6 .truncatedIpv6DirectAddr (v6 ip port flowInfo scopeId).octets =
        .ok (.v6 ip port 0 0, []) :=
      readV6_eq_ok.mpr ⟨ip, port, rfl, (append_nil _).symm⟩
    rw [ofOctets, if_neg (by rw [hlen]; decide), if_pos hlen, hread]
    rfl

theorem mapM_ofOctets (addrs : List SocketAddr) :
    (addrs.map octets).mapM ofOctets =
      some (addrs.map zeroed) := by
  induction addrs with
  | nil => rfl
  | cons addr rest ih =>
    rw [map_cons, mapM_cons, ofOctets_octets, ih]
    rfl

/-- A view keeps everything of a ticket that is on the wire. -/
theorem ofView_view (t : AsterTicket) : AsterTicket.ofView t.view = some t.zeroed := by
  have hrelay : (t.relay.map octets).mapM ofOctets =
      some (t.relay.map zeroed) := by
    cases t.relay with
    | none => rfl
    | some addr =>
      show (some <$> ofOctets addr.octets : Option (Option SocketAddr)) = _
      rw [ofOctets_octets]
      rfl
  simp only [AsterTicket.ofView, AsterTicket.view, hrelay, mapM_ofOctets]
  rfl

theorem isUtf8_of_ascii {bytes : Bytes} (h : ∀ b ∈ bytes, b < 0x80) :
    Coordination.isUtf8 bytes = true := by
  induction bytes with
  | nil => rfl
  | cons b rest ih =>
    rw [Coordination.isUtf8.eq_def]
    show (if b < 0x80 then _ else _) = true
    rw [if_pos (h b mem_cons_self)]
    exact ih fun b' hb' => h b' (mem_cons_of_mem b hb')

section Seeds

variable {base58 : Base58} {t : AsterTicket} {text : Bytes}

theorem toBase58String_eq_ok :
    t.toBase58String base58 = .ok text ↔
      ∃ w, t.encode = .ok w ∧ text = stringPrefix ++ base58.encode w := by
  simp only [AsterTicket.toBase58String, bind_accepts]
  refine exists_congr fun w => and_congr_right fun _ => ?_
  exact ⟨fun h => (Except.ok.inj h).symm, fun h => by rw [h]; rfl⟩

/-- The text of a ticket reads as that ticket. -/
theorem fromBase58Str_toBase58String (hlaw : base58.Lawful)
    (h : t.toBase58String base58 = .ok text) :
    AsterTicket.fromBase58Str base58 text = .ok t.zeroed := by
  obtain ⟨w, hw, rfl⟩ := toBase58String_eq_ok.mp h
  have htake : (stringPrefix ++ base58.encode w).take 6 = stringPrefix := take_left' rfl
  have hdrop : (stringPrefix ++ base58.encode w).drop 6 = base58.encode w := drop_left' rfl
  simp only [AsterTicket.fromBase58Str, htake, hdrop, bne_self_eq_false, refuseIf_false, ok_bind,
    hlaw.decode_encode, Except.mapError]
  exact decode_encode hw

/-- **What a seed ticket may be**: the text of a ticket of the node that carries no secret. -/
theorem checkSeedTicket_accepts (hlaw : base58.Lawful) (ext : Externals) {node : NodeId} :
    checkSeedTicket (withTickets base58 ext) text node = .ok () ↔
      ∃ t : AsterTicket, t.toBase58String base58 = .ok text ∧ t.endpointId = node ∧
        (t.credential = none ∨ t.credential = some .openAccess) := by
  simp only [checkSeedTicket, accepts_iff, Bool.or_eq_true, beq_iff_eq]
  constructor
  · rintro ⟨-, -, _, hparsed, canonical, hcanon, rfl, hcred, hnode⟩
    obtain ⟨t, hread, rfl⟩ := Option.map_eq_some_iff.mp hparsed
    refine ⟨t.zeroed, ?_, hnode, hcred⟩
    have hwrite : ((AsterTicket.ofView t.view).bind fun t => (t.toBase58String base58).toOption) =
        some canonical := hcanon
    rw [ofView_view, Option.bind_some] at hwrite
    cases hok : t.zeroed.toBase58String base58 with
    | error =>
      rw [hok] at hwrite
      cases hwrite
    | ok =>
      rw [hok] at hwrite
      rw [Option.some.inj hwrite]
  · rintro ⟨t, htext, hnode, hcred⟩
    have hread := fromBase58Str_toBase58String hlaw htext
    have hwrite : t.zeroed.zeroed.toBase58String base58 = .ok text := by
      rw [AsterTicket.zeroed_zeroed, toBase58String_eq_ok]
      simp only [encode_zeroed]
      exact toBase58String_eq_ok.mp htext
    have hascii : ∀ b ∈ text, b < 0x80 := by
      obtain ⟨w, -, rfl⟩ := toBase58String_eq_ok.mp htext
      intro b hb
      rcases mem_append.mp hb with hb | hb
      · have hprefix : ∀ b ∈ stringPrefix, b < 0x80 := by decide +kernel
        exact hprefix b hb
      · exact hlaw.ascii w b hb
    refine ⟨?_, isUtf8_of_ascii hascii, t.zeroed.view, ?_, text, ?_, rfl, hcred, hnode⟩
    · obtain ⟨w, -, rfl⟩ := toBase58String_eq_ok.mp htext
      rfl
    · show (AsterTicket.fromBase58Str base58 text).toOption.map AsterTicket.view = _
      rw [hread]
      rfl
    · show ((AsterTicket.ofView t.zeroed.view).bind fun t =>
        (t.toBase58String base58).toOption) = some text
      rw [ofView_view, Option.bind_some, hwrite]
      rfl

/-- **One spelling per ticket**: a written ticket reads as itself; what reads as a ticket is
written back with what the reader ignores cleared; and of a route without a secret a seed is
accepted in one spelling without a credential and in one with an open one, and in no other. -/
theorem ticket_spelling (base58 : Base58) (hlaw : base58.Lawful) (ext : Externals) :
    (∀ (t : AsterTicket) (w : Bytes), t.encode = .ok w → AsterTicket.decode w = .ok t.zeroed) ∧
    (∀ (w : Bytes) (t : AsterTicket), AsterTicket.decode w = .ok t →
      t.encode = .ok (cleared w)) ∧
    (∀ (t : AsterTicket), t.encode.isOk = true →
      (t.credential = none ∨ t.credential = some .openAccess) →
      ∃! text, checkSeedTicket (withTickets base58 ext) text t.endpointId = .ok () ∧
        AsterTicket.fromBase58Str base58 text = .ok t.zeroed) ∧
    (∀ (text : Bytes) (node : NodeId),
      checkSeedTicket (withTickets base58 ext) text node = .ok () →
      ∃ t : AsterTicket, t.encode.isOk = true ∧ t.endpointId = node ∧
        (t.credential = none ∨ t.credential = some .openAccess) ∧
        AsterTicket.fromBase58Str base58 text = .ok t.zeroed) := by
  refine ⟨fun t w h => decode_encode h, fun w t h => encode_decode h, ?_, ?_⟩
  · intro t hencode hcred
    obtain ⟨w, hw⟩ := isOk_iff.mp hencode
    have htext : t.toBase58String base58 = .ok (stringPrefix ++ base58.encode w) :=
      toBase58String_eq_ok.mpr ⟨w, hw, rfl⟩
    refine ⟨stringPrefix ++ base58.encode w, ⟨?_, fromBase58Str_toBase58String hlaw htext⟩, ?_⟩
    · exact (checkSeedTicket_accepts hlaw ext).mpr ⟨t, htext, rfl, hcred⟩
    · -- another accepted text is the text of the ticket it reads as, which is this one
      rintro text' ⟨hacc, hread⟩
      obtain ⟨t', htext', -, -⟩ := (checkSeedTicket_accepts hlaw ext).mp hacc
      have hread' := fromBase58Str_toBase58String hlaw htext'
      have hsame : t'.zeroed = t.zeroed := Except.ok.inj (hread'.symm.trans hread)
      obtain ⟨_, hw', rfl⟩ := toBase58String_eq_ok.mp htext'
      rw [← encode_zeroed, hsame, encode_zeroed, hw] at hw'
      rw [Except.ok.inj hw']
  · intro text node hacc
    obtain ⟨t, htext, hnode, hcred⟩ := (checkSeedTicket_accepts hlaw ext).mp hacc
    obtain ⟨w, hw, -⟩ := toBase58String_eq_ok.mp htext
    exact ⟨t, isOk_iff.mpr ⟨w, hw⟩, hnode, hcred, fromBase58Str_toBase58String hlaw htext⟩

end Seeds

/-! ### Two spellings of a route -/

namespace Sample

/-- A stand-in for base58: two letters for a byte. -/
def letters : Base58 where
  encode bytes := bytes.flatMap fun b => [65 + b / 16, 65 + b % 16]
  decode := pairs
where
  pairs : Bytes → Except String Bytes
    | [] => .ok []
    | hi :: lo :: rest => (pairs rest).map fun bytes => ((hi - 65) * 16 + (lo - 65)) :: bytes
    | [_] => .error "odd length"

theorem letters_lawful : letters.Lawful where
  ascii := by
    intro bytes b hb
    obtain ⟨c, -, hc⟩ := mem_flatMap.mp hb
    have htable : ∀ c : UInt8, 65 + c / 16 < 0x80 ∧ 65 + c % 16 < 0x80 :=
      forall_byte (by decide +kernel)
    simp only [mem_cons, not_mem_nil, or_false] at hc
    rcases hc with rfl | rfl
    · exact (htable c).1
    · exact (htable c).2
  decode_encode := by
    intro bytes
    have hbyte : ∀ b : UInt8, (65 + b / 16 - 65) * 16 + (65 + b % 16 - 65) = b :=
      forall_byte (by decide +kernel)
    induction bytes with
    | nil => rfl
    | cons b rest ih =>
      show (letters.pairs (rest.flatMap fun b => [65 + b / 16, 65 + b % 16])).map _ = _
      rw [show letters.pairs (rest.flatMap fun b => [65 + b / 16, 65 + b % 16]) = .ok rest from ih]
      show Except.ok (((65 + b / 16 - 65) * 16 + (65 + b % 16 - 65)) :: rest) = .ok (b :: rest)
      rw [hbyte b]

/-- A ticket of a node and nothing else. -/
def bare : AsterTicket := ⟨FixedBytes.fill 32 1, none, [], none⟩

/-- The same route, with an open credential. -/
def opened : AsterTicket := { bare with credential := some .openAccess }

/-- A ticket with one address of each kind. -/
def addressed : AsterTicket :=
  { bare with
    relay := some (.v4 (FixedBytes.fill 4 127) 443)
    directAddrs := [.v6 (FixedBytes.fill 16 2) 8080 7 9, .v4 (FixedBytes.fill 4 10) 80] }

/-- The bare ticket with the reserved bits of its count byte set. -/
def reserved : Bytes := replicate 32 1 ++ [0x10, 0x0F]

end Sample

open Sample

/-- **Where the format has more than one spelling**: the reserved bits of the count byte are
ignored too, and no header bit, bitmap bit or payload is there to be cleared; and a seed of one
route is accepted both without a credential and with an open one. -/
theorem ticket_spelled_twice :
    (AsterTicket.decode reserved = .ok bare ∧ bare.encode ≠ .ok reserved) ∧
    ∃ text text' : Bytes, text ≠ text' ∧ bare.toBase58String letters = .ok text ∧
      opened.toBase58String letters = .ok text' ∧
      checkSeedTicket (withTickets letters externals) text
        (FixedBytes.fill 32 1) = .ok () ∧
      checkSeedTicket (withTickets letters externals) text'
        (FixedBytes.fill 32 1) = .ok () := by
  refine ⟨⟨by decide +kernel, by decide +kernel⟩, stringPrefix ++ letters.encode
    (wireOf bare), stringPrefix ++ letters.encode (wireOf opened),
    by decide +kernel, by decide +kernel, by decide +kernel, ?_, ?_⟩
  · exact (checkSeedTicket_accepts letters_lawful _).mpr
      ⟨bare, by decide +kernel, rfl, .inl rfl⟩
  · exact (checkSeedTicket_accepts letters_lawful _).mpr
      ⟨opened, by decide +kernel, rfl, .inr rfl⟩

/-- The spelling of a ticket with a relay and two addresses, and its one seed text. -/
theorem ticket_spelling_addressed :
    AsterTicket.decode (wireOf addressed) = .ok addressed.zeroed ∧
      ∃! text, checkSeedTicket (withTickets letters externals) text
        (FixedBytes.fill 32 1) = .ok () ∧
        AsterTicket.fromBase58Str letters text = .ok addressed.zeroed := by
  have h := ticket_spelling letters letters_lawful externals
  have hencode : addressed.encode = .ok (wireOf addressed) := by decide +kernel
  exact ⟨h.1 _ _ hencode,
    h.2.2.1 addressed (isOk_iff.mpr ⟨_, hencode⟩) (.inl rfl)⟩

end AsterRpc.Wire

import AsterRpc.Coordination.Ids
import AsterRpc.Foundation.FixedWidth

/-!
# Frames

`core/src/framing.rs`: a frame is a little-endian length, a flags byte and a
payload, which the sender compresses when that makes it smaller.  The sender
bounds the frame it writes, the receiver bounds what a payload expands to; the
two bounds are on different quantities, and the length the sender writes is the
payload's truncated to 32 bits.  A payload comes back exactly when it is no
longer than what the receiver will expand.
-/

namespace AsterRpc.Wire

open AsterRpc.Foundation List
open AsterRpc.Coordination (Bytes)

variable {payload frame : Bytes} {flags : UInt8}

def flagCompressed : UInt8 := 0x01
def flagTrailer : UInt8 := 0x02
def flagCancel : UInt8 := 0x20
def flagEndStream : UInt8 := 0x40

def maxFrameSize : ℕ := 16 * 1024 * 1024
def compressionThreshold : ℕ := 4096
def maxDecompressedSize : ℕ := 16 * 1024 * 1024

inductive FrameError where
  | compress (e : String)
  | decoderInit (e : String)
  | decompress (e : String)
  | decompressedTooLarge (limit : ℕ)
  | emptyPayload
  | bodyTooLarge (length : ℕ)
  | shortHeader (got : ℕ)
  | zeroLength
  | incomplete (need got : ℕ)
deriving DecidableEq

/-! ### Compression -/

/-- The zstd library: `bulk::compress` at the level the sender uses, and the streaming decoder,
which yields bytes and then ends or fails. -/
structure Zstd where
  compress : Bytes → Except String Bytes
  decoder : Bytes → Except String (Bytes × Option String)

/-- Decompression inverts compression. -/
def Zstd.Inverts (zstd : Zstd) : Prop :=
  ∀ payload compressed, zstd.compress payload = .ok compressed →
    zstd.decoder compressed = .ok (payload, none)

section Zstd

variable (zstd : Zstd)

/-- `maybe_compress`. -/
def maybeCompress (payload : Bytes) (threshold : ℕ) : Except FrameError (Option Bytes) :=
  if payload.length ≤ threshold then .ok none
  else do
    let compressed ← (zstd.compress payload).mapError .compress
    return if compressed.length < payload.length then some compressed else none

/-- `take(n).read_to_end`: a failure after the `n`th byte is never seen. -/
def readToEnd (n : ℕ) (stream : Bytes × Option String) : Except FrameError Bytes :=
  if n ≤ stream.1.length then .ok (stream.1.take n)
  else
    match stream.2 with
    | none => .ok stream.1
    | some e => .error (.decompress e)

/-- `decompress_with_limit`. -/
def decompressWithLimit (data : Bytes) (limit : ℕ) : Except FrameError Bytes := do
  let decoder ← (zstd.decoder data).mapError .decoderInit
  let out ← readToEnd (limit + 1) decoder
  refuseIf (out.length > limit) (.decompressedTooLarge limit)
  return out

/-- `decompress`. -/
def decompress (data : Bytes) : Except FrameError Bytes :=
  decompressWithLimit zstd data maxDecompressedSize

/-- `payload_of`: the logical payload of a received frame. -/
def payloadOf (payload : Bytes) (flags : UInt8) : Except FrameError Bytes :=
  if flags &&& flagCompressed ≠ 0 then decompress zstd payload else .ok payload

end Zstd

/-! ### Frames -/

/-- The body length the sender writes, in the arithmetic of `u32`. -/
def frameBodyLen (payload : Bytes) : ℕ := (1 + payload.length % 2 ^ 32) % 2 ^ 32

/-- `encode_frame`. -/
def encodeFrame (payload : Bytes) (flags : UInt8) : Except FrameError Bytes := do
  refuseIf (payload.isEmpty && flags &&& (flagTrailer ||| flagCancel ||| flagEndStream) == 0)
    .emptyPayload
  refuseIf (frameBodyLen payload > maxFrameSize) (.bodyTooLarge (frameBodyLen payload))
  return toLittleEndian 4 (frameBodyLen payload) ++ flags :: payload

/-- `encode_payload_frame_with_threshold`. -/
def encodePayloadFrameWithThreshold (zstd : Zstd) (payload : Bytes) (flags : UInt8)
    (threshold : ℕ) : Except FrameError Bytes := do
  match ← maybeCompress zstd payload threshold with
  | some compressed => encodeFrame compressed (flags ||| flagCompressed)
  | none => encodeFrame payload (flags &&& ~~~flagCompressed)

/-- `encode_payload_frame`. -/
def encodePayloadFrame (zstd : Zstd) (payload : Bytes) (flags : UInt8) : Except FrameError Bytes :=
  encodePayloadFrameWithThreshold zstd payload flags compressionThreshold

/-- `decode_frame`: the payload, the flags and the bytes consumed. -/
def decodeFrame (data : Bytes) : Except FrameError (Bytes × UInt8 × ℕ) := do
  refuseIf (data.length < 4) (.shortHeader data.length)
  let frameBodyLen := ofLittleEndian (data.take 4)
  refuseIf (frameBodyLen == 0) .zeroLength
  refuseIf (frameBodyLen > maxFrameSize) (.bodyTooLarge frameBodyLen)
  let totalLen := 4 + frameBodyLen
  refuseIf (data.length < totalLen) (.incomplete totalLen data.length)
  return ((data.take totalLen).drop 5, data.getD 4 0, totalLen)

/-- Decode a number of frames one after the other, each to its logical payload and its flags;
what is left of the data comes back too. -/
def decodeFrames (zstd : Zstd) : ℕ → Bytes → Except FrameError (List (Bytes × UInt8) × Bytes)
  | 0, data => .ok ([], data)
  | count + 1, data => do
    let (body, flags, consumed) ← decodeFrame data
    let payload ← payloadOf zstd body flags
    let (rest, left) ← decodeFrames zstd count (data.drop consumed)
    return ((payload, flags) :: rest, left)

/-! ### One frame -/

theorem encodeFrame_accepts (h : encodeFrame payload flags = .ok frame) :
    frameBodyLen payload ≤ maxFrameSize ∧
      frame = toLittleEndian 4 (frameBodyLen payload) ++ flags :: payload := by
  simp only [encodeFrame, accepts_iff] at h
  obtain ⟨-, hsize, hframe⟩ := h
  exact ⟨hsize, hframe.symm⟩

/-- A frame whose body length was not truncated reads back, with whatever stands behind it. -/
theorem decodeFrame_encodeFrame {suffix : Bytes} (hsmall : payload.length < maxFrameSize)
    (h : encodeFrame payload flags = .ok frame) :
    decodeFrame (frame ++ suffix) = .ok (payload, flags, frame.length) := by
  obtain ⟨-, rfl⟩ := encodeFrame_accepts h
  have hbody : frameBodyLen payload = payload.length + 1 := by
    rw [maxFrameSize] at hsmall
    rw [frameBodyLen]
    omega
  rw [hbody]
  have hrange : payload.length + 1 < 256 ^ 4 := by
    simp only [maxFrameSize] at hsmall
    omega
  have hread := ofLittleEndian_toLittleEndian hrange
  have hhead : (toLittleEndian 4 (payload.length + 1)).length = 4 := length_toLittleEndian _ _
  -- from here on the header is any four bytes that read back
  generalize toLittleEndian 4 (payload.length + 1) = header at hread hhead ⊢
  have hframe : (header ++ flags :: payload).length = 4 + (payload.length + 1) := by
    rw [length_append, length_cons, hhead]
  have htake : (header ++ flags :: payload ++ suffix).take 4 = header := by
    rw [append_assoc, ← hhead, take_left]
  have hflags : (header ++ flags :: payload ++ suffix).getD 4 0 = flags := by
    rw [append_assoc, getD_append_right _ _ _ _ (by omega)]
    simp [hhead]
  have hpay : (header ++ flags :: payload).drop 5 = payload := by
    rw [drop_append, hhead]
    simp [hhead]
  have hlen : (header ++ flags :: payload ++ suffix).length =
      (header ++ flags :: payload).length + suffix.length := length_append
  simp only [decodeFrame, accepts_iff, htake, hread, hflags, ← hframe, take_left, hpay,
    beq_eq_false_iff_ne, and_true]
  refine ⟨?_, ?_, ?_, ?_⟩ <;> omega

/-- No frame carries a body longer than the receiver allows. -/
theorem length_le_of_decodeFrame {data body : Bytes} {consumed : ℕ}
    (h : decodeFrame data = .ok (body, flags, consumed)) : body.length < maxFrameSize := by
  simp only [decodeFrame, accepts_iff, beq_eq_false_iff_ne] at h
  obtain ⟨-, hzero, hsize, -, hok⟩ := h
  have hbody : (data.take (4 + ofLittleEndian (data.take 4))).drop 5 = body :=
    congrArg Prod.fst hok
  rw [← hbody, length_drop, length_take]
  omega

/-! ### Payloads -/

section Payloads

variable {zstd : Zstd} {data payload compressed : Bytes}

theorem decompress_length (h : decompress zstd data = .ok payload) :
    payload.length ≤ maxDecompressedSize := by
  simp only [decompress, decompressWithLimit, accepts_iff] at h
  obtain ⟨-, -, -, _, -, hsize, rfl⟩ := h
  exact hsize

/-- What a receiver makes of any frame is within its decompression limit. -/
theorem payloadOf_length {body : Bytes} {flags : UInt8} {consumed : ℕ}
    (hframe : decodeFrame data = .ok (body, flags, consumed))
    (h : payloadOf zstd body flags = .ok payload) : payload.length ≤ maxDecompressedSize := by
  rw [payloadOf] at h
  split_ifs at h with hflag
  · exact decompress_length h
  · rw [← Except.ok.inj h]
    exact Nat.le_of_lt (length_le_of_decodeFrame hframe)

/-- What was compressed comes back when it is within the limit. -/
theorem decompress_compress (hinv : zstd.Inverts) (hsize : payload.length ≤ maxDecompressedSize)
    (h : zstd.compress payload = .ok compressed) : decompress zstd compressed = .ok payload := by
  have hread : readToEnd (maxDecompressedSize + 1) (payload, none) = .ok payload := by
    rw [readToEnd, if_neg (by show ¬ maxDecompressedSize + 1 ≤ payload.length; omega)]
  have hlimit : ¬ (payload.length > maxDecompressedSize) := by omega
  simp only [decompress, decompressWithLimit, hinv payload compressed h, Except.mapError, ok_bind,
    hread, hlimit, decide_false, refuseIf_false]
  rfl

/-- What is too large is refused after compression. -/
theorem decompress_refuses (hinv : zstd.Inverts) (hsize : maxDecompressedSize < payload.length)
    (h : zstd.compress payload = .ok compressed) :
    decompress zstd compressed = .error (.decompressedTooLarge maxDecompressedSize) := by
  have hread : readToEnd (maxDecompressedSize + 1) (payload, none) =
      .ok (payload.take (maxDecompressedSize + 1)) := by
    rw [readToEnd, if_pos (by show maxDecompressedSize + 1 ≤ payload.length; omega)]
  have hlimit : (payload.take (maxDecompressedSize + 1)).length > maxDecompressedSize := by
    rw [length_take]
    omega
  simp only [decompress, decompressWithLimit, hinv payload compressed h, Except.mapError, ok_bind,
    hread, hlimit, decide_true]
  rfl

theorem compressed_set (flags : UInt8) : (flags ||| flagCompressed) &&& flagCompressed ≠ 0 :=
  forall_byte (P := fun flags => (flags ||| flagCompressed) &&& flagCompressed ≠ 0)
    (by decide +kernel) flags

theorem compressed_cleared (flags : UInt8) :
    (flags &&& ~~~flagCompressed) &&& flagCompressed = 0 :=
  forall_byte (P := fun flags => (flags &&& ~~~flagCompressed) &&& flagCompressed = 0)
    (by decide +kernel) flags

end Payloads

/-! ### Senders and receivers -/

/-- A payload handed to the sender, and the frame that was made of it. -/
structure Sent where
  payload : Bytes
  flags : UInt8
  threshold : ℕ
  frame : Bytes

/-- Equal but for the compression bit. -/
def SameFlags (flags flags' : UInt8) : Prop :=
  flags &&& ~~~flagCompressed = flags' &&& ~~~flagCompressed

namespace Sent

variable (zstd : Zstd)

/-- The sender framed the payload. -/
def Framed (s : Sent) : Prop :=
  encodePayloadFrameWithThreshold zstd s.payload s.flags s.threshold = .ok s.frame

/-- A receiver that finds the frame at the front of its input reads the payload off it. -/
def Readable (s : Sent) : Prop :=
  ∀ suffix, ∃ body flags, decodeFrame (s.frame ++ suffix) = .ok (body, flags, s.frame.length) ∧
    SameFlags flags s.flags ∧ payloadOf zstd body flags = .ok s.payload

end Sent

/-- A receiver that finds the frames one behind the other reads the payloads off them. -/
def ReadBack (zstd : Zstd) (sent : List Sent) : Prop :=
  ∀ suffix, ∃ read,
    decodeFrames zstd sent.length ((sent.map Sent.frame).flatten ++ suffix) = .ok (read, suffix) ∧
    List.Forall₂ (fun r (s : Sent) => r.1 = s.payload ∧ SameFlags r.2 s.flags) read sent

section Exchange

variable {zstd : Zstd} {s : Sent} {sent : List Sent}

theorem sameFlags_set (flags : UInt8) : SameFlags (flags ||| flagCompressed) flags :=
  forall_byte (P := fun flags => SameFlags (flags ||| flagCompressed) flags)
    (by unfold SameFlags; decide +kernel) flags

theorem sameFlags_cleared (flags : UInt8) : SameFlags (flags &&& ~~~flagCompressed) flags := by
  rw [SameFlags, UInt8.and_assoc, UInt8.and_self]

/-- The two ways a payload is framed. -/
theorem Sent.Framed.body (h : s.Framed zstd) :
    (∃ compressed, zstd.compress s.payload = .ok compressed ∧
      compressed.length < s.payload.length ∧
      encodeFrame compressed (s.flags ||| flagCompressed) = .ok s.frame) ∨
    encodeFrame s.payload (s.flags &&& ~~~flagCompressed) = .ok s.frame := by
  simp only [Framed, encodePayloadFrameWithThreshold, bind_accepts] at h
  obtain ⟨_, hchoice, hframe⟩ := h
  rw [maybeCompress] at hchoice
  split_ifs at hchoice with hthreshold
  · cases hchoice
    exact .inr hframe
  · cases hcompress : zstd.compress s.payload with
    | error =>
      rw [hcompress] at hchoice
      cases hchoice
    | ok compressed =>
      rw [hcompress] at hchoice
      have hpick := Except.ok.inj hchoice
      split_ifs at hpick with hsmaller
      · subst hpick
        exact .inl ⟨compressed, rfl, hsmaller, hframe⟩
      · subst hpick
        exact .inr hframe

theorem Sent.Framed.readable (hinv : zstd.Inverts) (h : s.Framed zstd)
    (hsize : s.payload.length ≤ maxDecompressedSize) : s.Readable zstd := by
  intro suffix
  rcases h.body with ⟨compressed, hcompress, hsmaller, hframe⟩ | hframe
  · have hbody : compressed.length < maxFrameSize := Nat.lt_of_lt_of_le hsmaller hsize
    refine ⟨compressed, s.flags ||| flagCompressed, decodeFrame_encodeFrame hbody hframe,
      sameFlags_set s.flags, ?_⟩
    rw [payloadOf, if_pos (compressed_set s.flags)]
    exact decompress_compress hinv hsize hcompress
  · -- the flags byte takes one byte of the frame limit away
    have hbody : s.payload.length < maxFrameSize := by
      have hacc := (encodeFrame_accepts hframe).1
      rw [frameBodyLen] at hacc
      simp only [maxFrameSize, maxDecompressedSize] at hacc hsize ⊢
      omega
    refine ⟨s.payload, s.flags &&& ~~~flagCompressed, decodeFrame_encodeFrame hbody hframe,
      sameFlags_cleared s.flags, ?_⟩
    rw [payloadOf, if_neg (not_not.mpr (compressed_cleared s.flags))]

theorem Sent.Readable.length_le (h : s.Readable zstd) : s.payload.length ≤ maxDecompressedSize := by
  obtain ⟨_, _, hframe, -, hpay⟩ := h []
  exact payloadOf_length hframe hpay

theorem readBack_of_readable (h : ∀ s ∈ sent, s.Readable zstd) : ReadBack zstd sent := by
  induction sent with
  | nil => exact fun suffix => ⟨[], rfl, .nil⟩
  | cons s rest ih =>
    intro suffix
    obtain ⟨read, hread, hsame⟩ := ih (fun s' hs' => h s' (mem_cons_of_mem s hs')) suffix
    obtain ⟨_, flags, hframe, hflags, hpay⟩ :=
      h s mem_cons_self ((rest.map Sent.frame).flatten ++ suffix)
    refine ⟨(s.payload, flags) :: read, ?_, .cons ⟨rfl, hflags⟩ hsame⟩
    rw [map_cons, flatten_cons, append_assoc, length_cons, decodeFrames, hframe]
    simp only [ok_bind, hpay, drop_left, hread]
    rfl

/-- Whatever is read off any bytes is within the receiver's limit. -/
theorem decodeFrames_length {count : ℕ} {data left : Bytes} {read : List (Bytes × UInt8)}
    (h : decodeFrames zstd count data = .ok (read, left)) :
    ∀ r ∈ read, r.1.length ≤ maxDecompressedSize := by
  induction count generalizing data read with
  | zero =>
    cases h
    exact fun r hr => absurd hr not_mem_nil
  | succ count ih =>
    simp only [decodeFrames, accepts_iff] at h
    obtain ⟨_, _, _, hframe, _, hpay, _, _, hrest, hok⟩ := h
    cases hok
    exact forall_mem_cons.mpr ⟨payloadOf_length hframe hpay, ih hrest⟩

theorem ReadBack.length_le (h : ReadBack zstd sent) :
    ∀ s ∈ sent, s.payload.length ≤ maxDecompressedSize := by
  intro s hs
  obtain ⟨read, hread, hsame⟩ := h []
  obtain ⟨r, hr, hpay, -⟩ : ∃ r ∈ read, r.1 = s.payload ∧ SameFlags r.2 s.flags := by
    obtain ⟨i, hi, rfl⟩ := mem_iff_getElem.mp hs
    have hi' : i < read.length := by rw [hsame.length_eq]; exact hi
    exact ⟨read[i], getElem_mem hi', hsame.get hi' hi⟩
  rw [← hpay]
  exact decodeFrames_length hread r hr

/-- **What a receiver can read of what a sender may frame**: a framed payload comes back, with its
flags but for the compression bit and with the frame's own length consumed, exactly when it is no
longer than what the receiver expands; and so for any list of frames one behind the other. -/
theorem framed_readable_iff (zstd : Zstd) (hinv : zstd.Inverts) :
    (∀ s : Sent, s.Framed zstd →
      (s.Readable zstd ↔ s.payload.length ≤ maxDecompressedSize)) ∧
    ∀ sent : List Sent, (∀ s ∈ sent, s.Framed zstd) →
      (ReadBack zstd sent ↔ ∀ s ∈ sent, s.payload.length ≤ maxDecompressedSize) := by
  constructor
  · intro s hs
    exact ⟨Sent.Readable.length_le, hs.readable hinv⟩
  · intro sent hsent
    refine ⟨ReadBack.length_le, ?_⟩
    intro hsize
    exact readBack_of_readable fun s hs => (hsent s hs).readable hinv (hsize s hs)

end Exchange

/-! ### A run-length compressor -/

namespace Sample

/-- Compresses a run of one byte to that byte and the run's length, and nothing else. -/
def runLength : Zstd where
  compress payload :=
    if payload.length < 256 ^ 8 ∧ payload.all (· == payload.headD 0) then
      .ok (1 :: payload.headD 0 :: toLittleEndian 8 payload.length)
    else .ok (0 :: payload)
  decoder
    | 0 :: payload => .ok (payload, none)
    | 1 :: byte :: length => .ok (replicate (ofLittleEndian length) byte, none)
    | _ => .error "Unknown frame descriptor"

theorem runLength_inverts : runLength.Inverts := by
  intro payload compressed h
  simp only [runLength] at h ⊢
  split_ifs at h with hrun
  · obtain ⟨hlen, hall⟩ := hrun
    cases h
    have hreplicate : replicate payload.length (payload.headD 0) = payload := by
      symm
      rw [eq_replicate_iff]
      refine ⟨rfl, fun b hb => ?_⟩
      exact beq_iff_eq.mp (all_eq_true.mp hall b hb)
    simp only [ofLittleEndian_toLittleEndian hlen, hreplicate]
  · cases h
    rfl

/-- Zeroes, one more than the receiver expands. -/
def zeroes : Sent where
  payload := replicate (maxDecompressedSize + 1) 0
  flags := 0
  threshold := compressionThreshold
  frame := toLittleEndian 4 11 ++ 1 :: 1 :: 0 :: toLittleEndian 8 (maxDecompressedSize + 1)

/-- A payload that is not compressed, of a length that is `1` in 32 bits. -/
def truncated : Sent where
  payload := replicate (2 ^ 32 + 1) 7
  flags := 0
  threshold := 2 ^ 64 - 1
  frame := toLittleEndian 4 2 ++ 0 :: replicate (2 ^ 32 + 1) 7

def greeting : Sent where
  payload := [104, 105]
  flags := flagEndStream
  threshold := compressionThreshold
  frame := [3, 0, 0, 0, 0x40, 104, 105]

/-- A run is compressed to ten bytes. -/
theorem compress_replicate {n : ℕ} (byte : UInt8) (hpos : 0 < n) (hn : n < 256 ^ 8) :
    runLength.compress (replicate n byte) = .ok (1 :: byte :: toLittleEndian 8 n) := by
  obtain ⟨m, rfl⟩ := Nat.exists_eq_add_of_lt hpos
  have hhead : (replicate (0 + m + 1) byte).headD 0 = byte := by
    rw [replicate_succ, headD_cons]
  have hrun : (replicate (0 + m + 1) byte).length < 256 ^ 8 ∧
      (replicate (0 + m + 1) byte).all (· == byte) := by
    rw [length_replicate]
    refine ⟨hn, all_eq_true.mpr fun b hb => ?_⟩
    rw [eq_of_mem_replicate hb, beq_self_eq_true]
  show (if _ then _ else _) = _
  rw [hhead, if_pos hrun, length_replicate]

theorem length_zeroes : zeroes.payload.length = maxDecompressedSize + 1 := length_replicate

theorem length_truncated : truncated.payload.length = 2 ^ 32 + 1 := length_replicate

theorem compress_zeroes : runLength.compress zeroes.payload =
    .ok (1 :: 0 :: toLittleEndian 8 (maxDecompressedSize + 1)) :=
  compress_replicate 0 (by decide) (by decide)

theorem zeroes_framed : zeroes.Framed runLength := by
  have hlong : ¬ (zeroes.payload.length ≤ zeroes.threshold) := by
    rw [length_zeroes]
    decide
  have hsmaller : (1 :: 0 :: toLittleEndian 8 (maxDecompressedSize + 1) : Bytes).length <
      zeroes.payload.length := by
    rw [length_zeroes]
    decide
  rw [Sent.Framed, encodePayloadFrameWithThreshold, maybeCompress, if_neg hlong, compress_zeroes]
  simp only [Except.mapError, ok_bind, hsmaller, if_true, pure, Except.pure]
  rfl

theorem truncated_framed : truncated.Framed runLength := by
  have hshort : truncated.payload.length ≤ truncated.threshold := by
    rw [length_truncated]
    decide
  have hlen : frameBodyLen truncated.payload = 2 := by
    rw [frameBodyLen, length_truncated]
    decide
  have hfull : truncated.payload.isEmpty = false := by
    rw [isEmpty_eq_false_iff_exists_mem]
    exact ⟨7, mem_replicate.mpr ⟨by decide, rfl⟩⟩
  rw [Sent.Framed, encodePayloadFrameWithThreshold, maybeCompress, if_pos hshort]
  simp only [ok_bind, encodeFrame, hlen, hfull, Bool.false_and, refuseIf_false]
  rfl

/-- The first of the many bytes is all a receiver sees. -/
theorem decode_truncated : decodeFrame truncated.frame = .ok ([7], 0, 6) := by
  have hframe : truncated.frame =
      [2, 0, 0, 0, 0, 7] ++ replicate (2 ^ 32) 7 := by
    show toLittleEndian 4 2 ++ 0 :: replicate (2 ^ 32 + 1) 7 = _
    rw [replicate_succ]
    rfl
  have hone : encodeFrame [7] 0 = .ok [2, 0, 0, 0, 0, 7] := by decide
  rw [hframe, decodeFrame_encodeFrame (by decide) hone]
  rfl

end Sample

open Sample

/-- **Frames no receiver reads**: zeroes over the limit are framed, because the sender bounds what
they compress to, and every receiver refuses them; and a payload of `2 ^ 32 + 1` bytes is framed
with the length of one byte, and that byte is what a receiver makes of it. -/
theorem unreadable_frames :
    runLength.Inverts ∧
    (zeroes.Framed runLength ∧
      ∃ body flags, decodeFrame zeroes.frame = .ok (body, flags, zeroes.frame.length) ∧
        payloadOf runLength body flags = .error (.decompressedTooLarge maxDecompressedSize)) ∧
    (truncated.Framed runLength ∧ decodeFrame truncated.frame = .ok ([7], 0, 6) ∧
      truncated.payload ≠ [7]) := by
  refine ⟨runLength_inverts, ⟨zeroes_framed, ?_⟩, truncated_framed,
    decode_truncated, ?_⟩
  · refine ⟨1 :: 0 :: toLittleEndian 8 (maxDecompressedSize + 1), 1, by decide +kernel, ?_⟩
    have hover : maxDecompressedSize < zeroes.payload.length := by
      rw [length_zeroes]
      omega
    rw [payloadOf, if_pos (by decide)]
    exact decompress_refuses runLength_inverts hover compress_zeroes
  · intro h
    have hlen := congrArg length h
    rw [length_truncated] at hlen
    exact absurd hlen (by decide)

/-- Two frames one behind the other, read back. -/
theorem framed_readable_iff_greeting :
    greeting.Framed runLength ∧ greeting.Readable runLength ∧
      ReadBack runLength [greeting, greeting] := by
  have hframed : greeting.Framed runLength := by
    rw [Sent.Framed]
    decide
  have hiff := framed_readable_iff runLength runLength_inverts
  refine ⟨hframed, (hiff.1 _ hframed).mpr (by decide), (hiff.2 _ ?_).mpr ?_⟩
  · simpa using hframed
  · decide

end AsterRpc.Wire

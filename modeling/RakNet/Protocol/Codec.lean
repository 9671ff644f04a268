/-
Packet codec (`src/protocol/codec.rs`): the packets an established stream exchanges, and the datagram (frame set) that
wraps the reliability layer.

Datagrams do not round-trip. `decode_datagram` hands its slice to `read_u24_le`, which takes the slice by shared
reference and does not advance it, and then returns the rest of the same slice as the frame data. The three bytes of
the sequence number are therefore still in front of the frames.

- `decodeDatagram_encodeDatagram`: what the pair really computes.
- `datagram_never_roundtrips`: neither the frame data nor the frames of the loop ever come back as they were encoded.
-/
import RakNet.Protocol.Frame
import RakNet.Protocol.Packet

namespace RakNet

open Lib.Wire Lib.Wire.Reader

/-! ## Addresses -/

/-- a socket address, by address bytes and port -/
inductive SocketAddr where
  | v4 (ip : Vector UInt8 4) (port : UInt16)
  | v6 (ip : Vector UInt8 16) (port : UInt16)
deriving DecidableEq, Repr

/-- `write_address`: version byte, address (inverted for IPv4), port -/
def writeAddress : SocketAddr → Bytes
  | .v4 ip port => [4] ++ ip.toList.map (fun b => ~~~ b) ++ putU16 port
  | .v6 ip port => [6] ++ ip.toList ++ putU16 port

/-- `"0.0.0.0:0"` -/
def unspecifiedAddr : SocketAddr := .v4 (Vector.replicate 4 0) 0

/-! ## Connected packets -/

/-- the length and packet-id checks that open a decoder; `name` is the packet's name in the error texts -/
def expectPacket (minLen : Nat) (id : UInt8) (article name : String) : Reader Error Unit := do
  if (← remaining) < minLen then fail (.invalidPacket (name ++ " too short"))
  else
    let packetId ← getU8
    if packetId != id then fail (.invalidPacket ("Not " ++ article ++ " " ++ name ++ " packet"))
    else return ()

def encodeConnectionRequest (clientGuid timestamp : UInt64) : Bytes :=
  [idConnectionRequest] ++ putI64 clientGuid ++ putI64 timestamp ++ [0]

def decodeConnectionRequest (data : Bytes) : Result (UInt64 × UInt64) := Reader.run (do
  expectPacket (1 + 8 + 8 + 1) idConnectionRequest "a" "ConnectionRequest"
  let clientGuid ← getI64
  let timestamp ← getI64
  let _useEncryption ← getU8
  return (clientGuid, timestamp)) data

def encodeConnectionRequestAccepted (clientAddr : SocketAddr) (requestTimestamp acceptedTimestamp : UInt64) : Bytes :=
  [idConnectionRequestAccepted] ++ writeAddress clientAddr ++ putU16 0 ++
    (List.replicate 10 (writeAddress unspecifiedAddr)).flatten ++ putI64 requestTimestamp ++ putI64 acceptedTimestamp

def encodeConnectedPing (timestamp : UInt64) : Bytes := [idConnectedPing] ++ putI64 timestamp

def decodeConnectedPing (data : Bytes) : Result UInt64 := Reader.run (do
  expectPacket (1 + 8) idConnectedPing "a" "ConnectedPing"
  getI64) data

def encodeConnectedPong (pingTimestamp pongTimestamp : UInt64) : Bytes :=
  [idConnectedPong] ++ putI64 pingTimestamp ++ putI64 pongTimestamp

def decodeConnectedPong (data : Bytes) : Result (UInt64 × UInt64) := Reader.run (do
  expectPacket (1 + 8 + 8) idConnectedPong "a" "ConnectedPong"
  let pingTimestamp ← getI64
  let pongTimestamp ← getI64
  return (pingTimestamp, pongTimestamp)) data

def encodeDisconnectNotification : Bytes := [idDisconnectNotification]

def decodeDisconnectNotification : Bytes → Result Unit
  | [] => .err (.invalidPacket "DisconnectNotification empty")
  | packetId :: _ =>
    if packetId != idDisconnectNotification then .err (.invalidPacket "Not a DisconnectNotification packet")
    else .ok ()

/-! ## Decoders that check before they read -/

theorem safe_expectPacket (minLen : Nat) (id : UInt8) (article name : String) :
    Safe (expectPacket (minLen + 1) id article name) 0 minLen := by
  refine safe_guard _ ?_ 0
  exact (safe_getU8 minLen).bind fun packetId => (safe_fail _ _ _).ite (safe_pure _ _)

theorem decodeConnectionRequest_ne_panic (data : Bytes) : decodeConnectionRequest data ≠ .panic := by
  refine Safe.run_ne_panic (m := 0) ((safe_expectPacket (8 + 8 + 1) _ _ _).bind fun _ => ?_) data
  exact (safe_getI64 (8 + 1)).bind fun _ => (safe_getI64 1).bind fun _ => (safe_getU8 0).bind fun _ => safe_pure _ _

theorem decodeConnectedPing_ne_panic (data : Bytes) : decodeConnectedPing data ≠ .panic :=
  Safe.run_ne_panic ((safe_expectPacket 8 _ _ _).bind fun _ => safe_getI64 0) data

theorem decodeConnectedPong_ne_panic (data : Bytes) : decodeConnectedPong data ≠ .panic := by
  refine Safe.run_ne_panic (m := 0) ((safe_expectPacket (8 + 8) _ _ _).bind fun _ => ?_) data
  exact (safe_getI64 8).bind fun _ => (safe_getI64 0).bind fun _ => safe_pure _ _

theorem decodeDisconnectNotification_ne_panic (data : Bytes) : decodeDisconnectNotification data ≠ .panic := by
  unfold decodeDisconnectNotification
  cases data with
  | nil => simp
  | cons packetId rest => dsimp only; split_ifs <;> simp

/-! ## Datagrams -/

/-- `encode_datagram`: flag byte, sequence number byte by byte (little-endian), frames -/
def encodeDatagram (seq : U24) (frames : List Bytes) : Bytes :=
  [bitFlagDatagram ||| bitFlagValid] ++
    [UInt8.ofNat (seq.get &&& 0xFF), UInt8.ofNat ((seq.get >>> 8) &&& 0xFF), UInt8.ofNat ((seq.get >>> 16) &&& 0xFF)] ++
    frames.flatten

/-- `decode_datagram`: `buf = &data[1..]`, then `read_u24_le(&mut buf)`, which leaves `buf` where it was -/
def decodeDatagram (data : Bytes) : Result (U24 × Bytes) :=
  if data.length < 4 then .err (.invalidPacket "Datagram too short")
  else match data with
    | [] => .panic
    | packetId :: buf =>
      if !isDatagram packetId then .err (.invalidPacket "Not a datagram packet")
      else do
        let seq ← readU24 buf
        return (seq, buf)

theorem encodeDatagram_eq (seq : U24) (frames : List Bytes) :
    encodeDatagram seq frames = 0x84 :: (writeU24 seq ++ frames.flatten) := rfl

/-- **The datagram pair**: the sequence number comes back, and its three bytes stay in front of the frames. -/
theorem decodeDatagram_encodeDatagram (seq : U24) (frames : List Bytes) :
    decodeDatagram (encodeDatagram seq frames) = .ok (seq, writeU24 seq ++ frames.flatten) := by
  have hl : ¬ (encodeDatagram seq frames).length < 4 := by
    simp only [encodeDatagram_eq, List.length_cons, List.length_append, length_writeU24]; omega
  unfold decodeDatagram
  rw [if_neg hl]
  simp only [encodeDatagram_eq, readU24_writeU24, Outcome.bind_ok]
  rfl

/-- a datagram cut to a receive buffer still gives its sequence number -/
theorem decodeDatagram_take (seq : U24) (frames : List Bytes) {k : Nat} (hk : 4 ≤ k) :
    decodeDatagram ((encodeDatagram seq frames).take k) = .ok (seq, writeU24 seq ++ frames.flatten.take (k - 4)) := by
  have hcut : (encodeDatagram seq frames).take k = encodeDatagram seq [frames.flatten.take (k - 4)] := by
    obtain ⟨m, rfl⟩ := Nat.exists_eq_add_of_le' hk
    rw [encodeDatagram_eq, encodeDatagram_eq, List.take_succ_cons, List.take_append,
      List.take_of_length_le (by rw [length_writeU24]; omega), length_writeU24]
    simp
  rw [hcut, decodeDatagram_encodeDatagram]
  simp

/-- four bytes are enough for the flag byte and the sequence number -/
theorem decodeDatagram_ne_panic (data : Bytes) : decodeDatagram data ≠ .panic := by
  unfold decodeDatagram
  split_ifs with h
  · simp
  · match data with
    | [] | [_] | [_, _] | [_, _, _] => simp at h
    | packetId :: x :: y :: z :: buf =>
      dsimp only
      split_ifs
      · simp
      · simp [readU24]

theorem length_flatten_encode (fs : List Frame) :
    (fs.map Frame.encode).flatten.length = (fs.map Frame.encodedSize).sum := by
  rw [List.length_flatten, List.map_map]
  congr 1
  exact List.map_congr_left fun f _ => f.length_encode

/-- **Datagrams never round-trip.** For every sequence number, the decoded frame data is not the concatenation of the
encoded frames, and the frame loop on it never yields exactly the encoded frames and ends without an error: it has
three bytes more to consume than those frames take. -/
theorem datagram_never_roundtrips (p : Profile) (seq : U24) (frames : List Bytes) (fs : List Frame) :
    decodeDatagram (encodeDatagram seq frames) ≠ .ok (seq, frames.flatten) ∧
    ∀ data, decodeDatagram (encodeDatagram seq (fs.map Frame.encode)) = .ok (seq, data) →
      Frame.decodeFrames p data ≠ (fs, .ok ()) := by
  constructor
  · intro h
    rw [decodeDatagram_encodeDatagram] at h
    simp only [Outcome.ok.injEq, Prod.mk.injEq, true_and] at h
    have hlen := congrArg List.length h
    rw [List.length_append, length_writeU24] at hlen
    omega
  · intro data hdata h
    rw [decodeDatagram_encodeDatagram] at hdata
    simp only [Outcome.ok.injEq, Prod.mk.injEq, true_and] at hdata
    have hlen := Frame.decodeFrames_length h
    rw [← hdata, List.length_append, length_flatten_encode, length_writeU24] at hlen
    omega

/-- a reliable ordered frame carrying the two bytes of "hi" -/
def hiFrame : Frame := ((Frame.new .reliableOrdered [0x68, 0x69]).withMessageIndex (U24.new 0)).withOrder (U24.new 0) 0

/-- **A datagram that gains a frame.** At sequence number 0 the stray bytes parse as an empty unreliable frame, so the
loop reports two frames where one was sent, and no error. -/
theorem datagram_zero_gains_frame :
    ¬ (∀ (seq : U24) (frames : List Bytes),
      decodeDatagram (encodeDatagram seq frames) = .ok (seq, frames.flatten)) ∧
    decodeDatagram (encodeDatagram (U24.new 0) [hiFrame.encode]) =
      .ok (U24.new 0, [0, 0, 0] ++ hiFrame.encode) ∧
    Frame.decodeFrames .dev ([0, 0, 0] ++ hiFrame.encode) = ([Frame.new .unreliable [], hiFrame], .ok ()) := by
  refine ⟨?_, by decide, by decide⟩
  intro h
  exact absurd (h (U24.new 0) [hiFrame.encode]) (by decide)

end RakNet

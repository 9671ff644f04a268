/-
The packets of the handshake (`src/protocol/codec.rs`, `src/protocol/magic.rs`): the unconnected packets that open a
connection and the login packets that follow inside frames.

Every packet comes back from its decoder as it was encoded, with one exception by design: an `OpenConnectionRequest1`
carries its MTU as its own length, to which the decoder adds the 28 bytes of the IP and UDP headers.

- `readAddress_writeAddress`: addresses come back.
- `decode*_encode*`: so do packets.
-/
import RakNet.Protocol.Codec

namespace RakNet

open Lib.Wire Lib.Wire.Reader

def protocolVersion : UInt8 := 11

/-- `MAGIC` -/
def magic : Bytes := [0x00, 0xff, 0xff, 0x00, 0xfe, 0xfe, 0xfe, 0xfe, 0xfd, 0xfd, 0xfd, 0xfd, 0x12, 0x34, 0x56, 0x78]

/-- `check_magic` at the place the reader has reached, then 16 bytes on -/
def expectMagic : Reader Error Unit := do
  if (← peek).take magic.length != magic then fail .invalidMagic else advance 16

@[simp] theorem expectMagic_append (b : Bytes) : expectMagic (magic ++ b) = .ok ((), b) := by
  have htake : (magic ++ b).take magic.length = magic := List.take_left
  simp only [expectMagic, bind_apply, peek_apply, Outcome.bind_ok, htake, bne_self_eq_false, Bool.false_eq_true, if_false]
  exact advance_append 16 magic b rfl

/-- the id check of a packet that is long enough -/
@[simp] theorem expectPacket_cons (minLen : Nat) (id : UInt8) (article name : String) {b : Bytes}
    (h : minLen ≤ b.length + 1) : expectPacket minLen id article name (id :: b) = .ok ((), b) := by
  simp [expectPacket, Nat.not_lt.2 h]

/-! ## Addresses -/

/-- `read_address` -/
def readAddress : Reader Error SocketAddr := do
  if (← remaining) = 0 then fail (.invalidPacket "Address buffer empty")
  else
    let ipVersion ← getU8
    if ipVersion = 4 then
      if (← remaining) < 4 + 2 then fail (.invalidPacket "IPv4 address truncated")
      else
        let ip ← getBytes 4
        let port ← getU16
        return .v4 (ip.map fun b => ~~~ b) port
    else if ipVersion = 6 then
      if (← remaining) < 16 + 2 then fail (.invalidPacket "IPv6 address truncated")
      else
        let ip ← getBytes 16
        let port ← getU16
        return .v6 ip port
    else fail (.invalidPacket ("Unknown IP version: " ++ toString ipVersion))

@[simp] theorem readAddress_writeAddress (addr : SocketAddr) (b : Bytes) :
    readAddress (writeAddress addr ++ b) = .ok (addr, b) := by
  cases addr with
  | v4 ip port =>
    have hip : ip.toList.map (fun b => ~~~ b) = (ip.map fun b => ~~~ b).toList := (Vector.toList_map).symm
    have hback : (ip.map fun b => ~~~ b).map (fun b => ~~~ b) = ip := by
      ext i hi
      simp
    simp only [writeAddress, hip, List.append_assoc, List.cons_append, List.nil_append, readAddress, bind_apply,
      remaining_apply, Outcome.bind_ok, List.length_cons, Nat.succ_ne_zero, if_false, getU8_cons, if_true]
    rw [if_neg (by simp; omega)]
    simp [hback]
  | v6 ip port =>
    simp only [writeAddress, List.append_assoc, List.cons_append, List.nil_append, readAddress, bind_apply,
      remaining_apply, Outcome.bind_ok, List.length_cons, Nat.succ_ne_zero, if_false, getU8_cons]
    rw [if_neg (by decide), if_pos trivial]
    simp only [bind_apply, remaining_apply, Outcome.bind_ok]
    rw [if_neg (by simp; omega)]
    simp

/-- read `n` addresses and drop them -/
def skipAddresses : Nat → Reader Error Unit
  | 0 => pure ()
  | n + 1 => do
    let _ ← readAddress
    skipAddresses n

theorem skipAddresses_append (n : Nat) (addr : SocketAddr) (b : Bytes) :
    skipAddresses n ((List.replicate n (writeAddress addr)).flatten ++ b) = .ok ((), b) := by
  induction n with
  | zero => rfl
  | succ n ih => simp [skipAddresses, List.replicate_succ, ih]

theorem seven_le_length_writeAddress (addr : SocketAddr) : 7 ≤ (writeAddress addr).length := by
  cases addr <;> simp [writeAddress]

/-! ## Unconnected packets -/

def encodeUnconnectedPing (timestamp clientGuid : UInt64) : Bytes :=
  [idUnconnectedPing] ++ putI64 timestamp ++ magic ++ putI64 clientGuid

def decodeUnconnectedPing (data : Bytes) : Result (UInt64 × UInt64) := Reader.run (do
  expectPacket (1 + 8 + 16 + 8) idUnconnectedPing "an" "UnconnectedPing"
  let timestamp ← getI64
  expectMagic
  let clientGuid ← getI64
  return (timestamp, clientGuid)) data

def encodeUnconnectedPong (timestamp serverGuid : UInt64) (pongData : Bytes) : Bytes :=
  [idUnconnectedPong] ++ putI64 timestamp ++ putI64 serverGuid ++ magic ++ putU16 (UInt16.ofNat pongData.length) ++ pongData

def decodeUnconnectedPong (data : Bytes) : Result (UInt64 × UInt64 × Bytes) := Reader.run (do
  expectPacket (1 + 8 + 8 + 16 + 2) idUnconnectedPong "an" "UnconnectedPong"
  let timestamp ← getI64
  let serverGuid ← getI64
  expectMagic
  let pongDataLen ← getU16
  if (← remaining) < pongDataLen.toNat then fail (.invalidPacket "UnconnectedPong pong data truncated")
  else
    let pongData ← slice pongDataLen.toNat
    return (timestamp, serverGuid, pongData)) data

/-- zeros up to the MTU that is tried -/
def encodeOpenConnectionRequest1 (version : UInt8) (mtu : UInt16) : Bytes :=
  [idOpenConnectionRequest1] ++ magic ++ [version] ++ List.replicate (mtu.toNat - 18) 0

/-- the MTU is the length of the packet, with the IP and UDP headers, as a `u16` -/
def decodeOpenConnectionRequest1 (data : Bytes) : Result (UInt8 × UInt16) := Reader.run (do
  expectPacket (1 + 16 + 1) idOpenConnectionRequest1 "an" "OpenConnectionRequest1"
  expectMagic
  let version ← getU8
  return (version, UInt16.ofNat (data.length + 28))) data

def encodeOpenConnectionReply1 (serverGuid : UInt64) (mtu : UInt16) : Bytes :=
  [idOpenConnectionReply1] ++ magic ++ putI64 serverGuid ++ [0] ++ putU16 mtu

def decodeOpenConnectionReply1 (data : Bytes) : Result (UInt64 × UInt16) := Reader.run (do
  expectPacket (1 + 16 + 8 + 1 + 2) idOpenConnectionReply1 "an" "OpenConnectionReply1"
  expectMagic
  let serverGuid ← getI64
  let _useEncryption ← getU8
  let mtu ← getU16
  return (serverGuid, mtu)) data

def encodeOpenConnectionRequest2 (serverAddr : SocketAddr) (mtu : UInt16) (clientGuid : UInt64) : Bytes :=
  [idOpenConnectionRequest2] ++ magic ++ writeAddress serverAddr ++ putU16 mtu ++ putI64 clientGuid

def decodeOpenConnectionRequest2 (data : Bytes) : Result (SocketAddr × UInt16 × UInt64) := Reader.run (do
  expectPacket (1 + 16) idOpenConnectionRequest2 "an" "OpenConnectionRequest2"
  expectMagic
  let serverAddr ← readAddress
  if (← remaining) < 2 + 8 then fail (.invalidPacket "OpenConnectionRequest2 truncated")
  else
    let mtu ← getU16
    let clientGuid ← getI64
    return (serverAddr, mtu, clientGuid)) data

def encodeOpenConnectionReply2 (serverGuid : UInt64) (clientAddr : SocketAddr) (mtu : UInt16) : Bytes :=
  [idOpenConnectionReply2] ++ magic ++ putI64 serverGuid ++ writeAddress clientAddr ++ putU16 mtu ++ [0]

def decodeOpenConnectionReply2 (data : Bytes) : Result (UInt64 × SocketAddr × UInt16) := Reader.run (do
  expectPacket (1 + 16 + 8) idOpenConnectionReply2 "an" "OpenConnectionReply2"
  expectMagic
  let serverGuid ← getI64
  let clientAddr ← readAddress
  if (← remaining) < 2 + 1 then fail (.invalidPacket "OpenConnectionReply2 truncated")
  else
    let mtu ← getU16
    let _useEncryption ← getU8
    return (serverGuid, clientAddr, mtu)) data

/-! ## Login packets with addresses -/

def decodeConnectionRequestAccepted (data : Bytes) : Result (SocketAddr × UInt64 × UInt64) := Reader.run (do
  expectPacket (1 + 7) idConnectionRequestAccepted "a" "ConnectionRequestAccepted"
  let clientAddr ← readAddress
  if (← remaining) < 2 then fail (.invalidPacket "ConnectionRequestAccepted truncated")
  else
    let _systemIndex ← getU16
    skipAddresses 10
    if (← remaining) < 8 + 8 then fail (.invalidPacket "ConnectionRequestAccepted timestamps truncated")
    else
      let requestTimestamp ← getI64
      let acceptedTimestamp ← getI64
      return (clientAddr, requestTimestamp, acceptedTimestamp)) data

def encodeNewIncomingConnection (serverAddr : SocketAddr) (requestTimestamp acceptedTimestamp : UInt64) : Bytes :=
  [idNewIncomingConnection] ++ writeAddress serverAddr ++ (List.replicate 10 (writeAddress unspecifiedAddr)).flatten ++
    putI64 requestTimestamp ++ putI64 acceptedTimestamp

def decodeNewIncomingConnection (data : Bytes) : Result (SocketAddr × UInt64 × UInt64) := Reader.run (do
  expectPacket (1 + 7) idNewIncomingConnection "a" "NewIncomingConnection"
  let serverAddr ← readAddress
  skipAddresses 10
  if (← remaining) < 8 + 8 then fail (.invalidPacket "NewIncomingConnection timestamps truncated")
  else
    let requestTimestamp ← getI64
    let acceptedTimestamp ← getI64
    return (serverAddr, requestTimestamp, acceptedTimestamp)) data

/-! ## Round trips -/

theorem reads_magic : Reads expectMagic magic () := expectMagic_append

theorem reads_address (addr : SocketAddr) : Reads readAddress (writeAddress addr) addr := readAddress_writeAddress addr

/-- the opening check of a decoder, in front of an encoding that is long enough -/
theorem reads_packet {α : Type} {y : Reader Error α} {enc : Bytes} {a : α} (hy : Reads y enc a) {minLen : Nat} (id : UInt8)
    (article name : String) (hlen : minLen ≤ enc.length + 1) :
    Reads (expectPacket minLen id article name >>= fun _ => y) (id :: enc) a := by
  intro r
  have hlen' : minLen ≤ (enc ++ r).length + 1 := by
    rw [List.length_append]
    omega
  rw [List.cons_append, bind_apply, expectPacket_cons _ _ _ _ hlen', Outcome.bind_ok]
  exact hy r

theorem decodeUnconnectedPing_encode (timestamp clientGuid : UInt64) :
    decodeUnconnectedPing (encodeUnconnectedPing timestamp clientGuid) = .ok (timestamp, clientGuid) := by
  have henc : encodeUnconnectedPing timestamp clientGuid =
      idUnconnectedPing :: (putI64 timestamp ++ (magic ++ putI64 clientGuid)) := by
    simp [encodeUnconnectedPing]
  rw [henc]
  refine (reads_packet ?_ _ _ _ (by simp [magic])).run
  exact (reads_getI64 timestamp).bind (reads_magic.bind ((reads_getI64 clientGuid).map _))

/-- the length of the pong data is sent in 16 bits -/
theorem decodeUnconnectedPong_encode (timestamp serverGuid : UInt64) {pongData : Bytes} (h : pongData.length < 2 ^ 16) :
    decodeUnconnectedPong (encodeUnconnectedPong timestamp serverGuid pongData) =
      .ok (timestamp, serverGuid, pongData) := by
  have henc : encodeUnconnectedPong timestamp serverGuid pongData = idUnconnectedPong ::
      (putI64 timestamp ++ (putI64 serverGuid ++ (magic ++ (putU16 (UInt16.ofNat pongData.length) ++ pongData)))) := by
    simp [encodeUnconnectedPong]
  have hlen : (UInt16.ofNat pongData.length).toNat = pongData.length := by
    rw [UInt16.toNat_ofNat', Nat.mod_eq_of_lt h]
  have hmin : 1 + 8 + 8 + 16 + 2 ≤ (putI64 timestamp ++ (putI64 serverGuid ++ (magic ++
      (putU16 (UInt16.ofNat pongData.length) ++ pongData)))).length + 1 := by
    simp [magic]
    omega
  rw [henc]
  simp only [decodeUnconnectedPong, run, bind_apply, expectPacket_cons _ _ _ _ hmin, Outcome.bind_ok, getI64_putI64,
    expectMagic_append, getU16_putU16, remaining_apply, hlen, Nat.lt_irrefl, if_false, slice_length, pure_apply]

/-- the MTU that comes back is the length of the packet and 28 bytes, as a `u16` -/
theorem decodeOpenConnectionRequest1_padded (version : UInt8) (mtu : UInt16) :
    decodeOpenConnectionRequest1 (encodeOpenConnectionRequest1 version mtu) =
      .ok (version, UInt16.ofNat (max mtu.toNat 18 + 28)) := by
  have henc : encodeOpenConnectionRequest1 version mtu = idOpenConnectionRequest1 ::
      (magic ++ (version :: List.replicate (mtu.toNat - 18) 0)) := by
    simp [encodeOpenConnectionRequest1]
  have hlen : (encodeOpenConnectionRequest1 version mtu).length = max mtu.toNat 18 := by
    rw [henc]
    simp [magic]
    omega
  have hmin : 1 + 16 + 1 ≤ (magic ++ (version :: List.replicate (mtu.toNat - 18) (0 : UInt8))).length + 1 := by
    simp [magic]
  unfold decodeOpenConnectionRequest1
  rw [hlen, henc]
  simp only [run, bind_apply, expectPacket_cons _ _ _ _ hmin, Outcome.bind_ok, expectMagic_append, getU8_cons,
    pure_apply]

theorem decodeOpenConnectionRequest1_encode (version : UInt8) {mtu : UInt16} (h : 18 ≤ mtu.toNat) :
    decodeOpenConnectionRequest1 (encodeOpenConnectionRequest1 version mtu) = .ok (version, mtu + 28) := by
  have hmtu : UInt16.ofNat (mtu.toNat + 28) = mtu + 28 := by
    rw [UInt16.ofNat_add, UInt16.ofNat_toNat]
    rfl
  rw [decodeOpenConnectionRequest1_padded, Nat.max_eq_left h, hmtu]

theorem decodeOpenConnectionReply1_encode (serverGuid : UInt64) (mtu : UInt16) :
    decodeOpenConnectionReply1 (encodeOpenConnectionReply1 serverGuid mtu) = .ok (serverGuid, mtu) := by
  have henc : encodeOpenConnectionReply1 serverGuid mtu =
      idOpenConnectionReply1 :: (magic ++ (putI64 serverGuid ++ ([0] ++ putU16 mtu))) := by
    simp [encodeOpenConnectionReply1]
  rw [henc]
  refine (reads_packet ?_ _ _ _ (by simp [magic])).run
  exact reads_magic.bind ((reads_getI64 serverGuid).bind ((reads_getU8 0).bind ((reads_getU16 mtu).map _)))

theorem decodeOpenConnectionRequest2_encode (serverAddr : SocketAddr) (mtu : UInt16) (clientGuid : UInt64) :
    decodeOpenConnectionRequest2 (encodeOpenConnectionRequest2 serverAddr mtu clientGuid) =
      .ok (serverAddr, mtu, clientGuid) := by
  have henc : encodeOpenConnectionRequest2 serverAddr mtu clientGuid = idOpenConnectionRequest2 ::
      (magic ++ (writeAddress serverAddr ++ (putU16 mtu ++ putI64 clientGuid))) := by
    simp [encodeOpenConnectionRequest2]
  rw [henc]
  refine (reads_packet ?_ _ _ _ (by simp [magic])).run
  refine reads_magic.bind ((reads_address serverAddr).bind (Reads.guard ?_ _ (by simp)))
  exact (reads_getU16 mtu).bind ((reads_getI64 clientGuid).map _)

theorem decodeOpenConnectionReply2_encode (serverGuid : UInt64) (clientAddr : SocketAddr) (mtu : UInt16) :
    decodeOpenConnectionReply2 (encodeOpenConnectionReply2 serverGuid clientAddr mtu) =
      .ok (serverGuid, clientAddr, mtu) := by
  have henc : encodeOpenConnectionReply2 serverGuid clientAddr mtu = idOpenConnectionReply2 ::
      (magic ++ (putI64 serverGuid ++ (writeAddress clientAddr ++ (putU16 mtu ++ [0])))) := by
    simp [encodeOpenConnectionReply2]
  rw [henc]
  refine (reads_packet ?_ _ _ _ (by simp [magic])).run
  refine reads_magic.bind ((reads_getI64 serverGuid).bind ((reads_address clientAddr).bind (Reads.guard ?_ _ (by simp))))
  exact (reads_getU16 mtu).bind ((reads_getU8 0).map _)

theorem decodeConnectionRequest_encode (clientGuid timestamp : UInt64) :
    decodeConnectionRequest (encodeConnectionRequest clientGuid timestamp) = .ok (clientGuid, timestamp) := by
  have henc : encodeConnectionRequest clientGuid timestamp =
      idConnectionRequest :: (putI64 clientGuid ++ (putI64 timestamp ++ [0])) := by
    simp [encodeConnectionRequest]
  rw [henc]
  refine (reads_packet ?_ _ _ _ (by simp)).run
  exact (reads_getI64 clientGuid).bind ((reads_getI64 timestamp).bind ((reads_getU8 0).map _))

theorem decodeConnectedPing_encode (timestamp : UInt64) :
    decodeConnectedPing (encodeConnectedPing timestamp) = .ok timestamp :=
  (reads_packet (reads_getI64 timestamp) _ _ _ (by simp)).run

theorem decodeConnectedPong_encode (pingTimestamp pongTimestamp : UInt64) :
    decodeConnectedPong (encodeConnectedPong pingTimestamp pongTimestamp) = .ok (pingTimestamp, pongTimestamp) := by
  have henc : encodeConnectedPong pingTimestamp pongTimestamp =
      idConnectedPong :: (putI64 pingTimestamp ++ putI64 pongTimestamp) := by
    simp [encodeConnectedPong]
  rw [henc]
  refine (reads_packet ?_ _ _ _ (by simp)).run
  exact (reads_getI64 pingTimestamp).bind ((reads_getI64 pongTimestamp).map _)

theorem decodeConnectionRequestAccepted_encode (clientAddr : SocketAddr) (requestTimestamp acceptedTimestamp : UInt64) :
    decodeConnectionRequestAccepted (encodeConnectionRequestAccepted clientAddr requestTimestamp acceptedTimestamp) =
      .ok (clientAddr, requestTimestamp, acceptedTimestamp) := by
  have henc : encodeConnectionRequestAccepted clientAddr requestTimestamp acceptedTimestamp =
      idConnectionRequestAccepted :: (writeAddress clientAddr ++ (putU16 0 ++
        ((List.replicate 10 (writeAddress unspecifiedAddr)).flatten ++
          (putI64 requestTimestamp ++ putI64 acceptedTimestamp)))) := by
    simp only [encodeConnectionRequestAccepted, List.append_assoc, List.cons_append, List.nil_append]
  have haddr := seven_le_length_writeAddress clientAddr
  rw [henc]
  refine (reads_packet ?_ _ _ _ (by rw [List.length_append]; omega)).run
  refine (reads_address clientAddr).bind (Reads.guard ?_ _ (by simp))
  refine (reads_getU16 0).bind (Reads.bind (skipAddresses_append 10 unspecifiedAddr) (Reads.guard ?_ _ (by simp)))
  exact (reads_getI64 requestTimestamp).bind ((reads_getI64 acceptedTimestamp).map _)

theorem decodeNewIncomingConnection_encode (serverAddr : SocketAddr) (requestTimestamp acceptedTimestamp : UInt64) :
    decodeNewIncomingConnection (encodeNewIncomingConnection serverAddr requestTimestamp acceptedTimestamp) =
      .ok (serverAddr, requestTimestamp, acceptedTimestamp) := by
  have henc : encodeNewIncomingConnection serverAddr requestTimestamp acceptedTimestamp = idNewIncomingConnection ::
      (writeAddress serverAddr ++ ((List.replicate 10 (writeAddress unspecifiedAddr)).flatten ++
        (putI64 requestTimestamp ++ putI64 acceptedTimestamp))) := by
    simp only [encodeNewIncomingConnection, List.append_assoc, List.cons_append, List.nil_append]
  have haddr := seven_le_length_writeAddress serverAddr
  rw [henc]
  refine (reads_packet ?_ _ _ _ (by rw [List.length_append]; omega)).run
  refine (reads_address serverAddr).bind (Reads.bind (skipAddresses_append 10 unspecifiedAddr) (Reads.guard ?_ _ (by simp)))
  exact (reads_getI64 requestTimestamp).bind ((reads_getI64 acceptedTimestamp).map _)

end RakNet

/-
What the listener answers to unconnected packets (`src/listener.rs`).

A handler takes a packet and gives the packet to send back, if there is one; a packet that does not decode is only logged.

- `request1_answer`, `request2_answer`: a client's own requests are answered, with an MTU between 576 and 1500.
-/
import RakNet.Protocol.Handshake

namespace RakNet

open Lib.Wire

structure RakNetListener where
  serverGuid : UInt64
  pongData : Bytes

/-- `mtu.clamp(576, 1500)` -/
def clampMtu (mtu : UInt16) : UInt16 := if mtu < 576 then 576 else if 1500 < mtu then 1500 else mtu

theorem clampMtu_bounds (mtu : UInt16) : 576 ≤ (clampMtu mtu).toNat ∧ (clampMtu mtu).toNat ≤ 1500 := by
  unfold clampMtu
  split_ifs with h1 h2
  · decide
  · decide
  · rw [UInt16.lt_iff_toNat_lt] at h1 h2
    exact ⟨Nat.not_lt.1 h1, Nat.not_lt.1 h2⟩

namespace RakNetListener

def handleUnconnectedPing (l : RakNetListener) (packet : Bytes) : Option Bytes :=
  match decodeUnconnectedPing packet with
  | .ok (timestamp, _clientGuid) => some (encodeUnconnectedPong timestamp l.serverGuid l.pongData)
  | _ => none

/-- the answer to another protocol version -/
def incompatibleVersion (l : RakNetListener) : Bytes :=
  [idIncompatibleProtocolVersion] ++ magic ++ [protocolVersion] ++ putI64 l.serverGuid

def handleOpenConnectionRequest1 (l : RakNetListener) (packet : Bytes) : Option Bytes :=
  match decodeOpenConnectionRequest1 packet with
  | .ok (version, mtu) =>
    if version != protocolVersion then some l.incompatibleVersion
    else some (encodeOpenConnectionReply1 l.serverGuid (clampMtu mtu))
  | _ => none

/-- what `run` has sent back to a packet that opens no connection -/
def answer (l : RakNetListener) (packet : Bytes) : Option Bytes :=
  match packet with
  | [] => none
  | packetId :: _ =>
    if packetId = idUnconnectedPing then l.handleUnconnectedPing packet
    else if packetId = idOpenConnectionRequest1 then l.handleOpenConnectionRequest1 packet
    else none

/-- the decoding part of `handle_open_connection_request_2`: the MTU of the stream and the reply sent before it is
created -/
def replyToRequest2 (l : RakNetListener) (packet : Bytes) (remoteAddr : SocketAddr) : Option (UInt16 × Bytes) :=
  match decodeOpenConnectionRequest2 packet with
  | .ok (_serverAddr, mtu, _clientGuid) =>
    some (clampMtu mtu, encodeOpenConnectionReply2 l.serverGuid remoteAddr (clampMtu mtu))
  | _ => none

theorem ping_answer (l : RakNetListener) (timestamp clientGuid : UInt64) :
    l.handleUnconnectedPing (encodeUnconnectedPing timestamp clientGuid) =
      some (encodeUnconnectedPong timestamp l.serverGuid l.pongData) := by
  rw [handleUnconnectedPing, decodeUnconnectedPing_encode]

theorem request1_answer (l : RakNetListener) {mtu : UInt16} (h : 18 ≤ mtu.toNat) :
    l.handleOpenConnectionRequest1 (encodeOpenConnectionRequest1 protocolVersion mtu) =
      some (encodeOpenConnectionReply1 l.serverGuid (clampMtu (mtu + 28))) := by
  rw [handleOpenConnectionRequest1, decodeOpenConnectionRequest1_encode _ h]
  rfl

theorem request2_answer (l : RakNetListener) (serverAddr remoteAddr : SocketAddr) (mtu : UInt16) (clientGuid : UInt64) :
    l.replyToRequest2 (encodeOpenConnectionRequest2 serverAddr mtu clientGuid) remoteAddr =
      some (clampMtu mtu, encodeOpenConnectionReply2 l.serverGuid remoteAddr (clampMtu mtu)) := by
  rw [replyToRequest2, decodeOpenConnectionRequest2_encode]

end RakNetListener

end RakNet

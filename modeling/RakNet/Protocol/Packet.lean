/-
Packet identifiers (`src/protocol/packet.rs`): the first byte of a packet, and the flag tests that sort raw packets
into datagrams, ACKs and NACKs.
-/
import RakNet.Lib.Wire

namespace RakNet

def idUnconnectedPing : UInt8 := 0x01
def idUnconnectedPong : UInt8 := 0x1c
def idOpenConnectionRequest1 : UInt8 := 0x05
def idOpenConnectionReply1 : UInt8 := 0x06
def idOpenConnectionRequest2 : UInt8 := 0x07
def idOpenConnectionReply2 : UInt8 := 0x08
def idIncompatibleProtocolVersion : UInt8 := 0x19
def idAlreadyConnected : UInt8 := 0x12
def idConnectedPing : UInt8 := 0x00
def idConnectedPong : UInt8 := 0x03
def idConnectionRequest : UInt8 := 0x09
def idConnectionRequestAccepted : UInt8 := 0x10
def idNewIncomingConnection : UInt8 := 0x13
def idDisconnectNotification : UInt8 := 0x15
def idAck : UInt8 := 0xc0
def idNack : UInt8 := 0xa0

def bitFlagDatagram : UInt8 := 0x80
def bitFlagValid : UInt8 := 0x04
def bitFlagAck : UInt8 := 0x40
def bitFlagNack : UInt8 := 0x20

/-- bit 7 set, bits 6 and 5 clear -/
def isDatagram (packetId : UInt8) : Bool :=
  (packetId &&& bitFlagDatagram) != 0 && (packetId &&& bitFlagAck) == 0 && (packetId &&& bitFlagNack) == 0

/-- bits 7 and 6 set -/
def isAck (packetId : UInt8) : Bool :=
  (packetId &&& (bitFlagDatagram ||| bitFlagAck)) == (bitFlagDatagram ||| bitFlagAck)

/-- bits 7 and 5 set, bit 6 clear -/
def isNack (packetId : UInt8) : Bool :=
  (packetId &&& (bitFlagDatagram ||| bitFlagNack)) == (bitFlagDatagram ||| bitFlagNack) &&
    (packetId &&& bitFlagAck) == 0

end RakNet

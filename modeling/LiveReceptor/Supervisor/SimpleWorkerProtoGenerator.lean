import LiveReceptor.Library.Memory
import LiveReceptor.Supervisor.Commands

namespace LiveReceptor.Supervisor

open SimpleWorkerProto Memory

abbrev assignUnassignPacketLength : Nat := simpleMessageHeaderLength + assignUnassignPayloadLength

-- The bytes that a value has as a simple_message_header on a little-endian
-- host. An unsigned long of 64 bits has four more, all zero, behind the 32 bits
-- of host_to_network_long; `padding` says how many there are.
def simpleMessageHeader (padding : Nat) (value : UInt32) : Bytes :=
  hostToNetworkLong value ++ List.replicate padding 0

def generateAssignUnassignBasePacket (padding : Nat)
    (memory : Allocation UInt8 assignUnassignPacketLength) (roomId : RoomId) : Bytes :=
  let buf := store memory.1 0 (simpleMessageHeader padding (.ofNat assignUnassignPayloadLength))
  store buf (simpleMessageHeaderLength + 1) (simpleMessageHeader padding roomId.toUInt32)

def generateAssignPacket (padding : Nat) (memory : Allocation UInt8 assignUnassignPacketLength)
    (roomId : RoomId) : Bytes :=
  (generateAssignUnassignBasePacket padding memory roomId).set simpleMessageHeaderLength assignRoomCode

def generateUnassignPacket (padding : Nat) (memory : Allocation UInt8 assignUnassignPacketLength)
    (roomId : RoomId) : Bytes :=
  (generateAssignUnassignBasePacket padding memory roomId).set simpleMessageHeaderLength unassignRoomCode

-- send_assign and send_unassign
def Packet.generate (padding : Nat) (memory : Allocation UInt8 assignUnassignPacketLength) :
    Packet → Bytes
  | .assign roomId => generateAssignPacket padding memory roomId
  | .unassign roomId => generateUnassignPacket padding memory roomId

def Packet.code : Packet → UInt8
  | .assign _ => assignRoomCode
  | .unassign _ => unassignRoomCode

-- What a packet has behind the header.
def Packet.payload (packet : Packet) : Bytes := packet.code :: hostToNetworkLong packet.roomId.toUInt32

theorem length_simpleMessageHeader (padding : Nat) (value : UInt32) :
    (simpleMessageHeader padding value).length = simpleMessageHeaderLength + padding := by
  rw [simpleMessageHeader, List.length_append, length_hostToNetworkLong, List.length_replicate]

theorem take_simpleMessageHeader (padding : Nat) (value : UInt32) :
    (simpleMessageHeader padding value).take simpleMessageHeaderLength = hostToNetworkLong value :=
  List.take_left' (length_hostToNetworkLong value)

theorem generateAssignUnassignBasePacket_set (padding : Nat)
    (memory : Allocation UInt8 assignUnassignPacketLength) (roomId : RoomId) (code : UInt8) :
    (generateAssignUnassignBasePacket padding memory roomId).set simpleMessageHeaderLength code =
      hostToNetworkLong (.ofNat assignUnassignPayloadLength) ++
        code :: hostToNetworkLong roomId.toUInt32 := by
  have hlength := length_simpleMessageHeader padding
  have htake := take_simpleMessageHeader padding
  have hblock : memory.1.length = simpleMessageHeaderLength + 1 + simpleMessageHeaderLength := memory.2
  rw [generateAssignUnassignBasePacket, set_store_store code hblock (by rw [hlength]; omega)
    (by rw [hlength]; omega), htake, htake]

theorem Packet.generate_eq (padding : Nat) (memory : Allocation UInt8 assignUnassignPacketLength)
    (packet : Packet) : packet.generate padding memory =
      hostToNetworkLong (.ofNat assignUnassignPayloadLength) ++ packet.payload := by
  cases packet with
  | assign roomId => exact generateAssignUnassignBasePacket_set padding memory roomId assignRoomCode
  | unassign roomId => exact generateAssignUnassignBasePacket_set padding memory roomId unassignRoomCode

end LiveReceptor.Supervisor

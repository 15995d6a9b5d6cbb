import LiveReceptor.Library.Memory
import LiveReceptor.Shared.SimpleWorkerProto
import LiveReceptor.Worker.BilibiliConnectionManager

namespace LiveReceptor.Worker

open SimpleWorkerProto Memory

-- A message that its serializer lends out. The payload is what `write` puts
-- down: the size that it is told is an int.
structure BorrowedMessage where
  crc32 : Int32
  routingKey : Allocation UInt8 routingKeyMaxSize
  payload : Bytes
  short : payload.length < 2147483648

def BorrowedMessage.size (msg : BorrowedMessage) : Nat := msg.payload.length

def generateRoomBasicPacket {payloadSize : Nat}
    (memory : Allocation UInt8 (simpleMessageHeaderLength + payloadSize)) (roomPlace : Int32) : Bytes :=
  let packet := store memory.1 0 (hostToNetworkLong (.ofNat payloadSize))
  store packet (simpleMessageHeaderLength + 1) (hostToNetworkLong roomPlace.toUInt32)

def generateRoomFailedPacket (memory : Allocation UInt8 (simpleMessageHeaderLength + roomFailedPayloadLength))
    (roomId : RoomId) : Bytes :=
  (generateRoomBasicPacket memory roomId).set simpleMessageHeaderLength roomFailedCode

-- A longer auth code would be written past the end of the packet.
def generateWorkerReadyPacket (memory : Allocation UInt8 (simpleMessageHeaderLength + workerReadyPayloadLength))
    (maxRooms : Int32) (authCode : Bytes) : Bytes :=
  let packet := generateRoomBasicPacket memory maxRooms
  let packet := store packet simpleMessageHeaderLength [workerReadyCode]
  let packet := store packet (simpleMessageHeaderLength + 5) (List.replicate authCodeSize 0)
  store packet (simpleMessageHeaderLength + 5) authCode

def workerDataPayloadLength (msg : BorrowedMessage) : Nat := workerDataPayloadHeaderLength + msg.size

def generateWorkerDataPacket (msg : BorrowedMessage)
    (memory : Allocation UInt8 (simpleMessageHeaderLength + workerDataPayloadLength msg))
    (roomId : RoomId) : Bytes :=
  let ptr := 0
  let packet := store memory.1 ptr (hostToNetworkLong (.ofNat (workerDataPayloadLength msg)))
  let ptr := ptr + simpleMessageHeaderLength
  let packet := store packet ptr [workerDataCode]
  let ptr := ptr + 1
  let packet := store packet ptr (hostToNetworkLong roomId.toUInt32)
  let ptr := ptr + roomIdLength
  let packet := store packet ptr (hostToNetworkLong msg.crc32.toUInt32)
  let ptr := ptr + crc32Length
  let packet := store packet ptr msg.routingKey.1
  let ptr := ptr + routingKeyMaxSize
  store packet ptr msg.payload

-- What a data packet has behind the header.
def workerDataPayload (roomId : RoomId) (msg : BorrowedMessage) : Bytes :=
  workerDataCode :: (hostToNetworkLong roomId.toUInt32 ++ (hostToNetworkLong msg.crc32.toUInt32 ++
    (msg.routingKey.1 ++ msg.payload)))

theorem length_workerDataPayload (roomId : RoomId) (msg : BorrowedMessage) :
    (workerDataPayload roomId msg).length = workerDataPayloadLength msg := by
  have hkey : msg.routingKey.1.length = routingKeyMaxSize := msg.routingKey.2
  simp only [workerDataPayload, List.length_cons, List.length_append, length_hostToNetworkLong, hkey,
    workerDataPayloadLength, BorrowedMessage.size, workerDataPayloadHeaderLength, roomIdLength,
    crc32Length, routingKeyMaxSize]
  omega

theorem generateRoomFailedPacket_eq
    (memory : Allocation UInt8 (simpleMessageHeaderLength + roomFailedPayloadLength)) (roomId : RoomId) :
    generateRoomFailedPacket memory roomId =
      hostToNetworkLong (.ofNat roomFailedPayloadLength) ++
        roomFailedCode :: hostToNetworkLong roomId.toUInt32 := by
  have hblock : memory.1.length = simpleMessageHeaderLength + 1 + roomIdLength := memory.2
  exact set_store_store roomFailedCode hblock
    (Nat.le_of_eq (length_hostToNetworkLong (.ofNat roomFailedPayloadLength)).symm)
    (Nat.le_of_eq (length_hostToNetworkLong roomId.toUInt32).symm)

-- The fields are written one behind the other, up to the end of the packet.
theorem generateWorkerDataPacket_eq (msg : BorrowedMessage)
    (memory : Allocation UInt8 (simpleMessageHeaderLength + workerDataPayloadLength msg))
    (roomId : RoomId) : generateWorkerDataPacket msg memory roomId =
      hostToNetworkLong (.ofNat (workerDataPayloadLength msg)) ++ workerDataPayload roomId msg := by
  let fields : List Bytes :=
    [hostToNetworkLong (.ofNat (workerDataPayloadLength msg)), [workerDataCode],
      hostToNetworkLong roomId.toUInt32, hostToNetworkLong msg.crc32.toUInt32, msg.routingKey.1,
      msg.payload]
  have hflatten : fields.flatten =
      hostToNetworkLong (.ofNat (workerDataPayloadLength msg)) ++ workerDataPayload roomId msg := by
    simp [fields, workerDataPayload]
  have hpacket : generateWorkerDataPacket msg memory roomId = storeAll memory.1 0 fields := by
    simp only [fields, storeAll, msg.routingKey.2]
    rfl
  rw [hpacket, storeAll_eq, List.take_zero, List.nil_append, hflatten]
  rw [hflatten, List.length_append, length_hostToNetworkLong, length_workerDataPayload, memory.2,
    Nat.zero_add]

end LiveReceptor.Worker

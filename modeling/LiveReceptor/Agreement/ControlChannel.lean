import LiveReceptor.Agreement.Quiescence
import LiveReceptor.Shared.Framing.Chunking
import LiveReceptor.Supervisor.SimpleWorkerProtoGenerator
import LiveReceptor.Worker.SimpleWorkerProtoGenerator

namespace LiveReceptor.Agreement

open Supervisor Worker SimpleWorkerProto SimpleWorkerProtoHandler Framing

section Messages

-- A packet of either side, with the memory that it was allocated in.
abbrev Allocated (α : Type) := α × Allocation UInt8 assignUnassignPacketLength

theorem length_payload (packet : Packet) : packet.payload.length = assignUnassignPayloadLength := rfl

theorem length_roomFailedPayload (roomId : Int32) :
    (roomFailedPayload roomId).length = roomFailedPayloadLength := rfl

-- What a packet is to the framing.
def packetMessage (packet : Packet) : Message :=
  ⟨packet.payload, by rw [length_payload]; decide⟩

def roomFailedMessage (roomId : Int32) : Message :=
  ⟨roomFailedPayload roomId, by rw [length_roomFailedPayload]; decide⟩

theorem frame_packetMessage (padding : Nat) (memory : Allocation UInt8 assignUnassignPacketLength)
    (packet : Packet) : (packetMessage packet).frame = packet.generate padding memory :=
  (packet.generate_eq padding memory).symm

theorem frame_roomFailedMessage (memory : Allocation UInt8 assignUnassignPacketLength)
    (roomId : Int32) : (roomFailedMessage roomId).frame = generateRoomFailedPacket memory roomId :=
  (generateRoomFailedPacket_eq memory roomId).symm

-- A list of messages of five bytes each, in whatever memory its packets were
-- made, is read as it was sent.
theorem receiveAll_generated {α : Type} (message : α → Message) (generate : Allocated α → Bytes)
    (hgenerate : ∀ sent, (message sent.1).frame = generate sent)
    (hlength : ∀ a, (message a).payload.length = 5) (memory : Bytes) (hbuffer : 9 ≤ memory.length)
    (sent : List (Allocated α)) (reads : List Bytes)
    (hcut : reads.flatten = (sent.map generate).flatten) :
    ((fresh memory).receiveAll reads).2 = sent.map fun one => (message one.1).payload := by
  have hframes : reads.flatten = frames (sent.map fun one => message one.1) := by
    rw [hcut, frames, List.map_map]
    exact congrArg List.flatten (List.map_congr_left fun one _ => (hgenerate one).symm)
  have hholds : Holds memory.length (sent.map fun one => message one.1) := by
    intro m hm
    obtain ⟨one, -, rfl⟩ := List.mem_map.mp hm
    rw [hlength]
    exact hbuffer
  have hdelivered := (receiveAll_frames memory reads _ hholds hframes).1
  rw [hdelivered, List.map_map]
  rfl

end Messages

section Handlers

theorem onSupervisorMessage_payload (packet : Packet) :
    onSupervisorMessage packet.payload = some (onPacket packet) := by
  have hdecode := networkToHostLong_hostToNetworkLong packet.roomId.toUInt32 []
  rw [List.append_nil] at hdecode
  have hroom : (networkToHostLong (hostToNetworkLong packet.roomId.toUInt32)).toInt32 =
      packet.roomId := by
    rw [hdecode, Int32.toInt32_toUInt32]
  cases packet with
  | assign roomId => exact congrArg (fun r => some (ConnectionEvent.openConnection r)) hroom
  | unassign roomId => exact congrArg (fun r => some (ConnectionEvent.closeConnection r)) hroom

-- handle_buffer takes the payload for the failure of this room, whichever
-- worker has sent it.
def ReportsFailure (payload : Bytes) (roomId : Int32) : Prop :=
  ∀ env worker (s : Scheduler), s.workers.HasKey worker → s.handleBuffer env worker payload =
    (((s.emit (.received worker payload s.authCode)).touchWorker env worker).deleteTask env worker roomId
      true).checkAllStates env

theorem reportsFailure_roomFailedPayload (roomId : Int32) :
    ReportsFailure (roomFailedPayload roomId) roomId :=
  fun _ _ _ hkey => Link.handleBuffer_roomFailed hkey

end Handlers

-- Whatever the two sides say to each other about rooms, in packets cut into
-- reads in any way, the other side takes for what it is.
theorem control_channel_round_trip (padding : Nat) (memory supervisorMemory : Bytes)
    (hbuffer : 9 ≤ memory.length) (hsupervisor : 9 ≤ supervisorMemory.length)
    (sent : List (Allocated Packet)) (reads : List Bytes)
    (hcut : reads.flatten = (sent.map fun one => one.1.generate padding one.2).flatten)
    (failed : List (Allocated Int32)) (failedReads : List Bytes)
    (hfailedCut : failedReads.flatten =
      (failed.map fun one => generateRoomFailedPacket one.2 one.1).flatten) :
    ((fresh memory).receiveAll reads).2.map onSupervisorMessage =
        sent.map (fun one => some (onPacket one.1)) ∧
      List.Forall₂ ReportsFailure ((fresh supervisorMemory).receiveAll failedReads).2
        (failed.map Prod.fst) := by
  constructor
  · rw [receiveAll_generated packetMessage _ (fun one => frame_packetMessage padding one.2 one.1)
      length_payload memory hbuffer sent reads hcut, List.map_map]
    exact List.map_congr_left fun one _ => onSupervisorMessage_payload one.1
  · rw [receiveAll_generated roomFailedMessage _ (fun one => frame_roomFailedMessage one.2 one.1)
      length_roomFailedPayload supervisorMemory hsupervisor failed failedReads hfailedCut]
    rw [List.forall₂_map_left_iff, List.forall₂_map_right_iff, List.forall₂_same]
    exact fun one _ => reportsFailure_roomFailedPayload one.1

section Example

def nineBytes : Allocation UInt8 assignUnassignPacketLength := ⟨List.replicate 9 255, rfl⟩

-- Two packets over a host with wide headers, cut inside the first header and
-- behind the second one, and one failure in two reads.
theorem control_channel_round_trip_two :
    ((fresh (List.replicate 9 0)).receiveAll
        [[0, 0], [0, 5, 1, 255, 255, 255, 255], [0, 0, 0, 5], [2, 0, 0, 0, 7]]).2.map
          onSupervisorMessage =
        [(.assign (-1), nineBytes), (.unassign 7, nineBytes)].map (fun one : Allocated Packet =>
          some (onPacket one.1)) ∧
      List.Forall₂ ReportsFailure
        ((fresh (List.replicate 9 0)).receiveAll [[0, 0, 0, 5, 2, 255], [255, 255, 254]]).2
        ([(-2, nineBytes)].map (Prod.fst (α := Int32))) :=
  control_channel_round_trip 4 (List.replicate 9 0) (List.replicate 9 0) (by decide) (by decide)
    [(.assign (-1), nineBytes), (.unassign 7, nineBytes)]
    [[0, 0], [0, 5, 1, 255, 255, 255, 255], [0, 0, 0, 5], [2, 0, 0, 0, 7]] (by decide)
    [(-2, nineBytes)] [[0, 0, 0, 5, 2, 255], [255, 255, 254]] (by decide)

-- A worker whose read buffer has eight bytes throws the packet away.
theorem control_channel_round_trip_refuted :
    ¬∀ padding memory (sent : List (Allocated Packet)) reads, Fits (fresh memory) reads →
      reads.flatten = (sent.map fun one => one.1.generate padding one.2).flatten →
      ((fresh memory).receiveAll reads).2.map onSupervisorMessage =
        sent.map fun one => some (onPacket one.1) := by
  intro hall
  have hfirst : (fresh (List.replicate 8 0)).result [0, 0, 0, 5, 1, 0, 0, 0] =
      { buf := [0, 0, 0, 5, 1, 0, 0, 0], offset := 0, skipping := 18446744073709551613,
        tooBig := some ⟨5, 8⟩, assertions := false } := by
    have hbuf : (fresh (List.replicate 8 0)).received [0, 0, 0, 5, 1, 0, 0, 0] =
        [0, 0, 0, 5, 1, 0, 0, 0] := by decide
    rw [result, hbuf, handleSimpleMessage, if_neg (by decide),
      messageLoop_tooBig (by decide) (by decide)]
    decide
  have hnone : (fresh (List.replicate 8 0)).payloads [0, 0, 0, 5, 1, 0, 0, 0] = [] := by
    rw [payloads, hfirst]
    rfl
  have hskipped : ((fresh (List.replicate 8 0)).onReceive [0, 0, 0, 5, 1, 0, 0, 0]).payloads [1] = [] := by
    rw [onReceive, hfirst, payloads, result, handleSimpleMessage, if_pos (by decide)]
    rfl
  have hreads := hall 0 (List.replicate 8 0) [(.assign 1, nineBytes)] [[0, 0, 0, 5, 1, 0, 0, 0], [1]]
    ⟨by decide, ?_, trivial⟩ (by decide)
  · rw [receiveAll, receiveAll, hnone, hskipped] at hreads
    cases hreads
  · rw [onReceive, hfirst]
    decide

end Example

end LiveReceptor.Agreement

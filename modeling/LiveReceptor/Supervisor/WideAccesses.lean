import LiveReceptor.Shared.Framing.ReaderState
import LiveReceptor.Supervisor.Handlers
import LiveReceptor.Supervisor.SimpleWorkerProtoGenerator

namespace LiveReceptor.Supervisor

open SimpleWorkerProto SimpleWorkerProtoHandler Framing Memory

-- sizeof(simple_message_header): an unsigned long has eight bytes.
abbrev simpleMessageHeaderSize : Nat := 8

-- Where handle_simple_message loads a header, in a turn with enough bytes left.
def headerLoads (reader : SimpleWorkerProtoHandler) (read : Bytes) : List Nat :=
  ((readTurns reader read).filter fun turn => simpleMessageHeaderLength ≤ turn.remaining).map LoopTurn.start

-- Where handle_buffer loads the room, behind the check of the length.
def roomIdLoads (payload : Bytes) : List Nat := if payload.length < roomFailedPayloadLength then [] else [1]

-- What generate_assign_unassign_base_packet stores, and where.
def baseStores (roomId : RoomId) : List (Nat × Bytes) :=
  let padding := simpleMessageHeaderSize - simpleMessageHeaderLength
  [(0, simpleMessageHeader padding (.ofNat assignUnassignPayloadLength)),
    (simpleMessageHeaderLength + 1, simpleMessageHeader padding roomId.toUInt32)]

theorem generateAssignUnassignBasePacket_eq (memory : Allocation UInt8 assignUnassignPacketLength)
    (roomId : RoomId) :
    generateAssignUnassignBasePacket (simpleMessageHeaderSize - simpleMessageHeaderLength) memory roomId =
      storeEach memory.1 (baseStores roomId) := rfl

def HeaderLoadsInside (reader : SimpleWorkerProtoHandler) (read : Bytes) : Prop :=
  ∀ position ∈ headerLoads reader read, position + simpleMessageHeaderSize ≤ reader.readBufferSize

def RoomIdLoadsInside (payload : Bytes) : Prop :=
  ∀ position ∈ roomIdLoads payload, position + simpleMessageHeaderSize ≤ payload.length

-- Every access of eight bytes stays in the object that it is meant for.
structure AccessesInside (reader : SimpleWorkerProtoHandler) (read payload : Bytes) (roomId : RoomId) :
    Prop where
  headers : HeaderLoadsInside reader read
  roomIds : RoomIdLoadsInside payload
  stores : Inside assignUnassignPacketLength (baseStores roomId)

-- A position of the buffer at which a packet starts, when the packets from `start`
-- on follow each other and each of those before it ends within the limit.
inductive PacketStart (buf : Bytes) (limit : Nat) : Nat → Nat → Prop
  | here (start : Nat) : PacketStart buf limit start start
  | behind {start length position : Nat} (hl : (networkToHostLong (buf.drop start)).toNat = length)
      (hwhole : start + (length + simpleMessageHeaderLength) ≤ limit)
      (hnext : PacketStart buf limit (start + (length + simpleMessageHeaderLength)) position) :
      PacketStart buf limit start position

-- No packet starts in the last bytes of the buffer whose header has been received.
def HeadersApart (reader : SimpleWorkerProtoHandler) (read : Bytes) : Prop :=
  let limit := reader.offset + read.length
  ∀ position, PacketStart (reader.received read) limit reader.skipping position →
    position + simpleMessageHeaderLength ≤ limit →
      position + simpleMessageHeaderSize ≤ reader.readBufferSize

section Headers

variable {buf : Bytes} {bufferSize : Nat} {reader : SimpleWorkerProtoHandler} {read : Bytes}

theorem mem_loopTurns_iff (start remaining : Nat) (hinside : start + remaining ≤ bufferSize) (position : Nat) :
    (∃ turn ∈ loopTurns buf bufferSize start remaining, 4 ≤ turn.remaining ∧ turn.start = position) ↔
      PacketStart buf (start + remaining) start position ∧ position + 4 ≤ start + remaining := by
  have hlast : ∀ start remaining : Nat, start + remaining ≤ bufferSize →
      (4 ≤ remaining → remaining < (networkToHostLong (buf.drop start)).toNat + 4) →
      ((∃ turn ∈ [(⟨start, remaining⟩ : LoopTurn)], 4 ≤ turn.remaining ∧ turn.start = position) ↔
        PacketStart buf (start + remaining) start position ∧ position + 4 ≤ start + remaining) := by
    intro start remaining hinside hpart
    constructor
    · rintro ⟨turn, hturn, h4, rfl⟩
      rw [List.mem_singleton.mp hturn] at h4 ⊢
      refine ⟨.here start, ?_⟩
      show start + 4 ≤ start + remaining
      exact Nat.add_le_add_left h4 start
    · rintro ⟨hstart, hheader⟩
      cases hstart with
      | here =>
          have h4 : 4 ≤ remaining := by omega
          exact ⟨_, List.mem_singleton_self _, h4, rfl⟩
      | behind hl hwhole hnext =>
          simp only [simpleMessageHeaderLength] at hwhole
          have hshort := hpart (by omega)
          omega
  induction start, remaining using @loop_induction buf bufferSize with
  | hdone start =>
      have hzero : (networkToHostLong (buf.drop start)).toNat + simpleMessageHeaderLength ≠ 0 :=
        Nat.succ_ne_zero _
      rw [loopTurns_zero]
      refine iff_of_false (fun ⟨_, hturn, _⟩ => absurd hturn List.not_mem_nil) ?_
      rintro ⟨hstart, hheader⟩
      cases hstart with
      | here => omega
      | behind hl hwhole hnext => omega
  | htooBig start remaining h4 hbig =>
      rw [loopTurns_last (by omega) (Or.inr (Or.inl hbig))]
      exact hlast start remaining hinside (by omega)
  | hincomplete start remaining hpos hpart hsmall =>
      rw [loopTurns_last hpos (by omega)]
      exact hlast start remaining hinside (by omega)
  | hframe start remaining length h4 hl hbig hwhole ih =>
      have hrest := ih (by omega)
      have hend : start + (length + 4) + (remaining - (length + 4)) = start + remaining := by omega
      rw [hend] at hrest
      rw [loopTurns_frame h4 hl hbig hwhole, List.exists_mem_cons_iff]
      constructor
      · rintro (⟨-, rfl⟩ | hlater)
        · exact ⟨.here start, Nat.add_le_add_left h4 start⟩
        · obtain ⟨hstart, hheader⟩ := hrest.mp hlater
          exact ⟨.behind hl (Nat.add_le_add_left hwhole start) hstart, hheader⟩
      · rintro ⟨hstart, hheader⟩
        cases hstart with
        | here => exact Or.inl ⟨h4, rfl⟩
        | behind hl' hwhole' hnext =>
            obtain rfl := hl.symm.trans hl'
            exact Or.inr (hrest.mpr ⟨hnext, hheader⟩)

-- The headers that are loaded are those that have been received completely.
theorem headerLoadsInside_iff (hapart : reader.skipping ≠ 0 → reader.offset = 0)
    (hread : reader.offset + read.length ≤ reader.readBufferSize) :
    HeaderLoadsInside reader read ↔ HeadersApart reader read := by
  have hmem : ∀ position, position ∈ headerLoads reader read ↔
      PacketStart (reader.received read) (reader.offset + read.length) reader.skipping position ∧
        position + simpleMessageHeaderLength ≤ reader.offset + read.length := by
    intro position
    have hturns : position ∈ headerLoads reader read ↔
        ∃ turn ∈ readTurns reader read, 4 ≤ turn.remaining ∧ turn.start = position := by
      simp [headerLoads, and_assoc]
    rw [hturns, readTurns]
    by_cases hskip : reader.skipping > read.length
    · have hnone : reader.offset + read.length < reader.skipping := by
        have hzero := hapart (by omega)
        omega
      rw [if_pos hskip]
      refine iff_of_false (fun ⟨_, hturn, _⟩ => absurd hturn List.not_mem_nil) ?_
      rintro ⟨hstart, hheader⟩
      cases hstart with
      | here => omega
      | behind hl hwhole hnext => omega
    · have hend : reader.skipping + (read.length - reader.skipping + reader.offset) =
          reader.offset + read.length := by omega
      have hloop := @mem_loopTurns_iff (reader.received read) reader.readBufferSize reader.skipping
        (read.length - reader.skipping + reader.offset) (by omega) position
      rw [hend] at hloop
      rw [if_neg hskip]
      exact hloop
  constructor
  · exact fun h position hstart hheader => h position ((hmem position).mpr ⟨hstart, hheader⟩)
  · intro h position hposition
    obtain ⟨hstart, hheader⟩ := (hmem position).mp hposition
    exact h position hstart hheader

end Headers

theorem roomIdLoadsInside_iff (payload : Bytes) : RoomIdLoadsInside payload ↔
    payload.length < roomFailedPayloadLength ∨ 1 + simpleMessageHeaderSize ≤ payload.length := by
  unfold RoomIdLoadsInside roomIdLoads
  split
  · rename_i hshort
    exact iff_of_true (fun position hposition => absurd hposition List.not_mem_nil) (Or.inl hshort)
  · rename_i hlong
    rw [List.forall_mem_singleton]
    exact (or_iff_right hlong).symm

-- The second store begins four bytes before the end of the packet.
theorem not_inside_baseStores (roomId : RoomId) : ¬Inside assignUnassignPacketLength (baseStores roomId) := by
  intro h
  have hsecond := h _ (List.mem_cons_of_mem _ List.mem_cons_self)
  rw [length_simpleMessageHeader] at hsecond
  have hend : 5 + 8 ≤ 9 := hsecond
  exact absurd hend (by decide)

theorem accesses_iff (memory : Bytes) (events : List ReaderEvent) (read payload : Bytes) (roomId : RoomId)
    (hread : (Runs.run handle (fresh memory) events).offset + read.length ≤
      (Runs.run handle (fresh memory) events).readBufferSize) :
    (HeaderLoadsInside (Runs.run handle (fresh memory) events) read ↔
      HeadersApart (Runs.run handle (fresh memory) events) read) ∧
      (RoomIdLoadsInside payload ↔
        payload.length < roomFailedPayloadLength ∨ 1 + simpleMessageHeaderSize ≤ payload.length) ∧
      ¬Inside assignUnassignPacketLength (baseStores roomId) := by
  obtain ⟨position, hstands⟩ := run_stands memory events
  refine ⟨headerLoadsInside_iff (fun hskip => ?_) hread, roomIdLoadsInside_iff payload,
    not_inside_baseStores roomId⟩
  rw [hstands.skipping] at hskip
  rw [hstands.offset, position.apart.resolve_left hskip]
  rfl

-- A new reader of 12 bytes receives as many zeros: three empty packets.
theorem accesses_emptyPackets :
    (HeaderLoadsInside (Runs.run handle (fresh (List.replicate 12 0)) []) (List.replicate 12 0) ↔
      HeadersApart (Runs.run handle (fresh (List.replicate 12 0)) []) (List.replicate 12 0)) ∧
      (RoomIdLoadsInside [roomFailedCode, 0, 0, 0, 1] ↔
        5 < roomFailedPayloadLength ∨ 1 + simpleMessageHeaderSize ≤ 5) ∧
      ¬Inside assignUnassignPacketLength (baseStores 1) :=
  accesses_iff (List.replicate 12 0) [] (List.replicate 12 0) [roomFailedCode, 0, 0, 0, 1] 1 (by decide)

-- The header of the third packet is loaded with the four bytes behind the buffer.
theorem accesses_refuted : ¬∀ memory events read payload roomId,
    (Runs.run handle (fresh memory) events).offset + read.length ≤
        (Runs.run handle (fresh memory) events).readBufferSize →
      AccessesInside (Runs.run handle (fresh memory) events) read payload roomId := by
  intro h
  have hheaders := (h (List.replicate 12 0) [] (List.replicate 12 0) [] 1 (by decide)).headers
  rw [headerLoadsInside_iff (fun _ => rfl) (by decide)] at hheaders
  have hthird : PacketStart ((fresh (List.replicate 12 0)).received (List.replicate 12 0)) 12 0 8 :=
    @PacketStart.behind _ _ 0 0 8 (by decide) (by decide)
      (@PacketStart.behind _ _ 4 0 8 (by decide) (by decide) (.here 8))
  exact absurd (hheaders 8 hthird (by decide)) (by decide)

end LiveReceptor.Supervisor

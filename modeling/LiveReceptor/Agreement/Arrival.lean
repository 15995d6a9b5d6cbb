import LiveReceptor.Agreement.CrossRoom
import LiveReceptor.Shared.AsioSocketWriteHelper

namespace LiveReceptor.Agreement

open Supervisor Worker SimpleWorkerProto SimpleWorkerProtoHandler Framing

section Arrived

variable {α β : Type*} {length : α → Nat}

-- The first elements that are wholly within the first n of a stream.
def arrived (length : α → Nat) (n : Nat) : List α → List α
  | [] => []
  | a :: rest => if length a ≤ n then a :: arrived length (n - length a) rest else []

theorem arrived_map {f : α → β} {length' : β → Nat} (h : ∀ a, length' (f a) = length a) (n : Nat)
    (l : List α) : arrived length' n (l.map f) = (arrived length n l).map f := by
  induction l generalizing n with
  | nil => rfl
  | cons a rest ih =>
      rw [List.map_cons, arrived, arrived, h, ih]
      split <;> rfl

end Arrived

section Reader

variable {memory : Bytes} {messages : List Message}

-- Of a stream of frames that is still coming in, the decoder has the messages
-- that have come in whole.
theorem drain_arrived {bufferSize : Nat} (data more : Bytes) (hholds : Holds bufferSize messages)
    (h : data ++ more = frames messages) : ((decoder bufferSize).drain data).1 =
      (arrived (fun message => message.frame.length) data.length messages).map Message.payload := by
  induction messages generalizing data with
  | nil =>
      have hdata : data = [] := (List.append_eq_nil_iff.mp h).1
      have hnone : (decoder bufferSize).next [] = none := by
        rw [decoder_next, if_pos (Or.inl (by simp))]
      rw [hdata, FrameDecoder.drain_of_none hnone]
      rfl
  | cons message rest ih =>
      have hfits := hholds message List.mem_cons_self
      have hrest : Holds bufferSize rest := fun other hother => hholds other (List.mem_cons_of_mem _ hother)
      rw [frames_cons] at h
      rw [arrived]
      split
      · rename_i hwhole
        obtain ⟨data', rfl⟩ : message.frame <+: data :=
          List.prefix_of_prefix_length_le (List.prefix_append _ _) (h ▸ List.prefix_append _ _) hwhole
        rw [List.append_assoc, List.append_cancel_left_eq] at h
        rw [FrameDecoder.drain_of_some (decoder_next_frame message data' hfits), List.length_append,
          Nat.add_sub_cancel_left, List.map_cons, ← ih data' hrest h]
      · rename_i hpart
        have hnone : (decoder bufferSize).next data = none := by
          rw [decoder_next]
          apply if_pos
          by_cases h4 : data.length < 4
          · exact Or.inl h4
          · have hannounced := announced_of_append (Nat.not_lt.mp h4) h
            rw [message.length_frame] at hpart
            omega
        rw [FrameDecoder.drain_of_none hnone]
        rfl

theorem receiveAll_arrived (reads : List Bytes) (hholds : Holds memory.length messages)
    (h : reads.flatten <+: frames messages) : ((fresh memory).receiveAll reads).2 =
      (arrived (fun message => message.frame.length) reads.flatten.length messages).map
        Message.payload := by
  have hnext : (decoder memory.length).next [] = none := by
    rw [decoder_next, if_pos (Or.inl (by simp))]
  obtain ⟨more, hmore⟩ := h
  have hfits : ∀ before, before <+: reads →
      ¬Oversized memory.length ((decoder memory.length).drain before.flatten).2 := by
    rintro before ⟨after, rfl⟩
    rw [List.flatten_append, List.append_assoc] at hmore
    obtain ⟨others, -, hrest, hothers⟩ :=
      drain_of_frames before.flatten (after.flatten ++ more) messages hholds hmore
    exact not_oversized_of_frames hothers hrest
  rw [← drain_arrived reads.flatten more hholds hmore]
  exact (receiveAll_drain (fresh memory) [] reads (carries_fresh memory) hnext hfits).1

end Reader

-- A message that the worker has for a room, and the memory that its packet is
-- written to.
structure DataPacket where
  roomId : Int32
  message : BorrowedMessage
  memory : Allocation UInt8 (simpleMessageHeaderLength + workerDataPayloadLength message)

namespace DataPacket

def bytes (packet : DataPacket) : Bytes :=
  generateWorkerDataPacket packet.message packet.memory packet.roomId

-- What the data handler makes of it.
def call (packet : DataPacket) : Checksum × Bytes × Bytes :=
  (checksumOf (workerDataPayload packet.roomId packet.message), routingKeyString packet.message,
    packet.message.payload)

theorem short_payload (packet : DataPacket) :
    (workerDataPayload packet.roomId packet.message).length < UInt32.size := by
  have hshort := packet.message.short
  rw [length_workerDataPayload, workerDataPayloadLength, BorrowedMessage.size]
  simp only [UInt32.size, workerDataPayloadHeaderLength, roomIdLength, crc32Length, routingKeyMaxSize]
  omega

def toMessage (packet : DataPacket) : Message := ⟨workerDataPayload packet.roomId packet.message, packet.short_payload⟩

theorem frame_toMessage (packet : DataPacket) : packet.toMessage.frame = packet.bytes := by
  have hlength : packet.toMessage.payload.length = workerDataPayloadLength packet.message :=
    length_workerDataPayload packet.roomId packet.message
  have hpayload : packet.toMessage.payload = workerDataPayload packet.roomId packet.message := rfl
  rw [bytes, generateWorkerDataPacket_eq, Message.frame, hlength, hpayload]

theorem frames_toMessage (packets : List DataPacket) :
    frames (packets.map toMessage) = packets.flatMap bytes := by
  have hframe : Message.frame ∘ toMessage = bytes := funext frame_toMessage
  rw [frames, List.map_map, hframe, List.flatMap_def]

end DataPacket

section Calls

variable {env : Env} {worker other : Identifier} {payload : Bytes} {input : Input} {s s' t : Scheduler}

-- What the data handler is called with on behalf of one worker.
def callFor (worker : Identifier) : Effect → Option (Checksum × Bytes × Bytes)
  | .data identifier _ checksum routingKey payload =>
      if identifier = worker then some (checksum, routingKey, payload) else none
  | _ => none

theorem callFor_data {roomId : Int32} {checksum : Checksum} {routingKey : Bytes} :
    callFor worker (.data worker roomId checksum routingKey payload) =
      some (checksum, routingKey, payload) := if_pos rfl

def callsFor (worker : Identifier) (before after : Scheduler) : List (Checksum × Bytes × Bytes) :=
  (after.trace.drop before.trace.length).filterMap (callFor worker)

theorem callsFor_eq {effects : List Effect} (h : s'.trace = s.trace ++ effects) :
    callsFor worker s s' = effects.filterMap (callFor worker) := by
  rw [callsFor, h, List.drop_left]

-- The state comes with more effects, none of them for this worker.
def Silent (worker : Identifier) (s s' : Scheduler) : Prop :=
  ∃ effects, s'.trace = s.trace ++ effects ∧ ∀ effect ∈ effects, callFor worker effect = none

theorem Silent.of_eq (h : s'.trace = s.trace) : Silent worker s s' :=
  ⟨[], by rw [h, List.append_nil], by simp⟩

theorem Silent.trans (h : Silent worker s s') (h' : Silent worker s' t) : Silent worker s t :=
  Scheduler.extends_trans h h'

theorem Silent.callsFor (h : Silent worker s s') : callsFor worker s s' = [] := by
  obtain ⟨effects, htrace, hnone⟩ := h
  rw [callsFor_eq htrace, List.filterMap_eq_nil_iff]
  exact hnone

theorem silent_checkAllStates : Silent worker s (s.checkAllStates env) := by
  obtain ⟨effects, htrace, hnone⟩ := Scheduler.checkAllStates_extends env s
  refine ⟨effects, htrace, fun effect he => ?_⟩
  have hpayload := hnone effect he
  cases effect with
  | data => exact absurd trivial hpayload
  | _ => rfl

theorem silent_handleData (hne : other ≠ worker) :
    Silent worker s (s.handleData env other payload) := by
  have hcall : ∀ s : Scheduler, Silent worker s (s.callDataHandler other (roomIdOf payload) payload) := by
    intro s
    refine ⟨_, rfl, fun effect he => ?_⟩
    rw [List.mem_singleton.mp he]
    exact if_neg hne
  unfold Scheduler.handleData
  dsimp only
  split
  · exact .of_eq rfl
  · split
    · split
      · split
        · exact .of_eq rfl
        · split
          · exact Silent.trans (.of_eq rfl) (hcall _)
          · exact .of_eq rfl
      · exact Silent.trans (.of_eq rfl) (hcall _)
    · exact .of_eq rfl

theorem silent_handleBuffer (hne : other ≠ worker) :
    Silent worker s (s.handleBuffer env other payload) := by
  have htouched : Silent worker s ((s.emit (.received other payload s.authCode)).touchWorker env other) :=
    ⟨[.received other payload s.authCode], rfl, by simp [callFor]⟩
  by_cases hlen : payload.length < roomFailedPayloadLength
  · rw [Scheduler.handleBuffer_malformed hlen]
    exact htouched
  · rw [Nat.not_lt] at hlen
    by_cases hkey : s.workers.HasKey other
    · rw [Scheduler.handleBuffer_known hlen hkey]
      dsimp only
      split
      · refine Silent.trans ?_ silent_checkAllStates
        split
        · exact ⟨_, Scheduler.trace_ready hkey, by simp [callFor]⟩
        · exact ⟨_, Scheduler.trace_reject hkey, by simp [callFor]⟩
      · split
        · exact Silent.trans ⟨_, Scheduler.trace_fail, by simp [callFor]⟩ silent_checkAllStates
        · split
          · exact htouched.trans (silent_handleData hne)
          · exact htouched
    · rw [Scheduler.handleBuffer_unknown hlen hkey]
      exact ⟨_, Scheduler.trace_unknown, by simp [callFor]⟩

-- What comes in from the worker.
def payloadOf (worker : Identifier) (input : Input) : Option Bytes :=
  match input.event with
  | .payload identifier payload => if identifier = worker then some payload else none
  | _ => none

-- The data handler is called for a worker on its own payloads only.
theorem silent_step (h : payloadOf worker input = none) : Silent worker s (Scheduler.step input s) := by
  obtain ⟨env, event⟩ := input
  cases event with
  | accept result draws =>
      show Silent worker s (s.onAccept env result draws)
      unfold Scheduler.onAccept
      split
      · exact .of_eq rfl
      · exact .of_eq rfl
      · exact .of_eq rfl
      · exact .of_eq rfl
      · refine ⟨_, Scheduler.trace_handleNewWorker, fun effect he => ?_⟩
        rcases List.mem_cons.mp he with rfl | he
        · rfl
        · split at he
          · rw [List.mem_singleton.mp he]
            rfl
          · cases he
  | payload identifier payload =>
      apply silent_handleBuffer
      rintro rfl
      simp [payloadOf] at h
  | workerDisconnect identifier =>
      show Silent worker s (s.handleWorkerDisconnect env identifier)
      unfold Scheduler.handleWorkerDisconnect
      dsimp only
      split
      · rename_i hkey
        exact ⟨_, Scheduler.trace_leave hkey, by simp [callFor]⟩
      · exact .of_eq (by simp)
  | tick result =>
      cases result with
      | aborted => exact .of_eq rfl
      | failed => exact Silent.trans (.of_eq rfl) silent_checkAllStates
      | expired => exact Silent.trans (.of_eq rfl) silent_checkAllStates
  | updateRoomLists rooms => exact .of_eq (by simp [Scheduler.step])
  | configure config => exact .of_eq rfl
  | loadAuthCode => exact .of_eq rfl

-- The task of the worker is there when a payload of it comes in, and a message
-- without a checksum does not come too early.
def Held (worker : Identifier) (input : Input) (s : Scheduler) : Prop :=
  ∀ payload, payloadOf worker input = some payload →
    s.tasks.HasKey (worker, roomIdOf payload) ∧
      (checksumOf payload = 0 → NotLimited input.env (roomIdOf payload) s)

theorem eq_of_payloadOf (h : payloadOf worker input = some payload) :
    ∃ env, input = ⟨env, .payload worker payload⟩ := by
  obtain ⟨env, event⟩ := input
  cases event with
  | payload identifier payload' =>
      by_cases he : identifier = worker
      · obtain rfl : payload' = payload := by simpa [payloadOf, he] using h
        exact ⟨env, he ▸ rfl⟩
      · simp [payloadOf, he] at h
  | _ => cases h

theorem callsFor_step (hinv : s.Inv) {packet : DataPacket}
    (hpayload : payloadOf worker input = some (workerDataPayload packet.roomId packet.message))
    (hheld : Held worker input s) : callsFor worker s (Scheduler.step input s) = [packet.call] := by
  obtain ⟨env, hinput⟩ := eq_of_payloadOf hpayload
  obtain ⟨htask, hlimit⟩ := hheld _ hpayload
  rw [hinput] at hlimit ⊢
  rw [roomIdOf_workerDataPayload] at htask hlimit
  obtain ⟨task, hmem, hkey⟩ := htask
  have hworker : task.identifier = worker := congrArg Prod.fst hkey
  have hroomId : task.roomId = packet.roomId := congrArg Prod.snd hkey
  obtain ⟨status, hstatus, hidentifier, -⟩ := hinv.taskWorker task hmem
  have hknown : s.workers.HasKey worker := ⟨status, hstatus, hidentifier.trans hworker⟩
  have hroom : s.rooms.HasKey packet.roomId := hroomId ▸ hinv.taskRoom task hmem
  have hlength : roomFailedPayloadLength ≤ (workerDataPayload packet.roomId packet.message).length := by
    rw [length_workerDataPayload]
    exact Nat.le_trans (by decide) (Nat.le_add_right _ _)
  have hzero : packet.message.crc32 = 0 →
      checksumOf (workerDataPayload packet.roomId packet.message) = 0 := by
    rw [checksumOf, drop_workerDataPayload_five]
    exact (loadInt_eq_zero_iff _ _).mpr
  have htrace := trace_handleData env packet.message
    (s := (s.emit (.received worker (workerDataPayload packet.roomId packet.message) s.authCode)).touchWorker
      env worker) ⟨task, hmem, hkey⟩ hroom fun h => hlimit (hzero h)
  have hbuffer : s.handleBuffer env worker (workerDataPayload packet.roomId packet.message) =
      ((s.emit (.received worker (workerDataPayload packet.roomId packet.message) s.authCode)).touchWorker
        env worker).handleData env worker (workerDataPayload packet.roomId packet.message) :=
    Scheduler.handleBuffer_known hlength hknown
  rw [← hbuffer, Scheduler.trace_touchWorker, Scheduler.trace_emit, List.append_assoc] at htrace
  show callsFor worker s (s.handleBuffer env worker _) = _
  rw [callsFor_eq htrace, List.singleton_append, List.filterMap_cons_none rfl,
    List.filterMap_cons_some callFor_data]
  rfl

-- All that the data handler is called with on behalf of the worker.
def handledFor (worker : Identifier) (s : Scheduler) (inputs : List Input) :
    List (Checksum × Bytes × Bytes) :=
  Runs.collect Scheduler.step (fun input s => callsFor worker s (Scheduler.step input s)) s inputs

-- Whatever else happens between them, the packets are handled one by one.
theorem handledFor_eq {inputs : List Input} {packets : List DataPacket} (hinv : s.Inv)
    (hpayloads : inputs.filterMap (payloadOf worker) =
      packets.map fun packet => workerDataPayload packet.roomId packet.message)
    (hheld : Runs.EveryStep Scheduler.step (Held worker) s inputs) :
    handledFor worker s inputs = packets.map DataPacket.call := by
  induction inputs generalizing s packets with
  | nil =>
      obtain rfl := List.map_eq_nil_iff.mp hpayloads.symm
      rfl
  | cons input rest ih =>
      obtain ⟨hfirst, hrest⟩ := hheld
      have hinv' := Scheduler.step_inv input hinv
      have hcollect : handledFor worker s (input :: rest) =
        callsFor worker s (Scheduler.step input s) ++ handledFor worker (Scheduler.step input s) rest := rfl
      rw [hcollect]
      cases hpayload : payloadOf worker input with
      | none =>
          rw [List.filterMap_cons_none hpayload] at hpayloads
          rw [(silent_step hpayload).callsFor, List.nil_append]
          exact ih hinv' hpayloads hrest
      | some payload =>
          rw [List.filterMap_cons_some hpayload] at hpayloads
          obtain ⟨packet, others, rfl, hpacket, hothers⟩ := List.map_eq_cons_iff.mp hpayloads.symm
          rw [callsFor_step hinv (hpacket ▸ hpayload) hfirst, ih hinv' hothers.symm hrest]
          rfl

end Calls

section Wire

variable {s : AsioSocketWriteHelper}

-- What is on the wire is the beginning of what was handed over.
theorem wire_of_writing (h : s.Writing) : s.wire <+: s.ran.flatMap WriteBuffer.bytes := by
  have hran : s.ran = s.written ++ s.writeQueue := by rw [← h.queued, h.deleted]
  rw [h.wire, hran, List.flatMap_append]
  rcases h.cases with ⟨hidle, hqueue⟩ | ⟨write, hbusy, hbatch⟩
  · rw [hidle, hqueue]
    exact List.prefix_refl _
  · obtain ⟨rest, hrest⟩ := hbatch.inFlight
    rw [hbusy, List.flatMap_singleton, ← hrest, List.flatMap_append, List.prefix_append_right_inj]
    exact (List.take_prefix _ _).trans (List.prefix_append _ _)

end Wire

section Example

def onePacket : DataPacket := ⟨1, dataMessage 1, dataMemory⟩

def otherPacket : DataPacket := ⟨1, dataMessage 2, dataMemory⟩

-- The second packet is handed over while the first one is being written, and is on
-- its way when the supervisor has read ten bytes of it.
def twoWrites : List WriteEvent :=
  [.write onePacket.bytes, .runPosted 0, .transfer 0 20, .write otherPacket.bytes, .runPosted 0,
    .transfer 0 26, .complete 0, .transfer 0 12]

def someReads : List Bytes := [onePacket.bytes.take 3, onePacket.bytes.drop 3 ++ otherPacket.bytes.take 10]

def tickedInputs : List Input :=
  [{ env := .at (seconds 14), event := .tick .expired },
    { env := .at (seconds 15), event := .payload 5 (workerDataPayload 1 (dataMessage 1)) }]

end Example

end LiveReceptor.Agreement

import LiveReceptor.Shared.Framing.Chunking
import LiveReceptor.Supervisor.Consistency
import LiveReceptor.Worker.SimpleWorkerProtoGenerator

namespace LiveReceptor.Agreement

open Supervisor Worker SimpleWorkerProto SimpleWorkerProtoHandler Framing

section ByteOrder

-- The four bytes read the same from either end.
def Palindromic (crc32 : Checksum) : Prop :=
  (hostToNetworkLong crc32.toUInt32).reverse = hostToNetworkLong crc32.toUInt32

instance (crc32 : Checksum) : Decidable (Palindromic crc32) := inferInstanceAs (Decidable (_ = _))

theorem hostToNetworkLong_networkToHostLong (bytes : Bytes) (h : bytes.length = 4) :
    hostToNetworkLong (networkToHostLong bytes) = bytes := by
  match bytes, h with
  | [b₀, b₁, b₂, b₃], _ =>
      have h₀ := b₀.toNat_lt
      have h₁ := b₁.toNat_lt
      have h₂ := b₂.toNat_lt
      have h₃ := b₃.toNat_lt
      simp only [networkToHostLong, hostToNetworkLong, UInt32.toNat_ofNat', List.cons.injEq,
        ← UInt8.toNat_inj, UInt8.toNat_ofNat', and_true]
      omega

-- An int in the order of the host is one in network order with its bytes
-- reversed.
theorem loadInt_hostToNetworkLong (n : UInt32) (rest : Bytes) :
    loadInt (hostToNetworkLong n ++ rest) =
      (networkToHostLong (hostToNetworkLong n).reverse).toInt32 := by
  simp only [hostToNetworkLong, List.cons_append, loadInt, List.reverse_cons, List.reverse_nil,
    List.nil_append, networkToHostLong]
  congr 2
  omega

-- The checksum survives the way exactly when the order of its bytes does not
-- matter.
theorem loadInt_eq_iff (crc32 : Checksum) (rest : Bytes) :
    loadInt (hostToNetworkLong crc32.toUInt32 ++ rest) = crc32 ↔ Palindromic crc32 := by
  rw [loadInt_hostToNetworkLong, Palindromic]
  constructor
  · intro h
    have hvalue : networkToHostLong (hostToNetworkLong crc32.toUInt32).reverse = crc32.toUInt32 := by
      conv_rhs => rw [← h]
      rfl
    have hbytes := hostToNetworkLong_networkToHostLong (hostToNetworkLong crc32.toUInt32).reverse rfl
    rw [← hbytes, hvalue]
  · intro h
    have hdecode := networkToHostLong_hostToNetworkLong crc32.toUInt32 []
    rw [List.append_nil] at hdecode
    rw [h, hdecode, Int32.toInt32_toUInt32]

theorem loadInt_eq_zero_iff (crc32 : Checksum) (rest : Bytes) :
    loadInt (hostToNetworkLong crc32.toUInt32 ++ rest) = 0 ↔ crc32 = 0 := by
  constructor
  · intro h
    rw [loadInt_hostToNetworkLong] at h
    have hvalue : networkToHostLong (hostToNetworkLong crc32.toUInt32).reverse = 0 :=
      congrArg Int32.toUInt32 h
    have hbytes := hostToNetworkLong_networkToHostLong (hostToNetworkLong crc32.toUInt32).reverse rfl
    rw [hvalue] at hbytes
    have hzero : hostToNetworkLong crc32.toUInt32 = hostToNetworkLong 0 := by
      rw [← List.reverse_reverse (hostToNetworkLong crc32.toUInt32), ← hbytes]
      rfl
    have hdecode := networkToHostLong_hostToNetworkLong crc32.toUInt32 []
    rw [List.append_nil, hzero] at hdecode
    exact congrArg UInt32.toInt32 hdecode.symm
  · rintro rfl
    exact (loadInt_eq_iff 0 rest).mpr (by decide)

end ByteOrder

section Fields

variable (roomId : Int32) (msg : BorrowedMessage)

-- The routing key as a string: it ends at the first NUL, or with its field.
def routingKeyString (msg : BorrowedMessage) : Bytes := msg.routingKey.1.takeWhile (· ≠ 0)

theorem drop_workerDataPayload_five : (workerDataPayload roomId msg).drop 5 =
    hostToNetworkLong msg.crc32.toUInt32 ++ (msg.routingKey.1 ++ msg.payload) := rfl

theorem drop_workerDataPayload_nine :
    (workerDataPayload roomId msg).drop 9 = msg.routingKey.1 ++ msg.payload := rfl

theorem roomIdOf_workerDataPayload : roomIdOf (workerDataPayload roomId msg) = roomId := by
  show (networkToHostLong (hostToNetworkLong roomId.toUInt32 ++ _)).toInt32 = roomId
  rw [networkToHostLong_hostToNetworkLong, Int32.toInt32_toUInt32]

theorem routingKeyOf_workerDataPayload :
    routingKeyOf (workerDataPayload roomId msg) = routingKeyString msg := by
  rw [routingKeyOf, drop_workerDataPayload_nine, List.take_left' msg.routingKey.2, routingKeyString]

theorem drop_workerDataPayload_header :
    (workerDataPayload roomId msg).drop workerDataPayloadHeaderLength = msg.payload := by
  have hheader : workerDataPayloadHeaderLength = 9 + 32 := rfl
  rw [hheader, ← List.drop_drop, drop_workerDataPayload_nine, List.drop_left' msg.routingKey.2]

end Fields

section Scheduler

variable {env : Env} {worker : Identifier} {s : Scheduler} {roomId : Int32} {msg : BorrowedMessage}

-- What the data handler is called with.
def dataCall : Effect → Option (Checksum × Bytes × Bytes)
  | .data _ _ checksum routingKey payload => some (checksum, routingKey, payload)
  | _ => none

-- The calls of the data handler between two states of one run.
def dataCalls (before after : Scheduler) : List (Checksum × Bytes × Bytes) :=
  (after.trace.drop before.trace.length).filterMap dataCall

-- The payloads of one worker, each handled when the clock reads what its
-- environment says.
def payloadInputs (envs : Nat → Env) (worker : Identifier) (payloads : List Bytes) : List Input :=
  payloads.zipIdx.map fun one => { env := envs one.2, event := .payload worker one.1 }

-- A message without a checksum does not come too early for its room.
def NotLimited (env : Env) (roomId : Int32) (s : Scheduler) : Prop :=
  ∀ room ∈ s.rooms, room.roomId = roomId → s.passesInterval env room

-- The scheduler passes the fields of the packet on as it reads them.
theorem trace_handleData (env : Env) (msg : BorrowedMessage) (htask : s.tasks.HasKey (worker, roomId))
    (hroom : s.rooms.HasKey roomId)
    (hlimit : msg.crc32 = 0 → NotLimited env roomId s) :
    (s.handleData env worker (workerDataPayload roomId msg)).trace =
      s.trace ++ [.data worker roomId (checksumOf (workerDataPayload roomId msg))
        (routingKeyString msg) msg.payload] := by
  have hlength : ¬(workerDataPayload roomId msg).length < workerDataPayloadHeaderLength := by
    rw [length_workerDataPayload, workerDataPayloadLength]
    omega
  unfold Scheduler.handleData
  dsimp only
  rw [if_neg hlength, roomIdOf_workerDataPayload, if_pos htask]
  have hcall : ∀ s : Scheduler, (s.callDataHandler worker roomId (workerDataPayload roomId msg)).trace =
      s.trace ++ [.data worker roomId (checksumOf (workerDataPayload roomId msg))
        (routingKeyString msg) msg.payload] := fun s => by
    rw [Scheduler.callDataHandler, Scheduler.trace_emit, routingKeyOf_workerDataPayload,
      drop_workerDataPayload_header]
  split
  · rename_i hzero
    have hcrc : msg.crc32 = 0 := by
      rw [checksumOf, drop_workerDataPayload_five] at hzero
      exact (loadInt_eq_zero_iff _ _).mp hzero
    cases hfind : s.rooms.find? roomId with
    | none => exact absurd hroom (Keyed.find?_eq_none.mp hfind)
    | some room =>
        obtain ⟨hmem, hid⟩ := Keyed.find?_eq_some.mp hfind
        have hpasses : (s.touchTask env worker roomId).passesInterval env room :=
          hlimit hcrc room hmem hid
        have hrooms : (s.touchTask env worker roomId).rooms = s.rooms := rfl
        rw [hrooms, hfind]
        dsimp only
        rw [if_pos hpasses]
        exact hcall _
  · exact hcall _

-- The worker of a task is known, so that its packet gets to handle_data.
theorem handleBuffer_workerDataPayload (env : Env) (hinv : s.Inv) (htask : s.tasks.HasKey (worker, roomId))
    (msg : BorrowedMessage) : s.handleBuffer env worker (workerDataPayload roomId msg) =
      ((s.emit (.received worker (workerDataPayload roomId msg) s.authCode)).touchWorker env
        worker).handleData env worker (workerDataPayload roomId msg) := by
  obtain ⟨task, hmem, hkey⟩ := htask
  have hworker : task.identifier = worker := congrArg Prod.fst hkey
  obtain ⟨status, hstatus, hidentifier, -⟩ := hinv.taskWorker task hmem
  have hknown : s.workers.HasKey worker := ⟨status, hstatus, hidentifier.trans hworker⟩
  have hlength : roomFailedPayloadLength ≤ (workerDataPayload roomId msg).length := by
    rw [length_workerDataPayload]
    exact Nat.le_trans (by decide) (Nat.le_add_right _ _)
  exact Scheduler.handleBuffer_known hlength hknown

theorem dataCalls_workerDataPayload (env : Env) (hinv : s.Inv) (htask : s.tasks.HasKey (worker, roomId))
    (hlimit : msg.crc32 = 0 → NotLimited env roomId s) :
    dataCalls s (s.handleBuffer env worker (workerDataPayload roomId msg)) =
      [(checksumOf (workerDataPayload roomId msg), routingKeyString msg, msg.payload)] := by
  have hroom : s.rooms.HasKey roomId := by
    obtain ⟨task, hmem, hkey⟩ := htask
    have hroomId : task.roomId = roomId := congrArg Prod.snd hkey
    exact hroomId ▸ hinv.taskRoom task hmem
  have htrace := trace_handleData env msg
    (s := (s.emit (.received worker (workerDataPayload roomId msg) s.authCode)).touchWorker env worker)
    htask hroom hlimit
  rw [dataCalls, handleBuffer_workerDataPayload env hinv htask, htrace, Scheduler.trace_touchWorker, Scheduler.trace_emit, List.append_assoc,
    List.drop_left]
  rfl

end Scheduler

section Run

variable {config : Config} {inputs : List Input} {worker : Identifier} {roomId : Int32}
  {msg : BorrowedMessage} {memory : Allocation UInt8 (simpleMessageHeaderLength + workerDataPayloadLength msg)}
  {buffer : Bytes} {reads : List Bytes} {envs : Nat → Env}

theorem receiveAll_workerDataPacket
    (hbuffer : simpleMessageHeaderLength + workerDataPayloadLength msg ≤ buffer.length)
    (hcut : reads.flatten = generateWorkerDataPacket msg memory roomId) :
    ((fresh buffer).receiveAll reads).2 = [workerDataPayload roomId msg] := by
  have hlength := length_workerDataPayload roomId msg
  have hshort : (workerDataPayload roomId msg).length < UInt32.size := by
    have hpayload := msg.short
    rw [hlength, workerDataPayloadLength, BorrowedMessage.size]
    simp only [UInt32.size, workerDataPayloadHeaderLength, roomIdLength, crc32Length, routingKeyMaxSize]
    omega
  refine (receiveAll_frames buffer reads [⟨workerDataPayload roomId msg, hshort⟩] ?_ ?_).1
  · intro message hmessage
    rw [List.mem_singleton.mp hmessage]
    show (workerDataPayload roomId msg).length + 4 ≤ buffer.length
    simp only [simpleMessageHeaderLength] at hbuffer
    omega
  · rw [hcut, generateWorkerDataPacket_eq, ← hlength]
    exact (List.append_nil _).symm

-- The data handler is called once, with the checksum in the wrong order.
theorem run_dataCalls
    (hbuffer : simpleMessageHeaderLength + workerDataPayloadLength msg ≤ buffer.length)
    (hcut : reads.flatten = generateWorkerDataPacket msg memory roomId)
    (htask : (Scheduler.run config inputs).tasks.HasKey (worker, roomId))
    (hlimit : msg.crc32 = 0 → NotLimited (envs 0) roomId (Scheduler.run config inputs)) :
    dataCalls (Scheduler.run config inputs) (Runs.run Scheduler.step (Scheduler.run config inputs)
        (payloadInputs envs worker ((fresh buffer).receiveAll reads).2)) =
      [(loadInt (hostToNetworkLong msg.crc32.toUInt32 ++ (msg.routingKey.1 ++ msg.payload)),
        routingKeyString msg, msg.payload)] := by
  have hinv := Scheduler.run_inv config inputs
  rw [receiveAll_workerDataPacket hbuffer hcut]
  exact dataCalls_workerDataPayload (envs 0) hinv htask hlimit

-- A packet that the read buffer of the supervisor can hold, however it is cut,
-- reaches the data handler as it was sent exactly when the bytes of its
-- checksum may be reversed.
theorem data_round_trip_iff (config : Config) (inputs : List Input) (worker : Identifier)
    (roomId : Int32) (msg : BorrowedMessage)
    (memory : Allocation UInt8 (simpleMessageHeaderLength + workerDataPayloadLength msg))
    (buffer : Bytes) (reads : List Bytes) (envs : Nat → Env)
    (hbuffer : simpleMessageHeaderLength + workerDataPayloadLength msg ≤ buffer.length)
    (hcut : reads.flatten = generateWorkerDataPacket msg memory roomId)
    (htask : (Scheduler.run config inputs).tasks.HasKey (worker, roomId))
    (hlimit : msg.crc32 = 0 → NotLimited (envs 0) roomId (Scheduler.run config inputs)) :
    dataCalls (Scheduler.run config inputs) (Runs.run Scheduler.step (Scheduler.run config inputs)
        (payloadInputs envs worker ((fresh buffer).receiveAll reads).2)) =
      [(msg.crc32, routingKeyString msg, msg.payload)] ↔ Palindromic msg.crc32 := by
  rw [run_dataCalls hbuffer hcut htask hlimit, List.cons.injEq, Prod.mk.injEq, and_iff_left rfl,
    and_iff_left rfl]
  exact loadInt_eq_iff msg.crc32 _

end Run

section Example

-- The worker connects, there is a room, and after the WORKER_READY the timer
-- assigns it.
def dataInputs : List Input :=
  [{ env := .at 0, event := .accept .accepted [5] },
    { env := .at 0, event := .updateRoomLists [1] },
    { env := .at (seconds 10), event := .payload 5 (plainReady 1) },
    { env := .at (seconds 13), event := .tick .expired }]

def dataMessage (crc32 : Int32) : BorrowedMessage where
  crc32
  routingKey := ⟨[98, 108] ++ List.replicate 30 0, rfl⟩
  payload := [7]
  short := by decide

def dataMemory : Allocation UInt8 (simpleMessageHeaderLength + 42) := ⟨List.replicate 46 255, rfl⟩

theorem data_round_trip_iff_palindromic :
    dataCalls (Scheduler.run plainConfig dataInputs)
        (Runs.run Scheduler.step (Scheduler.run plainConfig dataInputs)
          (payloadInputs (fun _ => .at (seconds 14)) 5 ((fresh (List.replicate 46 0)).receiveAll
            [generateWorkerDataPacket (dataMessage 16777217) dataMemory 1]).2)) =
      [(16777217, routingKeyString (dataMessage 16777217), [7])] ↔ Palindromic 16777217 :=
  data_round_trip_iff plainConfig dataInputs 5 1 (dataMessage 16777217) dataMemory (List.replicate 46 0)
    [generateWorkerDataPacket (dataMessage 16777217) dataMemory 1] (fun _ => .at (seconds 14)) (by decide)
    (List.append_nil _) (by decide) (fun h => absurd h (by decide))

-- The checksum 1 arrives as 16777216.
theorem data_round_trip_refuted : ¬∀ config inputs worker roomId msg
    (memory : Allocation UInt8 (simpleMessageHeaderLength + workerDataPayloadLength msg)) buffer reads envs,
    simpleMessageHeaderLength + workerDataPayloadLength msg ≤ buffer.length →
    reads.flatten = generateWorkerDataPacket msg memory roomId →
    (Scheduler.run config inputs).tasks.HasKey (worker, roomId) →
    (msg.crc32 = 0 → NotLimited (envs 0) roomId (Scheduler.run config inputs)) →
    dataCalls (Scheduler.run config inputs) (Runs.run Scheduler.step (Scheduler.run config inputs)
        (payloadInputs envs worker ((fresh buffer).receiveAll reads).2)) =
      [(msg.crc32, routingKeyString msg, msg.payload)] := by
  intro hall
  have hcalls := hall plainConfig dataInputs 5 1 (dataMessage 1) dataMemory (List.replicate 46 0)
    [generateWorkerDataPacket (dataMessage 1) dataMemory 1] (fun _ => .at (seconds 14)) (by decide)
    (List.append_nil _) (by decide) (fun h => absurd h (by decide))
  rw [run_dataCalls (by decide) (List.append_nil _) (by decide) (fun h => absurd h (by decide))] at hcalls
  exact absurd (congrArg List.head? hcalls) (by decide)

end Example

end LiveReceptor.Agreement

import LiveReceptor.Supervisor.Steps
import LiveReceptor.Worker.Json
import LiveReceptor.Worker.SimpleWorkerProtoGenerator

namespace LiveReceptor.Agreement

open Supervisor Supervisor.Scheduler Worker SimpleWorkerProto Memory

abbrev workerReadyPacketLength : Nat := simpleMessageHeaderLength + workerReadyPayloadLength

section Writes

-- The writes of generate_worker_ready_packet, and of load_auth_code.
def workerReadyStores (maxRooms : Int32) (authCode : Bytes) : List (Nat × Bytes) :=
  [(0, hostToNetworkLong (.ofNat workerReadyPayloadLength)),
    (simpleMessageHeaderLength + 1, hostToNetworkLong maxRooms.toUInt32),
    (simpleMessageHeaderLength, [workerReadyCode]),
    (simpleMessageHeaderLength + 5, List.replicate authCodeSize 0),
    (simpleMessageHeaderLength + 5, authCode)]

def authCodeStores (authCode : Bytes) : List (Nat × Bytes) :=
  [(0, List.replicate (authCodeSize + 1) 0), (0, authCode)]

theorem storeEach_workerReadyStores (memory : Allocation UInt8 workerReadyPacketLength) (maxRooms : Int32)
    (authCode : Bytes) : storeEach memory.1 (workerReadyStores maxRooms authCode) =
      generateWorkerReadyPacket memory maxRooms authCode := rfl

theorem storeEach_authCodeStores (memory : Allocation UInt8 (authCodeSize + 1)) (s : Scheduler) :
    storeEach memory.1 (authCodeStores s.config.worker.authCode) = s.loadAuthCode.authCode := by
  have hzeros : store memory.1 0 (List.replicate (authCodeSize + 1) 0) =
      List.replicate (authCodeSize + 1) 0 := by
    have hwhole := @storeAll_eq _ memory.1 0 [List.replicate (authCodeSize + 1) 0] (by simp [memory.2])
    exact hwhole.trans (by rw [List.take_zero, List.nil_append, List.flatten_singleton])
  unfold loadAuthCode authCodeStores storeEach
  rw [List.foldl_cons, hzeros]
  simp only [List.foldl_cons, List.foldl_nil, store, List.length_replicate, List.drop_replicate,
    List.take_append, List.take_replicate, Nat.sub_zero, Nat.zero_add]
  rw [Nat.zero_min, List.replicate_zero, List.nil_append]
  congr 2
  omega

theorem inside_workerReadyStores (maxRooms : Int32) (authCode : Bytes) :
    Inside workerReadyPacketLength (workerReadyStores maxRooms authCode) ↔ authCode.length ≤ authCodeSize := by
  simp only [Inside, workerReadyStores, List.forall_mem_cons, length_hostToNetworkLong, List.length_replicate,
    List.length_singleton, workerReadyPacketLength, workerReadyPayloadLength, simpleMessageHeaderLength,
    roomIdLength, authCodeSize]
  constructor
  · rintro ⟨-, -, -, -, h, -⟩
    omega
  · intro h
    refine ⟨by omega, by omega, by omega, by omega, by omega, ?_⟩
    exact fun one hone => absurd hone List.not_mem_nil

theorem inside_authCodeStores (authCode : Bytes) :
    Inside (authCodeSize + 1) (authCodeStores authCode) ↔ authCode.length ≤ authCodeSize + 1 := by
  simp [Inside, authCodeStores]

end Writes

section Payload

variable {maxRooms : Int32} {authCode : Bytes}

def padded (authCode : Bytes) : Bytes := authCode ++ List.replicate (authCodeSize - authCode.length) 0

-- What a ready packet has behind the header.
def workerReadyPayload (maxRooms : Int32) (authCode : Bytes) : Bytes :=
  workerReadyCode :: (hostToNetworkLong maxRooms.toUInt32 ++ padded authCode)

theorem length_padded (h : authCode.length ≤ authCodeSize) : (padded authCode).length = authCodeSize := by
  rw [padded, List.length_append, List.length_replicate]
  omega

theorem length_workerReadyPayload (maxRooms : Int32) (authCode : Bytes) :
    (workerReadyPayload maxRooms authCode).length = 5 + (padded authCode).length := by
  rw [workerReadyPayload, List.length_cons, List.length_append, length_hostToNetworkLong]
  omega

theorem generateWorkerReadyPacket_eq (memory : Allocation UInt8 workerReadyPacketLength)
    (h : authCode.length ≤ authCodeSize) : generateWorkerReadyPacket memory maxRooms authCode =
      hostToNetworkLong (.ofNat workerReadyPayloadLength) ++ workerReadyPayload maxRooms authCode := by
  have hmemory : memory.1.length = 41 := memory.2
  obtain ⟨header, body, hblock, hheader, hbody⟩ := @exists_cut _ memory.1 4 (by omega)
  obtain ⟨opCode, rest, rfl, hopCode, hrest⟩ := @exists_cut _ body 1 (by omega)
  obtain ⟨room, field, rfl, hroom, -⟩ := @exists_cut _ rest 4 (by omega)
  have hlength : ∀ n, (hostToNetworkLong n).length = 4 := length_hostToNetworkLong
  have hzeros : List.replicate authCodeSize (0 : UInt8) =
      List.replicate authCode.length 0 ++ List.replicate (authCodeSize - authCode.length) 0 := by
    rw [List.replicate_append_replicate, Nat.add_sub_cancel' h]
  have hlengthField : store memory.1 0 (hostToNetworkLong (.ofNat workerReadyPayloadLength)) =
      hostToNetworkLong (.ofNat workerReadyPayloadLength) ++ opCode ++ (room ++ field) := by
    rw [hblock, List.append_assoc]
    exact @store_between _ _ _ [] _ _ rfl (hheader.trans (hlength _).symm)
  have hroomField : generateRoomBasicPacket memory maxRooms =
      hostToNetworkLong (.ofNat workerReadyPayloadLength) ++
        (opCode ++ (hostToNetworkLong maxRooms.toUInt32 ++ field)) := by
    rw [generateRoomBasicPacket, hlengthField, ← List.append_assoc _ opCode (_ ++ field)]
    apply store_between
    · rw [List.length_append, hlength, hopCode]
    · exact hroom.trans (hlength _).symm
  have hopCodeField : store (generateRoomBasicPacket memory maxRooms) simpleMessageHeaderLength
      [workerReadyCode] = hostToNetworkLong (.ofNat workerReadyPayloadLength) ++ [workerReadyCode] ++
        hostToNetworkLong maxRooms.toUInt32 ++ (field ++ []) := by
    rw [hroomField, store_between (hlength _) hopCode]
    simp
  have hfront : (hostToNetworkLong (.ofNat workerReadyPayloadLength) ++ [workerReadyCode] ++
      hostToNetworkLong maxRooms.toUInt32).length = simpleMessageHeaderLength + 5 := rfl
  have hback : field.length = (List.replicate authCodeSize (0 : UInt8)).length := by
    have hwhole := congrArg List.length hblock
    simp only [List.length_append] at hwhole
    rw [List.length_replicate, authCodeSize]
    omega
  rw [generateWorkerReadyPacket, hopCodeField, store_between hfront hback, hzeros, List.append_assoc _ _ [],
    store_between hfront List.length_replicate]
  simp [workerReadyPayload, padded]

end Payload

section Comparison

variable {a b : Bytes}

theorem strncmpEqual_iff {n : Nat} {field other : Bytes} (hfield : n ≤ field.length) (hother : n ≤ other.length) :
    strncmpEqual n field other = true ↔ cString (field.take n) = cString (other.take n) := by
  induction n generalizing field other with
  | zero => simp [strncmpEqual, cString]
  | succ n ih =>
      obtain ⟨x, field, rfl⟩ := List.exists_cons_of_length_pos (by omega : 0 < field.length)
      obtain ⟨y, other, rfl⟩ := List.exists_cons_of_length_pos (by omega : 0 < other.length)
      have hrest := ih (Nat.le_of_succ_le_succ hfield) (Nat.le_of_succ_le_succ hother)
      simp only [cString, ne_eq, decide_not] at hrest ⊢
      simp only [strncmpEqual, List.take_succ_cons, List.takeWhile_cons]
      by_cases hx : x = 0 <;> by_cases hy : y = 0 <;> simp [hx, hy, hrest]
      · exact fun h => absurd h.symm hy

theorem cString_append_zeros (h : 0 ∉ a) (n : Nat) : cString (a ++ List.replicate n 0) = a := by
  have hall : ∀ x ∈ a, decide (x ≠ 0) = true := by
    intro x hx
    exact decide_eq_true fun hzero => h (hzero ▸ hx)
  rw [cString, List.takeWhile_append_of_pos hall]
  cases n <;> simp [List.replicate_succ]

theorem cString_padded (h : 0 ∉ a) (hlength : a.length ≤ authCodeSize) :
    cString ((padded a).take authCodeSize) = a := by
  rw [List.take_of_length_le (Nat.le_of_eq (length_padded hlength)), padded, cString_append_zeros h]

-- `_auth_code` once the string is loaded.
def loadedAuthCode (authCode : Bytes) : Bytes :=
  (authCode ++ List.replicate (authCodeSize + 1) 0).take (authCodeSize + 1)

theorem loadAuthCode_authCode (s : Scheduler) :
    s.loadAuthCode.authCode = loadedAuthCode s.config.worker.authCode := rfl

theorem cString_loadedAuthCode (h : 0 ∉ b) :
    cString ((loadedAuthCode b).take authCodeSize) = b.take authCodeSize := by
  have hfront : 0 ∉ b.take authCodeSize := fun hmem => h (List.mem_of_mem_take hmem)
  rw [loadedAuthCode, List.take_take, Nat.min_eq_left (Nat.le_succ _), List.take_append, List.take_replicate,
    cString_append_zeros hfront]

-- Of the supervisor's code, the first 32 characters count.
theorem authenticated_workerReadyPayload (ha : 0 ∉ a) (hb : 0 ∉ b) (hlength : a.length ≤ authCodeSize)
    (maxRooms : Int32) :
    authenticated (loadedAuthCode b) (workerReadyPayload maxRooms a) ↔ a = b.take authCodeSize := by
  have hpadded := length_padded hlength
  have hfield : (workerReadyPayload maxRooms a).drop 5 = padded a := rfl
  have hsize : workerReadyPayloadLength ≤ (workerReadyPayload maxRooms a).length := by
    rw [length_workerReadyPayload, hpadded]
    exact Nat.le_refl 37
  have hloaded : authCodeSize ≤ (loadedAuthCode b).length := by
    rw [loadedAuthCode, List.length_take, List.length_append, List.length_replicate]
    omega
  rw [authenticated, and_iff_right hsize, hfield, strncmpEqual_iff hloaded (Nat.le_of_eq hpadded.symm),
    cString_padded ha hlength, cString_loadedAuthCode hb]
  exact eq_comm

theorem roomIdOf_workerReadyPayload (maxRooms : Int32) : roomIdOf (workerReadyPayload maxRooms a) = maxRooms := by
  show (networkToHostLong (hostToNetworkLong maxRooms.toUInt32 ++ _)).toInt32 = maxRooms
  rw [networkToHostLong_hostToNetworkLong, Int32.toInt32_toUInt32]

end Comparison

section Claim

variable {env : Env} {worker : Identifier} {maxRooms : Int32} {a b payload : Bytes} {s : Scheduler}

-- With this message the worker is ready for as many rooms: it is so in the state
-- in which handle_buffer calls check_all_states.
def Accepted (env : Env) (worker : Identifier) (payload : Bytes) (maxRooms : Int32) (s : Scheduler) : Prop :=
  ∃ t, passStart { env, event := .payload worker payload } s = some t ∧
    ∃ status ∈ t.workers, status.identifier = worker ∧ status.initialized = true ∧ status.maxRooms = maxRooms

-- What the two sides promise of a pair of codes, `b` being the one that is loaded.
structure CodesAgree (env : Env) (worker : Identifier) (maxRooms : Int32)
    (memory : Allocation UInt8 workerReadyPacketLength) (a b : Bytes) (s : Scheduler) : Prop where
  packet : Inside workerReadyPacketLength (workerReadyStores maxRooms a)
  loaded : Inside (authCodeSize + 1) (authCodeStores b)
  accepted : Accepted env worker ((generateWorkerReadyPacket memory maxRooms a).drop simpleMessageHeaderLength)
    maxRooms s ↔ a = b

-- The worker's code fits, and so does the supervisor's, or it is one character
-- longer and is not the worker's with that character.
def CodesFit (a b : Bytes) : Prop :=
  a.length ≤ authCodeSize ∧
    (b.length ≤ authCodeSize ∨ b.length = authCodeSize + 1 ∧ a ≠ b.take authCodeSize)

theorem accepted_iff (hworker : s.workers.HasKey worker) (hready : isReady payload) :
    Accepted env worker payload maxRooms s ↔ authenticated s.authCode payload ∧ roomIdOf payload = maxRooms := by
  have hkey : ((s.emit (.received worker payload s.authCode)).touchWorker env worker).workers.HasKey worker := by
    rw [workers_touchWorker, Keyed.hasKey_modify]
    exact hworker
  by_cases hauth : authenticated s.authCode payload
  · have hstart : ∀ t, passStart { env, event := .payload worker payload } s = some t ↔
        ((s.emit (.received worker payload s.authCode)).touchWorker env worker).readyWorker env worker payload =
          t := by simp [passStart, hworker, hready, hauth]
    simp only [Accepted, hstart, exists_eq_left', hauth, true_and]
    constructor
    · rintro ⟨status, hstatus, hi, -, hrooms⟩
      rw [← hrooms, (ready_of_mem_workers_readyWorker hstatus hi).2.2]
    · intro hrooms
      obtain ⟨status, hstatus, hi⟩ := (@hasKey_readyWorker env worker payload _ worker).mpr hkey
      obtain ⟨-, hinitialized, hlimit⟩ := ready_of_mem_workers_readyWorker hstatus hi
      exact ⟨status, hstatus, hi, hinitialized, hlimit.trans hrooms⟩
  · refine iff_of_false ?_ fun h => hauth h.1
    rintro ⟨t, hstart, status, hstatus, hi, -⟩
    obtain rfl : _ = t := by simpa [passStart, hworker, hready, hauth] using hstart
    rw [mem_workers_readyWorker_of_not_hasKey not_hasKey_rejectWorker, mem_workers_rejectWorker] at hstatus
    exact hstatus.2 hi

theorem isReady_workerReadyPayload (maxRooms : Int32) (a : Bytes) : isReady (workerReadyPayload maxRooms a) := by
  refine ⟨?_, rfl⟩
  rw [length_workerReadyPayload]
  exact Nat.le_add_right 5 _

-- The codes agree exactly when they fit.
theorem codesAgree_iff (env : Env) (worker : Identifier) (maxRooms : Int32)
    (memory : Allocation UInt8 workerReadyPacketLength) (a b : Bytes) (s : Scheduler) (ha : 0 ∉ a) (hb : 0 ∉ b)
    (hworker : s.workers.HasKey worker) (hloaded : s.authCode = loadedAuthCode b) :
    CodesAgree env worker maxRooms memory a b s ↔ CodesFit a b := by
  have haccepted : a.length ≤ authCodeSize →
      (Accepted env worker ((generateWorkerReadyPacket memory maxRooms a).drop simpleMessageHeaderLength) maxRooms s ↔
        a = b.take authCodeSize) := by
    intro hlength
    have hpayload : (generateWorkerReadyPacket memory maxRooms a).drop simpleMessageHeaderLength =
        workerReadyPayload maxRooms a := by
      rw [generateWorkerReadyPacket_eq memory hlength]
      exact List.drop_left' (length_hostToNetworkLong _)
    rw [hpayload, accepted_iff hworker (isReady_workerReadyPayload maxRooms a), hloaded,
      authenticated_workerReadyPayload ha hb hlength, roomIdOf_workerReadyPayload]
    exact and_iff_left rfl
  have hshort : b.length ≤ authCodeSize → b.take authCodeSize = b := List.take_of_length_le
  constructor
  · rintro ⟨hpacket, hcode, hagree⟩
    rw [inside_workerReadyStores] at hpacket
    rw [inside_authCodeStores] at hcode
    rw [haccepted hpacket] at hagree
    refine ⟨hpacket, ?_⟩
    by_cases hb' : b.length ≤ authCodeSize
    · exact Or.inl hb'
    · refine Or.inr ⟨by omega, fun hfront => hb' ?_⟩
      rw [← hagree.mp hfront]
      exact hpacket
  · rintro ⟨hlength, hfits⟩
    refine ⟨(inside_workerReadyStores _ _).mpr hlength, (inside_authCodeStores _).mpr ?_, ?_⟩
    · omega
    · rw [haccepted hlength]
      rcases hfits with hb' | ⟨hb', hne⟩
      · rw [hshort hb']
      · apply iff_of_false hne
        rintro rfl
        omega

def unwritten : Allocation UInt8 workerReadyPacketLength := ⟨List.replicate 41 255, rfl⟩

-- A supervisor with a worker that has connected.
def greeted (authCode : Bytes) : Scheduler :=
  (Scheduler.initial { worker := { authCode } }).handleNewWorker (.at 0) 5

theorem codesAgree_short : CodesAgree (.at 0) 5 10 unwritten [65, 66] [65, 66] (greeted [65, 66]) ↔
    CodesFit [65, 66] [65, 66] :=
  codesAgree_iff (.at 0) 5 10 unwritten [65, 66] [65, 66] (greeted [65, 66]) (by decide) (by decide)
    ⟨{ identifier := 5, lastReceived := 0 }, List.mem_singleton_self _, rfl⟩ rfl

-- A code of 33 characters is written past the end of the packet.
theorem codesAgree_refuted : ¬∀ (env : Env) (worker : Identifier) (maxRooms : Int32)
    (memory : Allocation UInt8 workerReadyPacketLength) (a b : Bytes) (s : Scheduler), 0 ∉ a → 0 ∉ b →
    s.workers.HasKey worker → s.authCode = loadedAuthCode b → CodesAgree env worker maxRooms memory a b s := by
  intro h
  have hagree := h (.at 0) 5 10 unwritten (List.replicate 33 65) (List.replicate 33 65)
    (greeted (List.replicate 33 65)) (by decide) (by decide)
    ⟨{ identifier := 5, lastReceived := 0 }, List.mem_singleton_self _, rfl⟩ rfl
  have hpacket := hagree.packet
  revert hpacket
  decide

end Claim

end LiveReceptor.Agreement

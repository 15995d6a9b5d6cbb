import LiveReceptor.Agreement.Arrival
import LiveReceptor.Worker.MessageIsolation

namespace LiveReceptor.Agreement

open Supervisor Worker SimpleWorkerProto Memory Handler Json

section Text

-- The last part of a routing key.
def suffixes : List String :=
  ["danmaku", "sc", "gift", "new_guard", "welcome_vip", "welcome_guard", "user_blocked", "live_status",
    "room_info", "room_locked", "room_warning", "room_limited", "sc_delete", "online"]

theorem suffix_mem_suffixes (command : Command) : command.suffix ∈ suffixes := by
  cases command <;> decide

variable {roomId roomId' : UInt32} {suffix suffix' : String}

theorem decimal_injective {m n : Nat} (h : decimal m = decimal n) : m = n := by
  have hchars : Nat.toDigits 10 m = Nat.toDigits 10 n := by
    have hback : ∀ n, (decimal n).map (fun byte => Char.ofNat byte.toNat) = Nat.toDigits 10 n := by
      intro n
      rw [decimal, List.map_map]
      conv_rhs => rw [← List.map_id (Nat.toDigits 10 n)]
      refine List.map_congr_left fun c hc => ?_
      have hdigit := Nat.isDigit_of_mem_toDigits (by decide) (by decide) hc
      simp only [Char.isDigit, Bool.and_eq_true, decide_eq_true_eq, ge_iff_le, UInt32.le_iff_toNat_le] at hdigit
      have hlow : c.toNat ≤ 57 := hdigit.2
      have hbyte : (UInt8.ofNat c.toNat).toNat = c.toNat := by
        rw [UInt8.toNat_ofNat', Nat.mod_eq_of_lt (by omega)]
      show Char.ofNat (UInt8.ofNat c.toNat).toNat = c
      rw [hbyte, Char.ofNat_toNat]
    rw [← hback m, ← hback n, h]
  rw [← @Nat.ofDigitChars_ten_toDigits m, ← @Nat.ofDigitChars_ten_toDigits n, hchars]

theorem length_decimal_le (roomId : UInt32) : (decimal roomId.toNat).length ≤ 10 := by
  rw [decimal, List.length_map, Nat.length_toDigits_le_iff (by decide) (by decide)]
  have hlt := roomId.toNat_lt
  omega

theorem takeWhile_decimal (n : Nat) (rest : Bytes) :
    (decimal n ++ 46 :: rest).takeWhile (· ≠ 46) = decimal n := by
  have hdigits : ∀ byte ∈ decimal n, decide (byte ≠ 46) = true := by
    rintro byte hbyte
    obtain ⟨hlow, -⟩ := digits_decimal n byte hbyte
    rw [decide_eq_true_iff]
    rintro rfl
    exact absurd hlow (by decide)
  rw [List.takeWhile_append_of_pos hdigits]
  simp

-- The dots tell the parts of a key apart.
theorem routingKeyText_injective (h : routingKeyText roomId suffix = routingKeyText roomId' suffix') :
    roomId = roomId' ∧ ascii suffix = ascii suffix' := by
  have hparts : ∀ roomId suffix, routingKeyText roomId suffix =
      ascii "blv." ++ (decimal roomId.toNat ++ 46 :: ascii suffix) := by
    intro roomId suffix
    rw [routingKeyText, List.append_assoc, List.append_assoc]
    rfl
  rw [hparts, hparts, List.append_cancel_left_eq] at h
  have hroom : decimal roomId.toNat = decimal roomId'.toNat := by
    rw [← takeWhile_decimal roomId.toNat (ascii suffix), ← takeWhile_decimal roomId'.toNat (ascii suffix'), h]
  rw [hroom, List.append_cancel_left_eq, List.cons.injEq] at h
  exact ⟨UInt32.toNat_inj.mp (decimal_injective hroom), h.2⟩

theorem ascii_injOn_suffixes (h : suffix ∈ suffixes) (h' : suffix' ∈ suffixes)
    (heq : ascii suffix = ascii suffix') : suffix = suffix' := by
  have hnodup : (suffixes.map ascii).Nodup := by decide
  exact List.inj_on_of_nodup_map hnodup h h' heq

-- A key fits into its field with the NUL, and has none inside.
theorem length_routingKeyText_lt (h : suffix ∈ suffixes) :
    (routingKeyText roomId suffix).length < routingKeyMaxSize := by
  have hsuffix : ∀ suffix ∈ suffixes, (ascii suffix).length ≤ 13 := by decide
  have hroom := length_decimal_le roomId
  have hlast := hsuffix suffix h
  have hfirst : (ascii "blv.").length = 4 := by decide
  have hdot : (ascii ".").length = 1 := by decide
  simp only [routingKeyText, List.length_append, routingKeyMaxSize]
  omega

theorem zero_notMem_routingKeyText (h : suffix ∈ suffixes) : 0 ∉ routingKeyText roomId suffix := by
  have hsuffix : ∀ suffix ∈ suffixes, 0 ∉ ascii suffix := by decide
  have hroom : (0 : UInt8) ∉ decimal roomId.toNat := fun hzero =>
    absurd (digits_decimal roomId.toNat 0 hzero).1 (by decide)
  have hfirst : (0 : UInt8) ∉ ascii "blv." := by decide
  have hdot : (0 : UInt8) ∉ ascii "." := by decide
  simp only [routingKeyText, List.mem_append, not_or]
  exact ⟨⟨⟨hfirst, hroom⟩, hdot⟩, hsuffix suffix h⟩

-- So it is read back from the field as it was written, over whatever was there.
theorem takeWhile_formatKey (h : suffix ∈ suffixes) (key : Allocation UInt8 routingKeyMaxSize) :
    (formatKey (routingKeyText roomId suffix) key).1.takeWhile (· ≠ 0) = routingKeyText roomId suffix := by
  have hlength : keyLength (routingKeyText roomId suffix) = (routingKeyText roomId suffix).length := by
    have hlt := @length_routingKeyText_lt roomId suffix h
    rw [keyLength]
    omega
  have hnonzero : ∀ byte ∈ routingKeyText roomId suffix, decide (byte ≠ 0) = true := by
    intro byte hbyte
    rw [decide_eq_true_iff]
    rintro rfl
    exact zero_notMem_routingKeyText h hbyte
  rw [formatKey_eq, hlength, List.take_length, List.takeWhile_append_of_pos hnonzero]
  simp

end Text

section Payloads

variable {libraries libraries' : Libraries} {payload payload' : Payload} {roomId roomId' : UInt32}
  {suffix : String}

-- What a payload is about.
def suffixOf (libraries : Libraries) : Payload → Option String
  | .json buf => (libraries.parseInsitu buf).bind fun document => (commandOf document).map Command.suffix
  | .popularity _ => some "online"

theorem mem_suffixes (h : suffixOf libraries payload = some suffix) : suffix ∈ suffixes := by
  cases payload with
  | json buf =>
      obtain ⟨document, -, hsuffix⟩ := Option.bind_eq_some_iff.mp h
      obtain ⟨command, -, rfl⟩ := Option.map_eq_some_iff.mp hsuffix
      exact suffix_mem_suffixes command
  | popularity value =>
      obtain rfl := Option.some.inj h
      decide

theorem keyText_eq : payload.keyText libraries roomId =
    (suffixOf libraries payload).map (routingKeyText roomId) := by
  cases payload with
  | json buf =>
      rw [Payload.keyText, suffixOf, Option.map_bind]
      congr 1
      funext document
      rw [Function.comp_apply, Option.map_map]
      rfl
  | popularity value => rfl

-- The packet of a payload. The serializer has written it over `context`, and
-- `memory` is what is found where the packet is put.
def dataPacket (libraries : Libraries) (payload : Payload) (roomId : UInt32)
    (context : BorrowedBilibiliMessage) (memory : (size : Nat) → Allocation UInt8 size) : DataPacket where
  roomId := roomId.toInt32
  message := ((payload.serialize libraries roomId).writes context).borrow libraries
  memory := memory _

-- Whatever the object held before, an accepted payload is handled in one way only.
theorem call_dataPacket (h : (payload.serialize libraries roomId).Returns ()) :
    ∃ suffix checksum message, suffixOf libraries payload = some suffix ∧ ∀ context memory,
      (dataPacket libraries payload roomId context memory).call =
        (checksum, routingKeyText roomId suffix, message) := by
  obtain ⟨text, crc32, message, htext, hwrites⟩ := writes_of_returns h
  rw [keyText_eq] at htext
  obtain ⟨suffix, hsuffix, rfl⟩ := Option.map_eq_some_iff.mp htext
  refine ⟨suffix, (networkToHostLong (hostToNetworkLong crc32.toUInt32).reverse).toInt32,
    (libraries.serializeToArray message).1, hsuffix, fun context memory => ?_⟩
  have hmessage : (dataPacket libraries payload roomId context memory).message =
      BorrowedBilibiliMessage.borrow libraries
        { crc32, routingKey := formatKey (routingKeyText roomId suffix) context.routingKey, message } :=
    congrArg (BorrowedBilibiliMessage.borrow libraries) (hwrites context)
  rw [DataPacket.call, hmessage, checksumOf, drop_workerDataPayload_five, loadInt_hostToNetworkLong,
    routingKeyString, BorrowedBilibiliMessage.borrow]
  dsimp only
  rw [takeWhile_formatKey (mem_suffixes hsuffix)]

end Payloads

section Calls

variable {env : Env} {worker : Identifier} {s : Scheduler} {packet : DataPacket}

-- The scheduler passes the message on.
def Passes (env : Env) (worker : Identifier) (packet : DataPacket) (s : Scheduler) : Prop :=
  s.tasks.HasKey (worker, packet.roomId) ∧
    (packet.call.1 = 0 → ∃ room ∈ s.rooms.find? packet.roomId, s.passesInterval env room)

instance (env : Env) (worker : Identifier) (packet : DataPacket) (s : Scheduler) :
    Decidable (Passes env worker packet s) := inferInstanceAs (Decidable (_ ∧ (_ → _)))

theorem trace_handleData_packet (packet : DataPacket) (s : Scheduler) :
    (s.handleData env worker (workerDataPayload packet.roomId packet.message)).trace =
      s.trace ++ if Passes env worker packet s then
        [.data worker packet.roomId packet.call.1 packet.call.2.1 packet.call.2.2] else [] := by
  have hlength : ¬(workerDataPayload packet.roomId packet.message).length < workerDataPayloadHeaderLength := by
    rw [length_workerDataPayload, workerDataPayloadLength]
    omega
  have hcall : ∀ s : Scheduler,
      (s.callDataHandler worker packet.roomId (workerDataPayload packet.roomId packet.message)).trace =
        s.trace ++ [.data worker packet.roomId packet.call.1 packet.call.2.1 packet.call.2.2] := by
    intro s
    rw [Scheduler.callDataHandler, Scheduler.trace_emit, routingKeyOf_workerDataPayload,
      drop_workerDataPayload_header]
    rfl
  have hzero : checksumOf (workerDataPayload packet.roomId packet.message) = packet.call.1 := rfl
  unfold Scheduler.handleData
  dsimp only
  rw [if_neg hlength, roomIdOf_workerDataPayload, hzero]
  by_cases htask : s.tasks.HasKey (worker, packet.roomId)
  · rw [if_pos htask]
    by_cases hchecksum : packet.call.1 = 0
    · rw [if_pos hchecksum]
      have hrooms : (s.touchTask env worker packet.roomId).rooms = s.rooms := rfl
      rw [hrooms]
      cases hfind : s.rooms.find? packet.roomId with
      | none =>
          rw [if_neg]
          · exact (List.append_nil s.trace).symm
          · rintro ⟨-, hpasses⟩
            obtain ⟨room, hroom, -⟩ := hpasses hchecksum
            rw [hfind] at hroom
            cases hroom
      | some room =>
          by_cases hpasses : s.passesInterval env room
          · have htouched : (s.touchTask env worker packet.roomId).passesInterval env room := hpasses
            dsimp only
            rw [if_pos htouched, if_pos ⟨htask, fun _ => ⟨room, hfind, hpasses⟩⟩, hcall]
            rfl
          · have htouched : ¬(s.touchTask env worker packet.roomId).passesInterval env room := hpasses
            dsimp only
            rw [if_neg htouched, if_neg]
            · exact (List.append_nil s.trace).symm
            · rintro ⟨-, hlimit⟩
              obtain ⟨other, hother, hpassed⟩ := hlimit hchecksum
              rw [hfind] at hother
              exact hpasses (Option.some.inj hother ▸ hpassed)
    · rw [if_neg hchecksum, if_pos ⟨htask, fun h => absurd h hchecksum⟩, hcall]
      rfl
  · rw [if_neg htask, if_neg fun hpasses => htask hpasses.1, List.append_nil]

theorem dataCalls_packet (packet : DataPacket) (s : Scheduler) :
    dataCalls s (s.handleBuffer env worker (workerDataPayload packet.roomId packet.message)) =
      if s.workers.HasKey worker ∧ Passes env worker packet s then [packet.call] else [] := by
  have hlength : roomFailedPayloadLength ≤ (workerDataPayload packet.roomId packet.message).length := by
    rw [length_workerDataPayload]
    exact Nat.le_trans (by decide) (Nat.le_add_right _ _)
  rw [dataCalls]
  by_cases hknown : s.workers.HasKey worker
  · have hbuffer : s.handleBuffer env worker (workerDataPayload packet.roomId packet.message) =
        ((s.emit (.received worker (workerDataPayload packet.roomId packet.message) s.authCode)).touchWorker
          env worker).handleData env worker (workerDataPayload packet.roomId packet.message) :=
      Scheduler.handleBuffer_known hlength hknown
    have hpasses : Passes env worker packet
        ((s.emit (.received worker (workerDataPayload packet.roomId packet.message) s.authCode)).touchWorker
          env worker) ↔ Passes env worker packet s := Iff.rfl
    rw [hbuffer, trace_handleData_packet, Scheduler.trace_touchWorker, Scheduler.trace_emit,
      List.append_assoc, List.drop_left]
    by_cases h : Passes env worker packet s
    · rw [if_pos (hpasses.mpr h), if_pos ⟨hknown, h⟩]
      rfl
    · rw [if_neg (mt hpasses.mp h), if_neg fun hboth => h hboth.2]
      rfl
  · rw [Scheduler.handleBuffer_unknown hlength hknown, Scheduler.trace_unknown, List.drop_left,
      if_neg fun h => hknown h.1]
    rfl

end Calls

section Posted

variable {env : Env} {worker : Identifier} {calls : List (Checksum × Bytes × Bytes)}

-- What is posted does not depend on the state of the scheduler any more.
theorem foldl_onWorkerData_scheduler (s : GlobalContext) (scheduler : Scheduler) :
    calls.foldl (fun s call => s.onWorkerData env call.1 call.2.1 call.2.2) { s with scheduler } =
      { calls.foldl (fun s call => s.onWorkerData env call.1 call.2.1 call.2.2) s with scheduler } := by
  have hone : ∀ (s : GlobalContext) (call : Checksum × Bytes × Bytes),
      GlobalContext.onWorkerData env call.1 call.2.1 call.2.2 { s with scheduler } =
        { s.onWorkerData env call.1 call.2.1 call.2.2 with scheduler } := by
    intro s call
    unfold GlobalContext.onWorkerData
    split <;> rfl
  induction calls generalizing s with
  | nil => rfl
  | cons call rest ih => rw [List.foldl_cons, hone, ih, List.foldl_cons]

theorem posted_step (payload : Bytes) (s : GlobalContext) :
    (GlobalContext.step ⟨env, .payload worker payload⟩ s).posted =
      ((dataCalls s.scheduler (s.scheduler.handleBuffer env worker payload)).foldl
        (fun s call => s.onWorkerData env call.1 call.2.1 call.2.2) s).posted := by
  rw [GlobalContext.step, foldl_onEffect_eq]
  show (List.foldl _ { s with scheduler := _ } _).posted = _
  rw [foldl_onWorkerData_scheduler]
  rfl

theorem posted_step_eq {packet packet' : DataPacket} (hroom : packet.roomId = packet'.roomId)
    (hcall : packet.call = packet'.call) (s : GlobalContext) :
    (GlobalContext.step ⟨env, .payload worker (workerDataPayload packet.roomId packet.message)⟩ s).posted =
      (GlobalContext.step ⟨env, .payload worker (workerDataPayload packet'.roomId packet'.message)⟩ s).posted := by
  have hpasses : Passes env worker packet s.scheduler ↔ Passes env worker packet' s.scheduler := by
    rw [Passes, Passes, hroom, hcall]
  rw [posted_step, posted_step, dataCalls_packet, dataCalls_packet]
  by_cases h : s.scheduler.workers.HasKey worker ∧ Passes env worker packet s.scheduler
  · rw [if_pos h, if_pos (h.imp_right hpasses.mp), hcall]
  · rw [if_neg h, if_neg (mt (And.imp_right hpasses.mpr) h)]

end Posted

section Histories

variable {libraries libraries' : Libraries} {payload payload' : Payload} {roomId roomId' : UInt32}

-- The keys under which two messages are posted, whatever their threads have done
-- before, are the same exactly when the messages are about the same in one room.
theorem routingKey_eq_iff (h : (payload.serialize libraries roomId).Returns ())
    (h' : (payload'.serialize libraries' roomId').Returns ()) (crc32 crc32' : Int32)
    (key key' : Allocation UInt8 routingKeyMaxSize) (history history' : List Call)
    (memory memory' : (size : Nat) → Allocation UInt8 size) :
    (dataPacket libraries payload roomId
        (Runs.run (Call.step libraries) (parseContext crc32 key) history) memory).call.2.1 =
      (dataPacket libraries' payload' roomId'
        (Runs.run (Call.step libraries') (parseContext crc32' key') history') memory').call.2.1 ↔
      roomId = roomId' ∧ suffixOf libraries payload = suffixOf libraries' payload' := by
  obtain ⟨suffix, checksum, message, hsuffix, hcall⟩ := call_dataPacket h
  obtain ⟨suffix', checksum', message', hsuffix', hcall'⟩ := call_dataPacket h'
  rw [hcall, hcall', hsuffix, hsuffix', Option.some.injEq]
  constructor
  · intro htext
    obtain ⟨hroom, hascii⟩ := routingKeyText_injective htext
    exact ⟨hroom, ascii_injOn_suffixes (mem_suffixes hsuffix) (mem_suffixes hsuffix') hascii⟩
  · rintro ⟨rfl, rfl⟩
    rfl

-- The bytes that earlier messages have left in the packet stop at the supervisor:
-- whatever was done on the thread before, it posts the same for it.
theorem run_posted_eq (libraries : Libraries) (payload : Payload) (roomId : UInt32)
    (h : (payload.serialize libraries roomId).Returns ()) (crc32 crc32' : Int32)
    (key key' : Allocation UInt8 routingKeyMaxSize) (history history' : List Call)
    (memory memory' : (size : Nat) → Allocation UInt8 size) (config : Config) (inputs : List Input)
    (env : Env) (worker : Identifier) :
    (GlobalContext.step ⟨env, .payload worker ((dataPacket libraries payload roomId
        (Runs.run (Call.step libraries) (parseContext crc32 key) history) memory).bytes.drop
          simpleMessageHeaderLength)⟩ (GlobalContext.run config inputs)).posted =
      (GlobalContext.step ⟨env, .payload worker ((dataPacket libraries payload roomId
        (Runs.run (Call.step libraries) (parseContext crc32' key') history') memory').bytes.drop
          simpleMessageHeaderLength)⟩ (GlobalContext.run config inputs)).posted := by
  obtain ⟨suffix, checksum, message, -, hcall⟩ := call_dataPacket h
  have hdrop : ∀ packet : DataPacket, packet.bytes.drop simpleMessageHeaderLength =
      workerDataPayload packet.roomId packet.message := by
    intro packet
    rw [DataPacket.bytes, generateWorkerDataPacket_eq]
    rfl
  rw [hdrop, hdrop]
  refine posted_step_eq ?_ ?_ _
  · rfl
  · rw [hcall, hcall]

section Example

def blankContext : BorrowedBilibiliMessage :=
  parseContext 0 ⟨List.replicate routingKeyMaxSize 0, List.length_replicate⟩

def filledWith (byte : UInt8) (size : Nat) : Allocation UInt8 size :=
  ⟨List.replicate size byte, List.length_replicate⟩

theorem returns_popularity (value : Int) (roomId : UInt32) :
    ((Payload.popularity value).serialize heartbeatLibraries roomId).Returns () := rfl

-- The message of a room with a longer number comes first.
theorem routingKey_eq_iff_popularity :
    (dataPacket heartbeatLibraries (.popularity 7) 1
        (Runs.run (Call.step heartbeatLibraries) blankContext [⟨.popularity 9, 4294967295⟩])
          (filledWith 0)).call.2.1 =
      (dataPacket heartbeatLibraries (.popularity 8) 2
        (Runs.run (Call.step heartbeatLibraries) blankContext []) (filledWith 1)).call.2.1 ↔
      (1 : UInt32) = 2 ∧
        suffixOf heartbeatLibraries (.popularity 7) = suffixOf heartbeatLibraries (.popularity 8) :=
  routingKey_eq_iff (returns_popularity 7 1) (returns_popularity 8 2) 0 0 _ _ _ _ _ _

theorem run_posted_eq_popularity :
    (GlobalContext.step ⟨.at (seconds 20), .payload 5 ((dataPacket heartbeatLibraries (.popularity 7) 1
        (Runs.run (Call.step heartbeatLibraries) blankContext [⟨.popularity 9, 4294967295⟩])
          (filledWith 0)).bytes.drop simpleMessageHeaderLength)⟩
            (GlobalContext.run plainConfig dataInputs)).posted =
      (GlobalContext.step ⟨.at (seconds 20), .payload 5 ((dataPacket heartbeatLibraries (.popularity 7) 1
        (Runs.run (Call.step heartbeatLibraries) blankContext []) (filledWith 1)).bytes.drop
          simpleMessageHeaderLength)⟩ (GlobalContext.run plainConfig dataInputs)).posted :=
  run_posted_eq heartbeatLibraries (.popularity 7) 1 (returns_popularity 7 1) 0 0 _ _ _ _ _ _ plainConfig
    dataInputs (.at (seconds 20)) 5

end Example

end Histories

end LiveReceptor.Agreement

import LiveReceptor.Supervisor.CommandLog
import LiveReceptor.Supervisor.Pass
import LiveReceptor.Supervisor.RoomTable

-- How often the messages without a checksum are passed on.
namespace LiveReceptor.Supervisor

open SimpleWorkerProto

-- A message of the room that has no checksum.
def Effect.popularityOf (roomId : RoomId) : Effect → Bool
  | .data _ room checksum _ _ => room = roomId && checksum = 0
  | _ => false

namespace Scheduler

-- The step passes such a message on.
def Forwards (roomId : RoomId) (input : Input) (s : Scheduler) : Prop :=
  ∃ effect ∈ (step input s).trace.drop s.trace.length, effect.popularityOf roomId = true

instance (roomId : RoomId) (input : Input) (s : Scheduler) : Decidable (Forwards roomId input s) :=
  inferInstanceAs (Decidable (∃ effect ∈ _, _))

-- When that has happened last, while the room has been in `_rooms`.
def lastForwarded (roomId : RoomId) : Scheduler → Option Time → List Input → Option Time
  | _, last, [] => last
  | s, last, input :: rest =>
      lastForwarded roomId (step input s)
        (if Forwards roomId input s then some (input.env.now .message)
        else if s.rooms.HasKey roomId then last
        else none) rest

variable {env : Env} {roomId : RoomId} {identifier : Identifier} {payload : Bytes} {input : Input}
  {s s' t : Scheduler}

section Times

-- Every room comes with the time it had.
def TimesKept (s s' : Scheduler) : Prop :=
  ∀ room ∈ s'.rooms, ∃ old ∈ s.rooms,
    old.roomId = room.roomId ∧ old.lastEmptyCrcReceived = room.lastEmptyCrcReceived

theorem TimesKept.trans (h : TimesKept s s') (h' : TimesKept s' t) : TimesKept s t := by
  intro room hroom
  obtain ⟨middle, hmiddle, hid, htime⟩ := h' room hroom
  obtain ⟨old, hold, hid', htime'⟩ := h middle hmiddle
  exact ⟨old, hold, hid'.trans hid, htime'.trans htime⟩

theorem TimesKept.of_eq (h : s'.rooms = s.rooms) : TimesKept s s' := fun room hroom =>
  ⟨room, h ▸ hroom, rfl, rfl⟩

theorem timesKept_modify {change : Int → Int}
    (h : s'.rooms = s.rooms.modify roomId
      fun room => { room with currentConnections := change room.currentConnections }) : TimesKept s s' := by
  intro room hroom
  rw [h] at hroom
  rcases Keyed.mem_modify.mp hroom with ⟨old, hold, -, rfl⟩ | ⟨hold, -⟩
  · exact ⟨old, hold, rfl, rfl⟩
  · exact ⟨room, hold, rfl, rfl⟩

theorem timesKept_deleteTask {descRank : Bool} :
    TimesKept s (s.deleteTask env identifier roomId descRank) := by
  by_cases h : s.tasks.HasKey (identifier, roomId)
  · exact @timesKept_modify roomId s _ (· - 1) (rooms_deleteTask_of_hasKey h)
  · rw [deleteTask_of_not_hasKey h]
    exact .of_eq rfl

theorem timesKept_drop {descRank : Bool} :
    TimesKept s ((s.sendUnassign identifier roomId).deleteTask env identifier roomId descRank) :=
  TimesKept.trans (.of_eq rooms_sendUnassign) timesKept_deleteTask

theorem timesKept_addTask : TimesKept s (s.addTask env identifier roomId) :=
  @timesKept_modify roomId s _ (· + 1) rooms_addTask

theorem timesKept_refreshCounts : TimesKept s s.refreshCounts := by
  intro room hroom
  obtain ⟨old, hold, rfl⟩ := mem_rooms_refreshCounts.mp hroom
  exact ⟨old, hold, rfl, rfl⟩

theorem timesKept_expireWorkers (threshold : Time) (skip : Bool) (workers : List WorkerStatus) (s : Scheduler) :
    TimesKept s (expireWorkers env threshold skip workers s) := by
  induction workers generalizing skip s with
  | nil => cases skip <;> exact .of_eq rfl
  | cons worker rest ih =>
      cases skip with
      | true => exact ih false s
      | false =>
          rw [expireWorkers]
          split
          · refine TimesKept.trans (.of_eq ?_) (ih _ _)
            rw [deleteAndDisconnectWorker, rooms_disconnectWorker, rooms_deleteWorker]
          · exact ih false s

theorem timesKept_expireTasks (threshold : Time) (tasks : List RoomTask) (s : Scheduler) :
    TimesKept s (expireTasks env threshold tasks s) := by
  induction tasks generalizing s with
  | nil => exact .of_eq rfl
  | cons task rest ih =>
      rw [expireTasks]
      split
      · exact ih s
      · exact (timesKept_deleteTask.trans (.of_eq rooms_sendUnassign)).trans (ih _)

theorem timesKept_deleteInactiveRoom : TimesKept s (s.deleteInactiveRoom env roomId) := by
  intro room hroom
  rw [TableScan.rooms_deleteInactiveRoom] at hroom
  exact ⟨room, (Keyed.mem_erase.mp hroom).1, rfl, rfl⟩

theorem timesKept_collectRooms (rooms : List RoomStatus) (scan : RoomScan) :
    TimesKept scan.state (rooms.foldl (RoomScan.visit env) scan).state := by
  induction rooms generalizing scan with
  | nil => exact .of_eq rfl
  | cons room rest ih =>
      refine TimesKept.trans ?_ (ih _)
      rw [RoomScan.visit]
      split
      · exact .of_eq rfl
      · exact timesKept_deleteInactiveRoom

theorem timesKept_offerRoom (erasing : Bool) (workers : List Identifier) (s : Scheduler) :
    TimesKept s (offerRoom env roomId erasing workers s).2.1 := by
  induction workers generalizing erasing s with
  | nil => exact .of_eq rfl
  | cons worker rest ih =>
      rw [offerRoom]
      split
      · exact ih true s
      · rw [assignTask]
        split
        · rename_i hassign
          split at hassign
          · cases hassign
          · obtain ⟨-, rfl⟩ := Prod.mk.inj hassign
            exact timesKept_addTask
        · rename_i hassign
          split at hassign
          · obtain ⟨-, rfl⟩ := Prod.mk.inj hassign
            exact ih false s
          · cases hassign

theorem timesKept_unassignOverkill (tasks : List RoomTask) (overkill throttling : Int) (s : Scheduler) :
    TimesKept s (unassignOverkill env tasks overkill throttling s).2 := by
  induction tasks generalizing overkill throttling s with
  | nil => exact .of_eq rfl
  | cons task rest ih =>
      rw [unassignOverkill]
      split
      · exact timesKept_drop.trans (ih _ _ _)
      · exact .of_eq rfl

theorem timesKept_rebalance {maxTasks currentMin : Int} {room : RoomStatus} {pass : AssignPass} :
    TimesKept pass.state (pass.rebalance env maxTasks currentMin room).state := by
  rw [AssignPass.rebalance]
  dsimp only
  split
  · exact timesKept_unassignOverkill _ _ _ _
  · exact .of_eq rfl

theorem timesKept_processRoom {maxTasks currentMin : Int} {pass : AssignPass} :
    TimesKept pass.state (pass.processRoom env maxTasks currentMin roomId).state := by
  rw [AssignPass.processRoom]
  split
  · exact .of_eq rfl
  · split
    · have hoffered := @timesKept_offerRoom env roomId false pass.workersAvailable pass.state
      dsimp only
      split
      · exact hoffered
      · exact hoffered.trans timesKept_rebalance
    · exact timesKept_rebalance

theorem timesKept_processRooms {maxTasks currentMin : Int} (rooms : List RoomId) (pass : AssignPass) :
    TimesKept pass.state (rooms.foldl (AssignPass.processRoom env maxTasks currentMin) pass).state := by
  induction rooms generalizing pass with
  | nil => exact .of_eq rfl
  | cons roomId rest ih => exact timesKept_processRoom.trans (ih _)

theorem timesKept_checkWorkerTaskInterval : TimesKept s (s.checkWorkerTaskInterval env) := by
  rw [checkWorkerTaskInterval]
  exact (timesKept_expireWorkers _ _ _ _).trans (timesKept_expireTasks _ _ _)

theorem timesKept_refreshed : TimesKept s (s.refreshed env) := by
  have hstart : TimesKept s ({ s with lastChecked := env.now .check }.emit (.checked (env.now .check))) :=
    .of_eq rfl
  exact (hstart.trans timesKept_checkWorkerTaskInterval).trans timesKept_refreshCounts

theorem timesKept_checkAllStates : TimesKept s (s.checkAllStates env) := by
  rw [checkAllStates]
  split
  · exact .of_eq rfl
  · have hcollected : TimesKept s (s.collected env) := timesKept_refreshed.trans (.of_eq rfl)
    have hstart : TimesKept s (s.assignStart env).state := hcollected.trans (timesKept_collectRooms _ _)
    exact hstart.trans (timesKept_processRooms _ _)

end Times

section Step

-- What a step does to the times: a message that it passes on sets the time of
-- its room, the other rooms keep theirs, and a new room starts with 0.
def Stamps (env : Env) (s s' : Scheduler) : Prop :=
  ∃ effects, s'.trace = s.trace ++ effects ∧ ∀ room ∈ s'.rooms,
    ((∃ effect ∈ effects, effect.popularityOf room.roomId = true) ∧ s.rooms.HasKey room.roomId ∧
      room.lastEmptyCrcReceived = env.now .message) ∨
    ((¬∃ effect ∈ effects, effect.popularityOf room.roomId = true) ∧
      ((∃ old ∈ s.rooms, old.roomId = room.roomId ∧ old.lastEmptyCrcReceived = room.lastEmptyCrcReceived) ∨
        (¬s.rooms.HasKey room.roomId ∧ room.lastEmptyCrcReceived = 0)))

theorem not_popularityOf {effect : Effect} (h : ¬effect.Publishes) (roomId : RoomId) :
    ¬effect.popularityOf roomId = true := by
  cases effect with
  | data => exact absurd trivial h
  | _ => simp [Effect.popularityOf]

theorem stamps_of_timesKept (hkept : TimesKept s s') {effects : List Effect}
    (htrace : s'.trace = s.trace ++ effects)
    (hnone : ∀ effect ∈ effects, ∀ roomId, ¬effect.popularityOf roomId = true) : Stamps env s s' := by
  refine ⟨effects, htrace, fun room hroom => Or.inr ⟨?_, Or.inl (hkept room hroom)⟩⟩
  rintro ⟨effect, heffect, hpopularity⟩
  exact hnone effect heffect room.roomId hpopularity

-- What comes before without touching the rooms or publishing may be left out.
theorem Stamps.behind (h : Stamps env t s') {first : List Effect} (hrooms : t.rooms = s.rooms)
    (htrace : t.trace = s.trace ++ first) (hnone : ∀ effect ∈ first, ¬effect.Publishes) : Stamps env s s' := by
  obtain ⟨effects, htrace', hstamps⟩ := h
  have hfirst : ∀ roomId, (∃ effect ∈ first ++ effects, effect.popularityOf roomId = true) ↔
      ∃ effect ∈ effects, effect.popularityOf roomId = true := by
    intro roomId
    constructor
    · rintro ⟨effect, heffect, hpopularity⟩
      rcases List.mem_append.mp heffect with heffect | heffect
      · exact absurd hpopularity (not_popularityOf (hnone effect heffect) roomId)
      · exact ⟨effect, heffect, hpopularity⟩
    · rintro ⟨effect, heffect, hpopularity⟩
      exact ⟨effect, List.mem_append_right _ heffect, hpopularity⟩
  refine ⟨first ++ effects, by rw [htrace', htrace, List.append_assoc], fun room hroom => ?_⟩
  rw [hfirst, ← hrooms]
  exact hstamps room hroom

theorem stamps_checkAllStates (hkept : TimesKept s t) {first : List Effect} (htrace : t.trace = s.trace ++ first)
    (hnone : ∀ effect ∈ first, ¬effect.Publishes) : Stamps env s (t.checkAllStates env) := by
  obtain ⟨rest, hrest, hsilent⟩ := checkAllStates_extends env t
  refine stamps_of_timesKept (hkept.trans timesKept_checkAllStates)
    (by rw [hrest, htrace, List.append_assoc]) fun effect heffect => not_popularityOf fun hpublishes => ?_
  rcases List.mem_append.mp heffect with heffect | heffect
  · exact hnone effect heffect hpublishes
  · exact hsilent effect heffect hpublishes.carriesPayload

theorem stamps_updateRoomLists (rooms : List RoomId) : Stamps env s (s.updateRoomLists rooms) := by
  refine ⟨[], (List.append_nil _).symm, fun room hroom => Or.inr ⟨by simp, ?_⟩⟩
  rcases mem_rooms_updateRoomLists.mp hroom with ⟨old, hold, rfl⟩ | ⟨hnew, -, hroom⟩
  · refine Or.inl ⟨old, hold, ?_⟩
    split <;> exact ⟨rfl, rfl⟩
  · exact Or.inr ⟨hnew, hroom ▸ rfl⟩

theorem rooms_touchRoom : (s.touchRoom env roomId).rooms =
    s.rooms.modify roomId fun room => { room with lastEmptyCrcReceived := env.now .message } := rfl

theorem stamps_forward (hchecksum : checksumOf payload = 0) :
    Stamps env s ((s.touchRoom env roomId).callDataHandler identifier roomId payload) := by
  refine ⟨_, rfl, fun room hroom => ?_⟩
  have hdata : ∀ other, (∃ effect ∈ [Effect.data identifier roomId (checksumOf payload) (routingKeyOf payload)
      (payload.drop workerDataPayloadHeaderLength)], effect.popularityOf other = true) ↔ other = roomId := by
    intro other
    simp only [List.mem_singleton, exists_eq_left, Effect.popularityOf, hchecksum]
    simpa using eq_comm
  rw [hdata]
  rw [rooms_callDataHandler, rooms_touchRoom] at hroom
  rcases Keyed.mem_modify.mp hroom with ⟨old, hold, hkey, rfl⟩ | ⟨hold, hkey⟩
  · exact Or.inl ⟨hkey, ⟨old, hold, rfl⟩, rfl⟩
  · exact Or.inr ⟨hkey, Or.inl ⟨room, hold, rfl, rfl⟩⟩

theorem stamps_handleData : Stamps env s (s.handleData env identifier payload) := by
  have hkept : ∀ t : Scheduler, t.rooms = s.rooms → t.trace = s.trace → Stamps env s t :=
    fun t hrooms htrace => stamps_of_timesKept (.of_eq hrooms) (htrace.trans (List.append_nil _).symm) (by simp)
  rw [handleData]
  dsimp only
  split
  · exact hkept s rfl rfl
  split
  · split
    · rename_i hchecksum
      split
      · exact hkept _ rfl rfl
      · split
        · exact (stamps_forward hchecksum).behind rfl (List.append_nil _).symm (by simp)
        · exact hkept _ rfl rfl
    · rename_i hchecksum
      refine stamps_of_timesKept (.of_eq rfl) rfl fun effect heffect other => ?_
      rw [List.mem_singleton.mp heffect]
      simp [Effect.popularityOf, hchecksum]
  · exact hkept s rfl rfl

theorem stamps_handleBuffer : Stamps env s (s.handleBuffer env identifier payload) := by
  by_cases hlen : payload.length < roomFailedPayloadLength
  · rw [handleBuffer_malformed hlen]
    exact stamps_of_timesKept (.of_eq rfl) rfl (by simp [Effect.popularityOf])
  rw [Nat.not_lt] at hlen
  by_cases hkey : s.workers.HasKey identifier
  · rw [handleBuffer_known hlen hkey]
    dsimp only
    split
    · unfold handleReady
      dsimp only
      split
      · exact stamps_checkAllStates (.of_eq (by simp)) (trace_ready hkey) (by simp [Effect.Publishes])
      · exact stamps_checkAllStates (.of_eq (by simp)) (trace_reject hkey) (by simp [Effect.Publishes])
    split
    · exact stamps_checkAllStates (TimesKept.trans (.of_eq rfl) timesKept_deleteTask) trace_fail
        (by simp [Effect.Publishes])
    split
    · exact stamps_handleData.behind rfl rfl (by simp [Effect.Publishes])
    · exact stamps_of_timesKept (.of_eq rfl) rfl (by simp [Effect.popularityOf])
  · rw [handleBuffer_unknown hlen hkey]
    exact stamps_of_timesKept (.of_eq (by simp)) trace_unknown (by simp [Effect.popularityOf])

theorem stamps_onAccept (result : AcceptResult) (draws : List Identifier) :
    Stamps env s (s.onAccept env result draws) := by
  have hnothing : ∀ t : Scheduler, t.rooms = s.rooms → t.trace = s.trace → Stamps env s t :=
    fun t hrooms htrace => stamps_of_timesKept (.of_eq hrooms) (htrace.trans (List.append_nil _).symm) (by simp)
  unfold onAccept
  split
  · exact hnothing _ rfl rfl
  · exact hnothing _ rfl rfl
  · exact hnothing _ rfl rfl
  · exact hnothing _ rfl rfl
  · refine stamps_of_timesKept (.of_eq rooms_handleNewWorker) trace_handleNewWorker fun effect heffect => ?_
    refine not_popularityOf fun hpublishes => ?_
    rcases List.mem_cons.mp heffect with rfl | heffect
    · exact hpublishes
    · split at heffect
      · rw [List.mem_singleton.mp heffect] at hpublishes
        exact hpublishes
      · cases heffect

theorem step_stamps (input : Input) (s : Scheduler) : Stamps input.env s (step input s) := by
  have hnothing : ∀ t : Scheduler, t.rooms = s.rooms → t.trace = s.trace → Stamps input.env s t :=
    fun t hrooms htrace => stamps_of_timesKept (.of_eq hrooms) (htrace.trans (List.append_nil _).symm) (by simp)
  obtain ⟨env, event⟩ := input
  cases event with
  | accept result draws => exact stamps_onAccept result draws
  | payload identifier payload => exact stamps_handleBuffer
  | workerDisconnect identifier =>
      show Stamps env s (s.handleWorkerDisconnect env identifier)
      unfold handleWorkerDisconnect
      dsimp only
      split
      · rename_i hkey
        exact stamps_of_timesKept (.of_eq (by simp)) (trace_leave hkey) (by simp [Effect.popularityOf])
      · exact hnothing _ rfl rfl
  | tick result =>
      cases result with
      | aborted => exact hnothing _ rfl rfl
      | failed => exact stamps_checkAllStates (t := s.endWait) (.of_eq rfl) (List.append_nil _).symm (by simp)
      | expired => exact stamps_checkAllStates (t := s.endWait) (.of_eq rfl) (List.append_nil _).symm (by simp)
  | updateRoomLists rooms => exact stamps_updateRoomLists rooms
  | configure config => exact hnothing _ rfl rfl
  | loadAuthCode => exact hnothing _ rfl rfl

end Step

section Run

theorem forwards_iff {effects : List Effect} (htrace : (step input s).trace = s.trace ++ effects) :
    Forwards roomId input s ↔ ∃ effect ∈ effects, effect.popularityOf roomId = true := by
  rw [Forwards, htrace, List.drop_left]

-- The room has the time of the message that was passed on last.
def Marked (roomId : RoomId) (last : Option Time) (s : Scheduler) : Prop :=
  ∀ room ∈ s.rooms, room.roomId = roomId → room.lastEmptyCrcReceived = last.getD 0

theorem step_marked {last : Option Time} (h : Marked roomId last s) :
    Marked roomId
      (if Forwards roomId input s then some (input.env.now .message)
        else if s.rooms.HasKey roomId then last else none) (step input s) := by
  obtain ⟨effects, htrace, hstamps⟩ := step_stamps input s
  rintro room hroom rfl
  have hforwards : Forwards room.roomId input s ↔
      ∃ effect ∈ effects, effect.popularityOf room.roomId = true := forwards_iff htrace
  rcases hstamps room hroom with ⟨hsome, -, htime⟩ | ⟨hnone, ⟨old, hold, hid, htime⟩ | ⟨hnew, htime⟩⟩
  · rw [if_pos (hforwards.mpr hsome), htime]
    rfl
  · rw [if_neg (hforwards.not.mpr hnone), if_pos ⟨old, hold, hid⟩, ← htime]
    exact h old hold hid
  · rw [if_neg (hforwards.not.mpr hnone), if_neg hnew, htime]
    rfl

theorem run_marked {last : Option Time} (h : Marked roomId last s) (inputs : List Input) :
    Marked roomId (lastForwarded roomId s last inputs) (Runs.run step s inputs) := by
  induction inputs generalizing s last with
  | nil => exact h
  | cons input rest ih => exact ih (step_marked h)

-- What the worker_data branch does with a message of a task that has no checksum.
theorem trace_handleData_popularity {room : RoomStatus} (hroom : room ∈ s.rooms)
    (hlen : workerDataPayloadHeaderLength ≤ payload.length) (hchecksum : checksumOf payload = 0)
    (hid : roomIdOf payload = room.roomId) (htask : s.tasks.HasKey (identifier, room.roomId)) :
    (s.handleData env identifier payload).trace = s.trace ++
      if passesInterval env room s then
        [.data identifier room.roomId (checksumOf payload) (routingKeyOf payload)
          (payload.drop workerDataPayloadHeaderLength)]
      else [] := by
  have hfind : (s.touchTask env identifier room.roomId).rooms.find? room.roomId = some room :=
    Keyed.find?_eq_some.mpr ⟨hroom, rfl⟩
  rw [handleData]
  dsimp only
  rw [if_neg (Nat.not_lt.mpr hlen), hid, if_pos htask, if_pos hchecksum, hfind]
  by_cases hpasses : passesInterval env room s
  · rw [if_pos hpasses]
    exact congrArg trace (if_pos hpasses)
  · rw [if_neg hpasses, List.append_nil]
    exact (congrArg trace (if_neg hpasses)).trans rfl

theorem handleData_of_not_hasKey (htask : ¬s.tasks.HasKey (identifier, roomIdOf payload)) :
    s.handleData env identifier payload = s := by
  rw [handleData]
  dsimp only
  rw [if_neg htask, ite_self]

theorem step_data (hlen : workerDataPayloadHeaderLength ≤ payload.length)
    (hcode : payload.head? = some workerDataCode) (hkey : s.workers.HasKey identifier) :
    step ⟨env, .payload identifier payload⟩ s =
      ((s.emit (.received identifier payload s.authCode)).touchWorker env identifier).handleData env identifier
        payload := by
  refine (handleBuffer_known (le_trans (by decide) hlen) hkey).trans ?_
  dsimp only
  rw [hcode, if_neg (by decide), if_neg (by decide), if_pos rfl]

theorem forwards_data_iff {room : RoomStatus} (hroom : room ∈ s.rooms)
    (hlen : workerDataPayloadHeaderLength ≤ payload.length) (hcode : payload.head? = some workerDataCode)
    (hchecksum : checksumOf payload = 0) (hid : roomIdOf payload = room.roomId)
    (hkey : s.workers.HasKey identifier) (htask : s.tasks.HasKey (identifier, room.roomId)) :
    Forwards room.roomId ⟨env, .payload identifier payload⟩ s ↔ passesInterval env room s := by
  have hdata := @trace_handleData_popularity env identifier payload
    ((s.emit (.received identifier payload s.authCode)).touchWorker env identifier) room hroom hlen hchecksum hid
    htask
  have htrace : (step ⟨env, .payload identifier payload⟩ s).trace =
      s.trace ++ (.received identifier payload s.authCode ::
        if passesInterval env room s then
          [.data identifier room.roomId (checksumOf payload) (routingKeyOf payload)
            (payload.drop workerDataPayloadHeaderLength)]
        else []) := by
    rw [step_data hlen hcode hkey]
    exact hdata.trans (List.append_assoc s.trace [_] _)
  rw [forwards_iff htrace]
  split
  · rename_i hpasses
    simp [Effect.popularityOf, hchecksum, hpasses]
  · rename_i hpasses
    simp [Effect.popularityOf, hpasses]

theorem not_forwards_of_not_hasKey (hlen : workerDataPayloadHeaderLength ≤ payload.length)
    (hcode : payload.head? = some workerDataCode)
    (htask : ¬s.tasks.HasKey (identifier, roomIdOf payload)) :
    ¬Forwards roomId ⟨env, .payload identifier payload⟩ s := by
  by_cases hkey : s.workers.HasKey identifier
  · have htrace : (step ⟨env, .payload identifier payload⟩ s).trace =
        s.trace ++ [.received identifier payload s.authCode] := by
      rw [step_data hlen hcode hkey]
      exact congrArg trace (@handleData_of_not_hasKey env identifier payload
        ((s.emit (.received identifier payload s.authCode)).touchWorker env identifier) htask)
    rw [forwards_iff htrace]
    simp [Effect.popularityOf]
  · have htrace : (step ⟨env, .payload identifier payload⟩ s).trace =
        s.trace ++ [.received identifier payload s.authCode, .disconnect identifier] :=
      (congrArg trace (handleBuffer_unknown (le_trans (by decide) hlen) hkey)).trans trace_unknown
    rw [forwards_iff htrace]
    simp [Effect.popularityOf]

-- Of the messages without a checksum that the workers of a room send, exactly
-- those are passed on that come after the interval since the last one.
theorem run_forwards_iff (config : Config) (before : List Input) (env : Env) (identifier : Identifier)
    (payload : Bytes) (hlen : workerDataPayloadHeaderLength ≤ payload.length)
    (hcode : payload.head? = some workerDataCode) (hchecksum : checksumOf payload = 0) :
    let s := run config before
    Forwards (roomIdOf payload) ⟨env, .payload identifier payload⟩ s ↔
      s.tasks.HasKey (identifier, roomIdOf payload) ∧
        seconds s.config.message.minIntervalPopularitySec ≤
          env.now .message - (lastForwarded (roomIdOf payload) (initial config) none before).getD 0 := by
  intro s
  have hinv : Inv s := run_inv config before
  have hmarked : Marked (roomIdOf payload) (lastForwarded (roomIdOf payload) (initial config) none before) s :=
    run_marked (fun room hroom => absurd hroom (Keyed.notMem_empty room)) before
  by_cases htask : s.tasks.HasKey (identifier, roomIdOf payload)
  · obtain ⟨task, hmem, htaskKey⟩ := htask
    obtain ⟨room, hroom, hroomId⟩ := hinv.taskRoom task hmem
    obtain ⟨worker, hworker, hworkerId, -⟩ := hinv.taskWorker task hmem
    have hid : room.roomId = roomIdOf payload := hroomId.trans (congrArg Prod.snd htaskKey)
    have hkey : s.workers.HasKey identifier := ⟨worker, hworker, hworkerId.trans (congrArg Prod.fst htaskKey)⟩
    have hiff : Forwards room.roomId ⟨env, .payload identifier payload⟩ s ↔ passesInterval env room s :=
      forwards_data_iff hroom hlen hcode hchecksum hid.symm hkey ⟨task, hmem, hid ▸ htaskKey⟩
    rw [passesInterval, hmarked room hroom hid, not_lt] at hiff
    rw [← hid] at hiff ⊢
    rw [hiff, and_iff_right ⟨task, hmem, hid ▸ htaskKey⟩]
  · exact iff_of_false (not_forwards_of_not_hasKey hlen hcode htask) fun h => htask h.1

-- A message of room 1 without a checksum, and a run in which worker 1 sends one.
def popularityPayload : Bytes := [workerDataCode, 0, 0, 0, 1] ++ List.replicate 36 0

def watchedInputs : List Input :=
  [{ env := .at 0, event := .accept .accepted [1] },
    { env := .at 0, event := .updateRoomLists [1] },
    { env := .at 0, event := .payload 1 (plainReady 1) },
    { env := .at (seconds 10), event := .tick .expired },
    { env := .at (seconds 20), event := .payload 1 popularityPayload }]

theorem run_forwards_iff_watched :
    ¬Forwards 1 ⟨.at (seconds 39), .payload 1 popularityPayload⟩ (run plainConfig watchedInputs) ∧
      Forwards 1 ⟨.at (seconds 40), .payload 1 popularityPayload⟩ (run plainConfig watchedInputs) :=
  ⟨fun h => absurd ((run_forwards_iff plainConfig watchedInputs (.at (seconds 39)) 1 popularityPayload
      (by decide) (by decide) (by decide)).mp h).2 (by decide),
    (run_forwards_iff plainConfig watchedInputs (.at (seconds 40)) 1 popularityPayload (by decide) (by decide)
      (by decide)).mpr (by decide)⟩

end Run

end Scheduler

end LiveReceptor.Supervisor

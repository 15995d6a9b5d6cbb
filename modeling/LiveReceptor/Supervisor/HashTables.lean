import Mathlib.Data.List.Dedup
import LiveReceptor.Library.RobinHoodMap
import LiveReceptor.Supervisor.Commands
import LiveReceptor.Supervisor.RoomList

-- The hash tables that `_rooms` and `_workers` are.
namespace LiveReceptor.Supervisor

open RobinHood (Fault RawTable Sound values fastForward)
open RobinHood.RawTable (Represents)

-- The high and the low half of the product.
def umul128 (a b : UInt64) : UInt64 × UInt64 :=
  let result := a.toNat * b.toNat
  (.ofNat (result / 2 ^ 64), .ofNat result)

def hashInt (obj : UInt64) : UInt64 :=
  let (h, l) := umul128 obj 0xde5fb9d2630458e9
  h + l

-- An int is extended with its sign.
def roomHash (roomId : RoomId) : UInt64 := hashInt roomId.toInt64.toUInt64

abbrev RoomsMap := RawTable RoomStatus
abbrev WorkersMap := RawTable WorkerStatus

namespace RoomsMap

def emplaceRoom (t : RoomsMap) (roomId : RoomId) : Except Fault RoomsMap :=
  if (t.find RoomStatus.roomId roomHash roomId).isSome then .ok t
  else t.emplace RoomStatus.roomId roomHash { roomId }

-- The two loops of update_room_lists. A std::set yields the rooms in their order.
def updateRoomLists (rooms : List RoomId) (t : RoomsMap) : Except Fault RoomsMap :=
  let t := t.write fun room => if room.roomId ∈ rooms then room else { room with active := false }
  rooms.dedup.mergeSort.foldlM emplaceRoom t

-- The loop of check_all_states over the rooms.
def eraseInactive (t : RoomsMap) : RoomsMap := t.sweep RoomStatus.active (fastForward t.slots 0)

end RoomsMap

-- The other functions write to a room, but not to its activity.
def RoomStatus.counted (rooms : Keyed RoomStatus.roomId) (room : RoomStatus) : RoomStatus :=
  match rooms.find? room.roomId with
  | none => room
  | some other =>
      { room with
        lastEmptyCrcReceived := other.lastEmptyCrcReceived
        currentConnections := other.currentConnections }

-- handle_new_worker and delete_worker, as far as they add to the workers and erase
-- from them. Both are on record.
def WorkersMap.handle (now : Time) (t : WorkersMap) : Effect → Except Fault WorkersMap
  | .connected identifier =>
      if (t.find WorkerStatus.identifier hashInt identifier).isSome then .ok t
      else t.emplace WorkerStatus.identifier hashInt { identifier, lastReceived := now }
  | .deleted identifier => .ok (t.erase WorkerStatus.identifier hashInt identifier)
  | _ => .ok t

def WorkerStatus.current (workers : Keyed WorkerStatus.identifier) (worker : WorkerStatus) : WorkerStatus :=
  (workers.find? worker.identifier).getD worker

-- The scheduler with the two tables.
structure Tables where
  scheduler : Scheduler
  rooms : RoomsMap := {}
  workers : WorkersMap := {}

namespace Tables

def initial (config : Config) : Tables := { scheduler := Scheduler.initial config }

def stepRooms (input : Input) (s : Tables) : Except Fault RoomsMap :=
  match input.told with
  | some rooms => s.rooms.updateRoomLists rooms
  | none =>
      let after := Scheduler.step input s.scheduler
      let rooms := if Scheduler.Checked s.scheduler after then s.rooms.eraseInactive else s.rooms
      .ok (rooms.write (RoomStatus.counted after.rooms))

def stepWorkers (input : Input) (s : Tables) : Except Fault WorkersMap :=
  let after := Scheduler.step input s.scheduler
  ((after.trace.drop s.scheduler.trace.length).foldlM (WorkersMap.handle (input.env.now .newWorker))
    s.workers).map fun workers => workers.write (WorkerStatus.current after.workers)

def step (s : Tables) (input : Input) : Except Fault Tables :=
  (s.stepRooms input).bind fun rooms =>
    (s.stepWorkers input).map fun workers =>
      { scheduler := Scheduler.step input s.scheduler, rooms, workers }

def run (config : Config) (inputs : List Input) : Except Fault Tables := inputs.foldlM step (initial config)

end Tables

section Rooms

variable {m after : Keyed RoomStatus.roomId} {t : RoomsMap} {input : Input} {s : Scheduler}

theorem roomId_counted (room : RoomStatus) : (room.counted m).roomId = room.roomId := by
  unfold RoomStatus.counted
  split <;> rfl

theorem counted_eq {room other : RoomStatus} (hother : other ∈ after) (hid : other.roomId = room.roomId)
    (hactive : other.active = room.active) : room.counted after = other := by
  unfold RoomStatus.counted
  rw [Keyed.find?_eq_some.mpr ⟨hother, hid⟩]
  dsimp only
  rw [← hid, ← hactive]

-- Rooms of the same activity differ in what is written to them.
theorem mem_update_counted (h : ∀ roomId active,
    (∃ room ∈ m, room.roomId = roomId ∧ room.active = active) ↔
      ∃ room ∈ after, room.roomId = roomId ∧ room.active = active) (room : RoomStatus) :
    room ∈ m.update (RoomStatus.counted after) roomId_counted ↔ room ∈ after := by
  rw [Keyed.mem_update]
  constructor
  · rintro ⟨old, hold, rfl⟩
    obtain ⟨other, hother, hid, hactive⟩ := (h old.roomId old.active).mp ⟨old, hold, rfl, rfl⟩
    rw [counted_eq hother hid hactive]
    exact hother
  · intro hroom
    obtain ⟨old, hold, hid, hactive⟩ := (h room.roomId room.active).mpr ⟨room, hroom, rfl, rfl⟩
    exact ⟨old, hold, counted_eq hroom hid.symm hactive.symm⟩

-- In their order or not, the same rooms are added.
theorem mem_emplaced (rooms : List RoomId) (s : Scheduler) (room : RoomStatus) :
    room ∈ rooms.dedup.mergeSort.foldl (fun known roomId => known.insert { roomId }) (s.markRooms rooms).rooms ↔
      room ∈ (s.updateRoomLists rooms).rooms := by
  have hmem : ∀ added : List RoomId,
      room ∈ added.foldl (fun known roomId => known.insert { roomId }) (s.markRooms rooms).rooms ↔
        room ∈ (s.markRooms rooms).rooms ∨ ¬(s.markRooms rooms).rooms.HasKey room.roomId ∧
          room.roomId ∈ added ∧ { roomId := room.roomId } = room :=
    fun added => Keyed.mem_foldl_insert (fun _ => rfl) added _
  have hset : room.roomId ∈ rooms.dedup.mergeSort ↔ room.roomId ∈ rooms :=
    List.mem_mergeSort.trans List.mem_dedup
  refine (hmem _).trans (Iff.trans ?_ (hmem rooms).symm)
  rw [hset]

theorem represents_marked (h : Represents RoomStatus.roomId roomHash s.rooms t) (rooms : List RoomId) :
    Represents RoomStatus.roomId roomHash (s.markRooms rooms).rooms
      (t.write fun room => if room.roomId ∈ rooms then room else { room with active := false }) :=
  h.write fun room => by split <;> rfl

theorem represents_updateRoomLists (h : Represents RoomStatus.roomId roomHash s.rooms t) (rooms : List RoomId) :
    Sound (Represents RoomStatus.roomId roomHash (s.updateRoomLists rooms).rooms) (t.updateRoomLists rooms) := by
  refine Sound.mono (Sound.foldlM (Represents RoomStatus.roomId roomHash)
    (fun known roomId => known.insert { roomId }) (fun _ _ ht roomId => ht.emplace { roomId })
    (represents_marked h rooms) _) fun t' ht' => ht'.of_mem_iff (mem_emplaced rooms s)

theorem represents_stepRooms (h : Represents RoomStatus.roomId roomHash s.rooms t) (htold : input.told = none) :
    Represents RoomStatus.roomId roomHash (Scheduler.step input s).rooms
      (RawTable.write (if Scheduler.Checked s (Scheduler.step input s) then t.eraseInactive else t)
        (RoomStatus.counted (Scheduler.step input s).rooms)) := by
  split
  · rename_i hchecked
    have hswept : Represents RoomStatus.roomId roomHash (s.rooms.filter RoomStatus.active) t.eraseInactive :=
      h.sweep RoomStatus.active
    refine (hswept.write roomId_counted).of_mem_iff (mem_update_counted fun roomId active => ?_)
    refine Iff.trans ?_ (Scheduler.inRoster_step_of_checked hchecked).symm
    constructor
    · rintro ⟨room, hroom, rfl, rfl⟩
      obtain ⟨hmem, hactive⟩ := Keyed.mem_filter.mp hroom
      exact ⟨⟨room, hmem, rfl, rfl⟩, hactive⟩
    · rintro ⟨⟨room, hroom, rfl, rfl⟩, hactive⟩
      exact ⟨room, Keyed.mem_filter.mpr ⟨hroom, hactive⟩, rfl, rfl⟩
  · rename_i hchecked
    refine (h.write roomId_counted).of_mem_iff (mem_update_counted fun roomId active => ?_)
    exact (Scheduler.inRoster_step_of_not_checked htold hchecked).symm

end Rooms

section Workers

variable {m after : Keyed WorkerStatus.identifier} {t : WorkersMap} {now : Time} {env : Env}
  {told : Option (List RoomId)} {guard : Scheduler.Guard} {stage : Scheduler.Stage} {s s' s'' : Scheduler}
  {identifier : Identifier}

-- Whether the worker is in `_workers` after an effect.
def Effect.registered (identifier : Identifier) (known : Bool) : Effect → Bool
  | .connected other => known || identifier = other
  | .deleted other => known && identifier ≠ other
  | _ => known

-- The record says which workers come and go.
def Registers (s s' : Scheduler) : Prop :=
  ∃ effects, s'.trace = s.trace ++ effects ∧ ∀ identifier, decide (s'.workers.HasKey identifier) =
    effects.foldl (Effect.registered identifier) (decide (s.workers.HasKey identifier))

theorem Registers.refl (s : Scheduler) : Registers s s := ⟨[], (List.append_nil _).symm, fun _ => rfl⟩

theorem Registers.trans (h : Registers s s') (h' : Registers s' s'') : Registers s s'' := by
  obtain ⟨effects, htrace, hknown⟩ := h
  obtain ⟨more, htrace', hknown'⟩ := h'
  refine ⟨effects ++ more, by rw [htrace', htrace, List.append_assoc], fun identifier => ?_⟩
  rw [hknown', hknown, List.foldl_append]

-- Nobody comes or goes.
theorem Registers.still {effects : List Effect} (htrace : s'.trace = s.trace ++ effects)
    (hnone : ∀ effect ∈ effects, ∀ identifier known, effect.registered identifier known = known)
    (hkeys : ∀ identifier, s'.workers.HasKey identifier ↔ s.workers.HasKey identifier) : Registers s s' := by
  refine ⟨effects, htrace, fun identifier => ?_⟩
  have hfold : ∀ known, effects.foldl (Effect.registered identifier) known = known := by
    clear htrace
    induction effects with
    | nil => exact fun _ => rfl
    | cons effect rest ih =>
        obtain ⟨hfirst, hrest⟩ := List.forall_mem_cons.mp hnone
        intro known
        rw [List.foldl_cons, hfirst, ih hrest]
  rw [hfold]
  exact decide_eq_decide.mpr (hkeys identifier)

theorem Registers.of_eq (htrace : s'.trace = s.trace) (hworkers : s'.workers = s.workers) : Registers s s' :=
  .still (htrace.trans (List.append_nil _).symm) (by simp) fun _ => by rw [hworkers]

-- One worker is erased.
theorem Registers.erase {effects : List Effect} (htrace : s'.trace = s.trace ++ effects)
    (hfold : ∀ other known, effects.foldl (Effect.registered other) known = (known && other ≠ identifier))
    (hkeys : ∀ other, s'.workers.HasKey other ↔ s.workers.HasKey other ∧ other ≠ identifier) :
    Registers s s' := by
  refine ⟨effects, htrace, fun other => ?_⟩
  rw [hfold, ← Bool.decide_and]
  exact decide_eq_decide.mpr (hkeys other)

theorem registers_quiet (h : Scheduler.Quiet s s') : Registers s s' := by
  obtain ⟨f, hf, hworkers, -⟩ := h.workers
  obtain ⟨effects, htrace, hquiets⟩ := h.trace
  refine .still htrace (fun effect he identifier known => ?_) fun identifier => ?_
  · have heffect := hquiets effect he
    cases effect <;> first | rfl | cases heffect
  · rw [hworkers]
    exact Keyed.hasKey_update

theorem registers_passMove (hmove : Scheduler.PassMove env guard stage s s') : Registers s s' := by
  cases hmove with
  | quiet hquiet => exact registers_quiet hquiet
  | drop descRank htask =>
      refine .still (by rw [Scheduler.trace_deleteTask, Scheduler.trace_sendUnassign])
        (fun effect he identifier known => ?_) fun identifier => ?_
      · split at he
        · rw [List.mem_singleton.mp he]
          rfl
        · cases he
      · rw [Scheduler.hasKey_workers_deleteTask, Scheduler.workers_sendUnassign]
  | expire hworker =>
      refine .erase (Scheduler.trace_expire (.of_mem hworker)) (fun other known => rfl) fun other => ?_
      rw [Scheduler.deleteAndDisconnectWorker, Scheduler.workers_disconnectWorker,
        Scheduler.hasKey_workers_deleteWorker]
  | refresh =>
      exact .still (List.append_nil _).symm (by simp) fun identifier => Scheduler.hasKey_workers_refreshCounts
  | forget hempty => exact .of_eq rfl rfl
  | assign hworker hroom hlimit hnew hguard =>
      refine .still Scheduler.trace_addTask (fun effect he identifier known => ?_) fun identifier => ?_
      · split at he
        · rw [List.mem_singleton.mp he]
          rfl
        · cases he
      · rw [Scheduler.workers_addTask]
        exact Keyed.hasKey_modify

theorem registers_handlerMove (hmove : Scheduler.HandlerMove env told s s') : Registers s s' := by
  cases hmove with
  | quiet hquiet htrace => exact registers_quiet hquiet
  | accept identifier hfree =>
      refine ⟨_, Scheduler.trace_handleNewWorker, fun other => ?_⟩
      have hfold : ∀ known, (Effect.connected identifier ::
          if (s.addSession identifier).workers.HasKey identifier then [.reset identifier] else []).foldl
            (Effect.registered other) known = (known || other = identifier) := by
        intro known
        split <;> rfl
      rw [hfold, ← Bool.decide_or]
      exact decide_eq_decide.mpr Scheduler.hasKey_handleNewWorker
  | ignore identifier payload hready hfailed =>
      exact .still Scheduler.trace_emit (fun effect he _ _ => by rw [List.mem_singleton.mp he]; rfl) fun _ => .rfl
  | unknown identifier payload hkey =>
      refine .still Scheduler.trace_unknown (fun effect he other known => ?_) fun other => ?_
      · simp only [List.mem_cons, List.not_mem_nil, or_false] at he
        rcases he with rfl | rfl <;> rfl
      · rw [Scheduler.workers_disconnectWorker, Scheduler.workers_clearWorkerTasks, Scheduler.workers_emit]
  | ready identifier payload hkey hready hauth =>
      refine .still (Scheduler.trace_ready hkey) (fun effect he other known => ?_) fun other => ?_
      · simp only [List.mem_cons, List.not_mem_nil, or_false] at he
        rcases he with rfl | rfl <;> rfl
      · rw [Scheduler.hasKey_readyWorker, Scheduler.hasKey_touchWorker, Scheduler.workers_emit]
  | reject identifier payload hkey hready =>
      refine .erase (Scheduler.trace_reject hkey) (fun other known => rfl) fun other => ?_
      rw [Scheduler.hasKey_readyWorker, Scheduler.rejectWorker, Scheduler.workers_disconnectWorker,
        Scheduler.hasKey_workers_deleteWorker, Scheduler.hasKey_touchWorker, Scheduler.workers_emit]
  | fail identifier payload hkey hfailed =>
      refine .still Scheduler.trace_fail (fun effect he _ _ => by rw [List.mem_singleton.mp he]; rfl) fun other => ?_
      rw [Scheduler.hasKey_workers_deleteTask, Scheduler.hasKey_touchWorker, Scheduler.workers_emit]
  | forward identifier payload htask =>
      exact .still rfl (fun effect he _ _ => by rw [List.mem_singleton.mp he]; rfl) fun _ => .rfl
  | absent identifier hkey => exact .of_eq rfl rfl
  | leave identifier hkey =>
      refine .erase (Scheduler.trace_leave hkey) (fun other known => rfl) fun other => ?_
      rw [Scheduler.hasKey_workers_deleteWorker, Scheduler.workers_clearWorkerTasks]
  | list rooms htold => exact .of_eq rfl rfl

theorem registers_step (input : Input) (s : Scheduler) : Registers s (Scheduler.step input s) :=
  Scheduler.step_invariant (P := Registers s) (fun _ _ h hmove => h.trans (registers_handlerMove hmove))
    (fun _ _ _ h hmove => h.trans (registers_passMove hmove)) (.refl s) (Scheduler.stepMeetsGuard_true input s)

-- The calls on record, on a container.
def handled (now : Time) (m : Keyed WorkerStatus.identifier) : Effect → Keyed WorkerStatus.identifier
  | .connected identifier => m.insert { identifier, lastReceived := now }
  | .deleted identifier => m.erase identifier
  | _ => m

theorem represents_handle (h : Represents WorkerStatus.identifier hashInt m t) (effect : Effect) :
    Sound (Represents WorkerStatus.identifier hashInt (handled now m effect)) (t.handle now effect) := by
  cases effect with
  | connected identifier => exact h.emplace { identifier, lastReceived := now }
  | deleted identifier => exact h.erase identifier
  | _ => exact h

theorem hasKey_handled (effect : Effect) :
    decide ((handled now m effect).HasKey identifier) =
      effect.registered identifier (decide (m.HasKey identifier)) := by
  cases effect with
  | connected other =>
      rw [Effect.registered, ← Bool.decide_or]
      exact decide_eq_decide.mpr Keyed.hasKey_insert
  | deleted other =>
      rw [Effect.registered, ← Bool.decide_and]
      exact decide_eq_decide.mpr Keyed.hasKey_erase
  | _ => rfl

theorem hasKey_foldl_handled (effects : List Effect) (m : Keyed WorkerStatus.identifier) :
    decide ((effects.foldl (handled now) m).HasKey identifier) =
      effects.foldl (Effect.registered identifier) (decide (m.HasKey identifier)) := by
  induction effects generalizing m with
  | nil => rfl
  | cons effect rest ih => rw [List.foldl_cons, ih, hasKey_handled, List.foldl_cons]

theorem identifier_current (worker : WorkerStatus) : (worker.current after).identifier = worker.identifier := by
  unfold WorkerStatus.current
  cases hfind : after.find? worker.identifier with
  | none => rfl
  | some other => exact (Keyed.find?_eq_some.mp hfind).2

-- Workers with the same identifier differ in what is written to them.
theorem mem_update_current (h : ∀ identifier, m.HasKey identifier ↔ after.HasKey identifier)
    (worker : WorkerStatus) : worker ∈ m.update (WorkerStatus.current after) identifier_current ↔ worker ∈ after := by
  rw [Keyed.mem_update]
  constructor
  · rintro ⟨old, hold, rfl⟩
    obtain ⟨other, hother⟩ := Keyed.exists_find?_of_hasKey ((h old.identifier).mp (.of_mem hold))
    unfold WorkerStatus.current
    rw [hother]
    exact (Keyed.find?_eq_some.mp hother).1
  · intro hworker
    obtain ⟨old, hold, hid⟩ := (h worker.identifier).mpr (.of_mem hworker)
    refine ⟨old, hold, ?_⟩
    unfold WorkerStatus.current
    rw [Keyed.find?_eq_some.mpr ⟨hworker, hid.symm⟩]
    rfl

theorem represents_stepWorkers (h : Represents WorkerStatus.identifier hashInt s.workers t) (input : Input) :
    Sound (fun t => Represents WorkerStatus.identifier hashInt (Scheduler.step input s).workers
        (t.write (WorkerStatus.current (Scheduler.step input s).workers)))
      (((Scheduler.step input s).trace.drop s.trace.length).foldlM
        (WorkersMap.handle (input.env.now .newWorker)) t) := by
  obtain ⟨effects, htrace, hknown⟩ := registers_step input s
  rw [htrace, List.drop_left]
  refine Sound.mono (Sound.foldlM (Represents WorkerStatus.identifier hashInt) (handled _)
    (fun _ _ ht effect => represents_handle ht effect) h effects) fun t' ht' => ?_
  refine (ht'.write identifier_current).of_mem_iff (mem_update_current fun identifier => ?_)
  rw [← decide_eq_decide, hasKey_foldl_handled, hknown]

end Workers

namespace Tables

-- Both tables have what the scheduler has.
structure Agree (s : Tables) : Prop where
  rooms : Represents RoomStatus.roomId roomHash s.scheduler.rooms s.rooms
  workers : Represents WorkerStatus.identifier hashInt s.scheduler.workers s.workers

theorem initial_agree (config : Config) : Agree (initial config) where
  rooms := RawTable.empty_represents
  workers := RawTable.empty_represents

variable {s : Tables}

theorem Agree.stepRooms (h : Agree s) (input : Input) :
    Sound (Represents RoomStatus.roomId roomHash (Scheduler.step input s.scheduler).rooms) (s.stepRooms input) := by
  unfold Tables.stepRooms
  cases htold : input.told with
  | some rooms =>
      have hstep := congrArg Scheduler.rooms (Scheduler.step_of_told (s := s.scheduler) htold)
      exact hstep ▸ represents_updateRoomLists h.rooms rooms
  | none => exact represents_stepRooms h.rooms htold

theorem Agree.step (h : Agree s) (input : Input) :
    Sound (fun s' => s'.scheduler = Scheduler.step input s.scheduler ∧ Agree s') (s.step input) := by
  refine Sound.bind (h.stepRooms input) fun rooms hrooms => ?_
  refine ((represents_stepWorkers h.workers input).map fun _ hworkers => hworkers).map fun workers hworkers => ?_
  exact ⟨rfl, hrooms, hworkers⟩

end Tables

end LiveReceptor.Supervisor

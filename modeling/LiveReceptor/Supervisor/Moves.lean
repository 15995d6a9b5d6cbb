import LiveReceptor.Supervisor.Lemmas
import Mathlib.Logic.Relation

namespace LiveReceptor.Supervisor

def Effect.Quiet : Effect → Prop
  | .checked _ | .diagnostics _ => True
  | _ => False

def Effect.Publishes : Effect → Prop
  | .data _ _ _ _ _ => True
  | _ => False

def Effect.CarriesPayload : Effect → Prop
  | .received _ _ _ | .data _ _ _ _ _ => True
  | _ => False

theorem Effect.Publishes.carriesPayload {effect : Effect} (h : effect.Publishes) :
    effect.CarriesPayload := by
  cases effect with
  | data => trivial
  | _ => cases h

namespace Scheduler

-- A change of times, penalties and allowances only: the tasks keep their keys,
-- the workers and the rooms their state and their counters.
structure Quiet (s s' : Scheduler) : Prop where
  tasks : ∃ f hf, s'.tasks = s.tasks.update f hf
  workers : ∃ f hf, s'.workers = s.workers.update f hf ∧ ∀ worker,
    (f worker).initialized = worker.initialized ∧ (f worker).maxRooms = worker.maxRooms ∧
      (f worker).currentConnections = worker.currentConnections
  rooms : ∃ f hf, s'.rooms = s.rooms.update f hf ∧ ∀ room,
    (f room).active = room.active ∧ (f room).currentConnections = room.currentConnections
  sessions : s'.manager.sessions = s.manager.sessions
  sockets : s'.manager.sockets = s.manager.sockets
  trace : ∃ effects, s'.trace = s.trace ++ effects ∧ ∀ effect ∈ effects, effect.Quiet

theorem quiet_tasks_self (s : Scheduler) : ∃ f hf, s.tasks = s.tasks.update f hf :=
  ⟨fun task => task, fun _ => rfl, (Keyed.update_id _).symm⟩

theorem quiet_workers_self (s : Scheduler) : ∃ f hf, s.workers = s.workers.update f hf ∧
    ∀ worker, (f worker).initialized = worker.initialized ∧ (f worker).maxRooms = worker.maxRooms ∧
      (f worker).currentConnections = worker.currentConnections :=
  ⟨fun worker => worker, fun _ => rfl, (Keyed.update_id _).symm, fun _ => ⟨rfl, rfl, rfl⟩⟩

theorem quiet_rooms_self (s : Scheduler) : ∃ f hf, s.rooms = s.rooms.update f hf ∧
    ∀ room, (f room).active = room.active ∧
      (f room).currentConnections = room.currentConnections :=
  ⟨fun room => room, fun _ => rfl, (Keyed.update_id _).symm, fun _ => ⟨rfl, rfl⟩⟩

-- A condition on an assignment, on the state in which it is made.
abbrev Guard := Scheduler → WorkerStatus → RoomStatus → Prop

abbrev Unguarded : Guard := fun _ _ _ => True

-- The parts of check_all_states: up to the refreshed counts, up to the list of
-- the rooms that need processing, and the loop over that list.
inductive Stage
  | interval
  | rooms
  | assign

-- What the parts are made of. Every assignment meets `guard`.
inductive PassMove (env : Env) (guard : Guard) : Stage → Scheduler → Scheduler → Prop
  | quiet {stage : Stage} {s s' : Scheduler} (h : Quiet s s') : PassMove env guard stage s s'
  | drop {stage : Stage} {s : Scheduler} {task : RoomTask} (descRank : Bool) (htask : task ∈ s.tasks) :
      PassMove env guard stage s
        ((s.sendUnassign task.identifier task.roomId).deleteTask env task.identifier task.roomId descRank)
  | expire {s : Scheduler} {worker : WorkerStatus} (hworker : worker ∈ s.workers) :
      PassMove env guard .interval s (s.deleteAndDisconnectWorker env worker.identifier)
  | refresh {s : Scheduler} : PassMove env guard .interval s s.refreshCounts
  | forget {s : Scheduler} {roomId : RoomId} (hempty : ∀ task ∈ s.tasks, task.roomId ≠ roomId) :
      PassMove env guard .rooms s { s with rooms := s.rooms.erase roomId }
  | assign {s : Scheduler} {worker : WorkerStatus} {room : RoomStatus}
      (hworker : worker ∈ s.workers) (hroom : room ∈ s.rooms)
      (hlimit : worker.currentConnections ≤ worker.maxRooms.toInt)
      (hnew : ¬s.tasks.HasKey (worker.identifier, room.roomId)) (hguard : guard s worker room) :
      PassMove env guard .assign s (s.addTask env worker.identifier room.roomId)

abbrev PassMoves (env : Env) (guard : Guard) (stage : Stage) :=
  Relation.ReflTransGen (PassMove env guard stage)

variable {env : Env} {guard : Guard} {stage : Stage}

section Interval

theorem expireWorkers_moves (threshold : Time) (skip : Bool) (workers : List WorkerStatus)
    (s : Scheduler) (hmem : ∀ worker ∈ workers, worker ∈ s.workers)
    (hnodup : (workers.map WorkerStatus.identifier).Nodup) :
    PassMoves env guard .interval s (expireWorkers env threshold skip workers s) := by
  induction workers generalizing skip s with
  | nil => cases skip <;> exact .refl
  | cons worker rest ih =>
      obtain ⟨hnotin, hrest⟩ := List.nodup_cons.mp hnodup
      have hmem' : ∀ other ∈ rest, other ∈ s.workers := fun other ho =>
        hmem other (List.mem_cons_of_mem _ ho)
      cases skip with
      | true => exact ih false s hmem' hrest
      | false =>
          rw [expireWorkers]
          split
          · refine Relation.ReflTransGen.head (.expire (hmem worker List.mem_cons_self))
              (ih _ _ (fun other ho => ?_) hrest)
            rw [deleteAndDisconnectWorker, workers_disconnectWorker, mem_workers_deleteWorker]
            exact ⟨hmem' other ho, fun he => hnotin (he ▸ List.mem_map_of_mem ho)⟩
          · exact ih false s hmem' hrest

-- Dropping tasks one after the other, each of them present when its turn comes.
theorem drop_moves (descRank : Bool) (tasks : List RoomTask) (s : Scheduler)
    (hmem : ∀ task ∈ tasks, task ∈ s.tasks) (hnodup : (tasks.map RoomTask.key).Nodup) :
    PassMoves env guard stage s (tasks.foldl (fun s task =>
      (s.sendUnassign task.identifier task.roomId).deleteTask env task.identifier task.roomId
        descRank) s) := by
  induction tasks generalizing s with
  | nil => exact .refl
  | cons task rest ih =>
      obtain ⟨hnotin, hrest⟩ := List.nodup_cons.mp hnodup
      refine Relation.ReflTransGen.head (.drop descRank (hmem task List.mem_cons_self))
        (ih _ (fun other ho => ?_) hrest)
      rw [tasks_deleteTask, tasks_sendUnassign, Keyed.mem_erase]
      exact ⟨hmem other (List.mem_cons_of_mem _ ho),
        fun he => hnotin (List.mem_map.mpr ⟨other, ho, he⟩)⟩

theorem expireTasks_eq_foldl (threshold : Time) (tasks : List RoomTask) (s : Scheduler) :
    expireTasks env threshold tasks s =
      (tasks.filter fun task => ¬env.now .interval - task.lastReceived < threshold).foldl
        (fun s task => (s.sendUnassign task.identifier task.roomId).deleteTask env task.identifier
          task.roomId true) s := by
  induction tasks generalizing s with
  | nil => rfl
  | cons task rest ih =>
      rw [expireTasks]
      by_cases h : env.now .interval - task.lastReceived < threshold
      · rw [if_pos h, ih, List.filter_cons_of_neg (by simpa using h)]
      · rw [if_neg h, ih, List.filter_cons_of_pos (by simpa using h), List.foldl_cons,
          sendUnassign_deleteTask]

theorem nodup_arranged_tasks (order : Arrangement RoomTask) (p : RoomTask → Bool) (s : Scheduler) :
    ((order.arrange (s.tasks.entries.filter p)).map RoomTask.key).Nodup :=
  ((order.perm _).map _).nodup_iff.mpr (s.tasks.filter p).nodup

theorem checkWorkerTaskInterval_moves (s : Scheduler) :
    PassMoves env guard .interval s (s.checkWorkerTaskInterval env) := by
  rw [checkWorkerTaskInterval, expireTasks_eq_foldl]
  refine Relation.ReflTransGen.trans (expireWorkers_moves _ false _ s (fun worker hw => ?_) ?_)
    (drop_moves true _ _ (fun task ht => ?_) ?_)
  · exact (env.workers.mem_arrange).mp hw
  · exact ((env.workers.perm _).map _).nodup_iff.mpr s.workers.nodup
  · exact (env.tasks.mem_arrange).mp (List.mem_filter.mp ht).1
  · apply List.Nodup.sublist (List.filter_sublist.map _)
    exact ((env.tasks.perm _).map _).nodup_iff.mpr (Keyed.nodup _)

end Interval

section Rooms

-- Dropping tasks leaves those that are not among them.
theorem mem_tasks_foldl_drop (descRank : Bool) (tasks : List RoomTask) (s : Scheduler)
    {other : RoomTask} :
    other ∈ (tasks.foldl (fun s task =>
      (s.sendUnassign task.identifier task.roomId).deleteTask env task.identifier task.roomId
        descRank) s).tasks ↔ other ∈ s.tasks ∧ ∀ task ∈ tasks, other.key ≠ task.key := by
  induction tasks generalizing s with
  | nil => simp
  | cons task rest ih =>
      rw [List.foldl_cons, ih, tasks_deleteTask, tasks_sendUnassign, Keyed.mem_erase]
      simp only [List.mem_cons, forall_eq_or_imp, and_assoc]
      rfl

theorem deleteInactiveRoom_moves (roomId : RoomId) (s : Scheduler) :
    PassMoves env guard .rooms s (s.deleteInactiveRoom env roomId) := by
  refine Relation.ReflTransGen.tail (drop_moves true
    (env.tasksByRoom.arrange (s.tasks.entries.filter fun task => task.roomId = roomId)) s
    (fun task ht => ?_) (nodup_arranged_tasks _ _ s)) (.forget fun task ht he => ?_)
  · exact (List.mem_filter.mp ((env.tasksByRoom.mem_arrange).mp ht)).1
  · obtain ⟨hs, hother⟩ := (mem_tasks_foldl_drop true _ s).mp ht
    refine hother task ?_ rfl
    rw [env.tasksByRoom.mem_arrange, List.mem_filter]
    exact ⟨hs, by simpa using he⟩

theorem roomScan_moves (rooms : List RoomStatus) (scan : RoomScan) :
    PassMoves env guard .rooms scan.state (rooms.foldl (RoomScan.visit env) scan).state := by
  induction rooms generalizing scan with
  | nil => exact .refl
  | cons room rest ih =>
      rw [List.foldl_cons]
      refine Relation.ReflTransGen.trans ?_ (ih _)
      rw [RoomScan.visit]
      split
      · exact .refl
      · exact deleteInactiveRoom_moves room.roomId scan.state

end Rooms

section Assign

-- The worker that a room is given: the first one in the list that is neither
-- dropped from it nor serving the room already.
def taker (roomId : RoomId) (s : Scheduler) (workers : List Identifier) : Option Identifier :=
  workers.find? fun worker => !s.dropped worker && !decide (s.tasks.HasKey (worker, roomId))

theorem taker_cons (roomId : RoomId) (s : Scheduler) (worker : Identifier) (rest : List Identifier) :
    taker roomId s (worker :: rest) =
      if s.dropped worker = false ∧ ¬s.tasks.HasKey (worker, roomId) then some worker
      else taker roomId s rest := by
  simp only [taker, List.find?_cons]
  cases s.dropped worker <;> by_cases h : s.tasks.HasKey (worker, roomId) <;> simp [h]

theorem offerRoom_state (roomId : RoomId) (erasing : Bool) (workers : List Identifier)
    (s : Scheduler) :
    (offerRoom env roomId erasing workers s).2.1 =
      match taker roomId s workers with
      | none => s
      | some worker => s.addTask env worker roomId := by
  induction workers generalizing erasing with
  | nil => rfl
  | cons worker rest ih =>
      rw [offerRoom, taker_cons]
      cases hd : s.dropped worker with
      | true => simpa using ih true
      | false =>
          by_cases ht : s.tasks.HasKey (worker, roomId)
          · simpa [assignTask, ht] using ih false
          · simp [assignTask, ht]

theorem not_dropped {s : Scheduler} {worker : Identifier} (h : s.dropped worker = false) :
    ∃ status ∈ s.workers, status.identifier = worker ∧
      status.currentConnections ≤ status.maxRooms.toInt ∧ 0 < status.remainingThisBunch := by
  unfold dropped at h
  split at h
  · cases h
  · rename_i status hs
    obtain ⟨hmem, hid⟩ := Keyed.find?_eq_some.mp hs
    have hn := of_decide_eq_false h
    push Not at hn
    exact ⟨status, hmem, hid, hn.1, hn.2⟩

theorem taker_eq_some {roomId : RoomId} {s : Scheduler} {workers : List Identifier}
    {worker : Identifier} (h : taker roomId s workers = some worker) :
    s.dropped worker = false ∧ ¬s.tasks.HasKey (worker, roomId) := by
  have := List.find?_some h
  simpa using this

-- The guard holds where the walk over the workers for this room ends in an
-- assignment.
def MeetsGuard (guard : Guard) (maxTasks : Int) (pass : AssignPass) (roomId : RoomId) : Prop :=
  ∀ room ∈ pass.state.rooms, room.roomId = roomId → maxTasks > room.currentConnections →
    ∀ worker ∈ pass.state.workers,
      taker roomId pass.state pass.workersAvailable = some worker.identifier →
        guard pass.state worker room

instance [∀ s worker room, Decidable (guard s worker room)] (maxTasks : Int) (pass : AssignPass)
    (roomId : RoomId) : Decidable (MeetsGuard guard maxTasks pass roomId) :=
  inferInstanceAs (Decidable (∀ room ∈ pass.state.rooms.entries, _ → _ →
    ∀ worker ∈ pass.state.workers.entries, _ → _))

theorem offerRoom_moves {maxTasks : Int} {pass : AssignPass} {room : RoomStatus}
    (hroom : room ∈ pass.state.rooms) (hmax : maxTasks > room.currentConnections)
    (hguard : MeetsGuard guard maxTasks pass room.roomId) :
    PassMoves env guard .assign pass.state
      (offerRoom env room.roomId false pass.workersAvailable pass.state).2.1 := by
  rw [offerRoom_state]
  cases ht : taker room.roomId pass.state pass.workersAvailable with
  | none => exact .refl
  | some worker =>
      obtain ⟨hdropped, hnew⟩ := taker_eq_some ht
      obtain ⟨status, hstatus, rfl, hlimit, -⟩ := not_dropped hdropped
      exact .single (.assign hstatus hroom hlimit hnew (hguard room hroom rfl hmax status hstatus ht))

theorem unassignOverkill_moves (tasks : List RoomTask) (overkill throttling : Int) (s : Scheduler)
    (hmem : ∀ task ∈ tasks, task ∈ s.tasks) (hnodup : (tasks.map RoomTask.key).Nodup) :
    PassMoves env guard .assign s (unassignOverkill env tasks overkill throttling s).2 := by
  induction tasks generalizing overkill throttling s with
  | nil => exact .refl
  | cons task rest ih =>
      obtain ⟨hnotin, hrest⟩ := List.nodup_cons.mp hnodup
      rw [unassignOverkill]
      split
      · refine Relation.ReflTransGen.head (.drop false (hmem task List.mem_cons_self))
          (ih _ _ _ (fun other ho => ?_) hrest)
        rw [tasks_deleteTask, tasks_sendUnassign, Keyed.mem_erase]
        exact ⟨hmem other (List.mem_cons_of_mem _ ho),
          fun he => hnotin (List.mem_map.mpr ⟨other, ho, he⟩)⟩
      · exact .refl

theorem rebalance_moves (maxTasks currentMin : Int) (room : RoomStatus) (pass : AssignPass) :
    PassMoves env guard .assign pass.state (pass.rebalance env maxTasks currentMin room).state := by
  rw [AssignPass.rebalance]
  dsimp only
  split
  · refine unassignOverkill_moves _ _ _ _ (fun task ht => ?_) (nodup_arranged_tasks _ _ _)
    exact (List.mem_filter.mp ((env.tasksByRoom.mem_arrange).mp ht)).1
  · exact .refl

theorem processRoom_moves {maxTasks : Int} (currentMin : Int) {pass : AssignPass} {roomId : RoomId}
    (hguard : MeetsGuard guard maxTasks pass roomId) :
    PassMoves env guard .assign pass.state (pass.processRoom env maxTasks currentMin roomId).state := by
  rw [AssignPass.processRoom]
  split
  · exact .refl
  · rename_i room hfind
    obtain ⟨hroom, rfl⟩ := Keyed.find?_eq_some.mp hfind
    by_cases hmax : maxTasks > room.currentConnections
    · have hoffer : PassMoves env guard .assign pass.state
          (offerRoom env room.roomId false pass.workersAvailable pass.state).2.1 :=
        offerRoom_moves hroom hmax hguard
      rw [if_pos hmax]
      dsimp only
      split
      · exact hoffer
      · exact hoffer.trans (rebalance_moves maxTasks currentMin room
          { pass with
            state := (offerRoom env room.roomId false pass.workersAvailable pass.state).2.1
            workersAvailable := (offerRoom env room.roomId false pass.workersAvailable pass.state).1 })
    · rw [if_neg hmax]
      exact rebalance_moves maxTasks currentMin room pass

end Assign

section Pass

theorem quiet_checked (s : Scheduler) :
    Quiet s ({ s with lastChecked := env.now .check }.emit (.checked (env.now .check))) where
  tasks := quiet_tasks_self s
  workers := quiet_workers_self s
  rooms := quiet_rooms_self s
  sessions := rfl
  sockets := rfl
  trace := ⟨[.checked (env.now .check)], rfl, by simp [Effect.Quiet]⟩

theorem quiet_collected (n : Int) (s : Scheduler) :
    Quiet s ((s.collectWorkers env).emit (.diagnostics n)) where
  tasks := quiet_tasks_self s
  workers := ⟨_, fun _ => by split <;> rfl, rfl, fun worker => by split <;> exact ⟨rfl, rfl, rfl⟩⟩
  rooms := quiet_rooms_self s
  sessions := rfl
  sockets := rfl
  trace := ⟨[.diagnostics n], rfl, by simp [Effect.Quiet]⟩

theorem refreshed_moves (s : Scheduler) : PassMoves env guard .interval s (s.refreshed env) :=
  Relation.ReflTransGen.head (.quiet (quiet_checked s))
    ((checkWorkerTaskInterval_moves _).tail .refresh)

theorem assignStart_moves (s : Scheduler) :
    PassMoves env guard .rooms (s.refreshed env) (s.assignStart env).state :=
  Relation.ReflTransGen.head (.quiet (quiet_collected _ _))
    (roomScan_moves _ { state := s.collected env })

-- The guard holds for every room in the order in which the pass processes them.
def PassMeetsGuard (env : Env) (guard : Guard) (s : Scheduler) : Prop :=
  Runs.EveryStep
    (fun roomId pass => pass.processRoom env (s.refreshed env).maxTasksPerRoom
      (s.roomScan env).currentMinTasksPerRoom roomId)
    (fun roomId pass => MeetsGuard guard (s.refreshed env).maxTasksPerRoom pass roomId)
    (s.assignStart env) (s.roomNeedProc env)

instance [∀ s worker room, Decidable (guard s worker room)] (s : Scheduler) :
    Decidable (PassMeetsGuard env guard s) :=
  inferInstanceAs (Decidable (Runs.EveryStep _ _ _ _))

theorem processRooms_moves {s : Scheduler} (hguard : PassMeetsGuard env guard s) :
    PassMoves env guard .assign (s.assignStart env).state
      (s.processRooms env (s.roomNeedProc env)).state :=
  @Runs.run_invariant_of _ _ _
    (fun pass => PassMoves env guard .assign (s.assignStart env).state pass.state) _
    (fun _ _ hpass hroom => hpass.trans (processRoom_moves _ hroom)) _ .refl _ hguard

theorem passMeetsGuard_true (s : Scheduler) : PassMeetsGuard env Unguarded s :=
  Runs.everyStep_of_forall (fun _ _ _ _ _ _ _ _ _ => trivial) _ _

theorem moves_invariant {P : Scheduler → Prop}
    (hP : ∀ s s', P s → PassMove env guard stage s s' → P s') {s s' : Scheduler} (h : P s)
    (hmoves : PassMoves env guard stage s s') : P s' := by
  induction hmoves with
  | refl => exact h
  | tail _ hmove ih => exact hP _ _ ih hmove

-- What every move preserves, a pass preserves.
theorem checkAllStates_invariant {P : Scheduler → Prop}
    (hP : ∀ stage s s', P s → PassMove env guard stage s s' → P s') {s : Scheduler} (h : P s)
    (hguard : ¬throttled env s → PassMeetsGuard env guard s) : P (s.checkAllStates env) := by
  rw [checkAllStates]
  split
  · exact h
  · rename_i hdue
    have hrefreshed := moves_invariant (hP .interval) h (refreshed_moves s)
    have hstart := moves_invariant (hP .rooms) hrefreshed (assignStart_moves s)
    exact moves_invariant (hP .assign) hstart
      (processRooms_moves (hguard hdue))

end Pass

end Scheduler

end LiveReceptor.Supervisor

import LiveReceptor.Supervisor.CommandLog
import LiveReceptor.Supervisor.Idle
import LiveReceptor.Supervisor.Limits

namespace LiveReceptor.Supervisor.Scheduler

def allowOf (s : Scheduler) (w : Identifier) : Option Time :=
  (s.workers.find? w).map WorkerStatus.allowNewTaskAfter

-- What the penalties of these times make of the time after which a worker is
-- allowed new tasks: the last one counts.
def charge (penaltyMin : Int) (times : List Time) (allow : Time) : Time :=
  times.foldl (fun _ time => time + minutes penaltyMin) allow

@[simp] theorem charge_nil (p : Int) (allow : Time) : charge p [] allow = allow := rfl

@[simp] theorem charge_append (p : Int) (first next : List Time) (allow : Time) :
    charge p (first ++ next) allow = charge p next (charge p first allow) := List.foldl_append

-- Nobody is marked as punished.
def Unpunished (s : Scheduler) : Prop := ∀ worker ∈ s.workers, worker.punished = false

-- From one state to the other the worker has been charged for these times,
-- unless it was reset.
structure Charged (w : Identifier) (times : List Time) (s s' : Scheduler) : Prop where
  config : s'.config = s.config
  unpunished : Unpunished s'
  pays : ∃ effects, s'.trace = s.trace ++ effects ∧ (s.workers.HasKey w → .reset w ∉ effects →
    s'.allowOf w = (s.allowOf w).map (charge s.config.worker.workerPenaltyMin times))

variable {env : Env} {s s' t : Scheduler} {v w i : Identifier} {r : RoomId} {d : Bool}
  {times first next : List Time} {task : RoomTask} {tasks : List RoomTask}

theorem hasKey_iff_allowOf : s.workers.HasKey w ↔ (s.allowOf w).isSome = true := by
  constructor
  · intro h
    obtain ⟨worker, hfind⟩ := Keyed.exists_find?_of_hasKey h
    rw [allowOf, hfind]
    rfl
  · intro h
    rw [allowOf, Option.isSome_map] at h
    obtain ⟨worker, hfind⟩ := Option.isSome_iff_exists.mp h
    exact Keyed.hasKey_of_find? hfind

section Rules

theorem Charged.refl (hs : Unpunished s) : Charged w [] s s where
  config := rfl
  unpunished := hs
  pays := ⟨[], (List.append_nil _).symm, fun _ _ => by cases s.allowOf w <;> rfl⟩

theorem Charged.trans (h : Charged w first s s') (h' : Charged w next s' t) :
    Charged w (first ++ next) s t := by
  refine ⟨h'.config.trans h.config, h'.unpunished, ?_⟩
  obtain ⟨effects, htrace, hpays⟩ := h.pays
  obtain ⟨effects', htrace', hpays'⟩ := h'.pays
  refine ⟨effects ++ effects', by rw [htrace', htrace, List.append_assoc], fun hkey hreset => ?_⟩
  rw [List.mem_append, not_or] at hreset
  have hfirst := hpays hkey hreset.1
  have hkey' : s'.workers.HasKey w := by
    rw [hasKey_iff_allowOf, hfirst, Option.isSome_map]
    exact hasKey_iff_allowOf.mp hkey
  rw [hpays' hkey' hreset.2, hfirst, h.config]
  cases s.allowOf w <;> simp

-- What follows costs nothing.
theorem Charged.free (h : Charged w times s s') (h' : Charged w [] s' t) : Charged w times s t :=
  List.append_nil times ▸ h.trans h'

-- A change that leaves penalties and times of all the workers alone.
theorem Charged.of_update {f : WorkerStatus → WorkerStatus}
    {hf : ∀ worker, (f worker).identifier = worker.identifier} (hs : Unpunished s)
    (hworkers : s'.workers = s.workers.update f hf) (hconfig : s'.config = s.config)
    (htrace : ∃ effects, s'.trace = s.trace ++ effects)
    (hpunished : ∀ worker, worker.punished = false → (f worker).punished = false)
    (hallow : ∀ worker, worker.identifier = w → (f worker).allowNewTaskAfter = worker.allowNewTaskAfter) :
    Charged w [] s s' := by
  obtain ⟨effects, htrace⟩ := htrace
  refine ⟨hconfig, fun worker hworker => ?_, effects, htrace, fun _ _ => ?_⟩
  · rw [hworkers] at hworker
    obtain ⟨old, hold, rfl⟩ := Keyed.mem_update.mp hworker
    exact hpunished old (hs old hold)
  · rw [allowOf, allowOf, hworkers, Keyed.find?_update]
    cases hfind : s.workers.find? w with
    | none => rfl
    | some worker => exact congrArg some (hallow worker (Keyed.find?_eq_some.mp hfind).2)

theorem Charged.of_modify {f : WorkerStatus → WorkerStatus}
    {hf : ∀ worker, (f worker).identifier = worker.identifier} (hs : Unpunished s)
    (hworkers : s'.workers = s.workers.modify i f hf) (hconfig : s'.config = s.config)
    (htrace : ∃ effects, s'.trace = s.trace ++ effects)
    (hpunished : ∀ worker, (f worker).punished = worker.punished)
    (hallow : ∀ worker, (f worker).allowNewTaskAfter = worker.allowNewTaskAfter) : Charged w [] s s' := by
  refine .of_update hs hworkers hconfig htrace (fun worker hp => ?_) fun worker _ => ?_
  · split
    · exact (hpunished worker).trans hp
    · exact hp
  · split
    · exact hallow worker
    · rfl

theorem Charged.of_eq (hs : Unpunished s) (hworkers : s'.workers = s.workers) (hconfig : s'.config = s.config)
    (htrace : ∃ effects, s'.trace = s.trace ++ effects) : Charged w [] s s' :=
  .of_update hs (hworkers.trans (Keyed.update_id _).symm) hconfig htrace (fun _ h => h) fun _ _ => rfl

-- The worker is reset: nothing is said of it.
theorem Charged.of_reset {effects : List Effect} (hs : Unpunished s') (hconfig : s'.config = s.config)
    (htrace : s'.trace = s.trace ++ effects) (hreset : .reset w ∈ effects) : Charged w times s s' :=
  ⟨hconfig, hs, effects, htrace, fun _ hnot => absurd hreset hnot⟩

end Rules

section Tasks

theorem charged_sendUnassign (hs : Unpunished s) : Charged w [] s (s.sendUnassign i r) :=
  .of_eq hs workers_sendUnassign config_sendUnassign ⟨_, trace_sendUnassign⟩

theorem charged_deleteTask_false (hs : Unpunished s) : Charged w [] s (s.deleteTask env i r false) := by
  by_cases h : s.tasks.HasKey (i, r)
  · exact .of_modify hs (workers_deleteTask_of_hasKey h) config_deleteTask
      ⟨[], by rw [trace_deleteTask, List.append_nil]⟩ (fun _ => rfl) fun _ => rfl
  · rw [deleteTask_of_not_hasKey h]
    exact .refl hs

-- Where a task goes because of an error, its worker is charged for the time.
theorem charged_deleteTask_true (hs : Unpunished s) (htask : s.tasks.HasKey (i, r)) :
    Charged w (if i = w then [env.now (.penalty i r)] else []) s (s.deleteTask env i r true) := by
  refine ⟨config_deleteTask, fun worker hworker => ?_, [], by rw [trace_deleteTask, List.append_nil],
    fun _ _ => ?_⟩
  · rw [workers_deleteTask_of_hasKey htask] at hworker
    rcases Keyed.mem_modify.mp hworker with ⟨old, hold, -, rfl⟩ | ⟨hold, -⟩
    · exact hs old hold
    · exact hs worker hold
  · rw [allowOf, allowOf, workers_deleteTask_of_hasKey htask, Keyed.modify, Keyed.find?_update]
    cases hfind : s.workers.find? w with
    | none => rfl
    | some worker =>
        obtain ⟨hworker, hid⟩ := Keyed.find?_eq_some.mp hfind
        by_cases hi : i = w
        · simp [hi, hid, WorkerStatus.penalized, hs worker hworker, charge]
        · simp [hi, hid, Ne.symm hi]

def chargeTimes (env : Env) (w : Identifier) (tasks : List RoomTask) : List Time :=
  (tasks.filter fun task => task.identifier = w).map fun task =>
    env.now (.penalty task.identifier task.roomId)

theorem chargeTimes_cons : chargeTimes env w (task :: tasks) =
    (if task.identifier = w then [env.now (.penalty task.identifier task.roomId)] else []) ++
      chargeTimes env w tasks := by
  rw [chargeTimes, List.filter_cons]
  by_cases h : task.identifier = w <;> simp [h, chargeTimes]

theorem charged_drops_true (hs : Unpunished s) (hmem : ∀ task ∈ tasks, task ∈ s.tasks)
    (hnodup : (tasks.map RoomTask.key).Nodup) :
    Charged w (chargeTimes env w tasks) s (s.drops env true tasks) := by
  induction tasks generalizing s with
  | nil => exact .refl hs
  | cons task rest ih =>
      obtain ⟨hnotin, hrest⟩ := List.nodup_cons.mp hnodup
      have hkey : (s.sendUnassign task.identifier task.roomId).tasks.HasKey (task.identifier, task.roomId) := by
        rw [tasks_sendUnassign]
        exact .of_mem (hmem task List.mem_cons_self)
      have hsend : Charged w [] s (s.sendUnassign task.identifier task.roomId) := charged_sendUnassign hs
      have hdelete : Charged w _ s ((s.sendUnassign task.identifier task.roomId).deleteTask env task.identifier
          task.roomId true) := hsend.trans (charged_deleteTask_true hsend.unpunished hkey)
      rw [chargeTimes_cons, drops_cons]
      refine hdelete.trans (ih hdelete.unpunished (fun other ho => ?_) hrest)
      rw [tasks_deleteTask, tasks_sendUnassign, Keyed.mem_erase]
      exact ⟨hmem other (List.mem_cons_of_mem _ ho), fun he => hnotin (List.mem_map.mpr ⟨other, ho, he⟩)⟩

theorem charged_drops_false (hs : Unpunished s) : Charged w [] s (s.drops env false tasks) := by
  induction tasks generalizing s with
  | nil => exact .refl hs
  | cons task rest ih =>
      have hsend : Charged w [] s (s.sendUnassign task.identifier task.roomId) := charged_sendUnassign hs
      have hdelete : Charged w [] s ((s.sendUnassign task.identifier task.roomId).deleteTask env task.identifier
          task.roomId false) := hsend.trans (charged_deleteTask_false hsend.unpunished)
      rw [drops_cons]
      exact hdelete.trans (ih hdelete.unpunished)

end Tasks

section Workers

theorem allowOf_resetWorker_of_ne (h : w ≠ i) : (s.resetWorker env i).allowOf w = s.allowOf w := by
  rw [allowOf, allowOf, workers_resetWorker, Keyed.modify, Keyed.find?_update]
  cases hfind : s.workers.find? w with
  | none => rfl
  | some worker =>
      have hid : worker.identifier ≠ i := (Keyed.find?_eq_some.mp hfind).2.trans_ne h
      rw [Option.map_some, if_neg hid]

theorem unpunished_resetWorker (hs : Unpunished s) : Unpunished (s.resetWorker env i) := by
  intro worker hworker
  rw [workers_resetWorker] at hworker
  rcases Keyed.mem_modify.mp hworker with ⟨old, -, -, rfl⟩ | ⟨hold, -⟩
  · rfl
  · exact hs worker hold

theorem charged_resetWorker (hs : Unpunished s) : Charged w [] s (s.resetWorker env i) := by
  by_cases hi : w = i
  · exact .of_reset (unpunished_resetWorker hs) config_resetWorker trace_resetWorker (by simp [hi])
  · refine ⟨config_resetWorker, unpunished_resetWorker hs, _, trace_resetWorker, fun _ _ => ?_⟩
    rw [allowOf_resetWorker_of_ne hi]
    cases s.allowOf w <;> rfl

theorem charged_deleteWorker (hs : Unpunished s) : Charged w [] s (s.deleteWorker env i) := by
  have hunpunished : Unpunished (s.deleteWorker env i) := fun worker hworker =>
    hs worker (mem_workers_deleteWorker.mp hworker).1
  by_cases hi : w = i
  · exact .of_reset hunpunished config_deleteWorker trace_deleteWorker (by simp [hi])
  · refine ⟨config_deleteWorker, hunpunished, _, trace_deleteWorker, fun _ _ => ?_⟩
    have hkept : (s.deleteWorker env i).allowOf w = (s.resetWorker env i).allowOf w :=
      congrArg (Option.map _) (Keyed.find?_erase_of_ne hi)
    rw [hkept, allowOf_resetWorker_of_ne hi]
    cases s.allowOf w <;> rfl

theorem charged_deleteAndDisconnectWorker (hs : Unpunished s) :
    Charged w [] s (s.deleteAndDisconnectWorker env i) := by
  have hdelete : Charged w [] s (s.deleteWorker env i) := charged_deleteWorker hs
  exact hdelete.trans (.of_eq hdelete.unpunished workers_disconnectWorker config_disconnectWorker
    ⟨_, trace_disconnectWorker⟩)

theorem charged_readyWorker {payload : Bytes} (hs : Unpunished s) :
    Charged w [] s (s.readyWorker env i payload) := by
  have hreset : Charged w [] s (s.resetWorker env i) := charged_resetWorker hs
  have hworkers : (s.readyWorker env i payload).workers = (s.resetWorker env i).workers.modify i
      fun worker => { worker with initialized := true, maxRooms := roomIdOf payload } := rfl
  exact hreset.trans (.of_modify hreset.unpunished hworkers rfl ⟨[], (List.append_nil _).symm⟩
    (fun _ => rfl) fun _ => rfl)

theorem charged_touchWorker (hs : Unpunished s) : Charged w [] s (s.touchWorker env i) :=
  .of_modify hs workers_touchWorker rfl ⟨[], (List.append_nil _).symm⟩ (fun _ => rfl) fun _ => rfl

theorem charged_emit {effect : Effect} (hs : Unpunished s) : Charged w [] s (s.emit effect) :=
  .of_eq hs rfl rfl ⟨_, rfl⟩

-- A worker that is new has been charged for nothing.
theorem charged_handleNewWorker (hs : Unpunished s) : Charged w [] s (s.handleNewWorker env i) := by
  by_cases h : s.workers.HasKey i
  · have hworkers : (s.handleNewWorker env i).workers =
        ((s.emit (.connected i)).resetWorker env i).workers.modify i fun worker =>
          { worker with lastReceived := env.now .newWorker } := by
      rw [handleNewWorker_of_hasKey h]
    have hemit : Charged w [] s (s.emit (.connected i)) := charged_emit hs
    have hreset : Charged w [] s ((s.emit (.connected i)).resetWorker env i) :=
      hemit.trans (charged_resetWorker hemit.unpunished)
    refine hreset.trans (.of_modify hreset.unpunished hworkers ?_ ⟨[], ?_⟩ (fun _ => rfl) fun _ => rfl)
    · rw [handleNewWorker_of_hasKey h]
    · rw [handleNewWorker_of_hasKey h, List.append_nil]
  · rw [handleNewWorker_of_not_hasKey h]
    refine ⟨rfl, fun worker hworker => ?_, [.connected i], rfl, fun hkey _ => ?_⟩
    · rcases (Keyed.mem_insert h).mp hworker with hold | rfl
      · exact hs worker hold
      · rfl
    · obtain ⟨worker, hworker, hid⟩ := hkey
      have hnew : worker ∈ s.workers.insert { identifier := i, lastReceived := env.now .newWorker } :=
        Keyed.mem_insert_of_mem hworker
      rw [allowOf, allowOf, Keyed.find?_eq_some.mpr ⟨hworker, hid⟩]
      dsimp only
      rw [Keyed.find?_eq_some.mpr ⟨hnew, hid⟩]
      rfl

end Workers

section Pass

theorem charged_expireWorkers (hs : Unpunished s) (threshold : Time) (skip : Bool)
    (workers : List WorkerStatus) : Charged w [] s (expireWorkers env threshold skip workers s) := by
  induction workers generalizing skip s with
  | nil => cases skip <;> exact .refl hs
  | cons worker rest ih =>
      cases skip with
      | true => exact ih hs false
      | false =>
          rw [expireWorkers]
          split
          · have hdelete : Charged w [] s (s.deleteAndDisconnectWorker env worker.identifier) :=
              charged_deleteAndDisconnectWorker hs
            exact hdelete.trans (ih hdelete.unpunished _)
          · exact ih hs false

-- The state in which the pass looks at the tasks, and those that it unassigns there.
def expired (env : Env) (s : Scheduler) : Scheduler :=
  expireWorkers env (seconds s.config.worker.workerTimeoutSec) false (env.workers.arrange s.workers.entries)
    ({ s with lastChecked := env.now .check }.emit (.checked (env.now .check)))

def timedOut (env : Env) (s : Scheduler) : List RoomTask :=
  (env.tasks.arrange (s.expired env).tasks.entries).filter fun task =>
    ¬env.now .interval - task.lastReceived < seconds s.config.worker.workerTimeoutSec

theorem refreshed_eq : s.refreshed env = ((s.expired env).drops env true (s.timedOut env)).refreshCounts := by
  rw [refreshed, checkWorkerTaskInterval, expireTasks_eq_foldl]
  rfl

theorem charged_refreshCounts (hs : Unpunished s) : Charged w [] s s.refreshCounts := by
  have hworkers : s.refreshCounts.workers = s.workers.update (fun worker => { worker with
      currentConnections := s.tasks.count fun task => task.identifier = worker.identifier }) fun _ => rfl := rfl
  exact .of_update hs hworkers rfl ⟨[], (List.append_nil _).symm⟩ (fun _ hp => hp) fun _ _ => rfl

theorem charged_refreshed (hs : Unpunished s) :
    Charged w (chargeTimes env w (s.timedOut env)) s (s.refreshed env) := by
  have hcheck : Charged w [] s ({ s with lastChecked := env.now .check }.emit (.checked (env.now .check))) :=
    .of_eq hs rfl rfl ⟨_, rfl⟩
  have hexpired : Charged w [] s (s.expired env) :=
    hcheck.trans (charged_expireWorkers hcheck.unpunished _ _ _)
  have hdrops : Charged w (chargeTimes env w (s.timedOut env)) (s.expired env)
      ((s.expired env).drops env true (s.timedOut env)) := by
    refine charged_drops_true hexpired.unpunished (fun task ht => ?_) ?_
    · exact (env.tasks.mem_arrange).mp (List.mem_filter.mp ht).1
    · apply List.Nodup.sublist (List.filter_sublist.map _)
      exact ((env.tasks.perm _).map _).nodup_iff.mpr (Keyed.nodup _)
  have hdone := hexpired.trans hdrops
  rw [refreshed_eq]
  exact hdone.free (charged_refreshCounts hdone.unpunished)

theorem charged_collectWorkers (hs : Unpunished s) : Charged w [] s (s.collectWorkers env) := by
  have hworkers : (s.collectWorkers env).workers = s.workers.update (fun worker =>
      if available env worker then
        { worker with
          punished := false
          remainingThisBunch := s.config.worker.maxNewTasksPerBunch }
      else worker) fun _ => by split <;> rfl := rfl
  refine .of_update hs hworkers rfl ⟨[], (List.append_nil _).symm⟩ (fun worker hp => ?_) fun worker _ => ?_
  · split
    · rfl
    · exact hp
  · split <;> rfl

theorem charged_collected (hs : Unpunished s) :
    Charged w (chargeTimes env w (s.timedOut env)) s (s.collected env) := by
  have hrefreshed : Charged w (chargeTimes env w (s.timedOut env)) s (s.refreshed env) := charged_refreshed hs
  have hcollect : Charged w [] (s.refreshed env) ((s.refreshed env).collectWorkers env) :=
    charged_collectWorkers hrefreshed.unpunished
  exact hrefreshed.free (hcollect.free (charged_emit hcollect.unpunished))

-- The tasks that the loop over the rooms takes away with the inactive rooms.
def removed (env : Env) : List RoomStatus → Scheduler → List RoomTask
  | [], _ => []
  | room :: rest, s =>
      if room.active then removed env rest s
      else env.tasksByRoom.arrange (s.tasks.entries.filter fun task => task.roomId = room.roomId) ++
        removed env rest (s.deleteInactiveRoom env room.roomId)

theorem charged_deleteInactiveRoom (hs : Unpunished s) (r : RoomId) :
    Charged w (chargeTimes env w (env.tasksByRoom.arrange (s.tasks.entries.filter fun task => task.roomId = r)))
      s (s.deleteInactiveRoom env r) := by
  have hdrops : Charged w (chargeTimes env w (env.tasksByRoom.arrange (s.tasks.entries.filter fun task =>
      task.roomId = r))) s (s.drops env true (env.tasksByRoom.arrange (s.tasks.entries.filter fun task =>
        task.roomId = r))) :=
    charged_drops_true hs (fun task ht => ((mem_tasksByRoom env.tasksByRoom).mp ht).1)
      (nodup_arranged_tasks _ _ s)
  exact ⟨hdrops.config, hdrops.unpunished, hdrops.pays⟩

theorem chargeTimes_append (env : Env) (w : Identifier) (tasks rest : List RoomTask) :
    chargeTimes env w (tasks ++ rest) = chargeTimes env w tasks ++ chargeTimes env w rest := by
  rw [chargeTimes, List.filter_append, List.map_append]
  rfl

theorem charged_foldl_visit {scan : RoomScan} (hs : Unpunished scan.state) (rooms : List RoomStatus) :
    Charged w (chargeTimes env w (removed env rooms scan.state)) scan.state
      (rooms.foldl (RoomScan.visit env) scan).state := by
  induction rooms generalizing scan with
  | nil => exact .refl hs
  | cons room rest ih =>
      have htail := @ih (scan.visit env room)
      rw [RoomScan.visit] at htail
      rw [List.foldl_cons, removed, RoomScan.visit]
      cases hactive : room.active with
      | true =>
          simp only [hactive, if_true] at htail ⊢
          exact htail hs
      | false =>
          simp only [hactive, Bool.false_eq_true, if_false] at htail ⊢
          have hroom : Charged w _ scan.state (scan.state.deleteInactiveRoom env room.roomId) :=
            charged_deleteInactiveRoom hs room.roomId
          rw [chargeTimes_append]
          exact hroom.trans (htail hroom.unpunished)

theorem charged_addTask (hs : Unpunished s) : Charged w [] s (s.addTask env i r) := by
  refine .of_modify hs workers_addTask ?_ ⟨_, trace_addTask⟩ (fun _ => rfl) fun _ => rfl
  rw [addTask]
  dsimp only
  rw [sendAssign, sendToIdentifier]
  split <;> rfl

theorem Turn.charged {pass pass' : AssignPass} (h : Turn env r pass pass') (hs : Unpunished pass.state) :
    Charged w [] pass.state pass'.state := by
  cases h with
  | given v hv hspare hstate hthrottling => exact hstate ▸ charged_addTask hs
  | taken tasks hroom hstate hfew hthrottling => exact hstate ▸ charged_drops_false hs

theorem charged_processRooms {pass : AssignPass} {maxTasks currentMin : Int} (hs : Unpunished pass.state)
    (rooms : List RoomId) :
    Charged w [] pass.state (rooms.foldl (AssignPass.processRoom env maxTasks currentMin) pass).state := by
  induction rooms generalizing pass with
  | nil => exact .refl hs
  | cons r rest ih =>
      have hturn : Charged w [] pass.state (pass.processRoom env maxTasks currentMin r).state :=
        (turn_processRoom r).charged hs
      exact hturn.trans (ih hturn.unpunished)

-- The tasks that a pass takes away because of an error, or as if there was one.
def erred (env : Env) (s : Scheduler) : List RoomTask :=
  if throttled env s then []
  else s.timedOut env ++ removed env (env.rooms.arrange (s.collected env).rooms.entries) (s.collected env)

theorem charged_checkAllStates (hs : Unpunished s) :
    Charged w (chargeTimes env w (s.erred env)) s (s.checkAllStates env) := by
  rw [checkAllStates, erred]
  split
  · exact .refl hs
  · have hcollected : Charged w (chargeTimes env w (s.timedOut env)) s (s.collected env) := charged_collected hs
    have hscan : Charged w _ (s.collected env) (s.assignStart env).state :=
      @charged_foldl_visit env w { state := s.collected env } hcollected.unpunished
        (env.rooms.arrange (s.collected env).rooms.entries)
    have hassign : Charged w [] (s.assignStart env).state (s.processRooms env (s.roomNeedProc env)).state :=
      charged_processRooms hscan.unpunished _
    rw [chargeTimes_append]
    exact (hcollected.trans hscan).free hassign

end Pass

section Step

variable {input : Input} {payload : Bytes}

-- The task that a worker has reported as failed.
def failedTask (input : Input) (s : Scheduler) : List RoomTask :=
  match input.event with
  | .payload identifier payload =>
      if s.workers.HasKey identifier ∧ isFailed payload then
        (s.tasks.find? (identifier, roomIdOf payload)).toList
      else []
  | _ => []

-- The tasks that the pass of the step takes away because of an error, or as if
-- there was one.
def passErred (input : Input) (s : Scheduler) : List RoomTask :=
  match passStart input s with
  | none => []
  | some t => t.erred input.env

-- The times for which the step charges the worker.
def charges (input : Input) (w : Identifier) (s : Scheduler) : List Time :=
  chargeTimes input.env w (s.failedTask input ++ s.passErred input)

theorem charges_of_passStart (hfailed : s.failedTask input = []) (hstart : passStart input s = some t) :
    s.charges input w = chargeTimes input.env w (t.erred input.env) := by
  rw [charges, hfailed, passErred, hstart, List.nil_append]

theorem charges_of_other (h : s.workers.HasKey i → ¬isReady payload ∧ ¬isFailed payload) :
    s.charges ⟨env, .payload i payload⟩ w = [] := by
  have hfailed : s.failedTask ⟨env, .payload i payload⟩ = [] := if_neg fun hf => (h hf.1).2 hf.2
  have hstart : passStart ⟨env, .payload i payload⟩ s = none := by
    by_cases hkey : s.workers.HasKey i
    · simp [passStart, h hkey]
    · simp [passStart, hkey]
  rw [charges, hfailed, passErred, hstart]
  rfl

theorem charged_received (hs : Unpunished s) :
    Charged w [] s ((s.emit (.received i payload s.authCode)).touchWorker env i) := by
  have hemit : Charged w [] s (s.emit (.received i payload s.authCode)) := charged_emit hs
  exact hemit.free (charged_touchWorker hemit.unpunished)

theorem charged_handleData (hs : Unpunished s) : Charged w [] s (s.handleData env i payload) := by
  have htrace : ∃ effects, (s.handleData env i payload).trace = s.trace ++ effects := by
    obtain ⟨effects, htrace, -⟩ := handleData_brings .loadAuthCode env i payload s
    exact ⟨effects, htrace⟩
  refine .of_eq hs (workers_handleData s) ?_ htrace
  unfold handleData
  dsimp only
  split
  · rfl
  split
  · split
    · split
      · rfl
      · split <;> rfl
    · rfl
  · rfl

theorem charged_ready (hs : Unpunished s) (hkey : s.workers.HasKey i) (hready : isReady payload) :
    Charged w (s.charges ⟨env, .payload i payload⟩ w) s (s.handleBuffer env i payload) := by
  have hfailed : s.failedTask ⟨env, .payload i payload⟩ = [] :=
    if_neg fun h => not_isReady_of_isFailed h.2 hready
  obtain ⟨t, hstart, hready'⟩ : ∃ t, passStart ⟨env, .payload i payload⟩ s = some t ∧ Charged w [] s t := by
    have hreceived : Charged w [] s ((s.emit (.received i payload s.authCode)).touchWorker env i) :=
      charged_received hs
    unfold passStart
    dsimp only
    rw [if_neg (not_not.mpr hkey), if_pos hready]
    refine ⟨_, rfl, ?_⟩
    split
    · exact hreceived.free (charged_readyWorker hreceived.unpunished)
    · have hreject : Charged w [] s
          (((s.emit (.received i payload s.authCode)).touchWorker env i).rejectWorker env i) :=
        hreceived.free (charged_deleteAndDisconnectWorker hreceived.unpunished)
      exact hreject.free (charged_readyWorker hreject.unpunished)
  have hhandled : HandlerMove env none s t ∧ s.handleBuffer env i payload = t.checkAllStates env :=
    handleBuffer_of_some hstart
  rw [charges_of_passStart hfailed hstart, hhandled.2]
  exact hready'.trans (charged_checkAllStates hready'.unpunished)

theorem charged_failed (hs : Unpunished s) (hkey : s.workers.HasKey i) (hfailed : isFailed payload) :
    Charged w (s.charges ⟨env, .payload i payload⟩ w) s (s.handleBuffer env i payload) := by
  have hreceived : Charged w [] s ((s.emit (.received i payload s.authCode)).touchWorker env i) :=
    charged_received hs
  have hstart : passStart ⟨env, .payload i payload⟩ s = some (((s.emit (.received i payload
      s.authCode)).touchWorker env i).deleteTask env i (roomIdOf payload) true) := by
    simp [passStart, hkey, not_isReady_of_isFailed hfailed, hfailed]
  have hreported : s.failedTask ⟨env, .payload i payload⟩ = (s.tasks.find? (i, roomIdOf payload)).toList :=
    if_pos ⟨hkey, hfailed⟩
  have hdelete : Charged w (chargeTimes env w (s.tasks.find? (i, roomIdOf payload)).toList) s
      (((s.emit (.received i payload s.authCode)).touchWorker env i).deleteTask env i (roomIdOf payload)
        true) := by
    cases hfind : s.tasks.find? (i, roomIdOf payload) with
    | none =>
        have hnone : ¬((s.emit (.received i payload s.authCode)).touchWorker env i).tasks.HasKey
            (i, roomIdOf payload) := Keyed.find?_eq_none.mp hfind
        rw [deleteTask_of_not_hasKey hnone]
        exact hreceived
    | some task =>
        have htask : ((s.emit (.received i payload s.authCode)).touchWorker env i).tasks.HasKey
            (i, roomIdOf payload) := Keyed.hasKey_of_find? hfind
        obtain ⟨hi, hr⟩ := Prod.mk.inj (Keyed.find?_eq_some.mp hfind).2
        have hnothing : chargeTimes env w [] = [] := rfl
        rw [Option.toList_some, chargeTimes_cons, hi, hr, hnothing, List.append_nil]
        exact hreceived.trans (charged_deleteTask_true hreceived.unpunished htask)
  have hhandled : HandlerMove env none s _ ∧ s.handleBuffer env i payload = _ := handleBuffer_of_some hstart
  rw [charges, hreported, passErred, hstart, chargeTimes_append, hhandled.2]
  exact hdelete.trans (charged_checkAllStates hdelete.unpunished)

theorem charged_handleBuffer (hs : Unpunished s) :
    Charged w (s.charges ⟨env, .payload i payload⟩ w) s (s.handleBuffer env i payload) := by
  by_cases hlen : payload.length < SimpleWorkerProto.roomFailedPayloadLength
  · have hready : ¬isReady payload := fun h => absurd h.1 (Nat.not_le.mpr hlen)
    have hfailed : ¬isFailed payload := fun h => absurd h.1 (Nat.not_le.mpr hlen)
    rw [charges_of_other fun _ => ⟨hready, hfailed⟩, handleBuffer_malformed hlen]
    exact charged_emit hs
  rw [Nat.not_lt] at hlen
  by_cases hkey : s.workers.HasKey i
  · by_cases hready : isReady payload
    · exact charged_ready hs hkey hready
    by_cases hfailed : isFailed payload
    · exact charged_failed hs hkey hfailed
    have hreceived : Charged w [] s ((s.emit (.received i payload s.authCode)).touchWorker env i) :=
      charged_received hs
    rw [charges_of_other fun _ => ⟨hready, hfailed⟩, handleBuffer_known hlen hkey]
    dsimp only
    rw [if_neg fun hc => hready ⟨hlen, hc⟩, if_neg fun hc => hfailed ⟨hlen, hc⟩]
    split
    · exact hreceived.free (charged_handleData hreceived.unpunished)
    · exact hreceived
  · rw [charges_of_other fun h => absurd h hkey, handleBuffer_unknown hlen hkey]
    exact .of_eq hs (by simp) config_disconnectWorker ⟨_, trace_unknown⟩

theorem charged_onAccept (hs : Unpunished s) (result : AcceptResult) (draws : List Identifier) :
    Charged w [] s (s.onAccept env result draws) := by
  have hsame : ∀ s', s'.workers = s.workers → s'.config = s.config → s'.trace = s.trace →
      Charged w [] s s' := fun s' hworkers hconfig htrace =>
    .of_eq hs hworkers hconfig ⟨[], by rw [htrace, List.append_nil]⟩
  unfold onAccept
  split
  · exact hsame _ rfl rfl rfl
  · exact hsame _ rfl rfl rfl
  · exact hsame _ rfl rfl rfl
  · exact hsame _ rfl rfl rfl
  · rename_i identifier hdraw
    have hadd : Charged w [] s (s.endAccept.addSession identifier) := hsame _ rfl rfl rfl
    have hnew : Charged w [] s ((s.endAccept.addSession identifier).handleNewWorker env identifier) :=
      hadd.free (charged_handleNewWorker hadd.unpunished)
    exact ⟨hnew.config, hnew.unpunished, hnew.pays⟩

theorem charged_handleWorkerDisconnect (hs : Unpunished s) :
    Charged w [] s (s.handleWorkerDisconnect env i) := by
  have hclear : Charged w [] s (s.clearWorkerTasks i) := .of_eq hs rfl rfl ⟨[], (List.append_nil _).symm⟩
  unfold handleWorkerDisconnect
  dsimp only
  split
  · exact hclear.free (charged_deleteWorker hclear.unpunished)
  · exact hclear

theorem charged_tick (hs : Unpunished s) (result : TimerResult) :
    Charged w (s.charges ⟨env, .tick result⟩ w) s (s.onTimerTick env result) := by
  have hwait : Charged w [] s s.endWait := .of_eq hs rfl rfl ⟨[], (List.append_nil _).symm⟩
  have hpass : Charged w (chargeTimes env w (s.endWait.erred env)) s (s.endWait.checkAllStates env) :=
    hwait.trans (charged_checkAllStates hwait.unpunished)
  cases result with
  | aborted => exact hwait
  | failed => exact ⟨hpass.config, hpass.unpunished, hpass.pays⟩
  | expired => exact ⟨hpass.config, hpass.unpunished, hpass.pays⟩

-- A step charges the workers for the tasks that were reported or taken away as
-- if they had failed, and leaves nobody marked.
theorem step_charged (hs : Unpunished s) (input : Input) (w : Identifier) : Unpunished (step input s) ∧
    (s.workers.HasKey w → .reset w ∉ s.effects input → (step input s).allowOf w =
      (s.allowOf w).map (charge s.config.worker.workerPenaltyMin (s.charges input w))) := by
  have hcharged : ∀ {times : List Time}, Charged w times s (step input s) → s.charges input w = times →
      Unpunished (step input s) ∧ (s.workers.HasKey w → .reset w ∉ s.effects input → (step input s).allowOf w =
        (s.allowOf w).map (charge s.config.worker.workerPenaltyMin (s.charges input w))) := by
    rintro times h rfl
    obtain ⟨effects, htrace, hpays⟩ := h.pays
    refine ⟨h.unpunished, ?_⟩
    rw [effects_eq htrace]
    exact hpays
  obtain ⟨env, event⟩ := input
  cases event with
  | accept result draws => exact hcharged (charged_onAccept hs result draws) rfl
  | payload i payload => exact hcharged (charged_handleBuffer hs) rfl
  | workerDisconnect i => exact hcharged (charged_handleWorkerDisconnect hs) rfl
  | tick result => exact hcharged (charged_tick hs result) rfl
  | updateRoomLists rooms =>
      exact hcharged (.of_eq hs rfl rfl ⟨[], (List.append_nil _).symm⟩) rfl
  | configure config =>
      refine ⟨hs, fun _ _ => ?_⟩
      change s.allowOf w = (s.allowOf w).map (charge s.config.worker.workerPenaltyMin [])
      cases s.allowOf w <;> rfl
  | loadAuthCode => exact hcharged (.of_eq hs rfl rfl ⟨[], (List.append_nil _).symm⟩) rfl

theorem initial_unpunished (config : Config) : Unpunished (initial config) := fun worker hworker =>
  absurd hworker (Keyed.notMem_empty worker)

theorem run_unpunished (config : Config) (inputs : List Input) : Unpunished (run config inputs) :=
  @Runs.run_invariant _ _ _ Unpunished (fun input _ hs => (step_charged hs input 0).1) _
    (initial_unpunished config) inputs

end Step

end LiveReceptor.Supervisor.Scheduler

import LiveReceptor.Supervisor.Steps

namespace LiveReceptor.Supervisor.Scheduler

-- How far the counter of a room is above the number of its tasks.
def surplus (s : Scheduler) (room : RoomStatus) : Int :=
  room.currentConnections - s.tasks.count fun task => task.roomId = room.roomId

-- The three containers and the counters fit together. The room counters may
-- lag behind, since clearing the tasks of a worker skips them.
structure Inv (s : Scheduler) : Prop where
  taskWorker : ∀ task ∈ s.tasks, ∃ worker ∈ s.workers,
    worker.identifier = task.identifier ∧ worker.initialized = true
  taskRoom : ∀ task ∈ s.tasks, s.rooms.HasKey task.roomId
  workerCount : ∀ worker ∈ s.workers,
    worker.currentConnections = s.tasks.count fun task => task.identifier = worker.identifier
  roomCount : ∀ room ∈ s.rooms, 0 ≤ s.surplus room
  workerSocket : ∀ worker ∈ s.workers, s.manager.sockets.HasKey worker.identifier
  uninitialized : ∀ worker ∈ s.workers, worker.initialized = false → worker.maxRooms = -1

variable {env : Env} {told : Option (List RoomId)} {guard : Guard} {stage : Stage} {s s' : Scheduler}

section Surplus

theorem surplus_quiet (hquiet : Quiet s s') :
    ∀ room ∈ s'.rooms, ∃ old ∈ s.rooms, s'.surplus room = s.surplus old := by
  obtain ⟨⟨f, hf, htasks⟩, -, ⟨k, hk, hrooms, hroom⟩, -, -⟩ := hquiet
  have hroomId : ∀ task : RoomTask, (f task).roomId = task.roomId := fun task =>
    congrArg Prod.snd (hf task)
  rw [hrooms]
  intro _ hr
  obtain ⟨room, hold, rfl⟩ := Keyed.mem_update.mp hr
  refine ⟨room, hold, ?_⟩
  rw [surplus, surplus, htasks, (hroom room).2, hk, Keyed.count_update fun task _ => by rw [hroomId]]

-- Deleting a task takes one off both sides.
theorem surplus_deleteTask {task : RoomTask} (htask : task ∈ s.tasks) (descRank : Bool) :
    ∀ room ∈ (s.deleteTask env task.identifier task.roomId descRank).rooms, ∃ old ∈ s.rooms,
      (s.deleteTask env task.identifier task.roomId descRank).surplus room = s.surplus old := by
  have hkey : s.tasks.HasKey (task.identifier, task.roomId) := .of_mem htask
  simp only [surplus, rooms_deleteTask_of_hasKey hkey, tasks_deleteTask]
  intro room hr
  rcases Keyed.mem_modify.mp hr with ⟨old, hold, he, rfl⟩ | ⟨hold, he⟩
  · refine ⟨old, hold, ?_⟩
    have hcount := Keyed.count_erase htask fun task => task.roomId = old.roomId
    rw [if_pos (by simpa using he.symm)] at hcount
    dsimp only [RoomTask.key] at hcount ⊢
    omega
  · refine ⟨room, hold, ?_⟩
    have hcount := Keyed.count_erase htask fun task => task.roomId = room.roomId
    rw [if_neg (by simpa using Ne.symm he)] at hcount
    rw [hcount]
    rfl

theorem surplus_addTask {i : Identifier} {r : RoomId} (hnew : ¬s.tasks.HasKey (i, r)) :
    ∀ room ∈ (s.addTask env i r).rooms, ∃ old ∈ s.rooms,
      (s.addTask env i r).surplus room = s.surplus old := by
  simp only [surplus, rooms_addTask, tasks_addTask]
  intro room hr
  rcases Keyed.mem_modify.mp hr with ⟨old, hold, he, rfl⟩ | ⟨hold, he⟩
  · refine ⟨old, hold, ?_⟩
    rw [Keyed.count_insert hnew, if_pos (by simpa using he.symm)]
    dsimp only
    omega
  · refine ⟨room, hold, ?_⟩
    rw [Keyed.count_insert hnew, if_neg (by simpa using Ne.symm he)]
    simp

theorem surplus_refreshCounts : ∀ room ∈ s.refreshCounts.rooms, s.refreshCounts.surplus room = 0 := by
  intro room hr
  obtain ⟨old, -, rfl⟩ := mem_rooms_refreshCounts.mp hr
  exact Int.sub_self _

end Surplus

theorem initial_inv (config : Config) : Inv (initial config) := by
  constructor <;> intro _ h <;> exact absurd h (Keyed.notMem_empty _)

theorem Inv.taskSocket (h : Inv s) : ∀ task ∈ s.tasks, s.manager.sockets.HasKey task.identifier := by
  intro task ht
  obtain ⟨worker, hw, hi, -⟩ := h.taskWorker task ht
  exact hi ▸ h.workerSocket worker hw

-- No tasks without a worker.
theorem Inv.ne_of_not_hasKey (h : Inv s) {i : Identifier} (hkey : ¬s.workers.HasKey i) :
    ∀ task ∈ s.tasks, task.identifier ≠ i := by
  rintro task ht rfl
  obtain ⟨worker, hw, hi, -⟩ := h.taskWorker task ht
  exact hkey ⟨worker, hw, hi⟩

theorem Inv.filter_eq_self (h : Inv s) {i : Identifier} (hkey : ¬s.workers.HasKey i) :
    (s.tasks.filter fun task => task.identifier ≠ i) = s.tasks :=
  Keyed.filter_eq_self fun task ht => decide_eq_true (h.ne_of_not_hasKey hkey task ht)

theorem Inv.socket_of_hasKey (h : Inv s) {i : Identifier} (hkey : s.workers.HasKey i) :
    s.manager.sockets.HasKey i := by
  obtain ⟨worker, hw, rfl⟩ := hkey
  exact h.workerSocket worker hw

theorem Inv.of_eq (h : Inv s) (htasks : s'.tasks = s.tasks) (hworkers : s'.workers = s.workers)
    (hrooms : s'.rooms = s.rooms) (hsockets : s'.manager.sockets = s.manager.sockets) : Inv s' := by
  obtain ⟨h₁, h₂, h₃, h₄, h₅, h₆⟩ := h
  simp only [surplus] at h₄
  constructor
  all_goals simp only [surplus, htasks, hworkers, hrooms, hsockets]
  all_goals assumption

theorem Inv.quiet (h : Inv s) (hquiet : Quiet s s') : Inv s' := by
  obtain ⟨f, hf, htasks⟩ := hquiet.tasks
  obtain ⟨g, hg, hworkers, hworker⟩ := hquiet.workers
  obtain ⟨k, hk, hrooms, hroom⟩ := hquiet.rooms
  have hsockets := hquiet.sockets
  have hid : ∀ task : RoomTask, (f task).identifier = task.identifier := fun task =>
    congrArg Prod.fst (hf task)
  have hroomId : ∀ task : RoomTask, (f task).roomId = task.roomId := fun task =>
    congrArg Prod.snd (hf task)
  constructor
  · rw [htasks, hworkers]
    rintro _ ht
    obtain ⟨task, hold, rfl⟩ := Keyed.mem_update.mp ht
    obtain ⟨worker, hw, hi, hinit⟩ := h.taskWorker task hold
    exact ⟨g worker, Keyed.mem_update.mpr ⟨worker, hw, rfl⟩, by rw [hg, hid, hi],
      by rw [(hworker worker).1, hinit]⟩
  · rw [htasks, hrooms]
    rintro _ ht
    obtain ⟨task, hold, rfl⟩ := Keyed.mem_update.mp ht
    rw [hroomId]
    exact Keyed.hasKey_update.mpr (h.taskRoom task hold)
  · rw [htasks, hworkers]
    rintro _ hw
    obtain ⟨worker, hold, rfl⟩ := Keyed.mem_update.mp hw
    rw [(hworker worker).2.2, h.workerCount worker hold, Keyed.count_update fun task _ => by rw [hid],
      hg]
  · intro room hr
    obtain ⟨old, hold, he⟩ := surplus_quiet hquiet room hr
    exact he ▸ h.roomCount old hold
  · rw [hworkers, hsockets]
    rintro _ hw
    obtain ⟨worker, hold, rfl⟩ := Keyed.mem_update.mp hw
    rw [hg]
    exact h.workerSocket worker hold
  · rw [hworkers]
    rintro _ hw
    obtain ⟨worker, hold, rfl⟩ := Keyed.mem_update.mp hw
    rw [(hworker worker).1, (hworker worker).2.1]
    exact h.uninitialized worker hold

-- All the tasks of one worker go, and that worker, when it stays, has nothing.
theorem Inv.clear (h : Inv s) (i : Identifier)
    (htasks : s'.tasks = s.tasks.filter fun task => task.identifier ≠ i) (hrooms : s'.rooms = s.rooms)
    (hothers : ∀ worker, worker.identifier ≠ i → (worker ∈ s'.workers ↔ worker ∈ s.workers))
    (hself : ∀ worker ∈ s'.workers, worker.identifier = i → worker.currentConnections = 0 ∧
      (worker.initialized = false → worker.maxRooms = -1))
    (hsockets : ∀ worker ∈ s'.workers, s'.manager.sockets.HasKey worker.identifier) : Inv s' := by
  have htask : ∀ task, task ∈ s'.tasks ↔ task ∈ s.tasks ∧ task.identifier ≠ i := by simp [htasks]
  constructor
  · intro task ht
    obtain ⟨ht, hne⟩ := (htask task).mp ht
    obtain ⟨worker, hw, hi, hinit⟩ := h.taskWorker task ht
    exact ⟨worker, (hothers worker (hi ▸ hne)).mpr hw, hi, hinit⟩
  · intro task ht
    rw [hrooms]
    exact h.taskRoom task ((htask task).mp ht).1
  · intro worker hw
    by_cases hi : worker.identifier = i
    · have hnone : (s'.tasks.count fun task => task.identifier = worker.identifier) = 0 :=
        Keyed.count_eq_zero.mpr fun task ht he =>
          ((htask task).mp ht).2 ((of_decide_eq_true he).trans hi)
      rw [(hself worker hw hi).1, hnone]
      rfl
    · rw [h.workerCount worker ((hothers worker hi).mp hw), htasks, Keyed.count_filter_of_imp]
      intro task _ he
      simpa [of_decide_eq_true he] using hi
  · rw [hrooms]
    intro room hr
    have hcount := h.roomCount room hr
    have hle := Keyed.count_filter_le s.tasks (fun task => task.roomId = room.roomId)
      fun task => task.identifier ≠ i
    rw [surplus] at hcount ⊢
    rw [htasks]
    omega
  · exact hsockets
  · intro worker hw
    by_cases hi : worker.identifier = i
    · exact (hself worker hw hi).2
    · exact h.uninitialized worker ((hothers worker hi).mp hw)

-- Taking a task away takes one off both counters.
theorem Inv.deleteTask_of_mem (h : Inv s) {task : RoomTask} (htask : task ∈ s.tasks)
    (descRank : Bool) : Inv (s.deleteTask env task.identifier task.roomId descRank) := by
  have hkey : s.tasks.HasKey (task.identifier, task.roomId) := .of_mem htask
  constructor
  · rw [tasks_deleteTask, workers_deleteTask_of_hasKey hkey]
    intro other ho
    obtain ⟨worker, hw, hi, hinit⟩ := h.taskWorker other (Keyed.mem_erase.mp ho).1
    by_cases he : worker.identifier = task.identifier
    · exact ⟨_, Keyed.mem_modify.mpr (Or.inl ⟨worker, hw, he, rfl⟩), hi, hinit⟩
    · exact ⟨worker, Keyed.mem_modify.mpr (Or.inr ⟨hw, he⟩), hi, hinit⟩
  · rw [tasks_deleteTask, rooms_deleteTask_of_hasKey hkey]
    intro other ho
    exact Keyed.hasKey_modify.mpr (h.taskRoom other (Keyed.mem_erase.mp ho).1)
  · rw [tasks_deleteTask, workers_deleteTask_of_hasKey hkey]
    intro worker hw
    rcases Keyed.mem_modify.mp hw with ⟨old, hold, he, rfl⟩ | ⟨hold, he⟩
    · have hcount := h.workerCount old hold
      rw [Keyed.count_erase htask, if_pos (by simpa using he.symm)] at hcount
      dsimp only [RoomTask.key] at hcount ⊢
      omega
    · have hcount := h.workerCount worker hold
      rw [Keyed.count_erase htask, if_neg (by simpa using Ne.symm he)] at hcount
      exact hcount
  · intro room hr
    obtain ⟨old, hold, he⟩ := surplus_deleteTask htask descRank room hr
    exact he ▸ h.roomCount old hold
  · rw [workers_deleteTask_of_hasKey hkey, manager_deleteTask]
    intro worker hw
    rcases Keyed.mem_modify.mp hw with ⟨old, hold, -, rfl⟩ | ⟨hold, -⟩
    · exact h.workerSocket old hold
    · exact h.workerSocket worker hold
  · rw [workers_deleteTask_of_hasKey hkey]
    intro worker hw
    rcases Keyed.mem_modify.mp hw with ⟨old, hold, -, rfl⟩ | ⟨hold, -⟩
    · exact h.uninitialized old hold
    · exact h.uninitialized worker hold

theorem Inv.deleteTask (h : Inv s) (i : Identifier) (r : RoomId) (descRank : Bool) :
    Inv (s.deleteTask env i r descRank) := by
  by_cases htask : s.tasks.HasKey (i, r)
  · obtain ⟨task, ht, hk⟩ := htask
    cases hk
    exact h.deleteTask_of_mem ht descRank
  · rwa [deleteTask_of_not_hasKey htask]

-- A worker that is not above its limit takes rooms at all.
theorem Inv.initialized_of_le (h : Inv s) {worker : WorkerStatus} (hworker : worker ∈ s.workers)
    (hlimit : worker.currentConnections ≤ worker.maxRooms.toInt) : worker.initialized = true := by
  cases hi : worker.initialized with
  | true => rfl
  | false =>
      have hcount := h.workerCount worker hworker
      have hmax : worker.maxRooms.toInt = -1 := by rw [h.uninitialized worker hworker hi]; rfl
      omega

-- A new task adds one to both counters.
theorem Inv.addTask (h : Inv s) {worker : WorkerStatus} {room : RoomStatus}
    (hworker : worker ∈ s.workers) (hroom : room ∈ s.rooms)
    (hlimit : worker.currentConnections ≤ worker.maxRooms.toInt)
    (hnew : ¬s.tasks.HasKey (worker.identifier, room.roomId)) :
    Inv (s.addTask env worker.identifier room.roomId) := by
  have hinit := h.initialized_of_le hworker hlimit
  constructor
  · rw [tasks_addTask, workers_addTask]
    intro task ht
    rcases (Keyed.mem_insert hnew).mp ht with ht | rfl
    · obtain ⟨owner, ho, hi, hready⟩ := h.taskWorker task ht
      by_cases he : owner.identifier = worker.identifier
      · exact ⟨_, Keyed.mem_modify.mpr (Or.inl ⟨owner, ho, he, rfl⟩), hi, hready⟩
      · exact ⟨owner, Keyed.mem_modify.mpr (Or.inr ⟨ho, he⟩), hi, hready⟩
    · exact ⟨_, Keyed.mem_modify.mpr (Or.inl ⟨worker, hworker, rfl, rfl⟩), rfl, hinit⟩
  · rw [tasks_addTask, rooms_addTask]
    intro task ht
    rw [Keyed.hasKey_modify]
    rcases (Keyed.mem_insert hnew).mp ht with ht | rfl
    · exact h.taskRoom task ht
    · exact ⟨room, hroom, rfl⟩
  · rw [tasks_addTask, workers_addTask]
    intro other ho
    rw [Keyed.count_insert hnew]
    rcases Keyed.mem_modify.mp ho with ⟨old, hold, he, rfl⟩ | ⟨hold, he⟩
    · have hcount := h.workerCount old hold
      rw [if_pos (by simpa using he.symm)]
      dsimp only
      omega
    · rw [if_neg (by simpa using Ne.symm he)]
      exact h.workerCount other hold
  · intro other ho
    obtain ⟨old, hold, he⟩ := surplus_addTask hnew other ho
    exact he ▸ h.roomCount old hold
  · rw [workers_addTask, manager_addTask]
    intro other ho
    rcases Keyed.mem_modify.mp ho with ⟨old, hold, -, rfl⟩ | ⟨hold, -⟩
    · exact h.workerSocket old hold
    · exact h.workerSocket other hold
  · rw [workers_addTask]
    intro other ho
    rcases Keyed.mem_modify.mp ho with ⟨old, hold, -, rfl⟩ | ⟨hold, -⟩
    · exact h.uninitialized old hold
    · exact h.uninitialized other hold

theorem Inv.refreshCounts (h : Inv s) : Inv s.refreshCounts := by
  constructor
  · intro task ht
    obtain ⟨worker, hw, hi, hinit⟩ := h.taskWorker task ht
    exact ⟨_, mem_workers_refreshCounts.mpr ⟨worker, hw, rfl⟩, hi, hinit⟩
  · intro task ht
    obtain ⟨room, hr, hk⟩ := h.taskRoom task ht
    exact ⟨_, mem_rooms_refreshCounts.mpr ⟨room, hr, rfl⟩, hk⟩
  · intro worker hw
    obtain ⟨old, -, rfl⟩ := mem_workers_refreshCounts.mp hw
    rfl
  · intro room hr
    rw [surplus_refreshCounts room hr]
  · intro worker hw
    obtain ⟨old, hold, rfl⟩ := mem_workers_refreshCounts.mp hw
    exact h.workerSocket old hold
  · intro worker hw
    obtain ⟨old, hold, rfl⟩ := mem_workers_refreshCounts.mp hw
    exact h.uninitialized old hold

theorem Inv.forgetRoom (h : Inv s) {roomId : RoomId}
    (hempty : ∀ task ∈ s.tasks, task.roomId ≠ roomId) :
    Inv { s with rooms := s.rooms.erase roomId } :=
  { h with
    taskRoom := fun task ht => Keyed.hasKey_erase.mpr ⟨h.taskRoom task ht, hempty task ht⟩
    roomCount := fun room hr => h.roomCount room (Keyed.mem_erase.mp hr).1 }

-- The worker goes with its tasks, and its session with it.
theorem Inv.removeWorker (h : Inv s) (i : Identifier)
    (htasks : s'.tasks = s.tasks.filter fun task => task.identifier ≠ i) (hrooms : s'.rooms = s.rooms)
    (hworkers : ∀ worker, worker ∈ s'.workers ↔ worker ∈ s.workers ∧ worker.identifier ≠ i)
    (hsockets : ∀ other, other ≠ i → s.manager.sockets.HasKey other →
      s'.manager.sockets.HasKey other) : Inv s' := by
  refine h.clear i htasks hrooms (fun worker hne => ?_) (fun worker hw hi => ?_) fun worker hw => ?_
  · rw [hworkers]
    exact and_iff_left hne
  · exact absurd hi ((hworkers worker).mp hw).2
  · obtain ⟨hw, hne⟩ := (hworkers worker).mp hw
    exact hsockets _ hne (h.workerSocket worker hw)

theorem Inv.passMove (h : Inv s) (hmove : PassMove env guard stage s s') : Inv s' := by
  cases hmove with
  | quiet hquiet => exact h.quiet hquiet
  | drop descRank htask =>
      exact (h.of_eq tasks_sendUnassign workers_sendUnassign rooms_sendUnassign
        (by rw [manager_sendUnassign])).deleteTask _ _ descRank
  | @expire _ worker hworker =>
      refine h.removeWorker worker.identifier (by simp [deleteAndDisconnectWorker])
        (by simp [deleteAndDisconnectWorker])
        (fun other => by simp [deleteAndDisconnectWorker]) fun other hne hother => ?_
      simpa [deleteAndDisconnectWorker, hne] using hother
  | refresh => exact h.refreshCounts
  | forget hempty => exact h.forgetRoom hempty
  | assign hworker hroom hlimit hnew hguard => exact h.addTask hworker hroom hlimit hnew

theorem Inv.updateRoomLists (h : Inv s) (rooms : List RoomId) : Inv (s.updateRoomLists rooms) := by
  refine { h with taskRoom := fun task ht => ?_, roomCount := fun room hr => ?_ }
  · obtain ⟨room, hr, hk⟩ := h.taskRoom task ht
    refine ⟨_, mem_rooms_updateRoomLists.mpr (Or.inl ⟨room, hr, rfl⟩), ?_⟩
    split <;> exact hk
  · rcases mem_rooms_updateRoomLists.mp hr with ⟨old, hold, rfl⟩ | ⟨hnew, -, hroom⟩
    · split <;> exact h.roomCount old hold
    · -- A room that was not known has no tasks.
      have hnone : (s.tasks.count fun task => task.roomId = room.roomId) = 0 :=
        Keyed.count_eq_zero.mpr fun task ht he =>
          hnew (of_decide_eq_true he ▸ h.taskRoom task ht)
      rw [surplus, tasks_updateRoomLists, hnone, ← hroom]
      simp

theorem Inv.accept (h : Inv s) (i : Identifier) : Inv ((s.addSession i).handleNewWorker env i) := by
  refine h.clear i ?_ (by simp) (fun worker hne => ?_) (fun worker hw hi => ?_) fun worker hw => ?_
  · rw [tasks_handleNewWorker, workers_addSession, tasks_addSession]
    split
    · rfl
    · rename_i hkey
      exact (h.filter_eq_self hkey).symm
  · rw [mem_workers_handleNewWorker_of_ne hne, workers_addSession]
  · obtain ⟨hcount, -, hmax⟩ := new_of_mem_workers_handleNewWorker hw hi
    exact ⟨hcount, fun _ => hmax⟩
  · rw [manager_handleNewWorker, hasKey_addSession]
    refine (hasKey_handleNewWorker.mp (.of_mem hw)).imp_left fun hkey => ?_
    exact h.socket_of_hasKey hkey

theorem Inv.handlerMove (h : Inv s) (hmove : HandlerMove env told s s') : Inv s' := by
  cases hmove with
  | quiet hquiet htrace => exact h.quiet hquiet
  | accept identifier hfree => exact h.accept identifier
  | ignore identifier payload hready hfailed => exact h.of_eq rfl rfl rfl rfl
  | unknown identifier payload hkey =>
      refine h.removeWorker identifier (by simp) (by simp) (fun worker => ?_) fun other hne hother => ?_
      · simp only [workers_disconnectWorker, workers_clearWorkerTasks, workers_emit]
        exact (and_iff_left_of_imp fun hw hi => hkey ⟨worker, hw, hi⟩).symm
      · simpa [hne] using hother
  | ready identifier payload hkey hready hauth =>
      refine h.clear identifier (by simp) (by simp) (fun worker hne => ?_) (fun worker hw hi => ?_)
        fun worker hw => ?_
      · rw [mem_workers_readyWorker_of_ne hne, mem_workers_touchWorker_of_ne hne, workers_emit]
      · obtain ⟨hcount, hinit, -⟩ := ready_of_mem_workers_readyWorker hw hi
        exact ⟨hcount, fun hn => absurd hn (by simp [hinit])⟩
      · have hworker := hasKey_readyWorker.mp (Keyed.HasKey.of_mem hw)
        simpa using h.socket_of_hasKey (by simpa using hworker)
  | reject identifier payload hkey hready =>
      refine h.removeWorker identifier (by simp) (by simp) (fun worker => ?_) fun other hne hother => ?_
      · rw [mem_workers_readyWorker_of_not_hasKey not_hasKey_rejectWorker, mem_workers_rejectWorker]
        exact and_congr_left fun hne => mem_workers_touchWorker_of_ne hne
      · simpa [hne] using hother
  | fail identifier payload hkey hfailed =>
      have hemit : Inv (s.emit (.received identifier payload s.authCode)) := h.of_eq rfl rfl rfl rfl
      have htouched : Inv ((s.emit (.received identifier payload s.authCode)).touchWorker env
          identifier) := hemit.quiet (quiet_touchWorker identifier)
      exact htouched.deleteTask identifier (roomIdOf payload) true
  | forward identifier payload htask => exact h.of_eq rfl rfl rfl rfl
  | absent identifier hkey => exact h.of_eq (h.filter_eq_self hkey) rfl rfl rfl
  | leave identifier hkey =>
      refine h.removeWorker identifier (by simp) (by simp) (fun worker => by simp)
        fun other hne hother => ?_
      simpa [hne] using hother
  | list rooms htold => exact h.updateRoomLists rooms

theorem step_inv (input : Input) (h : Inv s) : Inv (step input s) :=
  step_invariant (fun _ _ => Inv.handlerMove) (fun _ _ _ => Inv.passMove) h
    (stepMeetsGuard_true input s)

theorem run_inv (config : Config) (inputs : List Input) : Inv (run config inputs) :=
  Runs.run_invariant (fun input _ => step_inv input) (initial_inv config) inputs

section Claim

-- Only the first part of a pass touches the surplus of a room.
theorem surplus_passMove (hstage : stage ≠ .interval) (hmove : PassMove env guard stage s s') :
    ∀ room ∈ s'.rooms, ∃ old ∈ s.rooms, s'.surplus room = s.surplus old := by
  cases hmove with
  | quiet hquiet => exact surplus_quiet hquiet
  | @drop _ _ task descRank htask =>
      have hsent : task ∈ (s.sendUnassign task.identifier task.roomId).tasks := by
        rwa [tasks_sendUnassign]
      simpa only [surplus, tasks_sendUnassign, rooms_sendUnassign] using
        surplus_deleteTask hsent descRank
  | expire hworker => exact absurd rfl hstage
  | refresh => exact absurd rfl hstage
  | forget hempty => exact fun room hr => ⟨room, (Keyed.mem_erase.mp hr).1, rfl⟩
  | assign hworker hroom hlimit hnew hguard => exact surplus_addTask hnew

def Balanced (s : Scheduler) : Prop := ∀ room ∈ s.rooms, s.surplus room = 0

theorem Balanced.passMove (hstage : stage ≠ .interval) (h : Balanced s)
    (hmove : PassMove env guard stage s s') : Balanced s' := by
  intro room hr
  obtain ⟨old, hold, he⟩ := surplus_passMove hstage hmove room hr
  exact he.trans (h old hold)

theorem checkAllStates_balanced (hdue : ¬throttled env s) : Balanced (s.checkAllStates env) := by
  rw [checkAllStates, if_neg hdue]
  have hcollect : PassMoves env Unguarded .rooms (s.refreshed env) (s.assignStart env).state :=
    assignStart_moves s
  have hstart : Balanced (s.assignStart env).state :=
    moves_invariant (fun _ _ => Balanced.passMove (by simp)) surplus_refreshCounts hcollect
  exact moves_invariant (fun _ _ => Balanced.passMove (by simp)) hstart
    (processRooms_moves (passMeetsGuard_true s))

theorem step_balanced (input : Input) (h : Checked s (step input s)) : Balanced (step input s) := by
  obtain ⟨t, hstart, hdue⟩ := passStart_of_checked h
  obtain ⟨-, heq⟩ := step_of_some hstart
  rcases heq with heq | heq <;> rw [heq]
  · exact checkAllStates_balanced hdue
  · exact checkAllStates_balanced hdue

-- What holds between any two events.
structure Consistent (s : Scheduler) : Prop where
  task : ∀ task ∈ s.tasks,
    (∃ worker ∈ s.workers, worker.identifier = task.identifier ∧ worker.initialized = true) ∧
      s.rooms.HasKey task.roomId ∧ s.manager.sockets.HasKey task.identifier
  workerCount : ∀ worker ∈ s.workers,
    worker.currentConnections = s.tasks.count fun task => task.identifier = worker.identifier
  roomCount : ∀ room ∈ s.rooms,
    (s.tasks.count fun task => task.roomId = room.roomId) ≤ room.currentConnections

theorem Inv.consistent (h : Inv s) : Consistent s where
  task task ht := ⟨h.taskWorker task ht, h.taskRoom task ht, h.taskSocket task ht⟩
  workerCount := h.workerCount
  roomCount room hr := Int.sub_nonneg.mp (h.roomCount room hr)

def RoomCountsExact (s : Scheduler) : Prop := ∀ room ∈ s.rooms,
  room.currentConnections = s.tasks.count fun task => task.roomId = room.roomId

theorem run_consistent (config : Config) (inputs : List Input) :
    Runs.EveryState step Consistent (initial config) inputs ∧
      Runs.EveryStep step (fun input s => Checked s (step input s) → RoomCountsExact (step input s))
        (initial config) inputs := by
  rw [Runs.everyState_iff_prefix, Runs.everyStep_iff_prefix]
  constructor
  · exact fun before _ _ => (run_inv config before).consistent
  · intro before input _ _ hchecked room hroom
    exact Int.sub_eq_zero.mp (step_balanced input hchecked room hroom)

end Claim

end LiveReceptor.Supervisor.Scheduler

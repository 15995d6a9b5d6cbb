import LiveReceptor.Supervisor.Handlers

namespace LiveReceptor.Supervisor.Scheduler

section Fields

variable {env : Env} {i : Identifier} {r : RoomId} {e : Effect} {d : Bool} {s : Scheduler}

@[simp] theorem tasks_emit : (s.emit e).tasks = s.tasks := rfl
@[simp] theorem rooms_emit : (s.emit e).rooms = s.rooms := rfl
@[simp] theorem workers_emit : (s.emit e).workers = s.workers := rfl
@[simp] theorem manager_emit : (s.emit e).manager = s.manager := rfl
@[simp] theorem config_emit : (s.emit e).config = s.config := rfl
@[simp] theorem lastChecked_emit : (s.emit e).lastChecked = s.lastChecked := rfl
@[simp] theorem authCode_emit : (s.emit e).authCode = s.authCode := rfl
@[simp] theorem trace_emit : (s.emit e).trace = s.trace ++ [e] := rfl

-- Sending changes nothing but the trace.
theorem sendToIdentifier_eq : s.sendToIdentifier i e =
    { s with trace := s.trace ++ if s.manager.sockets.HasKey i then [e] else [] } := by
  unfold sendToIdentifier
  split
  · rfl
  · simp

@[simp] theorem tasks_sendAssign : (s.sendAssign i r).tasks = s.tasks := by
  rw [sendAssign, sendToIdentifier_eq]
@[simp] theorem rooms_sendAssign : (s.sendAssign i r).rooms = s.rooms := by
  rw [sendAssign, sendToIdentifier_eq]
@[simp] theorem workers_sendAssign : (s.sendAssign i r).workers = s.workers := by
  rw [sendAssign, sendToIdentifier_eq]
@[simp] theorem manager_sendAssign : (s.sendAssign i r).manager = s.manager := by
  rw [sendAssign, sendToIdentifier_eq]
@[simp] theorem trace_sendAssign : (s.sendAssign i r).trace =
    s.trace ++ if s.manager.sockets.HasKey i then [.assign i r] else [] := by
  rw [sendAssign, sendToIdentifier_eq]

@[simp] theorem tasks_sendUnassign : (s.sendUnassign i r).tasks = s.tasks := by
  rw [sendUnassign, sendToIdentifier_eq]
@[simp] theorem rooms_sendUnassign : (s.sendUnassign i r).rooms = s.rooms := by
  rw [sendUnassign, sendToIdentifier_eq]
@[simp] theorem workers_sendUnassign : (s.sendUnassign i r).workers = s.workers := by
  rw [sendUnassign, sendToIdentifier_eq]
@[simp] theorem manager_sendUnassign : (s.sendUnassign i r).manager = s.manager := by
  rw [sendUnassign, sendToIdentifier_eq]
@[simp] theorem config_sendUnassign : (s.sendUnassign i r).config = s.config := by
  rw [sendUnassign, sendToIdentifier_eq]
@[simp] theorem trace_sendUnassign : (s.sendUnassign i r).trace =
    s.trace ++ if s.manager.sockets.HasKey i then [.unassign i r] else [] := by
  rw [sendUnassign, sendToIdentifier_eq]

@[simp] theorem tasks_disconnectWorker : (s.disconnectWorker i).tasks = s.tasks := by
  unfold disconnectWorker; dsimp only; split <;> rfl
@[simp] theorem rooms_disconnectWorker : (s.disconnectWorker i).rooms = s.rooms := by
  unfold disconnectWorker; dsimp only; split <;> rfl
@[simp] theorem workers_disconnectWorker : (s.disconnectWorker i).workers = s.workers := by
  unfold disconnectWorker; dsimp only; split <;> rfl
@[simp] theorem config_disconnectWorker : (s.disconnectWorker i).config = s.config := by
  unfold disconnectWorker; dsimp only; split <;> rfl
@[simp] theorem authCode_disconnectWorker : (s.disconnectWorker i).authCode = s.authCode := by
  unfold disconnectWorker; dsimp only; split <;> rfl
@[simp] theorem trace_disconnectWorker :
    (s.disconnectWorker i).trace = s.trace ++ [.disconnect i] := by
  unfold disconnectWorker; dsimp only; split <;> rfl
@[simp] theorem sockets_disconnectWorker :
    (s.disconnectWorker i).manager.sockets = s.manager.sockets.erase i := by
  unfold disconnectWorker
  dsimp only
  split
  · rename_i h
    exact (Keyed.erase_of_not_hasKey (Keyed.find?_eq_none.mp h)).symm
  · rfl

theorem derefWorker_eq : s.derefWorker i =
    { s with trace := s.trace ++ if s.workers.HasKey i then [] else [.staleWorker i] } := by
  unfold derefWorker
  split
  · simp
  · rfl

@[simp] theorem tasks_resetWorker : (s.resetWorker env i).tasks =
    s.tasks.filter fun task => task.identifier ≠ i := by
  rw [resetWorker, derefWorker_eq]; rfl
@[simp] theorem rooms_resetWorker : (s.resetWorker env i).rooms = s.rooms := by
  rw [resetWorker, derefWorker_eq]; rfl
@[simp] theorem workers_resetWorker : (s.resetWorker env i).workers =
    s.workers.modify i fun status =>
      { status with
        initialized := false
        currentConnections := 0
        maxRooms := -1
        allowNewTaskAfter := env.now (.reset i)
        punished := false } := by
  rw [resetWorker, derefWorker_eq]; rfl
@[simp] theorem manager_resetWorker : (s.resetWorker env i).manager = s.manager := by
  rw [resetWorker, derefWorker_eq]; rfl
@[simp] theorem config_resetWorker : (s.resetWorker env i).config = s.config := by
  rw [resetWorker, derefWorker_eq]; rfl
@[simp] theorem authCode_resetWorker : (s.resetWorker env i).authCode = s.authCode := by
  rw [resetWorker, derefWorker_eq]; rfl
@[simp] theorem trace_resetWorker : (s.resetWorker env i).trace =
    s.trace ++ ((if s.workers.HasKey i then [] else [.staleWorker i]) ++ [.reset i]) := by
  rw [resetWorker, derefWorker_eq]
  exact List.append_assoc _ _ _

@[simp] theorem tasks_deleteWorker : (s.deleteWorker env i).tasks =
    s.tasks.filter fun task => task.identifier ≠ i := by
  rw [deleteWorker, tasks_emit, tasks_resetWorker]
@[simp] theorem rooms_deleteWorker : (s.deleteWorker env i).rooms = s.rooms := by
  rw [deleteWorker, rooms_emit, rooms_resetWorker]
@[simp] theorem manager_deleteWorker : (s.deleteWorker env i).manager = s.manager := by
  rw [deleteWorker, manager_emit, manager_resetWorker]
@[simp] theorem config_deleteWorker : (s.deleteWorker env i).config = s.config := by
  rw [deleteWorker, config_emit, config_resetWorker]
@[simp] theorem authCode_deleteWorker : (s.deleteWorker env i).authCode = s.authCode := by
  rw [deleteWorker, authCode_emit, authCode_resetWorker]
@[simp] theorem trace_deleteWorker : (s.deleteWorker env i).trace =
    s.trace ++ ((if s.workers.HasKey i then [] else [.staleWorker i]) ++ [.reset i, .deleted i]) := by
  rw [deleteWorker, trace_emit]
  dsimp only
  rw [trace_resetWorker]
  simp

-- Only the workers other than the deleted one are left, as they were.
@[simp] theorem mem_workers_deleteWorker {worker : WorkerStatus} :
    worker ∈ (s.deleteWorker env i).workers ↔ worker ∈ s.workers ∧ worker.identifier ≠ i := by
  rw [deleteWorker, workers_emit]
  dsimp only
  rw [workers_resetWorker, Keyed.mem_erase, Keyed.mem_modify]
  constructor
  · rintro ⟨⟨status, _, rfl, rfl⟩ | h, hne⟩
    · exact absurd rfl hne
    · exact h
  · intro h
    exact ⟨Or.inr h, h.2⟩

theorem deleteTask_of_hasKey (h : s.tasks.HasKey (i, r)) : s.deleteTask env i r d =
    { s with
      tasks := s.tasks.erase (i, r)
      workers := s.workers.modify i fun worker =>
        { worker with
          allowNewTaskAfter := WorkerStatus.penalized (env.now (.penalty i r))
            s.config.worker.workerPenaltyMin d worker
          currentConnections := worker.currentConnections - 1 }
      rooms := s.rooms.modify r fun room =>
        { room with currentConnections := room.currentConnections - 1 } } := if_pos h

theorem deleteTask_of_not_hasKey (h : ¬s.tasks.HasKey (i, r)) : s.deleteTask env i r d = s := if_neg h

@[simp] theorem tasks_deleteTask : (s.deleteTask env i r d).tasks = s.tasks.erase (i, r) := by
  by_cases h : s.tasks.HasKey (i, r)
  · rw [deleteTask_of_hasKey h]
  · rw [deleteTask_of_not_hasKey h, Keyed.erase_of_not_hasKey h]
@[simp] theorem manager_deleteTask : (s.deleteTask env i r d).manager = s.manager := by
  unfold deleteTask; split <;> rfl
@[simp] theorem config_deleteTask : (s.deleteTask env i r d).config = s.config := by
  unfold deleteTask; split <;> rfl
@[simp] theorem trace_deleteTask : (s.deleteTask env i r d).trace = s.trace := by
  unfold deleteTask; split <;> rfl

theorem workers_deleteTask_of_hasKey (h : s.tasks.HasKey (i, r)) : (s.deleteTask env i r d).workers =
    s.workers.modify i fun worker =>
      { worker with
        allowNewTaskAfter := WorkerStatus.penalized (env.now (.penalty i r))
          s.config.worker.workerPenaltyMin d worker
        currentConnections := worker.currentConnections - 1 } := by
  rw [deleteTask_of_hasKey h]
theorem rooms_deleteTask_of_hasKey (h : s.tasks.HasKey (i, r)) : (s.deleteTask env i r d).rooms =
    s.rooms.modify r fun room => { room with currentConnections := room.currentConnections - 1 } := by
  rw [deleteTask_of_hasKey h]

theorem of_mem_workers_deleteTask {worker : WorkerStatus}
    (hworker : worker ∈ (s.deleteTask env i r d).workers) : ∃ old ∈ s.workers,
      old.identifier = worker.identifier ∧ old.initialized = worker.initialized ∧
        old.maxRooms = worker.maxRooms ∧ worker.currentConnections ≤ old.currentConnections := by
  by_cases h : s.tasks.HasKey (i, r)
  · rw [workers_deleteTask_of_hasKey h] at hworker
    rcases Keyed.mem_modify.mp hworker with ⟨old, hold, -, rfl⟩ | ⟨hold, -⟩
    · refine ⟨old, hold, rfl, rfl, rfl, ?_⟩
      dsimp only
      omega
    · exact ⟨worker, hold, rfl, rfl, rfl, le_refl _⟩
  · rw [deleteTask_of_not_hasKey h] at hworker
    exact ⟨worker, hworker, rfl, rfl, rfl, le_refl _⟩

-- It does not matter which comes first, the packet or the deletion.
theorem sendUnassign_deleteTask : (s.deleteTask env i r d).sendUnassign i r =
    (s.sendUnassign i r).deleteTask env i r d := by
  simp only [sendUnassign, sendToIdentifier_eq, deleteTask]
  split <;> rfl

@[simp] theorem tasks_addTask : (s.addTask env i r).tasks =
    s.tasks.insert ⟨i, r, env.now .check⟩ := by
  simp [addTask]
@[simp] theorem workers_addTask : (s.addTask env i r).workers =
    s.workers.modify i fun status =>
      { status with
        currentConnections := status.currentConnections + 1
        remainingThisBunch := status.remainingThisBunch - 1 } := by
  simp [addTask]
@[simp] theorem rooms_addTask : (s.addTask env i r).rooms =
    s.rooms.modify r fun status =>
      { status with currentConnections := status.currentConnections + 1 } := by
  simp [addTask]
@[simp] theorem manager_addTask : (s.addTask env i r).manager = s.manager := by
  simp [addTask]
@[simp] theorem trace_addTask : (s.addTask env i r).trace =
    s.trace ++ if s.manager.sockets.HasKey i then [.assign i r] else [] := by
  simp [addTask]

theorem mem_workers_refreshCounts {worker : WorkerStatus} : worker ∈ s.refreshCounts.workers ↔
    ∃ old ∈ s.workers, { old with
      currentConnections := s.tasks.count fun task => task.identifier = old.identifier } = worker := by
  unfold refreshCounts
  dsimp only
  exact Keyed.mem_update
theorem mem_workers_collectWorkers {worker : WorkerStatus} : worker ∈ (s.collectWorkers env).workers ↔
    ∃ old ∈ s.workers, (if available env old then
      { old with punished := false, remainingThisBunch := s.config.worker.maxNewTasksPerBunch }
    else old) = worker := by
  unfold collectWorkers
  dsimp only
  exact Keyed.mem_update
theorem rooms_refreshCounts : s.refreshCounts.rooms = s.rooms.update
    (fun room => { room with
      currentConnections := s.tasks.count fun task => task.roomId = room.roomId })
    fun _ => rfl := rfl
theorem mem_rooms_refreshCounts {room : RoomStatus} : room ∈ s.refreshCounts.rooms ↔
    ∃ old ∈ s.rooms, { old with
      currentConnections := s.tasks.count fun task => task.roomId = old.roomId } = room := by
  rw [rooms_refreshCounts]
  exact Keyed.mem_update

end Fields

section Record

-- What one part adds to the record, and then another.
theorem extends_trans {P : Effect → Prop} {s s' t : Scheduler}
    (h : ∃ effects, s'.trace = s.trace ++ effects ∧ ∀ effect ∈ effects, P effect)
    (h' : ∃ effects, t.trace = s'.trace ++ effects ∧ ∀ effect ∈ effects, P effect) :
    ∃ effects, t.trace = s.trace ++ effects ∧ ∀ effect ∈ effects, P effect := by
  obtain ⟨first, hfirst, hP⟩ := h
  obtain ⟨next, hnext, hP'⟩ := h'
  refine ⟨first ++ next, by rw [hnext, hfirst, List.append_assoc], fun effect he => ?_⟩
  exact (List.mem_append.mp he).elim (hP effect) (hP' effect)

end Record

section Handlers

variable {env : Env} {i : Identifier} {r : RoomId} {payload : Bytes} {s : Scheduler}

@[simp] theorem tasks_clearWorkerTasks : (s.clearWorkerTasks i).tasks =
    s.tasks.filter fun task => task.identifier ≠ i := rfl
@[simp] theorem rooms_clearWorkerTasks : (s.clearWorkerTasks i).rooms = s.rooms := rfl
@[simp] theorem workers_clearWorkerTasks : (s.clearWorkerTasks i).workers = s.workers := rfl
@[simp] theorem manager_clearWorkerTasks : (s.clearWorkerTasks i).manager = s.manager := rfl
@[simp] theorem trace_clearWorkerTasks : (s.clearWorkerTasks i).trace = s.trace := rfl

@[simp] theorem tasks_touchWorker : (s.touchWorker env i).tasks = s.tasks := rfl
@[simp] theorem rooms_touchWorker : (s.touchWorker env i).rooms = s.rooms := rfl
@[simp] theorem manager_touchWorker : (s.touchWorker env i).manager = s.manager := rfl
@[simp] theorem trace_touchWorker : (s.touchWorker env i).trace = s.trace := rfl
@[simp] theorem workers_touchWorker : (s.touchWorker env i).workers =
    s.workers.modify i fun worker => { worker with lastReceived := env.now .message } := rfl

@[simp] theorem tasks_readyWorker : (s.readyWorker env i payload).tasks =
    s.tasks.filter fun task => task.identifier ≠ i := by
  simp [readyWorker]
@[simp] theorem rooms_readyWorker : (s.readyWorker env i payload).rooms = s.rooms := by
  simp [readyWorker]
@[simp] theorem manager_readyWorker : (s.readyWorker env i payload).manager = s.manager := by
  simp [readyWorker]
@[simp] theorem trace_readyWorker : (s.readyWorker env i payload).trace =
    s.trace ++ ((if s.workers.HasKey i then [] else [.staleWorker i]) ++ [.reset i]) := by
  simp [readyWorker]

theorem mem_workers_readyWorker {worker : WorkerStatus} :
    worker ∈ (s.readyWorker env i payload).workers ↔
      (∃ status ∈ s.workers, status.identifier = i ∧
        { status with
          initialized := true
          currentConnections := 0
          maxRooms := roomIdOf payload
          allowNewTaskAfter := env.now (.reset i)
          punished := false } = worker) ∨ (worker ∈ s.workers ∧ worker.identifier ≠ i) := by
  rw [readyWorker]
  dsimp only
  rw [workers_resetWorker, Keyed.mem_modify]
  constructor
  · rintro (⟨status, hs, hi, rfl⟩ | ⟨hw, hne⟩)
    · rcases Keyed.mem_modify.mp hs with ⟨old, hold, hoi, rfl⟩ | ⟨-, hne⟩
      · exact Or.inl ⟨old, hold, hoi, rfl⟩
      · exact absurd hi hne
    · rcases Keyed.mem_modify.mp hw with ⟨old, -, hoi, rfl⟩ | hw
      · exact absurd hoi hne
      · exact Or.inr hw
  · rintro (⟨status, hs, hi, rfl⟩ | ⟨hw, hne⟩)
    · exact Or.inl ⟨_, Keyed.mem_modify.mpr (Or.inl ⟨status, hs, hi, rfl⟩), hi, rfl⟩
    · exact Or.inr ⟨Keyed.mem_modify.mpr (Or.inr ⟨hw, hne⟩), hne⟩

theorem mem_workers_readyWorker_of_ne {worker : WorkerStatus} (h : worker.identifier ≠ i) :
    worker ∈ (s.readyWorker env i payload).workers ↔ worker ∈ s.workers := by
  rw [mem_workers_readyWorker]
  constructor
  · rintro (⟨status, -, rfl, rfl⟩ | ⟨hw, -⟩)
    · exact absurd rfl h
    · exact hw
  · exact fun hw => Or.inr ⟨hw, h⟩
theorem mem_workers_readyWorker_of_not_hasKey (h : ¬s.workers.HasKey i) {worker : WorkerStatus} :
    worker ∈ (s.readyWorker env i payload).workers ↔ worker ∈ s.workers := by
  rw [mem_workers_readyWorker]
  constructor
  · rintro (⟨status, hs, hi, -⟩ | ⟨hw, -⟩)
    · exact absurd ⟨status, hs, hi⟩ h
    · exact hw
  · exact fun hw => Or.inr ⟨hw, fun hi => h ⟨worker, hw, hi⟩⟩
theorem ready_of_mem_workers_readyWorker {worker : WorkerStatus}
    (hworker : worker ∈ (s.readyWorker env i payload).workers) (hi : worker.identifier = i) :
    worker.currentConnections = 0 ∧ worker.initialized = true ∧ worker.maxRooms = roomIdOf payload := by
  obtain ⟨status, -, -, rfl⟩ := (mem_workers_readyWorker.mp hworker).resolve_right fun ho => ho.2 hi
  exact ⟨rfl, rfl, rfl⟩
@[simp] theorem hasKey_readyWorker {other : Identifier} :
    (s.readyWorker env i payload).workers.HasKey other ↔ s.workers.HasKey other := by
  rw [readyWorker]
  dsimp only
  rw [Keyed.hasKey_modify, workers_resetWorker, Keyed.hasKey_modify]

@[simp] theorem tasks_rejectWorker : (s.rejectWorker env i).tasks =
    s.tasks.filter fun task => task.identifier ≠ i := by
  rw [rejectWorker, tasks_disconnectWorker, tasks_deleteWorker]
@[simp] theorem rooms_rejectWorker : (s.rejectWorker env i).rooms = s.rooms := by
  rw [rejectWorker, rooms_disconnectWorker, rooms_deleteWorker]
@[simp] theorem mem_workers_rejectWorker {worker : WorkerStatus} :
    worker ∈ (s.rejectWorker env i).workers ↔ worker ∈ s.workers ∧ worker.identifier ≠ i := by
  rw [rejectWorker, workers_disconnectWorker, mem_workers_deleteWorker]
@[simp] theorem not_hasKey_rejectWorker : ¬(s.rejectWorker env i).workers.HasKey i := by
  rintro ⟨worker, hworker, hi⟩
  exact (mem_workers_rejectWorker.mp hworker).2 hi
@[simp] theorem sockets_rejectWorker : (s.rejectWorker env i).manager.sockets =
    s.manager.sockets.erase i := by
  rw [rejectWorker, sockets_disconnectWorker, manager_deleteWorker]
@[simp] theorem trace_rejectWorker : (s.rejectWorker env i).trace =
    s.trace ++ ((if s.workers.HasKey i then [] else [.staleWorker i]) ++
      [.reset i, .deleted i, .disconnect i]) := by
  rw [rejectWorker, trace_disconnectWorker, trace_deleteWorker]
  simp

@[simp] theorem tasks_callDataHandler : (s.callDataHandler i r payload).tasks = s.tasks := rfl
@[simp] theorem rooms_callDataHandler : (s.callDataHandler i r payload).rooms = s.rooms := rfl
@[simp] theorem workers_callDataHandler : (s.callDataHandler i r payload).workers = s.workers := rfl
@[simp] theorem manager_callDataHandler : (s.callDataHandler i r payload).manager = s.manager := rfl

@[simp] theorem tasks_addSession : (s.addSession i).tasks = s.tasks := rfl
@[simp] theorem rooms_addSession : (s.addSession i).rooms = s.rooms := rfl
@[simp] theorem workers_addSession : (s.addSession i).workers = s.workers := rfl
@[simp] theorem trace_addSession : (s.addSession i).trace = s.trace := rfl
@[simp] theorem hasKey_addSession {other : Identifier} :
    (s.addSession i).manager.sockets.HasKey other ↔ s.manager.sockets.HasKey other ∨ other = i := by
  rw [addSession]
  exact Keyed.hasKey_insert

theorem mem_workers_touchWorker_of_ne {worker : WorkerStatus} (h : worker.identifier ≠ i) :
    worker ∈ (s.touchWorker env i).workers ↔ worker ∈ s.workers := by
  rw [workers_touchWorker]
  exact Keyed.mem_modify_of_ne h
theorem of_mem_workers_touchWorker {worker : WorkerStatus}
    (hworker : worker ∈ (s.touchWorker env i).workers) : ∃ old ∈ s.workers,
      old.identifier = worker.identifier ∧ old.initialized = worker.initialized := by
  rw [workers_touchWorker] at hworker
  rcases Keyed.mem_modify.mp hworker with ⟨old, hold, -, rfl⟩ | ⟨hold, -⟩
  · exact ⟨old, hold, rfl, rfl⟩
  · exact ⟨worker, hold, rfl, rfl⟩
@[simp] theorem hasKey_touchWorker {other : Identifier} :
    (s.touchWorker env i).workers.HasKey other ↔ s.workers.HasKey other := by
  rw [workers_touchWorker]
  exact Keyed.hasKey_modify

-- A worker that is known already starts again; its tasks go.
theorem handleNewWorker_of_hasKey (h : s.workers.HasKey i) : s.handleNewWorker env i =
    { (s.emit (.connected i)).resetWorker env i with
      workers := ((s.emit (.connected i)).resetWorker env i).workers.modify i fun worker =>
        { worker with lastReceived := env.now .newWorker } } := if_pos h

theorem handleNewWorker_of_not_hasKey (h : ¬s.workers.HasKey i) : s.handleNewWorker env i =
    { s.emit (.connected i) with
      workers := s.workers.insert { identifier := i, lastReceived := env.now .newWorker } } :=
  if_neg h

@[simp] theorem tasks_handleNewWorker : (s.handleNewWorker env i).tasks =
    if s.workers.HasKey i then s.tasks.filter fun task => task.identifier ≠ i else s.tasks := by
  by_cases h : s.workers.HasKey i
  · rw [handleNewWorker_of_hasKey h, if_pos h]
    simp
  · rw [handleNewWorker_of_not_hasKey h, if_neg h]
    simp
@[simp] theorem rooms_handleNewWorker : (s.handleNewWorker env i).rooms = s.rooms := by
  by_cases h : s.workers.HasKey i
  · rw [handleNewWorker_of_hasKey h]
    simp
  · rw [handleNewWorker_of_not_hasKey h]
    simp
@[simp] theorem manager_handleNewWorker : (s.handleNewWorker env i).manager = s.manager := by
  by_cases h : s.workers.HasKey i
  · rw [handleNewWorker_of_hasKey h]
    simp
  · rw [handleNewWorker_of_not_hasKey h]
    simp
@[simp] theorem trace_handleNewWorker : (s.handleNewWorker env i).trace =
    s.trace ++ .connected i :: if s.workers.HasKey i then [.reset i] else [] := by
  by_cases h : s.workers.HasKey i
  · rw [handleNewWorker_of_hasKey h]
    simp [h]
  · rw [handleNewWorker_of_not_hasKey h]
    simp [h]
@[simp] theorem hasKey_handleNewWorker {other : Identifier} :
    (s.handleNewWorker env i).workers.HasKey other ↔ s.workers.HasKey other ∨ other = i := by
  by_cases h : s.workers.HasKey i
  · rw [handleNewWorker_of_hasKey h]
    dsimp only
    rw [Keyed.hasKey_modify, workers_resetWorker, Keyed.hasKey_modify]
    exact ⟨Or.inl, fun ho => ho.elim id fun ho => ho ▸ h⟩
  · rw [handleNewWorker_of_not_hasKey h]
    exact Keyed.hasKey_insert

theorem mem_workers_handleNewWorker_of_ne {worker : WorkerStatus} (hne : worker.identifier ≠ i) :
    worker ∈ (s.handleNewWorker env i).workers ↔ worker ∈ s.workers := by
  by_cases h : s.workers.HasKey i
  · rw [handleNewWorker_of_hasKey h]
    dsimp only
    rw [Keyed.mem_modify_of_ne hne, workers_resetWorker, Keyed.mem_modify_of_ne hne, workers_emit]
  · rw [handleNewWorker_of_not_hasKey h]
    dsimp only
    rw [Keyed.mem_insert h]
    exact or_iff_left fun he => hne (congrArg WorkerStatus.identifier he)

-- Whether it was known or not, the worker starts with nothing.
theorem new_of_mem_workers_handleNewWorker {worker : WorkerStatus}
    (hworker : worker ∈ (s.handleNewWorker env i).workers) (hi : worker.identifier = i) :
    worker.currentConnections = 0 ∧ worker.initialized = false ∧ worker.maxRooms = -1 := by
  by_cases h : s.workers.HasKey i
  · rw [handleNewWorker_of_hasKey h] at hworker
    dsimp only at hworker
    obtain ⟨old, hold, hoi, rfl⟩ := (Keyed.mem_modify.mp hworker).resolve_right fun ho => ho.2 hi
    rw [workers_resetWorker] at hold
    obtain ⟨older, -, -, rfl⟩ := (Keyed.mem_modify.mp hold).resolve_right fun ho => ho.2 hoi
    exact ⟨rfl, rfl, rfl⟩
  · rw [handleNewWorker_of_not_hasKey h] at hworker
    dsimp only at hworker
    obtain hold | rfl := (Keyed.mem_insert h).mp hworker
    · exact absurd ⟨worker, hold, hi⟩ h
    · exact ⟨rfl, rfl, rfl⟩

@[simp] theorem tasks_updateRoomLists {rooms : List RoomId} :
    (s.updateRoomLists rooms).tasks = s.tasks := rfl
@[simp] theorem workers_updateRoomLists {rooms : List RoomId} :
    (s.updateRoomLists rooms).workers = s.workers := rfl
@[simp] theorem manager_updateRoomLists {rooms : List RoomId} :
    (s.updateRoomLists rooms).manager = s.manager := rfl
@[simp] theorem trace_updateRoomLists {rooms : List RoomId} :
    (s.updateRoomLists rooms).trace = s.trace := rfl

-- The rooms that were known lose their activity unless listed; the others are
-- new.
theorem mem_rooms_updateRoomLists {rooms : List RoomId} {room : RoomStatus} :
    room ∈ (s.updateRoomLists rooms).rooms ↔
      (∃ old ∈ s.rooms, (if old.roomId ∈ rooms then old else { old with active := false }) = room) ∨
        (¬s.rooms.HasKey room.roomId ∧ room.roomId ∈ rooms ∧ { roomId := room.roomId } = room) := by
  have hmark : (s.markRooms rooms).rooms.HasKey room.roomId ↔ s.rooms.HasKey room.roomId := by
    unfold markRooms
    dsimp only
    exact Keyed.hasKey_update
  have hmem : room ∈ (s.markRooms rooms).rooms ↔
      ∃ old ∈ s.rooms, (if old.roomId ∈ rooms then old else { old with active := false }) = room := by
    unfold markRooms
    dsimp only
    exact Keyed.mem_update
  rw [updateRoomLists]
  dsimp only
  rw [Keyed.mem_foldl_insert (fun _ => rfl), hmark, hmem]

-- The records of the branches, from the state before the handler.
theorem trace_unknown : (((s.emit (.received i payload s.authCode)).clearWorkerTasks
    i).disconnectWorker i).trace = s.trace ++ [.received i payload s.authCode, .disconnect i] := by
  simp
theorem trace_ready (hkey : s.workers.HasKey i) : (((s.emit (.received i payload s.authCode)).touchWorker
    env i).readyWorker env i payload).trace =
      s.trace ++ [.received i payload s.authCode, .reset i] := by
  simp [hkey]
theorem trace_reject (hkey : s.workers.HasKey i) :
    ((((s.emit (.received i payload s.authCode)).touchWorker env i).rejectWorker env i).readyWorker env i
      payload).trace = s.trace ++ [.received i payload s.authCode, .reset i, .deleted i, .disconnect i,
        .staleWorker i, .reset i] := by
  simp [hkey]
theorem trace_fail {descRank : Bool} : (((s.emit (.received i payload s.authCode)).touchWorker env
    i).deleteTask env i r descRank).trace = s.trace ++ [.received i payload s.authCode] := by
  simp
theorem trace_leave (hkey : s.workers.HasKey i) : ((s.clearWorkerTasks i).deleteWorker env i).trace =
    s.trace ++ [.reset i, .deleted i] := by
  simp [hkey]
theorem trace_expire (hkey : s.workers.HasKey i) : (s.deleteAndDisconnectWorker env i).trace =
    s.trace ++ [.reset i, .deleted i, .disconnect i] := by
  simp [deleteAndDisconnectWorker, hkey]

end Handlers

end LiveReceptor.Supervisor.Scheduler

import LiveReceptor.Supervisor.Consistency

namespace LiveReceptor.Supervisor.Scheduler

open SimpleWorkerProto

-- What an effect says about the limit that a worker has announced.
def announce (identifier : Identifier) (limit : Int32) : Effect → Int32
  | .connected other => if other = identifier then -1 else limit
  | .received other payload authCode =>
      if other = identifier ∧ isReady payload ∧ authenticated authCode payload then roomIdOf payload
      else limit
  | _ => limit

-- The limit in the last accepted WORKER_READY since the worker connected.
def announcedLimit (trace : List Effect) (identifier : Identifier) : Int32 :=
  trace.foldl (announce identifier) (-1)

-- Every worker has at most as many tasks as it takes rooms.
def WithinLimit (s : Scheduler) : Prop := ∀ worker ∈ s.workers,
  (s.tasks.count fun task => task.identifier = worker.identifier) ≤
    max 0 (announcedLimit s.trace worker.identifier).toInt

instance (s : Scheduler) : Decidable (WithinLimit s) :=
  inferInstanceAs (Decidable (∀ worker ∈ s.workers.entries, _))

-- The worker that is given the room has a place left for it.
def HasPlace : Guard := fun _ worker _ => worker.currentConnections < worker.maxRooms.toInt

instance (s : Scheduler) (worker : WorkerStatus) (room : RoomStatus) :
    Decidable (HasPlace s worker room) := inferInstanceAs (Decidable (_ < _))

variable {env : Env} {told : Option (List RoomId)} {guard : Guard} {stage : Stage} {s s' : Scheduler}

section Announced

theorem announcedLimit_append (trace effects : List Effect) (identifier : Identifier) :
    announcedLimit (trace ++ effects) identifier =
      effects.foldl (announce identifier) (announcedLimit trace identifier) := List.foldl_append

theorem announce_quiet {effect : Effect} (h : effect.Quiet) (identifier : Identifier) (limit : Int32) :
    announce identifier limit effect = limit := by
  cases effect <;> first | rfl | exact absurd h id

theorem announce_quiets {effects : List Effect} (h : ∀ effect ∈ effects, effect.Quiet)
    (identifier : Identifier) (limit : Int32) :
    effects.foldl (announce identifier) limit = limit := by
  induction effects generalizing limit with
  | nil => rfl
  | cons effect rest ih =>
      rw [List.foldl_cons, announce_quiet (h effect List.mem_cons_self)]
      exact ih (fun other ho => h other (List.mem_cons_of_mem _ ho)) limit

-- Each worker carries the limit it has announced.
def Announced (s : Scheduler) : Prop := ∀ worker ∈ s.workers,
  worker.maxRooms = announcedLimit s.trace worker.identifier

theorem Announced.quiet (h : Announced s) (hquiet : Quiet s s') : Announced s' := by
  obtain ⟨g, hg, hworkers, hworker⟩ := hquiet.workers
  obtain ⟨effects, htrace, hquiets⟩ := hquiet.trace
  intro other ho
  rw [hworkers] at ho
  obtain ⟨worker, hold, rfl⟩ := Keyed.mem_update.mp ho
  rw [(hworker worker).2.1, h worker hold, hg, htrace, announcedLimit_append,
    announce_quiets hquiets]

theorem Announced.deleteTask (h : Announced s) (i : Identifier) (r : RoomId) (descRank : Bool) :
    Announced (s.deleteTask env i r descRank) := by
  intro other ho
  obtain ⟨old, hold, hi, -, hmax, -⟩ := of_mem_workers_deleteTask ho
  rw [trace_deleteTask, ← hi, ← hmax]
  exact h old hold

-- A packet or the like, which announces nothing.
theorem Announced.of_trace (h : Announced s) (hworkers : s'.workers = s.workers)
    (htrace : ∀ worker ∈ s.workers, announcedLimit s'.trace worker.identifier =
      announcedLimit s.trace worker.identifier) : Announced s' := by
  intro worker hw
  rw [hworkers] at hw
  rw [htrace worker hw]
  exact h worker hw

theorem Announced.passMove (h : Announced s) (hmove : PassMove env guard stage s s') :
    Announced s' := by
  cases hmove with
  | quiet hquiet => exact h.quiet hquiet
  | drop descRank htask =>
      refine (h.of_trace workers_sendUnassign fun worker _ => ?_).deleteTask _ _ descRank
      rw [trace_sendUnassign, announcedLimit_append]
      split <;> rfl
  | expire hworker =>
      intro other ho
      rw [deleteAndDisconnectWorker, workers_disconnectWorker, mem_workers_deleteWorker] at ho
      rw [deleteAndDisconnectWorker, trace_disconnectWorker, trace_deleteWorker, h other ho.1,
        announcedLimit_append, announcedLimit_append]
      split <;> rfl
  | refresh =>
      intro other ho
      obtain ⟨worker, hold, rfl⟩ := mem_workers_refreshCounts.mp ho
      exact h worker hold
  | forget hempty => exact h
  | @assign _ worker room hworker hroom hlimit hnew hguard =>
      have htrace : ∀ identifier, announcedLimit (s.addTask env worker.identifier room.roomId).trace
          identifier = announcedLimit s.trace identifier := by
        intro identifier
        rw [trace_addTask, announcedLimit_append]
        split <;> rfl
      intro other ho
      rw [workers_addTask] at ho
      rw [htrace]
      rcases Keyed.mem_modify.mp ho with ⟨old, hold, -, rfl⟩ | ⟨hold, -⟩
      · exact h old hold
      · exact h other hold

theorem Announced.handlerMove (h : Announced s) (hmove : HandlerMove env told s s') : Announced s' := by
  cases hmove with
  | quiet hquiet htrace => exact h.quiet hquiet
  | accept identifier hfree =>
      intro worker hw
      rw [trace_handleNewWorker, announcedLimit_append]
      by_cases hi : worker.identifier = identifier
      · rw [(new_of_mem_workers_handleNewWorker hw hi).2.2]
        split <;> simp [announce, hi]
      · rw [mem_workers_handleNewWorker_of_ne hi] at hw
        rw [h worker hw]
        split <;> simp [announce, Ne.symm hi]
  | ignore identifier payload hready hfailed =>
      refine h.of_trace rfl fun worker _ => ?_
      simp [announcedLimit_append, announce, hready]
  | unknown identifier payload hkey =>
      intro worker hw
      have hold : worker ∈ s.workers := by simpa using hw
      have hne : identifier ≠ worker.identifier := fun hi => hkey ⟨worker, hold, hi.symm⟩
      rw [h worker hold]
      simp [announcedLimit_append, announce, hne]
  | ready identifier payload hkey hready hauth =>
      intro worker hw
      by_cases hi : worker.identifier = identifier
      · rw [(ready_of_mem_workers_readyWorker hw hi).2.2]
        simp [announcedLimit_append, announce, hi, hkey, hready, hauth]
      · rw [mem_workers_readyWorker_of_ne hi, mem_workers_touchWorker_of_ne hi, workers_emit] at hw
        rw [h worker hw]
        simp [announcedLimit_append, announce, Ne.symm hi, hkey]
  | reject identifier payload hkey hready =>
      intro worker hw
      rw [mem_workers_readyWorker_of_not_hasKey not_hasKey_rejectWorker, mem_workers_rejectWorker] at hw
      rw [mem_workers_touchWorker_of_ne hw.2] at hw
      rw [h worker hw.1]
      simp [announcedLimit_append, announce, Ne.symm hw.2, hkey]
  | fail identifier payload hkey hfailed =>
      have hemit : Announced (s.emit (.received identifier payload s.authCode)) :=
        h.of_trace rfl fun worker _ => by
          simp [announcedLimit_append, announce, not_isReady_of_isFailed hfailed]
      have htouched : Announced ((s.emit (.received identifier payload s.authCode)).touchWorker env
          identifier) := hemit.quiet (quiet_touchWorker identifier)
      exact htouched.deleteTask identifier (roomIdOf payload) true
  | forward identifier payload htask =>
      refine h.of_trace rfl fun worker _ => ?_
      rw [callDataHandler, trace_emit, announcedLimit_append]
      rfl
  | absent identifier hkey => exact h
  | leave identifier hkey =>
      intro worker hw
      rw [mem_workers_deleteWorker] at hw
      rw [h worker hw.1]
      simp [announcedLimit_append, announce, hkey]
  | list rooms htold => exact h

end Announced

section Bound

def Bounded (s : Scheduler) : Prop := ∀ worker ∈ s.workers,
  worker.currentConnections ≤ max 0 worker.maxRooms.toInt

theorem Bounded.quiet (h : Bounded s) (hquiet : Quiet s s') : Bounded s' := by
  obtain ⟨g, hg, hworkers, hworker⟩ := hquiet.workers
  intro other ho
  rw [hworkers] at ho
  obtain ⟨worker, hold, rfl⟩ := Keyed.mem_update.mp ho
  rw [(hworker worker).2.2, (hworker worker).2.1]
  exact h worker hold

theorem Bounded.deleteTask (h : Bounded s) (i : Identifier) (r : RoomId) (descRank : Bool) :
    Bounded (s.deleteTask env i r descRank) := by
  intro other ho
  obtain ⟨old, hold, -, -, hmax, hle⟩ := of_mem_workers_deleteTask ho
  rw [← hmax]
  exact hle.trans (h old hold)

theorem Bounded.of_workers (h : Bounded s) (hworkers : ∀ worker ∈ s'.workers,
    worker ∈ s.workers ∨ worker.currentConnections = 0) : Bounded s' := by
  intro worker hw
  rcases hworkers worker hw with hw | hzero
  · exact h worker hw
  · rw [hzero]
    exact le_max_left _ _

-- The step that needs the guard is the assignment: one more task for a worker
-- that still has a place.
theorem Bounded.passMove (hinv : Inv s) (h : Bounded s) (hmove : PassMove env HasPlace stage s s') :
    Bounded s' := by
  cases hmove with
  | quiet hquiet => exact h.quiet hquiet
  | drop descRank htask =>
      refine Bounded.deleteTask (h.of_workers fun worker hw => ?_) _ _ descRank
      exact Or.inl (by rwa [workers_sendUnassign] at hw)
  | expire hworker =>
      refine h.of_workers fun worker hw => Or.inl ?_
      rw [deleteAndDisconnectWorker, workers_disconnectWorker, mem_workers_deleteWorker] at hw
      exact hw.1
  | refresh =>
      intro other ho
      obtain ⟨worker, hold, rfl⟩ := mem_workers_refreshCounts.mp ho
      dsimp only
      rw [← hinv.workerCount worker hold]
      exact h worker hold
  | forget hempty => exact h
  | @assign _ worker room hworker hroom hlimit hnew hguard =>
      intro other ho
      rw [workers_addTask] at ho
      rcases Keyed.mem_modify.mp ho with ⟨old, hold, hi, rfl⟩ | ⟨hold, -⟩
      · obtain rfl := Keyed.eq_of_key_eq hold hworker hi
        have hplace : old.currentConnections < old.maxRooms.toInt := hguard
        dsimp only
        omega
      · exact h other hold

theorem Bounded.handlerMove (h : Bounded s) (hmove : HandlerMove env told s s') : Bounded s' := by
  cases hmove with
  | quiet hquiet htrace => exact h.quiet hquiet
  | accept identifier hfree =>
      refine h.of_workers fun worker hw => ?_
      by_cases hi : worker.identifier = identifier
      · exact Or.inr (new_of_mem_workers_handleNewWorker hw hi).1
      · rw [mem_workers_handleNewWorker_of_ne hi] at hw
        exact Or.inl hw
  | ignore identifier payload hready hfailed => exact h
  | unknown identifier payload hkey => exact h.of_workers fun worker hw => Or.inl (by simpa using hw)
  | ready identifier payload hkey hready hauth =>
      refine h.of_workers fun worker hw => ?_
      by_cases hi : worker.identifier = identifier
      · exact Or.inr (ready_of_mem_workers_readyWorker hw hi).1
      · rw [mem_workers_readyWorker_of_ne hi, mem_workers_touchWorker_of_ne hi] at hw
        exact Or.inl hw
  | reject identifier payload hkey hready =>
      refine h.of_workers fun worker hw => Or.inl ?_
      rw [mem_workers_readyWorker_of_not_hasKey not_hasKey_rejectWorker, mem_workers_rejectWorker] at hw
      exact (mem_workers_touchWorker_of_ne hw.2).mp hw.1
  | fail identifier payload hkey hfailed =>
      have hemit : Bounded (s.emit (.received identifier payload s.authCode)) := h
      have htouched : Bounded ((s.emit (.received identifier payload s.authCode)).touchWorker env
          identifier) := hemit.quiet (quiet_touchWorker identifier)
      exact htouched.deleteTask identifier (roomIdOf payload) true
  | forward identifier payload htask => exact h
  | absent identifier hkey => exact h
  | leave identifier hkey =>
      refine h.of_workers fun worker hw => Or.inl ?_
      rw [mem_workers_deleteWorker] at hw
      exact hw.1
  | list rooms htold => exact h

structure Limited (s : Scheduler) : Prop where
  inv : Inv s
  announced : Announced s
  bounded : Bounded s

theorem initial_limited (config : Config) : Limited (initial config) where
  inv := initial_inv config
  announced worker hw := absurd hw (Keyed.notMem_empty worker)
  bounded worker hw := absurd hw (Keyed.notMem_empty worker)

theorem Limited.withinLimit (h : Limited s) : WithinLimit s := by
  intro worker hw
  rw [← h.inv.workerCount worker hw, ← h.announced worker hw]
  exact h.bounded worker hw

theorem step_limited (input : Input) (s : Scheduler) (h : Limited s)
    (hguard : StepMeetsGuard HasPlace input s) : Limited (step input s) :=
  step_invariant
    (fun _ _ h hmove => ⟨h.inv.handlerMove hmove, h.announced.handlerMove hmove,
      h.bounded.handlerMove hmove⟩)
    (fun _ _ _ h hmove => ⟨h.inv.passMove hmove, h.announced.passMove hmove,
      Bounded.passMove h.inv h.bounded hmove⟩) h hguard

-- A worker never serves more rooms than it takes, in a run where no pass gives
-- a room to a worker that serves exactly that many already.
theorem run_withinLimit (config : Config) (inputs : List Input)
    (hguard : Runs.EveryStep step (StepMeetsGuard HasPlace) (initial config) inputs) :
    Runs.EveryState step WithinLimit (initial config) inputs :=
  Runs.everyState_of step_limited (fun _ => Limited.withinLimit) (initial_limited config) hguard

section Example

-- One worker connects, announces how many rooms it takes and waits for the
-- next tick.
def exampleRun (maxRooms : UInt8) (rooms : List RoomId) : List Input :=
  [{ env := .at 0, event := .accept .accepted [5] },
    { env := .at 0, event := .updateRoomLists rooms },
    { env := .at (seconds 10), event := .payload 5 (plainReady maxRooms) },
    { env := .at (seconds 20), event := .tick .expired }]

theorem run_withinLimit_three : Runs.EveryState step WithinLimit (initial plainConfig)
    (exampleRun 3 [1, 2, 3]) := run_withinLimit plainConfig (exampleRun 3 [1, 2, 3]) (by decide)

-- A worker that takes one room is given two of the three.
theorem run_withinLimit_refuted : ¬∀ config inputs,
    Runs.EveryState step WithinLimit (initial config) inputs := by
  intro h
  have hrun := h plainConfig (exampleRun 1 [1, 2, 3])
  revert hrun
  decide

end Example

end Bound

end LiveReceptor.Supervisor.Scheduler

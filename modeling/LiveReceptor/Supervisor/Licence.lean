import LiveReceptor.Library.Since
import LiveReceptor.Supervisor.Consistency

namespace LiveReceptor.Supervisor

open SimpleWorkerProto

-- The worker starts over: a new connection, or a WORKER_READY, accepted or not.
def Effect.Restarts (identifier : Identifier) : Effect → Prop
  | .connected other => other = identifier
  | .received other payload _ => other = identifier ∧ isReady payload
  | _ => False

-- The task is removed: unassigned, reported as failed, or gone with its worker.
def Effect.Ends (identifier : Identifier) (roomId : RoomId) : Effect → Prop
  | .unassign other room => other = identifier ∧ room = roomId
  | .received other payload _ => other = identifier ∧ isFailed payload ∧ roomIdOf payload = roomId
  | .reset other | .deleted other => other = identifier
  | _ => False

-- The worker that the effect is about.
def Effect.identifier? : Effect → Option Identifier
  | .connected identifier | .received identifier _ _ | .reset identifier | .deleted identifier
  | .disconnect identifier | .staleWorker identifier | .assign identifier _ | .unassign identifier _
  | .data identifier _ _ _ _ => some identifier
  | .checked _ | .diagnostics _ => none

-- The record ends in a WORKER_READY of the connected worker, with the auth code
-- that was loaded then.
def Authenticates (identifier : Identifier) (record : List Effect) : Prop :=
  ∃ before payload authCode, record = before ++ [.received identifier payload authCode] ∧
    .connected identifier ∈ before ∧ isReady payload ∧ authenticated authCode payload

def Ready (record : List Effect) (identifier : Identifier) : Prop :=
  Since (Authenticates identifier) (Effect.Restarts identifier) record

-- The record ends in an assignment of the room to a ready worker.
def Assigns (identifier : Identifier) (roomId : RoomId) (record : List Effect) : Prop :=
  ∃ before, record = before ++ [.assign identifier roomId] ∧ Ready before identifier

def Licensed (record : List Effect) (identifier : Identifier) (roomId : RoomId) : Prop :=
  Since (Assigns identifier roomId)
    (fun effect => effect.Restarts identifier ∨ effect.Ends identifier roomId) record

-- Data is published under a licence only.
def PublishesLicensed (record : List Effect) : Effect → Prop
  | .data identifier roomId _ _ _ => Licensed record identifier roomId
  | _ => True

namespace Scheduler

variable {env : Env} {told : Option (List RoomId)} {guard : Guard} {stage : Stage} {s s' : Scheduler}

structure LicenceInv (s : Scheduler) : Prop where
  inv : Inv s
  connected : ∀ identifier, s.workers.HasKey identifier → .connected identifier ∈ s.trace
  ready : ∀ worker ∈ s.workers, worker.initialized = true → Ready s.trace worker.identifier
  task : ∀ task ∈ s.tasks, Licensed s.trace task.identifier task.roomId
  data : Justified PublishesLicensed s.trace

theorem initial_licenceInv (config : Config) : LicenceInv (initial config) where
  inv := initial_inv config
  connected i h := absurd h (Keyed.not_hasKey_empty i)
  ready worker hw := absurd hw (Keyed.notMem_empty worker)
  task task ht := absurd ht (Keyed.notMem_empty task)
  data := .nil

theorem LicenceInv.licensed_of_hasKey (h : LicenceInv s) {i : Identifier} {r : RoomId}
    (hkey : s.tasks.HasKey (i, r)) : Licensed s.trace i r := by
  obtain ⟨task, ht, hk⟩ := hkey
  cases hk
  exact h.task task ht

-- What a move must say for the licences to survive it: the workers and the tasks
-- that stay are not touched by its effects.
theorem LicenceInv.extend (h : LicenceInv s) (hinv : Inv s') {effects : List Effect}
    (htrace : s'.trace = s.trace ++ effects)
    (hkeys : ∀ identifier, s'.workers.HasKey identifier →
      s.workers.HasKey identifier ∨ .connected identifier ∈ effects)
    (hworkers : ∀ worker ∈ s'.workers, worker.initialized = true →
      (∃ old ∈ s.workers, old.identifier = worker.identifier ∧ old.initialized = true ∧
        ∀ effect ∈ effects, ¬effect.Restarts worker.identifier) ∨ Ready s'.trace worker.identifier)
    (htasks : ∀ task ∈ s'.tasks,
      (s.tasks.HasKey task.key ∧ ∀ effect ∈ effects,
        ¬(effect.Restarts task.identifier ∨ effect.Ends task.identifier task.roomId)) ∨
      Licensed s'.trace task.identifier task.roomId)
    (hdata : Justified PublishesLicensed s'.trace) : LicenceInv s' where
  inv := hinv
  connected i hi := by
    rw [htrace, List.mem_append]
    exact (hkeys i hi).imp_left (h.connected i)
  ready worker hw hinit := by
    rcases hworkers worker hw hinit with ⟨old, hold, hi, hready, heffects⟩ | hready
    · rw [htrace]
      exact (hi ▸ h.ready old hold hready).append heffects
    · exact hready
  task task ht := by
    rcases htasks task ht with ⟨hkey, heffects⟩ | hlicensed
    · rw [htrace]
      exact (h.licensed_of_hasKey hkey).append heffects
    · exact hlicensed
  data := hdata

-- What is said about one worker does not touch the others.
theorem untouched {effect : Effect} {i j : Identifier} (h : effect.identifier? = some i) (hne : j ≠ i)
    (r : RoomId) : ¬(effect.Restarts j ∨ effect.Ends j r) := by
  have hi : ∀ k, effect.identifier? = some k → j ≠ k := fun k hk =>
    Option.some.inj (h.symm.trans hk) ▸ hne
  rintro (hrestarts | hends)
  · cases effect <;> simp_all [Effect.Restarts, Effect.identifier?]
  · cases effect <;> simp_all [Effect.Ends, Effect.identifier?]

-- The worker loses its tasks and all the effects are about it.
theorem LicenceInv.clear (h : LicenceInv s) (hinv : Inv s') (i : Identifier) {effects : List Effect}
    (htrace : s'.trace = s.trace ++ effects)
    (heffects : ∀ effect ∈ effects, effect.identifier? = some i ∧
      ∀ before, PublishesLicensed before effect)
    (htasks : s'.tasks = s.tasks.filter fun task => task.identifier ≠ i)
    (hothers : ∀ worker, worker.identifier ≠ i → (worker ∈ s'.workers ↔ worker ∈ s.workers))
    (hself : ∀ worker ∈ s'.workers, worker.identifier = i →
      (s.workers.HasKey i ∨ .connected i ∈ effects) ∧
        (worker.initialized = true → Ready s'.trace i)) : LicenceInv s' := by
  refine h.extend hinv htrace (fun j hj => ?_) (fun worker hw hinit => ?_) (fun task ht => Or.inl ?_) ?_
  · obtain ⟨worker, hw, rfl⟩ := hj
    by_cases hi : worker.identifier = i
    · exact hi ▸ (hself worker hw hi).1
    · exact Or.inl ⟨worker, (hothers worker hi).mp hw, rfl⟩
  · by_cases hi : worker.identifier = i
    · exact Or.inr (hi ▸ (hself worker hw hi).2 hinit)
    · refine Or.inl ⟨worker, (hothers worker hi).mp hw, rfl, hinit, fun effect he => ?_⟩
      exact fun hr => untouched (heffects effect he).1 hi 0 (Or.inl hr)
  · rw [htasks] at ht
    obtain ⟨hold, hne⟩ := Keyed.mem_filter.mp ht
    exact ⟨.of_mem hold, fun effect he =>
      untouched (heffects effect he).1 (of_decide_eq_true hne) task.roomId⟩
  · rw [htrace]
    exact h.data.append fun effect he => (heffects effect he).2

-- No task comes, no worker becomes ready, and the tasks that stay are not
-- touched by the effects.
theorem LicenceInv.shrink (h : LicenceInv s) (hinv : Inv s') {effects : List Effect}
    (htrace : s'.trace = s.trace ++ effects)
    (heffects : ∀ effect ∈ effects, (∀ i, ¬effect.Restarts i) ∧
      ∀ before, PublishesLicensed before effect)
    (hworkers : ∀ worker ∈ s'.workers, ∃ old ∈ s.workers, old.identifier = worker.identifier ∧
      old.initialized = worker.initialized)
    (htasks : ∀ task ∈ s'.tasks, s.tasks.HasKey task.key ∧
      ∀ effect ∈ effects, ¬effect.Ends task.identifier task.roomId) : LicenceInv s' := by
  refine h.extend hinv htrace (fun j hj => Or.inl ?_) (fun worker hw hinit => Or.inl ?_)
    (fun task ht => Or.inl ⟨(htasks task ht).1, fun effect he => ?_⟩) ?_
  · obtain ⟨worker, hw, rfl⟩ := hj
    obtain ⟨old, hold, hi, -⟩ := hworkers worker hw
    exact ⟨old, hold, hi⟩
  · obtain ⟨old, hold, hi, hready⟩ := hworkers worker hw
    exact ⟨old, hold, hi, hready.trans hinit, fun effect he => (heffects effect he).1 _⟩
  · exact not_or.mpr ⟨(heffects effect he).1 _, (htasks task ht).2 effect he⟩
  · rw [htrace]
    exact h.data.append fun effect he => (heffects effect he).2

theorem LicenceInv.quiet (h : LicenceInv s) (hquiet : Quiet s s') : LicenceInv s' := by
  obtain ⟨f, hf, htasks⟩ := hquiet.tasks
  obtain ⟨g, hg, hworkers, hworker⟩ := hquiet.workers
  obtain ⟨effects, htrace, hquiets⟩ := hquiet.trace
  refine h.shrink (h.inv.quiet hquiet) htrace (fun effect he => ?_) (fun worker hw => ?_)
    fun task ht => ⟨?_, fun effect he => ?_⟩
  · have heffect := hquiets effect he
    cases effect <;> simp_all [Effect.Quiet, Effect.Restarts, PublishesLicensed]
  · rw [hworkers] at hw
    obtain ⟨old, hold, rfl⟩ := Keyed.mem_update.mp hw
    exact ⟨old, hold, (hg old).symm, (hworker old).1.symm⟩
  · rw [htasks] at ht
    obtain ⟨old, hold, rfl⟩ := Keyed.mem_update.mp ht
    exact ⟨old, hold, (hf old).symm⟩
  · have heffect := hquiets effect he
    cases effect <;> simp_all [Effect.Quiet, Effect.Ends]

theorem LicenceInv.removeTask (h : LicenceInv s) (hinv : Inv s') {i : Identifier} {r : RoomId}
    {effects : List Effect} (htrace : s'.trace = s.trace ++ effects)
    (heffects : ∀ effect ∈ effects, (∀ j, ¬effect.Restarts j) ∧
      (∀ before, PublishesLicensed before effect) ∧ ∀ j q, effect.Ends j q → j = i ∧ q = r)
    (hworkers : ∀ worker ∈ s'.workers, ∃ old ∈ s.workers, old.identifier = worker.identifier ∧
      old.initialized = worker.initialized)
    (htasks : s'.tasks = s.tasks.erase (i, r)) : LicenceInv s' := by
  refine h.shrink hinv htrace (fun effect he => ⟨(heffects effect he).1, (heffects effect he).2.1⟩)
    hworkers fun task ht => ?_
  rw [htasks] at ht
  obtain ⟨hold, hne⟩ := Keyed.mem_erase.mp ht
  refine ⟨.of_mem hold, fun effect he hends => hne ?_⟩
  obtain ⟨hi, hr⟩ := (heffects effect he).2.2 _ _ hends
  exact Prod.ext hi hr

-- The room is assigned to a worker that takes rooms, and such a worker is ready.
theorem LicenceInv.addTask (h : LicenceInv s) {worker : WorkerStatus} {room : RoomStatus}
    (hworker : worker ∈ s.workers) (hroom : room ∈ s.rooms)
    (hlimit : worker.currentConnections ≤ worker.maxRooms.toInt)
    (hnew : ¬s.tasks.HasKey (worker.identifier, room.roomId)) :
    LicenceInv (s.addTask env worker.identifier room.roomId) := by
  have hsocket := h.inv.workerSocket worker hworker
  have htrace : (s.addTask env worker.identifier room.roomId).trace =
      s.trace ++ [.assign worker.identifier room.roomId] := by
    rw [trace_addTask, if_pos hsocket]
  have hready := h.ready worker hworker (h.inv.initialized_of_le hworker hlimit)
  refine h.extend (h.inv.addTask hworker hroom hlimit hnew) htrace (fun j hj => Or.inl ?_)
    (fun other ho hinit => Or.inl ?_) (fun task ht => ?_) ?_
  · rwa [workers_addTask, Keyed.hasKey_modify] at hj
  · rw [workers_addTask] at ho
    rcases Keyed.mem_modify.mp ho with ⟨old, hold, -, rfl⟩ | ⟨hold, -⟩
    · exact ⟨old, hold, rfl, hinit, by simp [Effect.Restarts]⟩
    · exact ⟨other, hold, rfl, hinit, by simp [Effect.Restarts]⟩
  · rw [tasks_addTask] at ht
    rcases (Keyed.mem_insert hnew).mp ht with hold | rfl
    · exact Or.inl ⟨.of_mem hold, by simp [Effect.Restarts, Effect.Ends]⟩
    · exact Or.inr (.of_start ⟨s.trace, htrace, hready⟩)
  · rw [htrace]
    exact h.data.append (by simp [PublishesLicensed])

theorem LicenceInv.passMove (h : LicenceInv s) (hmove : PassMove env guard stage s s') :
    LicenceInv s' := by
  have hinv := h.inv.passMove hmove
  cases hmove with
  | quiet hquiet => exact h.quiet hquiet
  | @drop _ _ task descRank htask =>
      refine h.removeTask hinv (by rw [trace_deleteTask, trace_sendUnassign]) (fun effect he => ?_)
        (fun worker hw => ?_) (by rw [tasks_deleteTask, tasks_sendUnassign])
      · have heffect : effect = .unassign task.identifier task.roomId := by
          split at he
          · exact List.mem_singleton.mp he
          · cases he
        subst heffect
        exact ⟨fun j => id, fun before => trivial, fun j q hends => ⟨hends.1.symm, hends.2.symm⟩⟩
      · obtain ⟨old, hold, hi, hinit, -⟩ := of_mem_workers_deleteTask hw
        exact ⟨old, by rwa [workers_sendUnassign] at hold, hi, hinit⟩
  | @expire _ worker hworker =>
      refine h.clear hinv worker.identifier (trace_expire (.of_mem hworker))
        (by simp [Effect.identifier?, PublishesLicensed]) (by simp [deleteAndDisconnectWorker])
        (fun other hne => ?_) fun other ho hi => ?_
      · simp [deleteAndDisconnectWorker, hne]
      · rw [deleteAndDisconnectWorker, workers_disconnectWorker, mem_workers_deleteWorker] at ho
        exact absurd hi ho.2
  | refresh =>
      refine h.shrink hinv (List.append_nil _).symm (by simp) (fun worker hw => ?_) fun task ht =>
        ⟨.of_mem ht, by simp⟩
      obtain ⟨old, hold, rfl⟩ := mem_workers_refreshCounts.mp hw
      exact ⟨old, hold, rfl, rfl⟩
  | forget hempty =>
      exact h.shrink hinv (List.append_nil _).symm (by simp) (fun worker hw => ⟨worker, hw, rfl, rfl⟩)
        fun task ht => ⟨.of_mem ht, by simp⟩
  | assign hworker hroom hlimit hnew hguard => exact h.addTask hworker hroom hlimit hnew

theorem LicenceInv.accept (h : LicenceInv s) (i : Identifier) :
    LicenceInv ((s.addSession i).handleNewWorker env i) := by
  refine h.clear (h.inv.accept i) i trace_handleNewWorker (fun effect he => ?_) ?_
    (fun worker hne => ?_) fun worker hw hi => ?_
  · rcases List.mem_cons.mp he with rfl | he
    · exact ⟨rfl, fun before => trivial⟩
    · split at he
      · obtain rfl := List.mem_singleton.mp he
        exact ⟨rfl, fun before => trivial⟩
      · cases he
  · rw [tasks_handleNewWorker, workers_addSession, tasks_addSession]
    split
    · rfl
    · rename_i hkey
      exact (h.inv.filter_eq_self hkey).symm
  · rw [mem_workers_handleNewWorker_of_ne hne, workers_addSession]
  · refine ⟨Or.inr List.mem_cons_self, fun hinit => ?_⟩
    rw [(new_of_mem_workers_handleNewWorker hw hi).2.1] at hinit
    cases hinit

theorem LicenceInv.handlerMove (h : LicenceInv s) (hmove : HandlerMove env told s s') :
    LicenceInv s' := by
  have hinv := h.inv.handlerMove hmove
  cases hmove with
  | quiet hquiet htrace => exact h.quiet hquiet
  | accept identifier hfree => exact h.accept identifier
  | ignore identifier payload hready hfailed =>
      refine h.shrink hinv (trace_emit) (fun effect he => ?_) (fun worker hw => ⟨worker, hw, rfl, rfl⟩)
        fun task ht => ⟨.of_mem ht, fun effect he => ?_⟩
      · obtain rfl := List.mem_singleton.mp he
        exact ⟨fun i hr => hready hr.2, fun before => trivial⟩
      · obtain rfl := List.mem_singleton.mp he
        exact fun hends => hfailed hends.2.1
  | unknown identifier payload hkey =>
      refine h.clear hinv identifier trace_unknown
        (by simp [Effect.identifier?, PublishesLicensed]) (by simp) (fun worker hne => by simp)
        fun worker hw hi => ?_
      rw [workers_disconnectWorker, workers_clearWorkerTasks, workers_emit] at hw
      exact absurd ⟨worker, hw, hi⟩ hkey
  | ready identifier payload hkey hready hauth =>
      refine h.clear hinv identifier (trace_ready hkey)
        (by simp [Effect.identifier?, PublishesLicensed]) (by simp) (fun worker hne => ?_)
        fun worker hw hi => ⟨Or.inl hkey, fun _ => ?_⟩
      · rw [mem_workers_readyWorker_of_ne hne, mem_workers_touchWorker_of_ne hne, workers_emit]
      · have hauthenticates : Authenticates identifier
            (s.trace ++ [.received identifier payload s.authCode]) :=
          ⟨s.trace, payload, s.authCode, rfl, h.connected identifier hkey, hready, hauth⟩
        rw [trace_ready hkey, List.append_cons]
        exact (Since.of_start hauthenticates).append (by simp [Effect.Restarts])
  | reject identifier payload hkey hready =>
      refine h.clear hinv identifier (trace_reject hkey)
        (by simp [Effect.identifier?, PublishesLicensed]) (by simp) (fun worker hne => ?_)
        fun worker hw hi => ?_
      · rw [mem_workers_readyWorker_of_ne hne, mem_workers_rejectWorker,
          mem_workers_touchWorker_of_ne hne, workers_emit]
        exact and_iff_left hne
      · exact absurd (hasKey_readyWorker.mp ⟨worker, hw, hi⟩) not_hasKey_rejectWorker
  | fail identifier payload hkey hfailed =>
      refine h.removeTask hinv trace_fail (fun effect he => ?_) (fun worker hw => ?_) (tasks_deleteTask)
      · obtain rfl := List.mem_singleton.mp he
        exact ⟨fun j hr => not_isReady_of_isFailed hfailed hr.2, fun before => trivial,
          fun j q hends => ⟨hends.1.symm, hends.2.2.symm⟩⟩
      · obtain ⟨touched, htouched, hi, hinit, -⟩ := of_mem_workers_deleteTask hw
        obtain ⟨old, hold, hoi, hoinit⟩ := of_mem_workers_touchWorker htouched
        exact ⟨old, hold, hoi.trans hi, hoinit.trans hinit⟩
  | forward identifier payload htask =>
      refine h.extend hinv rfl (fun j hj => Or.inl hj)
        (fun worker hw hinit => Or.inl ⟨worker, hw, rfl, hinit, by simp [Effect.Restarts]⟩)
        (fun task ht => Or.inl ⟨.of_mem ht, by simp [Effect.Restarts, Effect.Ends]⟩)
        (h.data.concat (h.licensed_of_hasKey htask))
  | absent identifier hkey =>
      exact h.clear hinv identifier (List.append_nil _).symm (by simp) rfl (fun worker hne => Iff.rfl)
        fun worker hw hi => absurd ⟨worker, hw, hi⟩ hkey
  | leave identifier hkey =>
      refine h.clear hinv identifier (trace_leave hkey)
        (by simp [Effect.identifier?, PublishesLicensed]) (by simp) (fun worker hne => by simp [hne])
        fun worker hw hi => ?_
      exact absurd hi (mem_workers_deleteWorker.mp hw).2
  | list rooms htold =>
      exact h.shrink hinv (List.append_nil _).symm (by simp) (fun worker hw => ⟨worker, hw, rfl, rfl⟩)
        fun task ht => ⟨.of_mem ht, by simp⟩

theorem step_licenceInv (input : Input) (s : Scheduler) (h : LicenceInv s) :
    LicenceInv (step input s) :=
  step_invariant (fun _ _ => LicenceInv.handlerMove) (fun _ _ _ => LicenceInv.passMove) h
    (stepMeetsGuard_true input s)

-- Whatever the payloads, data is published only for a task that an authenticated
-- worker was assigned and that has not been removed since.
theorem run_publishes_licensed (config : Config) (inputs : List Input) :
    Justified PublishesLicensed (run config inputs).trace :=
  (Runs.run_invariant step_licenceInv (initial_licenceInv config) inputs).data

end Scheduler

end LiveReceptor.Supervisor

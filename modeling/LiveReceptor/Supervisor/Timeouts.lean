import LiveReceptor.Library.Sweep
import LiveReceptor.Supervisor.Idle
import LiveReceptor.Supervisor.Levelling

namespace LiveReceptor.Supervisor

open RobinHood (slotAt ahead)

-- `_workers`, as it is laid out. The slots hold pointers to the workers.
abbrev WorkerTable := RobinHood.Table WorkerStatus.identifier

namespace Scheduler

def timeout (s : Scheduler) : Time := seconds s.config.worker.workerTimeoutSec

-- The loop over `_workers`, at a slot and with `left` slots before it.
def expireTable (env : Env) (threshold : Time) :
    Nat → Nat → WorkerTable → Scheduler → WorkerTable × Scheduler
  | 0, _, table, s => (table, s)
  | left + 1, idx, table, s =>
      match slotAt table.slots idx with
      | none => expireTable env threshold left (idx + 1) table s
      | some slot =>
          if env.now .interval - slot.value.lastReceived > threshold then
            expireTable env threshold left (idx + 1) (table.erase slot.value.identifier)
              (s.deleteAndDisconnectWorker env slot.value.identifier)
          else expireTable env threshold left (idx + 1) table s

def expiredTable (env : Env) (table : WorkerTable) (s : Scheduler) : WorkerTable × Scheduler :=
  expireTable env s.timeout table.slots.length 0 table
    { s with workers := table.content }

-- check_worker_task_interval, for workers in a given layout.
def checkTableInterval (env : Env) (table : WorkerTable) (s : Scheduler) : Scheduler :=
  let t := (s.expiredTable env table).2
  expireTasks env s.timeout (env.tasks.arrange t.tasks.entries) t

def WorkerLate (env : Env) (threshold : Time) (worker : WorkerStatus) : Prop :=
  env.now .interval - worker.lastReceived > threshold

def TaskLate (env : Env) (threshold : Time) (task : RoomTask) : Prop :=
  threshold ≤ env.now .interval - task.lastReceived

instance (env : Env) (threshold : Time) : DecidablePred (WorkerLate env threshold) :=
  fun _ => inferInstanceAs (Decidable (_ > _))

instance (env : Env) (threshold : Time) : DecidablePred (TaskLate env threshold) :=
  fun _ => inferInstanceAs (Decidable (_ ≤ _))

variable {env : Env} {threshold : Time} {s : Scheduler} {table : WorkerTable} {w i : Identifier} {r : RoomId}

section Refinement

theorem expireTable_of_none {left idx : Nat} (h : slotAt table.slots idx = none) :
    s.expireTable env threshold (left + 1) idx table = s.expireTable env threshold left (idx + 1) table := by
  rw [expireTable, h]

theorem expireTable_of_kept {left idx : Nat} {slot : RobinHood.Slot WorkerStatus}
    (h : slotAt table.slots idx = some slot) (hlate : ¬WorkerLate env threshold slot.value) :
    s.expireTable env threshold (left + 1) idx table = s.expireTable env threshold left (idx + 1) table := by
  rw [expireTable, h]
  exact if_neg hlate

theorem expireTable_of_late {left idx : Nat} {slot : RobinHood.Slot WorkerStatus}
    (h : slotAt table.slots idx = some slot) (hlate : WorkerLate env threshold slot.value) :
    s.expireTable env threshold (left + 1) idx table =
      (s.deleteAndDisconnectWorker env slot.value.identifier).expireTable env threshold left (idx + 1)
        (table.erase slot.value.identifier) := by
  rw [expireTable, h]
  exact if_pos hlate

theorem workers_deleteAndDisconnectWorker :
    (s.deleteAndDisconnectWorker env i).workers = s.workers.erase i := by
  have hreset : (s.deleteWorker env i).workers = (s.resetWorker env i).workers.erase i := rfl
  rw [deleteAndDisconnectWorker, workers_disconnectWorker, hreset, workers_resetWorker, Keyed.erase_modify]

-- The container goes with the table.
theorem content_expireTable {left idx : Nat} (h : s.workers = table.content) :
    (s.expireTable env threshold left idx table).2.workers =
      (s.expireTable env threshold left idx table).1.content := by
  induction left generalizing idx table s with
  | zero => exact h
  | succ left ih =>
      cases hslot : slotAt table.slots idx with
      | none =>
          rw [expireTable_of_none hslot]
          exact ih h
      | some slot =>
          by_cases hlate : WorkerLate env threshold slot.value
          · rw [expireTable_of_late hslot hlate]
            apply ih
            rw [workers_deleteAndDisconnectWorker, RobinHood.Table.content_erase, h]
          · rw [expireTable_of_kept hslot hlate]
            exact ih h

theorem expireWorkers_congr {shifted shifted' : Identifier → Bool} {workers : List WorkerStatus}
    {skip : Bool}
    (h : ∀ worker ∈ workers, shifted worker.identifier = shifted' worker.identifier) :
    s.expireWorkers { env with shiftedBack := shifted } threshold skip workers =
      s.expireWorkers { env with shiftedBack := shifted' } threshold skip workers := by
  induction workers generalizing skip s with
  | nil => cases skip <;> rfl
  | cons worker rest ih =>
      have hrest : ∀ other ∈ rest, shifted other.identifier = shifted' other.identifier :=
        fun other ho => h other (List.mem_cons_of_mem _ ho)
      cases skip with
      | true => exact ih hrest
      | false =>
          rw [expireWorkers, expireWorkers]
          dsimp only
          rw [h worker List.mem_cons_self]
          split
          · exact ih hrest
          · exact ih hrest

-- Going on with the next slot is stepping over the worker of this one, if it has one.
theorem expireWorkers_ahead (slots : RobinHood.Slots WorkerStatus) (idx : Nat) :
    s.expireWorkers env threshold (slotAt slots idx).isSome (ahead slots idx) =
      s.expireWorkers env threshold false (ahead slots (idx + 1)) := by
  cases hslot : slotAt slots idx with
  | none =>
      rw [RobinHood.ahead_of_none hslot]
      rfl
  | some slot =>
      rw [RobinHood.ahead_of_some hslot]
      rfl

-- The loop over the table is one over its workers that steps over some of them.
theorem expireTable_refines {left idx : Nat} (hleft : table.slots.length ≤ idx + left) :
    ∃ shifted, (s.expireTable env threshold left idx table).2 =
      s.expireWorkers { env with workers := default, shiftedBack := shifted } threshold false
        (ahead table.slots idx) := by
  induction left generalizing idx table s with
  | zero =>
      have hdone : table.slots.length ≤ idx := hleft
      rw [RobinHood.ahead_of_length_le hdone]
      exact ⟨env.shiftedBack, rfl⟩
  | succ left ih =>
      have hnext : table.slots.length ≤ (idx + 1) + left := by omega
      cases hslot : slotAt table.slots idx with
      | none =>
          rw [expireTable_of_none hslot, RobinHood.ahead_of_none hslot]
          exact ih hnext
      | some slot =>
          rw [RobinHood.ahead_of_some hslot]
          by_cases hlate : WorkerLate env threshold slot.value
          · have hlength : (table.erase slot.value.identifier).slots.length ≤ (idx + 1) + left := by
              rw [RobinHood.length_erase]
              exact hnext
            obtain ⟨shifted, hshifted⟩ := @ih (s.deleteAndDisconnectWorker env slot.value.identifier)
              (table.erase slot.value.identifier) (idx + 1) hlength
            have hahead := RobinHood.ahead_erase table hslot
            have hdue : env.now .interval - slot.value.lastReceived > threshold := hlate
            refine ⟨Function.update shifted slot.value.identifier
              (slotAt (table.erase slot.value.identifier).slots idx).isSome, ?_⟩
            rw [expireTable_of_late hslot hlate, hshifted, expireWorkers]
            dsimp only
            rw [if_pos hdue, Function.update_self, ← hahead]
            have hother : ∀ worker ∈ ahead (table.erase slot.value.identifier).slots idx,
                shifted worker.identifier = Function.update shifted slot.value.identifier
                  (slotAt (table.erase slot.value.identifier).slots idx).isSome worker.identifier := by
              intro worker hworker
              rw [hahead] at hworker
              exact (Function.update_of_ne (table.key_ne_of_mem_ahead hslot hworker) _ _).symm
            rw [← @expireWorkers_congr { env with workers := default } _ _ _ _ _ _ hother]
            exact (expireWorkers_ahead _ _).symm
          · obtain ⟨shifted, hshifted⟩ := @ih s table (idx + 1) hnext
            refine ⟨shifted, ?_⟩
            rw [expireTable_of_kept hslot hlate, hshifted, expireWorkers]
            exact (if_neg hlate).symm

theorem checkTableInterval_refines (env : Env) (table : WorkerTable) (s : Scheduler) :
    ∃ shifted, s.checkTableInterval env table =
      { s with workers := table.content }.checkWorkerTaskInterval
        { env with workers := default, shiftedBack := shifted } := by
  obtain ⟨shifted, hshifted⟩ := @expireTable_refines env s.timeout
    { s with workers := table.content } table table.slots.length 0 (by omega)
  refine ⟨shifted, ?_⟩
  rw [checkTableInterval, expiredTable, hshifted, checkWorkerTaskInterval, expireTasks_eq_foldl,
    expireTasks_eq_foldl]
  rfl

end Refinement

section Workers

-- The workers that the first loop takes away.
def expiredWorkers (env : Env) (table : WorkerTable) (s : Scheduler) : List WorkerStatus :=
  table.swept (WorkerLate env s.timeout) table.slots.length 0

theorem expireTable_eq {left idx : Nat} : (s.expireTable env threshold left idx table).2 =
    (table.swept (WorkerLate env threshold) left idx).foldl
      (fun s worker => s.deleteAndDisconnectWorker env worker.identifier) s := by
  induction left generalizing idx table s with
  | zero => rfl
  | succ left ih =>
      cases hslot : slotAt table.slots idx with
      | none => rw [expireTable_of_none hslot, RobinHood.Table.swept_of_none hslot, ih]
      | some slot =>
          by_cases hlate : WorkerLate env threshold slot.value
          · rw [expireTable_of_late hslot hlate, RobinHood.Table.swept_of_erased hslot hlate, ih]
            rfl
          · rw [expireTable_of_kept hslot hlate, RobinHood.Table.swept_of_kept hslot hlate, ih]

-- What is left when workers are taken away.
structure Without (gone : List WorkerStatus) (s s' : Scheduler) : Prop where
  workers : ∀ worker, worker ∈ s'.workers ↔
    worker ∈ s.workers ∧ ∀ other ∈ gone, worker.identifier ≠ other.identifier
  tasks : ∀ task, task ∈ s'.tasks ↔
    task ∈ s.tasks ∧ ∀ other ∈ gone, task.identifier ≠ other.identifier
  sockets : ∀ i, s'.manager.sockets.HasKey i ↔
    s.manager.sockets.HasKey i ∧ ∀ other ∈ gone, i ≠ other.identifier
  trace : ∃ effects, s'.trace = s.trace ++ effects ∧ ∀ i r, Effect.unassign i r ∉ effects

theorem without_deleteAll (gone : List WorkerStatus) (s : Scheduler) :
    Without gone s (gone.foldl
      (fun s worker => s.deleteAndDisconnectWorker env worker.identifier) s) := by
  induction gone generalizing s with
  | nil =>
      refine ⟨fun worker => ?_, fun task => ?_, fun i => ?_, [], (List.append_nil _).symm, fun i r => ?_⟩
      · exact (and_iff_left fun other ho => by cases ho).symm
      · exact (and_iff_left fun other ho => by cases ho).symm
      · exact (and_iff_left fun other ho => by cases ho).symm
      · exact List.not_mem_nil
  | cons first rest ih =>
      rw [List.foldl_cons]
      have hrest := ih (s.deleteAndDisconnectWorker env first.identifier)
      refine ⟨fun worker => ?_, fun task => ?_, fun i => ?_, ?_⟩
      · rw [hrest.workers, workers_deleteAndDisconnectWorker, Keyed.mem_erase, List.forall_mem_cons,
          and_assoc]
      · rw [hrest.tasks, deleteAndDisconnectWorker, tasks_disconnectWorker, tasks_deleteWorker,
          Keyed.mem_filter, List.forall_mem_cons, and_assoc, decide_eq_true_eq]
      · rw [hrest.sockets, deleteAndDisconnectWorker, sockets_disconnectWorker, manager_deleteWorker,
          Keyed.hasKey_erase, List.forall_mem_cons, and_assoc]
      · obtain ⟨effects, htrace, hnone⟩ := hrest.trace
        rw [deleteAndDisconnectWorker, trace_disconnectWorker, trace_deleteWorker, List.append_assoc,
          List.append_assoc] at htrace
        refine ⟨_, htrace, fun i r hunassign => ?_⟩
        rcases List.mem_append.mp hunassign with hfirst | hlater
        · split at hfirst <;> simp at hfirst
        · rcases List.mem_append.mp hlater with hdisconnect | hlater
          · simp at hdisconnect
          · exact hnone i r hlater

theorem without_expiredTable (env : Env) (table : WorkerTable) (s : Scheduler) :
    Without (s.expiredWorkers env table) { s with workers := table.content }
      (s.expiredTable env table).2 := by
  rw [expiredTable, expireTable_eq]
  exact without_deleteAll _ _

end Workers

section Tasks

variable {d : Bool} {tasks : List RoomTask} {time : Time}

theorem heardAt_deleteTask : HeardAt w time (s.deleteTask env i r d) ↔ HeardAt w time s := by
  refine ⟨?_, fun h => h.deleteTask i r d⟩
  rintro ⟨status, hstatus, hid, hlast⟩
  by_cases htask : s.tasks.HasKey (i, r)
  · rw [workers_deleteTask_of_hasKey htask] at hstatus
    rcases Keyed.mem_modify.mp hstatus with ⟨old, hold, -, rfl⟩ | ⟨hold, -⟩
    · exact ⟨old, hold, hid, hlast⟩
    · exact ⟨status, hold, hid, hlast⟩
  · rw [deleteTask_of_not_hasKey htask] at hstatus
    exact ⟨status, hstatus, hid, hlast⟩

theorem heardAt_sendUnassign : HeardAt w time (s.sendUnassign i r) ↔ HeardAt w time s := by
  rw [HeardAt, HeardAt, workers_sendUnassign]

theorem heardAt_drops : HeardAt w time (s.drops env d tasks) ↔ HeardAt w time s := by
  induction tasks generalizing s with
  | nil => exact Iff.rfl
  | cons task rest ih => rw [drops_cons, ih, heardAt_deleteTask, heardAt_sendUnassign]

theorem count_unassignOf (p : RoomTask → Bool) (hnodup : (tasks.map RoomTask.key).Nodup) {task : RoomTask}
    (htask : task ∈ tasks) :
    ((tasks.filter p).map unassignOf).count (unassignOf task) = if p task then 1 else 0 := by
  have hsent : ((tasks.filter p).map unassignOf).Nodup := by
    have hinj : Function.Injective fun key : Identifier × RoomId => Effect.unassign key.1 key.2 := by
      rintro ⟨i, r⟩ ⟨j, q⟩ hsame
      cases hsame
      rfl
    have hkeys : ((tasks.filter p).map RoomTask.key).Nodup :=
      hnodup.sublist (List.filter_sublist.map RoomTask.key)
    have heffects := hkeys.map hinj
    rwa [List.map_map] at heffects
  have hmem : unassignOf task ∈ (tasks.filter p).map unassignOf ↔ p task = true := by
    constructor
    · intro hsame
      obtain ⟨other, hother, heq⟩ := List.mem_map.mp hsame
      obtain ⟨hothers, hp⟩ := List.mem_filter.mp hother
      have hkey : other.key = task.key := by
        rw [unassignOf, unassignOf, Effect.unassign.injEq] at heq
        exact Prod.ext heq.1 heq.2
      rwa [← List.inj_on_of_nodup_map hnodup hothers htask hkey]
    · exact fun hp => List.mem_map_of_mem (List.mem_filter.mpr ⟨htask, hp⟩)
  rw [hsent.count]
  exact if_congr hmem rfl rfl

end Tasks

section Completeness

-- The tasks that the second loop unassigns.
def lateTasks (env : Env) (table : WorkerTable) (s : Scheduler) : List RoomTask :=
  (env.tasks.arrange (s.expiredTable env table).2.tasks.entries).filter
    (TaskLate env s.timeout)

theorem checkTableInterval_eq : s.checkTableInterval env table =
    (s.expiredTable env table).2.drops env true (s.lateTasks env table) := by
  rw [checkTableInterval, expireTasks_eq_foldl, lateTasks, drops]
  congr 1
  exact List.filter_congr fun task _ => decide_eq_decide.mpr not_lt

theorem mem_lateTasks {task : RoomTask} : task ∈ s.lateTasks env table ↔
    task ∈ (s.expiredTable env table).2.tasks ∧ TaskLate env s.timeout task := by
  rw [lateTasks, List.mem_filter, env.tasks.mem_arrange, decide_eq_true_eq]
  rfl

theorem nodup_lateTasks : ((s.lateTasks env table).map RoomTask.key).Nodup := by
  apply List.Nodup.sublist (List.filter_sublist.map _)
  exact ((env.tasks.perm _).map _).nodup_iff.mpr (Keyed.nodup _)

theorem mem_tasks_checkTableInterval {task : RoomTask} : task ∈ (s.checkTableInterval env table).tasks ↔
    task ∈ (s.expiredTable env table).2.tasks ∧
      ¬TaskLate env s.timeout task := by
  rw [checkTableInterval_eq]
  refine (mem_tasks_foldl_drop true _ _).trans (and_congr_right fun htask => ?_)
  constructor
  · exact fun hothers hlate => hothers task (mem_lateTasks.mpr ⟨htask, hlate⟩) rfl
  · intro hlate other hother hkey
    obtain ⟨hmem, hdue⟩ := mem_lateTasks.mp hother
    exact hlate (Keyed.eq_of_key_eq htask hmem hkey ▸ hdue)

theorem heardAt_checkTableInterval {time : Time} : HeardAt w time (s.checkTableInterval env table) ↔
    HeardAt w time (s.expiredTable env table).2 := by
  rw [checkTableInterval_eq, heardAt_drops]

-- All who have timed out are gone afterwards, all others are left as they were, and
-- each task that has timed out is given back once.
structure Complete (env : Env) (table : WorkerTable) (s : Scheduler) : Prop where
  noWorkerLeft : ∀ worker ∈ (s.checkTableInterval env table).workers,
    ¬WorkerLate env s.timeout worker
  noTaskLeft : ∀ task ∈ (s.checkTableInterval env table).tasks,
    ¬TaskLate env s.timeout task
  workersKept : ∀ worker ∈ table.content, ¬WorkerLate env s.timeout worker →
    HeardAt worker.identifier worker.lastReceived (s.checkTableInterval env table)
  tasksKept : ∀ task ∈ s.tasks, ¬TaskLate env s.timeout task →
    (s.checkTableInterval env table).workers.HasKey task.identifier →
      task ∈ (s.checkTableInterval env table).tasks
  unassigned : ∀ task ∈ s.tasks, TaskLate env s.timeout task →
    (s.checkTableInterval env table).workers.HasKey task.identifier →
      ((s.checkTableInterval env table).trace.drop s.trace.length).count
        (.unassign task.identifier task.roomId) = 1

-- The workers that stay and have tasks that time out have their connections.
def HaveConnections (env : Env) (table : WorkerTable) (s : Scheduler) : Prop :=
  ∀ task ∈ s.tasks, TaskLate env s.timeout task →
    ∀ worker ∈ table.content, worker.identifier = task.identifier →
      ¬WorkerLate env s.timeout worker →
        s.manager.sockets.HasKey task.identifier

-- A worker of the table is left unless it is among those taken away.
theorem heardAt_of_notMem {worker : WorkerStatus} (hworker : worker ∈ table.content)
    (hstays : worker ∉ s.expiredWorkers env table) :
    HeardAt worker.identifier worker.lastReceived (s.checkTableInterval env table) := by
  rw [heardAt_checkTableInterval]
  have hleft := (without_expiredTable env table s).workers worker
  refine ⟨worker, hleft.mpr ⟨hworker, fun other hother hid => ?_⟩, rfl, rfl⟩
  have hsame : worker = other := Keyed.eq_of_key_eq hworker (RobinHood.Table.of_mem_swept hother).1 hid
  exact hstays (hsame ▸ hother)

-- What is left of the workers comes from the table, and no worker taken away is.
theorem exists_of_mem_checkTableInterval {worker : WorkerStatus}
    (h : worker ∈ (s.checkTableInterval env table).workers) : ∃ old ∈ table.content,
      old.identifier = worker.identifier ∧ old.lastReceived = worker.lastReceived ∧
        ∀ other ∈ s.expiredWorkers env table, worker.identifier ≠ other.identifier := by
  have hheard : HeardAt worker.identifier worker.lastReceived (s.checkTableInterval env table) :=
    ⟨worker, h, rfl, rfl⟩
  rw [heardAt_checkTableInterval] at hheard
  obtain ⟨old, hold, hid, hlast⟩ := hheard
  obtain ⟨hmem, hothers⟩ := ((without_expiredTable env table s).workers old).mp hold
  exact ⟨old, hmem, hid, hlast, hid ▸ hothers⟩

theorem count_unassign_checkTableInterval {task : RoomTask} (htask : task ∈ s.tasks)
    (hlate : TaskLate env s.timeout task)
    (hothers : ∀ other ∈ s.expiredWorkers env table, task.identifier ≠ other.identifier) :
    ((s.checkTableInterval env table).trace.drop s.trace.length).count
      (.unassign task.identifier task.roomId) = if s.manager.sockets.HasKey task.identifier then 1 else 0 := by
  have hwithout := without_expiredTable env table s
  obtain ⟨effects, htrace, hnone⟩ := hwithout.trace
  have hmem : task ∈ s.lateTasks env table :=
    mem_lateTasks.mpr ⟨(hwithout.tasks task).mpr ⟨htask, hothers⟩, hlate⟩
  have hsocket : (s.expiredTable env table).2.manager.sockets.HasKey task.identifier ↔
      s.manager.sockets.HasKey task.identifier :=
    (hwithout.sockets task.identifier).trans (and_iff_left hothers)
  have hsent := count_unassignOf
    (fun task => (s.expiredTable env table).2.manager.sockets.HasKey task.identifier) nodup_lateTasks hmem
  rw [unassignOf] at hsent
  rw [checkTableInterval_eq, trace_drops, htrace, List.append_assoc]
  dsimp only
  rw [List.drop_left, List.count_append, List.count_eq_zero_of_not_mem (hnone _ _), Nat.zero_add, hsent]
  exact if_congr (by rw [decide_eq_true_eq, hsocket]) rfl rfl

-- The first loop gets every worker that has timed out exactly when it steps over
-- none of them.
theorem expiresAll_iff : (∀ worker ∈ table.content, WorkerLate env s.timeout worker →
    worker ∈ s.expiredWorkers env table) ↔
      table.NoneMovedBack (WorkerLate env s.timeout) table.slots.length 0 := by
  have hall : (∀ worker ∈ ahead table.slots 0, WorkerLate env s.timeout worker →
      worker ∈ s.expiredWorkers env table) ↔ _ := RobinHood.Table.sweeps_all_iff (by omega)
  exact hall

theorem Complete.expiresAll (h : Complete env table s) : ∀ worker ∈ table.content,
    WorkerLate env s.timeout worker → worker ∈ s.expiredWorkers env table := by
  intro worker hworker hlate
  by_contra hleft
  obtain ⟨status, hstatus, -, hlast⟩ := heardAt_of_notMem hworker hleft
  apply h.noWorkerLeft status hstatus
  rw [WorkerLate, hlast]
  exact hlate

theorem Complete.haveConnections (h : Complete env table s) : HaveConnections env table s := by
  intro task htask hlate worker hworker hid hstays
  have hkey := (h.workersKept worker hworker hstays).hasKey
  rw [hid] at hkey
  have hone := h.unassigned task htask hlate hkey
  obtain ⟨left, hleft, hleftId⟩ := hkey
  obtain ⟨-, -, -, -, hothers⟩ := exists_of_mem_checkTableInterval hleft
  rw [count_unassign_checkTableInterval htask hlate (hleftId ▸ hothers)] at hone
  by_contra hsocket
  rw [if_neg hsocket] at hone
  exact absurd hone (by decide)

theorem complete_of_expiresAll (hall : ∀ worker ∈ table.content, WorkerLate env s.timeout worker →
    worker ∈ s.expiredWorkers env table) (hconnected : HaveConnections env table s) :
    Complete env table s := by
  refine ⟨fun worker hworker hlate => ?_, fun task htask => (mem_tasks_checkTableInterval.mp htask).2,
    fun worker hworker hstays => ?_, fun task htask hstays hkey => ?_, fun task htask hlate hkey => ?_⟩
  · obtain ⟨old, hold, hid, hlast, hothers⟩ := exists_of_mem_checkTableInterval hworker
    have hdue : WorkerLate env s.timeout old := by
      rw [WorkerLate, hlast]
      exact hlate
    exact hothers old (hall old hold hdue) hid.symm
  · exact heardAt_of_notMem hworker fun hgone => hstays (RobinHood.Table.of_mem_swept hgone).2
  · obtain ⟨worker, hworker, hid⟩ := hkey
    obtain ⟨-, -, -, -, hothers⟩ := exists_of_mem_checkTableInterval hworker
    have hleft := (without_expiredTable env table s).tasks task
    exact mem_tasks_checkTableInterval.mpr ⟨hleft.mpr ⟨htask, hid ▸ hothers⟩, hstays⟩
  · obtain ⟨worker, hworker, hid⟩ := hkey
    obtain ⟨old, hold, hsame, -, hothers⟩ := exists_of_mem_checkTableInterval hworker
    have hstays : ¬WorkerLate env s.timeout old :=
      fun hdue => hothers old (hall old hold hdue) hsame.symm
    rw [count_unassign_checkTableInterval htask hlate (hid ▸ hothers),
      if_pos (hconnected task htask hlate old hold (hsame.trans hid) hstays)]

theorem checkTableInterval_complete_iff (env : Env) (table : WorkerTable) (s : Scheduler) :
    Complete env table s ↔
      table.NoneMovedBack (WorkerLate env s.timeout) table.slots.length 0 ∧
        HaveConnections env table s := by
  rw [← expiresAll_iff]
  constructor
  · exact fun h => ⟨h.expiresAll, h.haveConnections⟩
  · rintro ⟨hall, hconnected⟩
    exact complete_of_expiresAll hall hconnected

section Colliding

-- hash_int: the two halves of the product, added.
def hashInt (obj : UInt64) : UInt64 :=
  let product := obj.toNat * 0xde5fb9d2630458e9
  .ofNat (product >>> 64) + .ofNat product

-- keyToIdx of a table that has not grown: eight slots for the hash to choose
-- from, and five of its bits in the info byte.
def keyToIdx (identifier : Identifier) : Nat × Nat :=
  ((hashInt identifier &&& 7).toNat, 32 + (hashInt identifier >>> 59).toNat)

theorem keyToIdx_bytes (identifier : Identifier) :
    32 ≤ (keyToIdx identifier).2 ∧ (keyToIdx identifier).2 < 2 * 32 := by
  have hbits : (hashInt identifier >>> 59).toNat < 32 := by
    have hlt := (hashInt identifier).toNat_lt
    have hshift : (hashInt identifier >>> 59).toNat = (hashInt identifier).toNat / 576460752303423488 := by
      rw [UInt64.toNat_shiftRight]
      exact Nat.shiftRight_eq_div_pow _ _
    omega
  show 32 ≤ 32 + (hashInt identifier >>> 59).toNat ∧ 32 + (hashInt identifier >>> 59).toNat < 2 * 32
  omega

-- 1 and 5 belong into the same slot, so 5 is in the one behind it.
def collidingSlots : RobinHood.Slots WorkerStatus :=
  [none, some ⟨59, { identifier := 1, lastReceived := 0 }⟩,
    some ⟨74, { identifier := 5, lastReceived := 0 }⟩] ++ List.replicate 11 none

def collidingTable : WorkerTable where
  infoInc := 32
  keyToIdx := keyToIdx
  bytes := keyToIdx_bytes
  slots := collidingSlots
  reachable idx slot hslot := by
    have hlt : idx < 14 := RobinHood.slotAt_lt hslot
    have hall : ∀ idx < 14, ∀ slot ∈ slotAt collidingSlots idx,
        (keyToIdx slot.value.identifier).1 ≤ idx ∧
        slot.info = (keyToIdx slot.value.identifier).2 + (idx - (keyToIdx slot.value.identifier).1) * 32 ∧
        ∀ j < idx + 1, (keyToIdx slot.value.identifier).1 ≤ j →
          (keyToIdx slot.value.identifier).2 + (j - (keyToIdx slot.value.identifier).1) * 32 ≤
            RobinHood.infoAt collidingSlots j := by decide
    obtain ⟨hstart, hinfo, hprobed⟩ := hall idx hlt slot hslot
    exact ⟨hstart, hinfo, fun j hj hhome => hprobed j (Nat.lt_succ_of_le hj) hhome⟩
  nodup := by decide

-- Both have timed out, but 5 moves into the slot of 1 and is not looked at.
theorem checkTableInterval_refuted : ¬∀ env table s, Complete env table s := by
  intro h
  have hleft := (h (.at (seconds 41)) collidingTable
    { config := plainConfig, authCode := [] }).noWorkerLeft
  exact absurd hleft (by decide)

end Colliding

end Completeness

end Scheduler

end LiveReceptor.Supervisor

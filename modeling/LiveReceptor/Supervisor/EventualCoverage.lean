import LiveReceptor.Supervisor.Coverage
import Mathlib.Algebra.Order.BigOperators.Group.List
import Mathlib.Algebra.Order.Group.Nat
import Mathlib.Data.List.ProdSigma

-- That the passes come to an end of giving out the rooms: with places enough, every
-- active room has a worker in the end.
namespace LiveReceptor.Supervisor

open SimpleWorkerProto

def Input.ticks (input : Input) : Bool :=
  match input.event with
  | .tick _ => true
  | _ => false

namespace Scheduler

-- What the workers take together, by their own account.
def capacity (s : Scheduler) : Nat := (s.workers.entries.map fun worker => worker.maxRooms.toInt.toNat).sum

def activeRooms (s : Scheduler) : List RoomId := (s.rooms.entries.filter RoomStatus.active).map RoomStatus.roomId

def limits (s : Scheduler) : List (Identifier × Int32) :=
  s.workers.entries.map fun worker => (worker.identifier, worker.maxRooms)

variable {env : Env} {s s' t start : Scheduler} {r q : RoomId} {v w : Identifier} {pass pass' : AssignPass}
  {maxTasks currentMin : Int} {rooms : List RoomId}

section Count

-- Each element is counted at its own key, if that is one of the keys at all.
theorem sum_countP_le {α κ : Type*} [DecidableEq κ] (key : α → κ) {keys : List κ} (hkeys : keys.Nodup)
    (l : List α) : (keys.map fun k => l.countP fun a => key a = k).sum ≤ l.length := by
  induction l with
  | nil => simp
  | cons a rest ih =>
      have hone : (keys.map fun k => if decide (key a = k) = true then 1 else 0).sum ≤ 1 := by
        rw [List.sum_map_eq_nsmul_single (key a) _ fun k hk _ => by simp [Ne.symm hk]]
        simpa using List.nodup_iff_count_le_one.mp hkeys (key a)
      simp only [List.countP_cons, List.sum_map_add, List.length_cons]
      exact Nat.add_le_add ih hone

theorem mem_activeRooms : r ∈ s.activeRooms ↔ InRoster s r true := by
  simp only [activeRooms, List.mem_map, List.mem_filter]
  exact exists_active_iff

theorem nodup_activeRooms : s.activeRooms.Nodup := s.rooms.nodup.sublist (List.filter_sublist.map _)

theorem length_tasks_le (h : ∀ w r, s'.Serves w r → s.Serves w r) :
    s'.tasks.entries.length ≤ s.tasks.entries.length := by
  rw [← List.length_map (f := RoomTask.key), ← List.length_map (f := RoomTask.key)]
  refine (List.subperm_of_subset s'.tasks.nodup fun key hk => ?_).length_le
  exact Keyed.hasKey_iff_mem.mp (h key.1 key.2 (Keyed.hasKey_iff_mem.mpr hk))

theorem length_tasks_lt (h : ∀ w r, s'.Serves w r → s.Serves w r) (hw : s.Serves w r)
    (hw' : ¬s'.Serves w r) : s'.tasks.entries.length < s.tasks.entries.length := by
  rw [← List.length_map (f := RoomTask.key), ← List.length_map (f := RoomTask.key)]
  have hnodup : ((w, r) :: s'.tasks.entries.map RoomTask.key).Nodup :=
    List.nodup_cons.mpr ⟨mt Keyed.hasKey_iff_mem.mpr hw', s'.tasks.nodup⟩
  refine (List.subperm_of_subset hnodup fun key hk => ?_).length_le
  rcases List.mem_cons.mp hk with rfl | hk
  · exact Keyed.hasKey_iff_mem.mp hw
  · exact Keyed.hasKey_iff_mem.mp (h key.1 key.2 (Keyed.hasKey_iff_mem.mpr hk))

-- There is a task at most for each worker and each room.
theorem length_tasks_le_mul (hinv : Inv s) {workers : List Identifier}
    (hworkers : ∀ worker ∈ s.workers, worker.identifier ∈ workers) (hrooms : ∀ r, s.rooms.HasKey r → r ∈ rooms) :
    s.tasks.entries.length ≤ workers.length * rooms.length := by
  rw [← List.length_map (f := RoomTask.key), ← List.length_product]
  refine (List.subperm_of_subset s.tasks.nodup fun key hk => ?_).length_le
  obtain ⟨task, ht, rfl⟩ := List.mem_map.mp hk
  obtain ⟨worker, hworker, hid, -⟩ := hinv.taskWorker task ht
  exact List.mem_product.mpr ⟨hid ▸ hworkers worker hworker, hrooms _ (hinv.taskRoom task ht)⟩

-- Full workers have a task for every place.
theorem capacity_le (hbalanced : ∀ worker ∈ s.workers, worker.currentConnections =
      s.tasks.count fun task => task.identifier = worker.identifier)
    (hfull : ∀ worker ∈ s.workers, worker.maxRooms.toInt ≤ worker.currentConnections) :
    s.capacity ≤ s.tasks.entries.length := by
  refine le_trans ?_ (sum_countP_le RoomTask.identifier s.workers.nodup s.tasks.entries)
  rw [List.map_map]
  refine List.sum_le_sum fun worker hworker => ?_
  have hcount := hbalanced worker hworker
  have hmax := hfull worker hworker
  rw [Keyed.count] at hcount
  simp only [Function.comp_apply]
  omega

-- Where nothing is served twice and an active room not at all, the tasks are fewer
-- than the active rooms.
theorem length_tasks_lt_activeRooms (hactive : ∀ task ∈ s.tasks, InRoster s task.roomId true)
    (hfew : ∀ r, InRoster s r true → s.load r ≤ 1) (hr : InRoster s r true) (hnone : s.load r = 0) :
    s.tasks.entries.length < s.activeRooms.length := by
  have hcount : ∀ q, (s.tasks.entries.map RoomTask.roomId).count q = s.load q := by
    intro q
    rw [List.count, List.countP_map, load, Keyed.count]
    exact List.countP_congr fun task _ => by simp
  have hnotin : r ∉ s.tasks.entries.map RoomTask.roomId := by
    rw [← List.count_eq_zero, hcount, hnone]
  have hnodup : (s.tasks.entries.map RoomTask.roomId).Nodup := by
    refine List.nodup_iff_count_le_one.mpr fun q => ?_
    by_cases hq : q ∈ s.tasks.entries.map RoomTask.roomId
    · obtain ⟨task, ht, rfl⟩ := List.mem_map.mp hq
      exact hcount task.roomId ▸ hfew _ (hactive task ht)
    · rw [List.count_eq_zero.mpr hq]
      exact Nat.zero_le _
  rw [← List.length_map (f := RoomTask.roomId)]
  refine (List.subperm_of_subset (List.nodup_cons.mpr ⟨hnotin, hnodup⟩) fun q hq => ?_).length_le
  rcases List.mem_cons.mp hq with rfl | hq
  · exact mem_activeRooms.mpr hr
  · obtain ⟨task, ht, rfl⟩ := List.mem_map.mp hq
    exact mem_activeRooms.mpr (hactive task ht)

end Count

section Full

-- Without a worker to give rooms to, the turn of a room takes tasks at most.
theorem processRoom_of_nil (hnil : pass.workersAvailable = []) {room : RoomStatus}
    (hroom : room ∈ pass.state.rooms) : pass.processRoom env maxTasks currentMin room.roomId =
      pass.rebalance env maxTasks currentMin room := by
  have hoffered : pass.offered env room.roomId = pass := by
    rw [AssignPass.offered, hnil, offerRoom]
    exact hnil ▸ rfl
  rw [processRoom_of_mem hroom, hoffered, hnil]
  simp [offerRoom]

theorem processRoom_nil (hnil : pass.workersAvailable = []) (r : RoomId) :
    (pass.processRoom env maxTasks currentMin r).workersAvailable = [] :=
  List.subset_nil.mp (hnil ▸ workersAvailable_processRoom_subset)

theorem serves_of_processRoom (hnil : pass.workersAvailable = [])
    (h : (pass.processRoom env maxTasks currentMin q).state.Serves w r) : pass.state.Serves w r := by
  have hturn : Turn env q pass (pass.processRoom env maxTasks currentMin q) := turn_processRoom q
  cases hturn with
  | given worker hworker => exact absurd (hnil ▸ hworker) List.not_mem_nil
  | taken tasks hroom hstate =>
      rw [hstate] at h
      exact (serves_drops.mp h).1

theorem serves_of_foldl_processRoom (hnil : pass.workersAvailable = [])
    (h : (rooms.foldl (AssignPass.processRoom env maxTasks currentMin) pass).state.Serves w r) :
    pass.state.Serves w r := by
  induction rooms generalizing pass with
  | nil => exact h
  | cons q rest ih => exact serves_of_processRoom hnil (ih (processRoom_nil hnil q) h)

-- The first of the tasks goes.
theorem serves_unassignOverkill {task : RoomTask} {rest : List RoomTask} {surplus throttling : Int}
    (hsurplus : 0 < surplus) (hthrottling : 0 < throttling) :
    ¬(unassignOverkill env (task :: rest) surplus throttling s).2.Serves task.identifier task.roomId := by
  rw [unassignOverkill, if_pos ⟨hsurplus, hthrottling⟩]
  obtain ⟨dropped, -, -, heq⟩ := @unassignOverkill_eq env ((s.sendUnassign task.identifier
    task.roomId).deleteTask env task.identifier task.roomId false) rest (surplus - 1) (throttling - 1)
  rw [heq]
  intro h
  have hgone := (serves_drops.mp h).1
  rw [Serves, tasks_deleteTask, Keyed.hasKey_erase] at hgone
  exact hgone.2 rfl

-- A room with two tasks, next to one without any, has one too many.
theorem exists_unassigned {room : RoomStatus} (hcount : room.currentConnections = pass.state.load room.roomId)
    (hmany : 2 ≤ pass.state.load room.roomId) (hmin : currentMin ≤ 0)
    (hthrottling : 0 < pass.roomDisconnectThrottling) : ∃ w, pass.state.Serves w room.roomId ∧
      ¬(pass.rebalance env maxTasks currentMin room).state.Serves w room.roomId := by
  have hsurplus : 0 < overkill maxTasks currentMin room := by
    rw [overkill]
    exact lt_of_lt_of_le (by omega) (le_max_right _ _)
  rw [AssignPass.rebalance, if_pos ⟨hsurplus, hthrottling⟩]
  have hmem : ∀ task, task ∈ env.tasksByRoom.arrange
      (pass.state.tasks.entries.filter fun task => task.roomId = room.roomId) ↔
        task ∈ pass.state.tasks ∧ task.roomId = room.roomId := fun task => mem_tasksByRoom env.tasksByRoom
  have hlength := (env.tasksByRoom.perm (pass.state.tasks.entries.filter fun task =>
    task.roomId = room.roomId)).length_eq
  rw [← List.countP_eq_length_filter] at hlength
  change _ = pass.state.load room.roomId at hlength
  cases htasks : env.tasksByRoom.arrange
      (pass.state.tasks.entries.filter fun task => task.roomId = room.roomId) with
  | nil =>
      rw [htasks, List.length_nil] at hlength
      omega
  | cons task rest =>
      obtain ⟨ht, hroom⟩ := (hmem task).mp (htasks ▸ List.mem_cons_self)
      refine ⟨task.identifier, hroom ▸ .of_mem ht, ?_⟩
      have hgone : ¬(unassignOverkill env (task :: rest) (overkill maxTasks currentMin room)
          pass.roomDisconnectThrottling pass.state).2.Serves task.identifier task.roomId :=
        serves_unassignOverkill hsurplus hthrottling
      exact hroom ▸ hgone

-- So does a room with one task have none too many.
theorem rebalance_of_load_le_one {room : RoomStatus}
    (hcount : room.currentConnections = pass.state.load room.roomId) (hfew : pass.state.load room.roomId ≤ 1)
    (hmax : 1 ≤ maxTasks) (hmin : 0 ≤ currentMin) : pass.rebalance env maxTasks currentMin room = pass := by
  have hsurplus : ¬0 < overkill maxTasks currentMin room := by
    rw [overkill, not_lt]
    exact max_le (by omega) (by omega)
  rw [AssignPass.rebalance]
  exact if_neg fun h => hsurplus h.1

theorem exists_unassigned_foldl (hnil : pass.workersAvailable = [])
    (hthrottling : 0 < pass.roomDisconnectThrottling) (hmax : 1 ≤ maxTasks) (hmin : currentMin = 0)
    (hbalanced : Balanced pass.state) (hknown : ∀ r ∈ rooms, pass.state.rooms.HasKey r)
    (hr : r ∈ rooms) (hmany : 2 ≤ pass.state.load r) : ∃ w q, pass.state.Serves w q ∧
      ¬(rooms.foldl (AssignPass.processRoom env maxTasks currentMin) pass).state.Serves w q := by
  induction rooms with
  | nil => cases hr
  | cons q rest ih =>
      obtain ⟨room, hroom, rfl⟩ := hknown q List.mem_cons_self
      have hcount := hbalanced.count_eq hroom
      have hturn : pass.processRoom env maxTasks currentMin room.roomId =
          pass.rebalance env maxTasks currentMin room := processRoom_of_nil hnil hroom
      by_cases hload : 2 ≤ pass.state.load room.roomId
      · obtain ⟨w, hserves, hgone⟩ := @exists_unassigned env pass maxTasks currentMin room hcount hload
          (by omega) hthrottling
        refine ⟨w, room.roomId, hserves, fun h => hgone ?_⟩
        rw [← hturn]
        exact serves_of_foldl_processRoom (processRoom_nil hnil _) h
      · have hsame : pass.processRoom env maxTasks currentMin room.roomId = pass :=
          hturn.trans (rebalance_of_load_le_one hcount (by omega) hmax (by omega))
        rw [List.foldl_cons, hsame]
        have hr' : r ∈ rest := (List.mem_cons.mp hr).resolve_left fun he => hload (he ▸ hmany)
        exact ih (fun p hp => hknown p (List.mem_cons_of_mem _ hp)) hr'

end Full

section Limits

theorem capacity_eq : s.capacity = (s.limits.map fun limit => limit.2.toInt.toNat).sum := by
  rw [capacity, limits, List.map_map]
  rfl

theorem limits_update {f : WorkerStatus → WorkerStatus}
    {hf : ∀ worker, (f worker).identifier = worker.identifier} (h : s'.workers = s.workers.update f hf)
    (hmax : ∀ worker, (f worker).maxRooms = worker.maxRooms) : s'.limits = s.limits := by
  rw [limits, limits, h, Keyed.entries_update, List.map_map]
  exact List.map_congr_left fun worker _ => by simp [hf, hmax]

theorem limits_quiet (h : Quiet s s') : s'.limits = s.limits := by
  obtain ⟨f, hf, hworkers, hsame⟩ := h.workers
  exact limits_update hworkers fun worker => (hsame worker).2.1

theorem limits_passMove {guard : Guard} {stage : Stage} (hstage : stage ≠ .interval)
    (hmove : PassMove env guard stage s s') : s'.limits = s.limits := by
  cases hmove with
  | quiet hquiet => exact limits_quiet hquiet
  | @drop _ _ task descRank htask =>
      have hkey : (s.sendUnassign task.identifier task.roomId).tasks.HasKey task.key := by
        rw [tasks_sendUnassign]
        exact .of_mem htask
      have hworkers := @workers_deleteTask_of_hasKey env _ _ descRank _ hkey
      rw [workers_sendUnassign] at hworkers
      exact limits_update hworkers fun worker => by split <;> rfl
  | expire hworker => exact absurd rfl hstage
  | refresh => exact absurd rfl hstage
  | forget hempty => rfl
  | assign hworker hroom hlimit hnew hguard =>
      exact limits_update workers_addTask fun worker => by split <;> rfl

theorem limits_passMoves {guard : Guard} {stage : Stage} (hstage : stage ≠ .interval)
    (hmoves : PassMoves env guard stage s s') : s'.limits = s.limits := by
  induction hmoves with
  | refl => rfl
  | tail _ hmove ih => exact (limits_passMove hstage hmove).trans ih

theorem limits_refreshed (h : Fresh env s) : (s.refreshed env).limits = s.limits := by
  rw [refreshed_of_fresh h]
  exact List.map_map.trans rfl

theorem limits_checkAllStates (h : Fresh env s) (hdue : ¬throttled env s) :
    (s.checkAllStates env).limits = s.limits := by
  have hrooms : PassMoves env Unguarded .rooms (s.refreshed env) (s.assignStart env).state :=
    assignStart_moves s
  rw [checkAllStates, if_neg hdue, limits_passMoves (by simp) (processRooms_moves (passMeetsGuard_true s)),
    limits_passMoves (by simp) hrooms, limits_refreshed h]

theorem config_addTask : (s.addTask env w r).config = s.config := by
  rw [addTask, sendAssign, sendToIdentifier]
  split <;> rfl

theorem config_processRoom : (pass.processRoom env maxTasks currentMin r).state.config = pass.state.config := by
  have hturn : Turn env r pass (pass.processRoom env maxTasks currentMin r) := turn_processRoom r
  cases hturn with
  | given w hw hspare hstate => rw [hstate, config_addTask]
  | taken tasks hroom hstate => rw [hstate, config_drops]

theorem config_foldl_visit (rooms : List RoomStatus) (scan : RoomScan) :
    (rooms.foldl (RoomScan.visit env) scan).state.config = scan.state.config := by
  induction rooms generalizing scan with
  | nil => rfl
  | cons room rest ih =>
      rw [List.foldl_cons, ih, RoomScan.visit]
      split
      · rfl
      · exact config_drops true _

theorem config_checkAllStates (hdue : ¬throttled env s) : (s.checkAllStates env).config = s.config := by
  have hstart : (s.assignStart env).state.config = (s.refreshed env).config := config_foldl_visit _ _
  rw [checkAllStates, if_neg hdue, ← config_refreshed env s, ← hstart]
  exact @Runs.run_invariant _ _ (fun r pass => AssignPass.processRoom env _ _ pass r)
    (fun pass => pass.state.config = (s.assignStart env).state.config)
    (fun r pass h => config_processRoom.trans h) _ rfl _

variable {identifier : Identifier} {payload : Bytes}

theorem handleData_workers : (s.handleData env identifier payload).workers = s.workers := by
  unfold handleData
  dsimp only
  repeat' split
  all_goals rfl

theorem config_handleData : (s.handleData env identifier payload).config = s.config := by
  unfold handleData
  dsimp only
  repeat' split
  all_goals rfl

theorem limits_handleBuffer (hready : ¬isReady payload) (hfailed : ¬isFailed payload) :
    (s.handleBuffer env identifier payload).limits = s.limits ∧
      (s.handleBuffer env identifier payload).config = s.config := by
  by_cases hlen : payload.length < roomFailedPayloadLength
  · rw [handleBuffer_malformed hlen]
    exact ⟨rfl, rfl⟩
  rw [Nat.not_lt] at hlen
  by_cases hkey : s.workers.HasKey identifier
  · have htouch : ((s.emit (.received identifier payload s.authCode)).touchWorker env identifier).limits =
        s.limits := (limits_quiet (quiet_touchWorker identifier)).trans rfl
    rw [handleBuffer_known hlen hkey]
    dsimp only
    rw [if_neg fun hc => hready ⟨hlen, hc⟩, if_neg fun hc => hfailed ⟨hlen, hc⟩]
    split
    · refine ⟨?_, config_handleData⟩
      rw [limits, handleData_workers]
      exact htouch
    · exact ⟨htouch, rfl⟩
  · rw [handleBuffer_unknown hlen hkey, limits, workers_disconnectWorker, config_disconnectWorker]
    exact ⟨rfl, rfl⟩

end Limits

section Pass

theorem serves_assignStart (hfresh : Fresh env s) (h : (s.assignStart env).state.Serves w r) : s.Serves w r :=
  ((adjusts_collected hfresh).frame r List.not_mem_nil w).mp (serves_of_foldl_visit h)

theorem uncovered_assignStart (hfresh : Fresh env s) (hdue : ¬throttled env s) :
    (s.assignStart env).state.uncovered = s.uncovered := by
  have hactive : ∀ r, r ∈ s.roomNeedProc env ↔ InRoster s r true := fun r => mem_roomNeedProc
  have hstart : ∀ r, r ∈ s.roomNeedProc env ↔ InRoster (s.assignStart env).state r true := fun r =>
    mem_roomNeedProc.trans ((inRoster_assignStart hdue).trans (and_iff_left rfl)).symm
  rw [uncovered_eq nodup_roomNeedProc hstart, uncovered_eq nodup_roomNeedProc hactive]
  exact countP_load_congr fun r hr => load_assignStart hfresh (mem_roomNeedProc.mp hr)

theorem currentMin_foldl_visit_le {visited : List RoomStatus} {scan : RoomScan} :
    (visited.foldl (RoomScan.visit env) scan).currentMinTasksPerRoom ≤ scan.currentMinTasksPerRoom ∧
      ∀ room ∈ visited, room.active = true →
        (visited.foldl (RoomScan.visit env) scan).currentMinTasksPerRoom ≤ room.currentConnections := by
  induction visited generalizing scan with
  | nil => exact ⟨le_refl _, by simp⟩
  | cons room rest ih =>
      obtain ⟨hscan, hrest⟩ := @ih (scan.visit env room)
      rw [List.foldl_cons]
      cases hactive : room.active with
      | true =>
          have hvisit : (scan.visit env room).currentMinTasksPerRoom =
              min scan.currentMinTasksPerRoom room.currentConnections := by rw [RoomScan.visit, if_pos hactive]
          rw [hvisit] at hscan
          refine ⟨hscan.trans (min_le_left _ _), List.forall_mem_cons.mpr ⟨fun _ => ?_, hrest⟩⟩
          exact hscan.trans (min_le_right _ _)
      | false =>
          have hvisit : (scan.visit env room).currentMinTasksPerRoom = scan.currentMinTasksPerRoom := by
            simp [RoomScan.visit, hactive]
          rw [hvisit] at hscan
          exact ⟨hscan, List.forall_mem_cons.mpr ⟨fun h => by simp [hactive] at h, hrest⟩⟩

-- With an active room that nobody serves, the minimum is zero.
theorem currentMin_eq_zero (hfresh : Fresh env s) (hr : InRoster s r true) (hnone : s.load r = 0) :
    (s.roomScan env).currentMinTasksPerRoom = 0 := by
  obtain ⟨room, hroom, rfl, hactive⟩ := (inRoster_collected env).mpr hr
  have hle : (s.roomScan env).currentMinTasksPerRoom ≤ room.currentConnections :=
    (@currentMin_foldl_visit_le env _ _).2 room ((env.rooms.mem_arrange).mpr hroom) hactive
  have hcount := (balanced_collected s).count_eq hroom
  rw [(adjusts_collected hfresh).load_eq List.not_mem_nil, hnone] at hcount
  have hnonneg := @currentMin_nonneg env s
  omega

theorem capacity_le_of_nil (hfresh : Fresh env s)
    (hpenalty : ∀ worker ∈ s.workers, worker.allowNewTaskAfter < env.now .check)
    (hnil : (s.refreshed env).workersAvailable env = []) : s.capacity ≤ s.tasks.entries.length := by
  have hlimits := limits_refreshed hfresh
  have htasks : (s.refreshed env).tasks = s.tasks := by
    rw [refreshed_of_fresh hfresh]
    rfl
  rw [capacity_eq, ← hlimits, ← capacity_eq, ← htasks]
  have hworker : ∀ worker ∈ (s.refreshed env).workers, worker.currentConnections =
      ((s.refreshed env).tasks.count fun task => task.identifier = worker.identifier) ∧
      worker.allowNewTaskAfter < env.now .check := by
    rw [refreshed_of_fresh hfresh]
    intro worker hworker
    obtain ⟨old, hold, rfl⟩ := mem_workers_refreshCounts.mp hworker
    exact ⟨rfl, hpenalty old hold⟩
  refine capacity_le (fun worker hmem => (hworker worker hmem).1) fun worker hmem => ?_
  by_contra hfree
  have hin : worker.identifier ∈ (s.refreshed env).workersAvailable env := by
    refine List.mem_map.mpr ⟨worker, (env.sortWorkers.mem_arrange).mpr (List.mem_filter.mpr ⟨?_, ?_⟩), rfl⟩
    · exact (env.workers.mem_arrange).mpr hmem
    · exact decide_eq_true ⟨not_le.mp hfree, (hworker worker hmem).2⟩
  rw [hnil] at hin
  cases hin

-- A pass that finds every worker full, with places enough for all the active rooms,
-- takes a task away.
theorem length_tasks_checkAllStates (hinv : Inv s) (hfresh : Fresh env s) (hdue : ¬throttled env s)
    (hpenalty : ∀ worker ∈ s.workers, worker.allowNewTaskAfter < env.now .check)
    (hnil : (s.refreshed env).workersAvailable env = []) (hcapacity : s.activeRooms.length ≤ s.capacity)
    (hr : InRoster s r true) (hnone : s.load r = 0) :
    (s.checkAllStates env).tasks.entries.length < s.tasks.entries.length := by
  have hdone : s.checkAllStates env = (s.processRooms env (s.roomNeedProc env)).state := by
    rw [checkAllStates, if_neg hdue]
  have hserves : ∀ w q, (s.checkAllStates env).Serves w q → (s.assignStart env).state.Serves w q := by
    intro w q h
    rw [hdone] at h
    exact serves_of_foldl_processRoom hnil h
  by_cases hactive : ∀ task ∈ s.tasks, InRoster s task.roomId true
  · obtain ⟨q, hq, hmany⟩ : ∃ q, InRoster s q true ∧ 2 ≤ s.load q := by
      by_contra hfew
      have hless := length_tasks_lt_activeRooms hactive
        (fun q hq => by_contra fun hmany => hfew ⟨q, hq, by omega⟩) hr hnone
      have hfull := capacity_le_of_nil hfresh hpenalty hnil
      omega
    have hten : 0 < (s.assignStart env).roomDisconnectThrottling := by
      change (0 : Int) < 10
      decide
    obtain ⟨w, p, hheld, hgone⟩ := @exists_unassigned_foldl env q (s.assignStart env) _ _ _ hnil hten
      (@one_le_maxTasksPerRoom (s.refreshed env)) (currentMin_eq_zero hfresh hr hnone) (balanced_assignStart s)
      (fun _ hp => hasKey_of_mem_roomNeedProc hdue hp) (mem_roomNeedProc.mpr hq)
      ((load_assignStart hfresh hq).symm ▸ hmany)
    rw [hdone] at hserves ⊢
    exact length_tasks_lt (fun w p h => serves_assignStart hfresh (hserves w p h))
      (serves_assignStart hfresh hheld) hgone
  · -- A task for a room that is no longer wanted goes with its room.
    simp only [not_forall] at hactive
    obtain ⟨task, ht, hinactive⟩ := hactive
    have hinv' : Inv (s.checkAllStates env) :=
      checkAllStates_invariant (fun _ _ _ => Inv.passMove) hinv fun _ => passMeetsGuard_true s
    refine length_tasks_lt (fun w p h => serves_assignStart hfresh (hserves w p h)) (.of_mem ht) fun h => ?_
    obtain ⟨held, hheld, hk⟩ := h
    have hroom : held.roomId = task.roomId := congrArg Prod.snd hk
    obtain ⟨a, ha⟩ := hasKey_iff_inRoster.mp (hinv'.taskRoom held hheld)
    obtain ⟨hroster, rfl⟩ := (inRoster_checkAllStates hdue).mp ha
    exact hinactive (hroom ▸ hroster)

theorem placesOf_deleteTask {d : Bool} {i : Identifier} (h : s.tasks.HasKey (i, r)) :
    s.placesOf w ≤ (s.deleteTask env i r d).placesOf w := by
  rw [placesOf, placesOf, workers_deleteTask_of_hasKey h, Keyed.modify, Keyed.find?_update]
  cases s.workers.find? w with
  | none => exact le_refl _
  | some status =>
      simp only [Option.map_some, Option.getD_some]
      split
      · simp only [WorkerStatus.places]
        omega
      · exact le_refl _

theorem placesOf_drops {d : Bool} (tasks : List RoomTask) : s.placesOf w ≤ (s.drops env d tasks).placesOf w := by
  induction tasks generalizing s with
  | nil => exact le_refl _
  | cons task rest ih =>
      rw [drops_cons]
      refine le_trans ?_ ih
      have hsame : (s.sendUnassign task.identifier task.roomId).placesOf w = s.placesOf w := by
        rw [placesOf, placesOf, workers_sendUnassign]
      by_cases hkey : (s.sendUnassign task.identifier task.roomId).tasks.HasKey (task.identifier, task.roomId)
      · exact hsame ▸ placesOf_deleteTask hkey
      · rw [deleteTask_of_not_hasKey hkey, hsame]

theorem placesOf_foldl_visit (visited : List RoomStatus) (scan : RoomScan) :
    scan.state.placesOf w ≤ (visited.foldl (RoomScan.visit env) scan).state.placesOf w := by
  induction visited generalizing scan with
  | nil => exact le_refl _
  | cons room rest ih =>
      rw [List.foldl_cons]
      refine le_trans ?_ (ih _)
      rw [RoomScan.visit]
      split
      · exact le_refl _
      · exact placesOf_drops _

-- A worker that is available has a place.
theorem places_assignStart_pos (hbunch : 1 ≤ s.config.worker.maxNewTasksPerBunch)
    (hworkers : (s.refreshed env).workersAvailable env ≠ []) : 0 < (s.assignStart env).places := by
  obtain ⟨w, hw⟩ := List.exists_mem_of_ne_nil _ hworkers
  obtain ⟨worker, hworker, rfl⟩ := List.mem_map.mp hw
  obtain ⟨hmem, hfree⟩ := List.mem_filter.mp ((env.sortWorkers.mem_arrange).mp hworker)
  have hfree' : available env worker := of_decide_eq_true hfree
  have hfind := Keyed.find?_eq_some.mpr ⟨(env.workers.mem_arrange).mp hmem, rfl⟩
  have hcollected : 0 < (s.collected env).placesOf worker.identifier := by
    rw [collected, placesOf, workers_emit, collectWorkers, Keyed.find?_update, hfind]
    simp only [Option.map_some, Option.getD_some, if_pos hfree', WorkerStatus.places, config_refreshed]
    have hless := hfree'.1
    omega
  have hstart : (s.collected env).placesOf worker.identifier ≤
      (s.assignStart env).state.placesOf worker.identifier :=
    placesOf_foldl_visit (env.rooms.arrange (s.collected env).rooms.entries) { state := s.collected env }
  have hsum : (s.assignStart env).state.placesOf worker.identifier ≤ (s.assignStart env).places :=
    List.single_le_sum (fun _ _ => Nat.zero_le _) _ (List.mem_map.mpr ⟨_, hw, rfl⟩)
  omega

end Pass

section Run

def AllCovered (s : Scheduler) : Prop :=
  ∀ room ∈ s.rooms, room.active = true → ∃ task ∈ s.tasks, task.roomId = room.roomId

-- What calm steps leave as it is. Only the tasks move, and the rooms go that are not
-- wanted.
structure Stays (start s : Scheduler) : Prop where
  inv : Inv s
  limits : s.limits = start.limits
  roster : ∀ r, InRoster s r true ↔ InRoster start r true
  rooms : ∀ r, s.rooms.HasKey r → start.rooms.HasKey r
  config : s.config = start.config

-- How many tasks there can be at all.
def mostTasks (s : Scheduler) : Nat := s.workers.entries.length * s.rooms.entries.length

-- A room that finds a worker may bring a task more, but never as many as make up for it.
def owed (start s : Scheduler) : Nat := s.uncovered * (start.mostTasks + 1) + s.tasks.entries.length

variable {input : Input}

theorem uncovered_eq_zero : s.uncovered = 0 ↔ AllCovered s := by
  rw [uncovered, List.countP_eq_zero]
  refine forall₂_congr fun room _ => ?_
  rw [Bool.and_eq_true, not_and, beq_iff_eq, load, Keyed.count_eq_zero]
  simp only [decide_eq_true_eq, not_forall, not_not, exists_prop]

theorem Stays.refl (hinv : Inv start) : Stays start start where
  inv := hinv
  limits := rfl
  roster _ := Iff.rfl
  rooms _ := id
  config := rfl

theorem Stays.length_activeRooms (h : Stays start s) : s.activeRooms.length = start.activeRooms.length := by
  refine ((List.perm_ext_iff_of_nodup nodup_activeRooms nodup_activeRooms).mpr fun r => ?_).length_eq
  rw [mem_activeRooms, mem_activeRooms]
  exact h.roster r

theorem Stays.length_tasks_le (h : Stays start s) : s.tasks.entries.length ≤ start.mostTasks := by
  have hidentifiers : s.workers.entries.map WorkerStatus.identifier =
      start.workers.entries.map WorkerStatus.identifier := by
    have hfirst := congrArg (List.map Prod.fst) h.limits
    rw [Scheduler.limits, Scheduler.limits, List.map_map, List.map_map] at hfirst
    exact hfirst
  have hbound := @length_tasks_le_mul s (start.rooms.entries.map RoomStatus.roomId) h.inv
    (start.workers.entries.map WorkerStatus.identifier)
    (fun worker hworker => hidentifiers ▸ List.mem_map.mpr ⟨worker, hworker, rfl⟩)
    fun r hr => Keyed.hasKey_iff_mem.mp (h.rooms r hr)
  rwa [List.length_map, List.length_map] at hbound

theorem Stays.rests (h : Stays start s) (hinv : Inv s') (hrests : Rests s s')
    (hlimits : s'.limits = s.limits ∧ s'.config = s.config) : Stays start s' where
  inv := hinv
  limits := hlimits.1.trans h.limits
  roster r := (hrests.roster r true).trans (h.roster r)
  rooms r hr := by
    obtain ⟨a, ha⟩ := hasKey_iff_inRoster.mp hr
    exact h.rooms r (hasKey_iff_inRoster.mpr ⟨a, (hrests.roster r a).mp ha⟩)
  config := hlimits.2.trans h.config

theorem Stays.checkAllStates (h : Stays start s) (hfresh : Fresh env s) (hdue : ¬throttled env s) :
    Stays start (s.checkAllStates env) where
  inv := checkAllStates_invariant (fun _ _ _ => Inv.passMove) h.inv fun _ => passMeetsGuard_true s
  limits := (limits_checkAllStates hfresh hdue).trans h.limits
  roster r := (inRoster_checkAllStates_of_active hdue).trans (h.roster r)
  rooms r hr := by
    obtain ⟨a, ha⟩ := hasKey_iff_inRoster.mp hr
    exact h.rooms r (hasKey_iff_inRoster.mpr ⟨a, ((inRoster_checkAllStates hdue).mp ha).1⟩)
  config := (config_checkAllStates hdue).trans h.config

theorem Rests.uncovered_eq (h : Rests s s') : s'.uncovered = s.uncovered := by
  rw [Scheduler.uncovered_eq nodup_activeRooms fun r => mem_activeRooms.trans (h.roster r true).symm,
    Scheduler.uncovered_eq nodup_activeRooms fun r => mem_activeRooms]
  exact countP_load_congr fun r _ => h.load_eq r

theorem Rests.owed_eq (h : Rests s s') : start.owed s' = start.owed s := by
  have htasks := le_antisymm (Scheduler.length_tasks_le fun w r => (h.serves r w).mp)
    (Scheduler.length_tasks_le fun w r => (h.serves r w).mpr)
  rw [owed, owed, h.uncovered_eq, htasks]

theorem uncovered_checkAllStates (hfresh : Fresh env s) (hdue : ¬throttled env s) :
    (s.checkAllStates env).uncovered = s.uncovered - (s.assignStart env).places := by
  rw [coversMost hdue, uncovered_assignStart hfresh hdue]

-- Each pass owes less than the one before, as long as there is a room that nobody serves.
theorem Stays.owed_checkAllStates (h : Stays start s) (hfresh : Fresh env s) (hdue : ¬throttled env s)
    (hpenalty : ∀ worker ∈ s.workers, worker.allowNewTaskAfter < env.now .check)
    (hbunch : 1 ≤ start.config.worker.maxNewTasksPerBunch)
    (hcapacity : start.activeRooms.length ≤ start.capacity) (hopen : ¬AllCovered s) :
    start.owed (s.checkAllStates env) < start.owed s := by
  have hcovers := @uncovered_checkAllStates env s hfresh hdue
  have hpos : 0 < s.uncovered := Nat.pos_of_ne_zero (mt uncovered_eq_zero.mp hopen)
  have hmost := (h.checkAllStates hfresh hdue).length_tasks_le
  by_cases hnil : (s.refreshed env).workersAvailable env = []
  · obtain ⟨room, hroom, hp⟩ := List.countP_pos_iff.mp hpos
    obtain ⟨hactive, hnone⟩ := Bool.and_eq_true_iff.mp hp
    rw [← h.length_activeRooms, capacity_eq, ← h.limits, ← capacity_eq] at hcapacity
    have hfewer := length_tasks_checkAllStates h.inv hfresh hdue hpenalty hnil hcapacity
      ⟨room, hroom, rfl, hactive⟩ (beq_iff_eq.mp hnone)
    have hle : (s.checkAllStates env).uncovered * (start.mostTasks + 1) ≤
        s.uncovered * (start.mostTasks + 1) := Nat.mul_le_mul_right _ (by omega)
    rw [owed, owed]
    omega
  · have hplaces := places_assignStart_pos (h.config ▸ hbunch) hnil
    have hle : ((s.checkAllStates env).uncovered + 1) * (start.mostTasks + 1) ≤
        s.uncovered * (start.mostTasks + 1) := Nat.mul_le_mul_right _ (by omega)
    rw [Nat.succ_mul] at hle
    rw [owed, owed]
    omega

-- What a calm step does to what is owed.
structure Covers (start : Scheduler) (input : Input) (s : Scheduler) : Prop where
  stays : Stays start (step input s)
  covered : AllCovered s → AllCovered (step input s)
  owed : ¬AllCovered s → start.owed (step input s) + (if input.ticks then 1 else 0) ≤ start.owed s

theorem Stays.rescheduleTimer (h : Stays start s) : Stays start s.rescheduleTimer :=
  ⟨h.inv.of_eq rfl rfl rfl rfl, h.limits, h.roster, h.rooms, h.config⟩

theorem Stays.endWait (h : Stays start s) : Stays start s.endWait :=
  ⟨h.inv.of_eq rfl rfl rfl rfl, h.limits, h.roster, h.rooms, h.config⟩

theorem Stays.tick (h : Stays start s) (result : TimerResult) (hresult : result ≠ .aborted)
    (hfresh : Fresh env s) (hdue : ¬throttled env s)
    (hpenalty : ∀ worker ∈ s.workers, worker.allowNewTaskAfter < env.now .check)
    (hbunch : 1 ≤ start.config.worker.maxNewTasksPerBunch)
    (hcapacity : start.activeRooms.length ≤ start.capacity) : Covers start ⟨env, .tick result⟩ s := by
  have hfresh' : Fresh env s.endWait := hfresh
  have hdue' : ¬throttled env s.endWait := hdue
  have hstep : step ⟨env, .tick result⟩ s = (s.endWait.checkAllStates env).rescheduleTimer := by
    cases result with
    | aborted => exact absurd rfl hresult
    | failed => rfl
    | expired => rfl
  constructor
  · rw [hstep]
    exact (h.endWait.checkAllStates hfresh' hdue').rescheduleTimer
  · intro hall
    rw [hstep, ← uncovered_eq_zero]
    have hcovers := uncovered_checkAllStates hfresh' hdue'
    have hzero : s.endWait.uncovered = 0 := uncovered_eq_zero.mpr hall
    rw [hzero, Nat.zero_sub] at hcovers
    exact hcovers
  · intro hopen
    rw [hstep]
    exact h.endWait.owed_checkAllStates hfresh' hdue' hpenalty hbunch hcapacity hopen

theorem Stays.covers (h : Stays start s) (hcalm : Calm input s)
    (hbunch : 1 ≤ start.config.worker.maxNewTasksPerBunch)
    (hcapacity : start.activeRooms.length ≤ start.capacity) : Covers start input s := by
  have hinv := step_inv input h.inv
  obtain ⟨env, event⟩ := input
  cases event with
  | payload identifier payload =>
      have hrests : Rests s (s.handleBuffer env identifier payload) :=
        rests_handleBuffer h.inv hcalm.1 hcalm.2
      refine ⟨h.rests hinv hrests (limits_handleBuffer hcalm.1 hcalm.2), fun hall => ?_, fun _ => ?_⟩
      · rw [← uncovered_eq_zero] at hall ⊢
        exact hrests.uncovered_eq.trans hall
      · exact hrests.owed_eq.le
  | tick result =>
      cases result with
      | aborted => exact hcalm.elim
      | failed => exact h.tick .failed (by simp) hcalm.2.1 hcalm.1 hcalm.2.2 hbunch hcapacity
      | expired => exact h.tick .expired (by simp) hcalm.2.1 hcalm.1 hcalm.2.2 hbunch hcapacity
  | accept _ _ => exact hcalm.elim
  | workerDisconnect _ => exact hcalm.elim
  | updateRoomLists _ => exact hcalm.elim
  | configure _ => exact hcalm.elim
  | loadAuthCode => exact hcalm.elim

-- With a place for every active room, each of them is served after this many passes,
-- and stays so.
theorem run_allCovered (config : Config) (before more : List Input)
    (hbunch : 1 ≤ (run config before).config.worker.maxNewTasksPerBunch)
    (hcapacity : (run config before).activeRooms.length ≤ (run config before).capacity)
    (hcalm : Runs.EveryStep step Calm (run config before) more)
    (hlong : (run config before).owed (run config before) < more.countP Input.ticks) :
    ∀ r ∈ (run config before).activeRooms, ∃ w, (Runs.run step (run config before) more).Serves w r := by
  have hcovers : ∀ input s, Stays (run config before) s → Calm input s →
      Covers (run config before) input s := fun input s h hcalm => h.covers hcalm hbunch hcapacity
  have hstart : Stays (run config before) (run config before) := .refl (run_inv config before)
  have hstays : Stays (run config before) (Runs.run step (run config before) more) :=
    Runs.run_invariant_of (fun input s h hcalm => (hcovers input s h hcalm).stays) hstart hcalm
  have hall : AllCovered (Runs.run step (run config before) more) :=
    Runs.run_reaches (fun input s h hcalm => (hcovers input s h hcalm).stays)
      (fun input s h hcalm => (hcovers input s h hcalm).covered)
      (fun input s h hcalm => (hcovers input s h hcalm).owed) hstart hcalm hlong
  intro r hr
  obtain ⟨room, hroom, rfl, hactive⟩ := (hstays.roster r).mpr (mem_activeRooms.mp hr)
  obtain ⟨task, ht, he⟩ := hall room hroom hactive
  exact ⟨task.identifier, he ▸ .of_mem ht⟩

-- Two workers with one place each, and two rooms.
def quietInputs : List Input :=
  [{ env := .at 0, event := .accept .accepted [1] },
    { env := .at 0, event := .accept .accepted [2] },
    { env := .at 0, event := .updateRoomLists [1, 2] },
    { env := .at 0, event := .payload 1 (plainReady 1) },
    { env := .at 0, event := .payload 2 (plainReady 1) }]

def quietPasses : List Input :=
  (List.range 11).map fun n => { env := .at (seconds (10 + 2 * n)), event := .tick .expired }

theorem run_allCovered_both :
    (∃ w, (Runs.run step (run plainConfig quietInputs) quietPasses).Serves w 1) ∧
      ∃ w, (Runs.run step (run plainConfig quietInputs) quietPasses).Serves w 2 := by
  have hall := run_allCovered plainConfig quietInputs quietPasses (by decide) (by decide) (by decide) (by decide)
  exact ⟨hall 1 (by decide), hall 2 (by decide)⟩

end Run

end Scheduler

end LiveReceptor.Supervisor

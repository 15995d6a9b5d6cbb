import LiveReceptor.Supervisor.Levelling

namespace LiveReceptor.Supervisor.Scheduler

open SimpleWorkerProto

variable {env : Env} {s s' t : Scheduler} {r q : RoomId} {a : Bool}

section Pass

theorem balanced_collected (s : Scheduler) : Balanced (s.collected env) := by
  have hmove : PassMove env Unguarded .rooms (s.refreshed env) (s.collected env) :=
    .quiet (quiet_collected _ _)
  exact Balanced.passMove (by simp) surplus_refreshCounts hmove

def inactiveRooms (env : Env) (s : Scheduler) : List RoomId :=
  ((env.rooms.arrange (s.collected env).rooms.entries).filter fun room => !room.active).map
    RoomStatus.roomId

theorem inRoster_collected (env : Env) : InRoster (s.collected env) r a ↔ InRoster s r a := by
  have hrefreshed : PassMoves env Unguarded .interval s (s.refreshed env) := refreshed_moves s
  exact (inRoster_quiet (quiet_collected _ _)).trans (inRoster_passMoves (by simp) hrefreshed)

theorem exists_active_iff : (∃ room, (room ∈ s.rooms ∧ room.active = a) ∧ room.roomId = r) ↔ InRoster s r a := by
  constructor
  · rintro ⟨room, ⟨hroom, hactive⟩, rfl⟩
    exact ⟨room, hroom, rfl, hactive⟩
  · rintro ⟨room, hroom, rfl, hactive⟩
    exact ⟨room, ⟨hroom, hactive⟩, rfl⟩

theorem mem_inactiveRooms : r ∈ s.inactiveRooms env ↔ InRoster s r false := by
  rw [← inRoster_collected env]
  simp only [inactiveRooms, List.mem_map, List.mem_filter, Arrangement.mem_arrange, Bool.not_eq_true']
  exact exists_active_iff

theorem notMem_inactiveRooms (h : InRoster s r true) : r ∉ s.inactiveRooms env := fun hinactive =>
  Bool.false_ne_true ((mem_inactiveRooms.mp hinactive).unique h)

theorem mem_roomNeedProc : r ∈ s.roomNeedProc env ↔ InRoster s r true := by
  rw [← inRoster_collected env]
  simp only [roomNeedProc, roomScan, collectRooms, roomNeedProc_foldl_visit, List.mem_map,
    List.nil_append, List.mem_filter, Arrangement.mem_arrange]
  exact exists_active_iff

theorem nodup_arranged_rooms (p : RoomStatus → Bool) :
    (((env.rooms.arrange s.rooms.entries).filter p).map RoomStatus.roomId).Nodup :=
  (((env.rooms.perm _).map _).nodup_iff.mpr s.rooms.nodup).sublist (List.filter_sublist.map _)

theorem nodup_roomNeedProc : (s.roomNeedProc env).Nodup := by
  rw [roomNeedProc]
  apply ((env.sortRooms.perm _).map _).nodup_iff.mpr
  simp only [roomScan, collectRooms, roomNeedProc_foldl_visit, List.nil_append]
  exact nodup_arranged_rooms RoomStatus.active

-- Removing the inactive rooms takes their tasks and no others.
theorem adjusts_assignStart : Adjusts (s.inactiveRooms env) (s.collected env) (s.assignStart env).state := by
  have hnodup : ((env.rooms.arrange (s.collected env).rooms.entries).map RoomStatus.roomId).Nodup :=
    ((env.rooms.perm _).map _).nodup_iff.mpr (s.collected env).rooms.nodup
  exact @adjusts_foldl_visit env _ { state := s.collected env } hnodup

theorem load_assignStart_of_active (hr : InRoster s r true) :
    (s.assignStart env).state.load r = (s.collected env).load r :=
  adjusts_assignStart.load_eq (notMem_inactiveRooms hr)

theorem balanced_assignStart (s : Scheduler) : Balanced (s.assignStart env).state := by
  have hmoves : PassMoves env Unguarded .rooms (s.refreshed env) (s.assignStart env).state :=
    assignStart_moves s
  exact moves_invariant (fun _ _ => Balanced.passMove (by simp)) surplus_refreshCounts hmoves

-- The counters by which the rooms are sorted are exact.
theorem count_of_mem_roomNeedProc {room : RoomStatus} (hr : room ∈ (s.roomScan env).roomNeedProc) :
    room.currentConnections = (s.assignStart env).state.load room.roomId := by
  simp only [roomScan, collectRooms, roomNeedProc_foldl_visit, List.nil_append, List.mem_filter,
    Arrangement.mem_arrange] at hr
  rw [load_assignStart_of_active ((inRoster_collected env).mp ⟨room, hr.1, rfl, hr.2⟩)]
  exact (balanced_collected s).count_eq hr.1

theorem sorted_roomNeedProc : (s.roomNeedProc env).Pairwise fun a b =>
    (s.assignStart env).state.load a ≤ (s.assignStart env).state.load b := by
  rw [roomNeedProc, List.pairwise_map]
  refine (env.sortRooms.sorted _).imp_of_mem fun {a b} ha hb hless => ?_
  rw [roomStatusLessTasks, count_of_mem_roomNeedProc ((env.sortRooms.mem_arrange).mp ha),
    count_of_mem_roomNeedProc ((env.sortRooms.mem_arrange).mp hb)] at hless
  omega

-- The rooms that are left when the rooms have been looked at are the active ones.
theorem inRoster_assignStart (hdue : ¬throttled env s) :
    InRoster (s.assignStart env).state r a ↔ InRoster s r a ∧ a = true := by
  rw [← inRoster_checkAllStates hdue, checkAllStates, if_neg hdue]
  exact (inRoster_passMoves (by simp) (processRooms_moves (passMeetsGuard_true s))).symm

theorem hasKey_of_mem_roomNeedProc (hdue : ¬throttled env s) (hr : r ∈ s.roomNeedProc env) :
    (s.assignStart env).state.rooms.HasKey r :=
  hasKey_iff_inRoster.mpr ⟨true, (inRoster_assignStart hdue).mpr ⟨mem_roomNeedProc.mp hr, rfl⟩⟩

theorem mem_roomNeedProc_of_mem_rooms (hdue : ¬throttled env s) {room : RoomStatus}
    (hroom : room ∈ (s.assignStart env).state.rooms) : room.roomId ∈ s.roomNeedProc env := by
  obtain ⟨hroster, hactive⟩ := (inRoster_assignStart hdue).mp ⟨room, hroom, rfl, rfl⟩
  exact mem_roomNeedProc.mpr (hactive ▸ hroster)

theorem processed_pass (hdue : ¬throttled env s) :
    Processed (s.refreshed env).maxTasksPerRoom (s.roomScan env).currentMinTasksPerRoom
      (s.roomNeedProc env) (s.assignStart env) (s.processRooms env (s.roomNeedProc env)) :=
  processed_foldl (balanced_assignStart s) (fun _ hr => hasKey_of_mem_roomNeedProc hdue hr)
    nodup_roomNeedProc sorted_roomNeedProc

-- A value of an int is narrowed to itself.
theorem toInt_eq {n : Int} (hlow : -2147483648 ≤ n) (hhigh : n ≤ 2147483647) : toInt n = n := by
  unfold toInt
  rw [Int32.toInt_ofInt, Int32.size]
  exact Int.bmod_eq_of_le hlow (by omega)

-- max_tasks_per_room is at least the number of the workers, when that is an int.
theorem le_maxTasksPerRoom (hfew : s.workers.entries.length < 2147483648) :
    (s.workers.entries.length : Int) ≤ s.maxTasksPerRoom := by
  have hcount : toInt s.workers.entries.length = s.workers.entries.length :=
    toInt_eq (by omega) (by omega)
  rw [maxTasksPerRoom, hcount]
  exact (le_max_right _ _).trans (le_max_right _ _)

theorem length_workers_quiet (h : Quiet s s') :
    s'.workers.entries.length = s.workers.entries.length := by
  obtain ⟨f, hf, hworkers, -⟩ := h.workers
  rw [hworkers, Keyed.entries_update, List.length_map]

-- After its first part, a pass neither adds nor removes a worker.
theorem identifiers_passMove {guard : Guard} {stage : Stage} (hstage : stage ≠ .interval)
    (hmove : PassMove env guard stage s s') : s'.workers.entries.map WorkerStatus.identifier =
      s.workers.entries.map WorkerStatus.identifier := by
  cases hmove with
  | quiet hquiet =>
      obtain ⟨f, hf, hworkers, -⟩ := hquiet.workers
      rw [hworkers]
      exact Keyed.map_key_update
  | drop descRank htask =>
      have hkey := Keyed.HasKey.of_mem htask
      rw [workers_deleteTask_of_hasKey (by rwa [tasks_sendUnassign]), workers_sendUnassign]
      exact Keyed.map_key_update
  | expire hworker => exact absurd rfl hstage
  | refresh => exact absurd rfl hstage
  | forget hempty => rfl
  | assign hworker hroom hlimit hnew hguard =>
      rw [workers_addTask]
      exact Keyed.map_key_update

theorem identifiers_passMoves {guard : Guard} {stage : Stage} (hstage : stage ≠ .interval)
    (hmoves : PassMoves env guard stage s s') : s'.workers.entries.map WorkerStatus.identifier =
      s.workers.entries.map WorkerStatus.identifier := by
  induction hmoves with
  | refl => rfl
  | tail _ hmove ih => exact (identifiers_passMove hstage hmove).trans ih

theorem length_workers_passMoves {guard : Guard} {stage : Stage} (hstage : stage ≠ .interval)
    (hmoves : PassMoves env guard stage s s') :
    s'.workers.entries.length = s.workers.entries.length := by
  have hlength := congrArg List.length (identifiers_passMoves hstage hmoves)
  rwa [List.length_map, List.length_map] at hlength

theorem hasKey_workers_passMoves {guard : Guard} {stage : Stage} {w : Identifier}
    (hstage : stage ≠ .interval) (hmoves : PassMoves env guard stage s s') :
    s'.workers.HasKey w ↔ s.workers.HasKey w := by
  rw [Keyed.hasKey_iff_mem, Keyed.hasKey_iff_mem, identifiers_passMoves hstage hmoves]

-- The workers that the loop over the rooms looks at are there.
def Pointing (pass : AssignPass) : Prop := ∀ w ∈ pass.workersAvailable, pass.state.workers.HasKey w

theorem pointing_assignStart (env : Env) (s : Scheduler) : Pointing (s.assignStart env) := by
  intro w hw
  have hmoves : PassMoves env Unguarded .rooms (s.refreshed env) (s.assignStart env).state :=
    assignStart_moves s
  rw [hasKey_workers_passMoves (by simp) hmoves]
  obtain ⟨worker, hworker, rfl⟩ := List.mem_map.mp hw
  have hfilter := (env.sortWorkers.mem_arrange).mp hworker
  exact .of_mem ((env.workers.mem_arrange).mp (List.mem_filter.mp hfilter).1)

theorem Pointing.of_moves {pass pass' : AssignPass} (h : Pointing pass)
    (hworkers : pass'.workersAvailable ⊆ pass.workersAvailable)
    (hmoves : PassMoves env Unguarded .assign pass.state pass'.state) : Pointing pass' :=
  fun w hw => (hasKey_workers_passMoves (by simp) hmoves).mpr (h w (hworkers hw))

end Pass

section Run

-- What holds of every pass of the run that is not throttled.
def EveryPass (P : Env → Scheduler → Prop) (config : Config) (inputs : List Input) : Prop :=
  Runs.EveryStep step
    (fun input s => ∀ t, passStart input s = some t → ¬throttled input.env t → P input.env t)
    (initial config) inputs

instance (P : Env → Scheduler → Prop) [∀ env t, Decidable (P env t)] (config : Config)
    (inputs : List Input) : Decidable (EveryPass P config inputs) :=
  have (input : Input) (s : Scheduler) :
      Decidable (∀ t, passStart input s = some t → ¬throttled input.env t → P input.env t) :=
    decidable_of_iff (∀ t ∈ passStart input s, ¬throttled input.env t → P input.env t) Iff.rfl
  inferInstanceAs (Decidable (Runs.EveryStep _ _ _ _))

theorem inv_of_passStart {input : Input} (hinv : Inv s) (h : passStart input s = some t) : Inv t :=
  hinv.handlerMove (step_of_some h).1

-- A pass starts from a state in which the containers fit together.
theorem everyPass_of {P : Env → Scheduler → Prop} (hP : ∀ env t, Inv t → ¬throttled env t → P env t)
    (config : Config) (inputs : List Input) : EveryPass P config inputs := by
  refine Runs.everyStep_of (P := fun _ _ => True) (fun input s h _ => step_inv input h) ?_
    (initial_inv config) (Runs.everyStep_of_forall (fun _ _ => trivial) _ _)
  intro input s hinv _ t hstart hdue
  exact hP input.env t (inv_of_passStart hinv hstart) hdue

end Run

end LiveReceptor.Supervisor.Scheduler

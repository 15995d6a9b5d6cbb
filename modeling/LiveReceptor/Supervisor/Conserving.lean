import LiveReceptor.Supervisor.Pass

namespace LiveReceptor.Supervisor.Scheduler

-- The room has a task that it did not have.
def Receives (s s' : Scheduler) (roomId : RoomId) : Prop :=
  ∃ task ∈ s'.tasks, task.roomId = roomId ∧ ¬s.tasks.HasKey task.key

instance (s s' : Scheduler) (roomId : RoomId) : Decidable (Receives s s' roomId) :=
  inferInstanceAs (Decidable (∃ task ∈ s'.tasks.entries, _))

variable {env : Env} {s s' t : Scheduler} {r q : RoomId} {w : Identifier} {pass pass' : AssignPass}
  {maxTasks currentMin : Int} {erasing : Bool} {workers : List Identifier} {rooms : List RoomId}

theorem receives_iff : Receives s s' r ↔ ∃ w, s'.Serves w r ∧ ¬s.Serves w r := by
  constructor
  · rintro ⟨task, ht, rfl, hnew⟩
    exact ⟨task.identifier, .of_mem ht, hnew⟩
  · rintro ⟨w, ⟨task, ht, hk⟩, hnew⟩
    exact ⟨task, ht, congrArg Prod.snd hk, fun hold => hnew (by rwa [hk] at hold)⟩

section Uncovered

-- A room that no worker is given anew keeps at most what it had.
theorem load_le_of_not_receives (h : ¬Receives s s' r) : s'.load r ≤ s.load r := by
  refine load_le_of_serves fun w hw => ?_
  by_contra hnew
  exact h (receives_iff.mpr ⟨w, hw, hnew⟩)

theorem Processed.lt_of_receives (h : Processed maxTasks currentMin rooms pass pass') (hr : r ∈ rooms)
    (hnew : Receives pass.state pass'.state r) : pass.state.load r < pass'.state.load r := by
  obtain ⟨w, hserves, hold⟩ := receives_iff.mp hnew
  rcases h.oneWay r hr with hgrow | hshrink
  · exact load_lt_of_serves hgrow hserves hold
  · exact absurd (hshrink w hserves) hold

theorem load_pos_of_serves (h : s.Serves w r) : 0 < s.load r := by
  rw [← length_servers]
  exact List.length_pos_of_mem (mem_servers.mpr h)

-- In the pass, no room with a task is given another one, if an active room goes
-- without any.
def UncoveredFirst (env : Env) (t : Scheduler) : Prop :=
  (∃ room ∈ (t.assignStart env).state.rooms, room.active = true ∧
      (t.assignStart env).state.load room.roomId = 0 ∧
      ¬Receives (t.assignStart env).state (t.checkAllStates env) room.roomId) →
    ∀ r, 0 < (t.assignStart env).state.load r →
      ¬Receives (t.assignStart env).state (t.checkAllStates env) r

theorem uncoveredFirst (hdue : ¬throttled env t) : UncoveredFirst env t := by
  have hpass := @processed_pass env t hdue
  rw [UncoveredFirst, checkAllStates, if_neg hdue]
  rintro ⟨room, hroom, -, hempty, hnone⟩ r hcovered hnew
  have hr : r ∈ t.roomNeedProc env := by
    by_contra hr
    obtain ⟨w, hserves, hold⟩ := receives_iff.mp hnew
    exact hold ((hpass.adjusts.frame r hr w).mp hserves)
  obtain ⟨-, w, -, -, -, hbelow⟩ := hpass.grow r hr (hpass.lt_of_receives hr hnew)
  have hsame := load_le_of_not_receives hnone
  -- The worker that takes the room has been offered the empty one before.
  have hserves := hbelow room.roomId (mem_roomNeedProc_of_mem_rooms hdue hroom) (by omega) (by omega)
  have hpos := load_pos_of_serves hserves
  omega

theorem run_uncoveredFirst (config : Config) (inputs : List Input) :
    EveryPass UncoveredFirst config inputs :=
  everyPass_of (fun _ _ _ hdue => uncoveredFirst hdue) config inputs

end Uncovered

section Turn

-- A worker that the walk does not keep was dropped from the list.
theorem dropped_of_offerRoom (hw : w ∈ workers) (hkept : w ∉ (offerRoom env r erasing workers s).1) :
    s.dropped w = true := by
  induction workers generalizing erasing with
  | nil => cases hw
  | cons worker rest ih =>
      rw [offerRoom] at hkept
      cases hd : s.dropped worker with
      | true =>
          rw [hd, if_pos rfl] at hkept
          rcases List.mem_cons.mp hw with rfl | hw
          · exact hd
          · exact ih hw hkept
      | false =>
          by_cases ht : s.tasks.HasKey (worker, r)
          · simp only [hd, assignTask, ht, Bool.false_eq_true, if_false, if_true] at hkept
            obtain ⟨hne, hrest⟩ := not_or.mp (mt List.mem_cons.mpr hkept)
            exact ih ((List.mem_cons.mp hw).resolve_left hne) hrest
          · simp only [hd, assignTask, ht, Bool.false_eq_true, if_false] at hkept
            exact absurd hw hkept

-- What a worker is like that the walk drops.
def Spent (s : Scheduler) (w : Identifier) : Prop :=
  ∃ status ∈ s.workers, status.identifier = w ∧
    (status.remainingThisBunch ≤ 0 ∨ status.currentConnections > status.maxRooms.toInt)

theorem spent_of_dropped (hkey : s.workers.HasKey w) (h : s.dropped w = true) : Spent s w := by
  unfold dropped at h
  split at h
  · rename_i hnone
    exact absurd hkey (Keyed.find?_eq_none.mp hnone)
  · rename_i status hfind
    obtain ⟨hmem, hid⟩ := Keyed.find?_eq_some.mp hfind
    exact ⟨status, hmem, hid, (of_decide_eq_true h).symm⟩

-- The turn of a room with fewer than max_tasks_per_room tasks gives it no new task.
def GoesWithout (env : Env) (maxTasks currentMin : Int) (pass : AssignPass) (room : RoomStatus) : Prop :=
  room.currentConnections < maxTasks ∧
    ¬Receives pass.state (pass.processRoom env maxTasks currentMin room.roomId).state room.roomId

instance (env : Env) (maxTasks currentMin : Int) (pass : AssignPass) (room : RoomStatus) :
    Decidable (GoesWithout env maxTasks currentMin pass room) := inferInstanceAs (Decidable (_ ∧ _))

-- The turn of one room. A worker that is left in the list has held a task for
-- it, and holds it still where the room has no tasks to spare.
structure Conserves (env : Env) (maxTasks currentMin : Int) (roomId : RoomId) (pass : AssignPass) :
    Prop where
  held : ∀ room ∈ pass.state.rooms, room.roomId = roomId → GoesWithout env maxTasks currentMin pass room →
    ∀ w ∈ (pass.processRoom env maxTasks currentMin roomId).workersAvailable, pass.state.Serves w roomId
  holds : ∀ room ∈ pass.state.rooms, room.roomId = roomId → GoesWithout env maxTasks currentMin pass room →
    room.currentConnections ≤ currentMin + 1 →
    ∀ w ∈ (pass.processRoom env maxTasks currentMin roomId).workersAvailable,
      (pass.processRoom env maxTasks currentMin roomId).state.Serves w roomId
  spent : ∀ w ∈ pass.workersAvailable,
    w ∉ (pass.processRoom env maxTasks currentMin roomId).workersAvailable → Spent pass.state w

-- What holds of the turns of all the active rooms, given the limit and the
-- minimum that the pass works with.
def EveryTurn (env : Env) (P : Int → Int → RoomId → AssignPass → Prop) (t : Scheduler) : Prop :=
  Runs.EveryStep
    (fun roomId pass => pass.processRoom env (t.refreshed env).maxTasksPerRoom
      (t.roomScan env).currentMinTasksPerRoom roomId)
    (P (t.refreshed env).maxTasksPerRoom (t.roomScan env).currentMinTasksPerRoom)
    (t.assignStart env) (t.roomNeedProc env)

instance (env : Env) (P : Int → Int → RoomId → AssignPass → Prop)
    [∀ maxTasks currentMin r pass, Decidable (P maxTasks currentMin r pass)] (t : Scheduler) :
    Decidable (EveryTurn env P t) :=
  inferInstanceAs (Decidable (Runs.EveryStep _ _ _ _))

theorem rebalance_of_few {room : RoomStatus} (hmax : room.currentConnections < maxTasks)
    (hmin : room.currentConnections ≤ currentMin + 1) :
    pass.rebalance env maxTasks currentMin room = pass := by
  rw [AssignPass.rebalance]
  have hover : ¬0 < overkill maxTasks currentMin room := by
    rw [overkill, not_lt]
    exact max_le (by omega) (by omega)
  exact if_neg fun h => hover h.1

theorem workersAvailable_rebalance (room : RoomStatus) :
    (pass.rebalance env maxTasks currentMin room).workersAvailable = pass.workersAvailable := by
  obtain ⟨dropped, -, -, heq⟩ := @rebalance_eq env maxTasks currentMin room pass
  rw [heq]

-- The pass with what the walk for the room leaves of it.
def AssignPass.offered (env : Env) (pass : AssignPass) (roomId : RoomId) : AssignPass :=
  let (kept, s, _) := offerRoom env roomId false pass.workersAvailable pass.state
  { pass with state := s, workersAvailable := kept }

theorem processRoom_of_mem {room : RoomStatus} (hroom : room ∈ pass.state.rooms) :
    pass.processRoom env maxTasks currentMin room.roomId =
      if maxTasks > room.currentConnections then
        if (offerRoom env room.roomId false pass.workersAvailable pass.state).2.2 then
          pass.offered env room.roomId
        else (pass.offered env room.roomId).rebalance env maxTasks currentMin room
      else pass.rebalance env maxTasks currentMin room := by
  have hfind : pass.state.rooms.find? room.roomId = some room := Keyed.find?_eq_some.mpr ⟨hroom, rfl⟩
  rw [AssignPass.processRoom, hfind]
  rfl

theorem workersAvailable_processRoom {room : RoomStatus} (hroom : room ∈ pass.state.rooms)
    (hmax : room.currentConnections < maxTasks) :
    (pass.processRoom env maxTasks currentMin room.roomId).workersAvailable =
      (offerRoom env room.roomId false pass.workersAvailable pass.state).1 := by
  rw [processRoom_of_mem hroom, if_pos hmax]
  split
  · rfl
  · exact workersAvailable_rebalance room

-- A walk that finds a worker gives it the room.
theorem taker_of_goesWithout {room : RoomStatus} (hroom : room ∈ pass.state.rooms)
    (h : GoesWithout env maxTasks currentMin pass room) :
    taker room.roomId pass.state pass.workersAvailable = none := by
  cases ht : taker room.roomId pass.state pass.workersAvailable with
  | none => rfl
  | some worker =>
      have hstate : (pass.processRoom env maxTasks currentMin room.roomId).state =
          pass.state.addTask env worker room.roomId := by
        rw [processRoom_of_mem hroom, if_pos h.1, offerRoom_nextRoom ht, if_pos rfl]
        exact (offerRoom_state _ _ _ _).trans (by rw [ht])
      refine absurd (receives_iff.mpr ⟨worker, ?_, (taker_eq_some ht).2⟩) h.2
      rw [hstate]
      exact serves_addTask.mpr (Or.inr ⟨rfl, rfl⟩)

theorem conserves_processRoom (hpoint : Pointing pass) (r : RoomId) :
    Conserves env maxTasks currentMin r pass := by
  have hheld : ∀ room ∈ pass.state.rooms, room.roomId = r →
      GoesWithout env maxTasks currentMin pass room →
      ∀ w ∈ (pass.processRoom env maxTasks currentMin r).workersAvailable, pass.state.Serves w r := by
    rintro room hroom rfl hwithout w hw
    rw [workersAvailable_processRoom hroom hwithout.1] at hw
    exact (offerRoom_kept hw).2 (taker_of_goesWithout hroom hwithout)
  refine ⟨hheld, ?_, ?_⟩
  · rintro room hroom rfl hwithout hmin w hw
    have hserves := hheld room hroom rfl hwithout w hw
    have hstate : (offerRoom env room.roomId false pass.workersAvailable pass.state).2.1 = pass.state := by
      rw [offerRoom_state, taker_of_goesWithout hroom hwithout]
    have hoffered : (pass.offered env room.roomId).state = pass.state := hstate
    rw [processRoom_of_mem hroom, if_pos hwithout.1, rebalance_of_few hwithout.1 hmin, ite_self, hoffered]
    exact hserves
  · intro w hw hkept
    apply spent_of_dropped (hpoint w hw)
    cases hfind : pass.state.rooms.find? r with
    | none =>
        rw [AssignPass.processRoom, hfind] at hkept
        exact absurd hw hkept
    | some room =>
        obtain ⟨hroom, rfl⟩ := Keyed.find?_eq_some.mp hfind
        by_cases hmax : room.currentConnections < maxTasks
        · rw [workersAvailable_processRoom hroom hmax] at hkept
          exact dropped_of_offerRoom hw hkept
        · rw [processRoom_of_mem hroom, if_neg hmax, workersAvailable_rebalance] at hkept
          exact absurd hw hkept

theorem workersAvailable_processRoom_subset :
    (pass.processRoom env maxTasks currentMin r).workersAvailable ⊆ pass.workersAvailable := by
  cases hfind : pass.state.rooms.find? r with
  | none =>
      rw [AssignPass.processRoom, hfind]
      exact List.Subset.refl _
  | some room =>
      obtain ⟨hroom, rfl⟩ := Keyed.find?_eq_some.mp hfind
      by_cases hmax : room.currentConnections < maxTasks
      · rw [workersAvailable_processRoom hroom hmax]
        exact fun w hw => (offerRoom_kept hw).1
      · rw [processRoom_of_mem hroom, if_neg hmax, workersAvailable_rebalance]
        exact List.Subset.refl _

theorem Pointing.processRoom (h : Pointing pass) (r : RoomId) :
    Pointing (pass.processRoom env maxTasks currentMin r) :=
  h.of_moves workersAvailable_processRoom_subset
    (processRoom_moves currentMin fun _ _ _ _ _ _ _ => trivial)

theorem conserving (env : Env) (t : Scheduler) : EveryTurn env (Conserves env) t := by
  refine Runs.everyStep_of (P := fun _ _ => True) ?_ ?_ (pointing_assignStart env t)
    (Runs.everyStep_of_forall (fun _ _ => trivial) _ _)
  · exact fun r pass hpoint _ => hpoint.processRoom r
  · exact fun r pass hpoint _ => conserves_processRoom hpoint r

theorem run_conserving (config : Config) (inputs : List Input) :
    EveryPass (fun env t => EveryTurn env (Conserves env) t) config inputs :=
  everyPass_of (fun env t _ _ => conserving env t) config inputs

-- The tasks as they are right after the turn, whatever has been unassigned in it.
def HoldsAfter (env : Env) (maxTasks currentMin : Int) (roomId : RoomId) (pass : AssignPass) : Prop :=
  ∀ room ∈ pass.state.rooms, room.roomId = roomId → GoesWithout env maxTasks currentMin pass room →
    ∀ w ∈ (pass.processRoom env maxTasks currentMin roomId).workersAvailable,
      (pass.processRoom env maxTasks currentMin roomId).state.Serves w roomId

instance (env : Env) (maxTasks currentMin : Int) (roomId : RoomId) (pass : AssignPass) :
    Decidable (HoldsAfter env maxTasks currentMin roomId pass) :=
  -- not as one of the finitely many identifiers
  have : Decidable (∀ w ∈ (pass.processRoom env maxTasks currentMin roomId).workersAvailable,
      (pass.processRoom env maxTasks currentMin roomId).state.Serves w roomId) := List.decidableBAll _ _
  inferInstanceAs (Decidable (∀ room ∈ pass.state.rooms.entries, _ → _ →
    ∀ w ∈ (pass.processRoom env maxTasks currentMin roomId).workersAvailable, _))

-- Both workers serve the first room when the second room appears, and the first
-- one, which has room for it, takes it too.
def spareInputs : List Input :=
  [{ env := .at 0, event := .accept .accepted [1] },
    { env := .at 0, event := .accept .accepted [2] },
    { env := .at 0, event := .updateRoomLists [1] },
    { env := .at 0, event := .payload 1 (plainReady 3) },
    { env := .at 0, event := .payload 2 (plainReady 1) },
    { env := .at (seconds 10), event := .tick .expired },
    { env := .at (seconds 12), event := .tick .expired },
    { env := .at (seconds 12), event := .updateRoomLists [1, 2] },
    { env := .at (seconds 14), event := .tick .expired }]

-- In the turn of the first room that worker is passed over, since it serves the
-- room, and then loses it: the room has two tasks more than the minimum.
theorem run_holdsAfter_refuted :
    ¬∀ config inputs, EveryPass (fun env t => EveryTurn env (HoldsAfter env) t) config inputs := by
  intro h
  have hrun := h plainConfig spareInputs
  revert hrun
  decide

end Turn

end LiveReceptor.Supervisor.Scheduler

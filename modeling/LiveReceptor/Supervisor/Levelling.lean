import LiveReceptor.Supervisor.RoomList
import LiveReceptor.Library.Balancing

namespace LiveReceptor.Supervisor.Scheduler

def Serves (s : Scheduler) (worker : Identifier) (roomId : RoomId) : Prop :=
  s.tasks.HasKey (worker, roomId)

instance (s : Scheduler) (worker : Identifier) (roomId : RoomId) : Decidable (s.Serves worker roomId) :=
  inferInstanceAs (Decidable (s.tasks.HasKey _))

-- The number of tasks that the room has.
def load (s : Scheduler) (roomId : RoomId) : Nat := s.tasks.count fun task => task.roomId = roomId

-- Unassigns the tasks, one after the other.
def drops (env : Env) (descRank : Bool) (tasks : List RoomTask) (s : Scheduler) : Scheduler :=
  tasks.foldl (fun s task =>
    (s.sendUnassign task.identifier task.roomId).deleteTask env task.identifier task.roomId descRank) s

def unassignOf (task : RoomTask) : Effect := .unassign task.identifier task.roomId

@[simp] theorem drops_cons (env : Env) (descRank : Bool) (task : RoomTask) (rest : List RoomTask)
    (s : Scheduler) : s.drops env descRank (task :: rest) =
      ((s.sendUnassign task.identifier task.roomId).deleteTask env task.identifier task.roomId
        descRank).drops env descRank rest := rfl

variable {env : Env} {s s' t : Scheduler} {v w : Identifier} {r q : RoomId} {d : Bool}
  {tasks : List RoomTask}

section Loads

def servers (s : Scheduler) (roomId : RoomId) : List Identifier :=
  (s.tasks.filter fun task => task.roomId = roomId).entries.map RoomTask.identifier

theorem length_servers : (s.servers r).length = s.load r := by
  rw [servers, List.length_map, load, Keyed.count, List.countP_eq_length_filter]
  rfl

theorem mem_servers : w ∈ s.servers r ↔ s.Serves w r := by
  simp only [servers, List.mem_map, Keyed.entries_filter, List.mem_filter, decide_eq_true_eq]
  constructor
  · rintro ⟨task, ⟨ht, rfl⟩, rfl⟩
    exact .of_mem ht
  · rintro ⟨task, ht, hk⟩
    cases hk
    exact ⟨task, ⟨ht, rfl⟩, rfl⟩

theorem nodup_servers : (s.servers r).Nodup := by
  refine List.Nodup.map_on ?_ (List.Nodup.of_map RoomTask.key (Keyed.nodup _))
  intro a ha b hb hid
  have hroom : a.roomId = b.roomId := by
    have ha' : a.roomId = r := by simpa using (List.mem_filter.mp ha).2
    have hb' : b.roomId = r := by simpa using (List.mem_filter.mp hb).2
    exact ha'.trans hb'.symm
  exact Keyed.eq_of_key_eq (List.mem_filter.mp ha).1 (List.mem_filter.mp hb).1 (Prod.ext hid hroom)

theorem load_le_of_serves (h : ∀ w, s'.Serves w r → s.Serves w r) : s'.load r ≤ s.load r := by
  rw [← length_servers, ← length_servers]
  exact (List.subperm_of_subset nodup_servers fun w hw => mem_servers.mpr (h w (mem_servers.mp hw))).length_le

theorem load_congr (h : ∀ w, s'.Serves w r ↔ s.Serves w r) : s'.load r = s.load r :=
  le_antisymm (load_le_of_serves fun w => (h w).mp) (load_le_of_serves fun w => (h w).mpr)

theorem load_lt_of_serves (h : ∀ w, s'.Serves w r → s.Serves w r) (hw : s.Serves w r)
    (hw' : ¬s'.Serves w r) : s'.load r < s.load r := by
  rw [← length_servers, ← length_servers]
  have hnodup : (w :: s'.servers r).Nodup := List.nodup_cons.mpr ⟨mt mem_servers.mp hw', nodup_servers⟩
  refine (List.subperm_of_subset hnodup fun v hv => ?_).length_le
  rcases List.mem_cons.mp hv with rfl | hv
  · exact mem_servers.mpr hw
  · exact mem_servers.mpr (h v (mem_servers.mp hv))

-- A worker counts once in the load of a room.
theorem load_le_workers (hinv : Inv s) (r : RoomId) : s.load r ≤ s.workers.entries.length := by
  rw [← length_servers, ← List.length_map (f := WorkerStatus.identifier)]
  refine (List.subperm_of_subset nodup_servers fun w hw => ?_).length_le
  obtain ⟨task, ht, hk⟩ := mem_servers.mp hw
  obtain ⟨worker, hworker, hi, -⟩ := hinv.taskWorker task ht
  have hw : task.identifier = w := congrArg Prod.fst hk
  exact List.mem_map.mpr ⟨worker, hworker, hi.trans hw⟩

-- In a balanced state the counter of a room is its load.
theorem Balanced.count_eq (h : Balanced s) {room : RoomStatus} (hroom : room ∈ s.rooms) :
    room.currentConnections = s.load room.roomId := Int.sub_eq_zero.mp (h room hroom)

theorem serves_addTask : (s.addTask env w r).Serves v q ↔ s.Serves v q ∨ (v = w ∧ q = r) := by
  rw [Serves, tasks_addTask, Keyed.hasKey_insert]
  exact or_congr_right Prod.ext_iff

theorem load_addTask (hnew : ¬s.Serves w r) : (s.addTask env w r).load r = s.load r + 1 := by
  have hkey : ¬s.tasks.HasKey (RoomTask.key ⟨w, r, env.now .check⟩) := hnew
  rw [load, tasks_addTask, Keyed.count_insert hkey, if_pos (by simp), load]

theorem serves_drops : (s.drops env d tasks).Serves w r ↔
    s.Serves w r ∧ ∀ task ∈ tasks, task.key ≠ (w, r) := by
  constructor
  · rintro ⟨task, ht, hk⟩
    obtain ⟨hs, hne⟩ := (mem_tasks_foldl_drop d tasks s).mp ht
    exact ⟨⟨task, hs, hk⟩, fun other ho he => hne other ho (hk.trans he.symm)⟩
  · rintro ⟨⟨task, ht, hk⟩, hne⟩
    exact ⟨task, (mem_tasks_foldl_drop d tasks s).mpr ⟨ht, fun other ho he => hne other ho (he.symm.trans hk)⟩,
      hk⟩

theorem load_le_drops : s.load r ≤ (s.drops env d tasks).load r + tasks.length := by
  induction tasks generalizing s with
  | nil => exact le_refl _
  | cons task rest ih =>
      have hone : s.load r ≤ ((s.sendUnassign task.identifier task.roomId).deleteTask env task.identifier
          task.roomId d).load r + 1 := by
        rw [load, load, tasks_deleteTask, tasks_sendUnassign]
        by_cases hkey : s.tasks.HasKey (task.identifier, task.roomId)
        · obtain ⟨held, hheld, hk⟩ := hkey
          have hcount := Keyed.count_erase hheld fun task => task.roomId = r
          rw [hk] at hcount
          split at hcount <;> omega
        · rw [Keyed.erase_of_not_hasKey hkey]
          exact Nat.le_succ _
      have hrest := @ih ((s.sendUnassign task.identifier task.roomId).deleteTask env task.identifier
        task.roomId d)
      rw [drops_cons, List.length_cons]
      omega

-- The packets for workers without a connection get lost.
theorem trace_drops : (s.drops env d tasks).trace =
    s.trace ++ (tasks.filter fun task => s.manager.sockets.HasKey task.identifier).map unassignOf := by
  induction tasks generalizing s with
  | nil => exact (List.append_nil _).symm
  | cons task rest ih =>
      rw [drops_cons, ih, trace_deleteTask, trace_sendUnassign, manager_deleteTask, manager_sendUnassign,
        List.append_assoc]
      by_cases hsocket : s.manager.sockets.HasKey task.identifier
      · rw [if_pos hsocket, List.filter_cons_of_pos (by simp [hsocket])]
        rfl
      · rw [if_neg hsocket, List.filter_cons_of_neg (by simp [hsocket]), List.nil_append]

end Loads

section Adjusts

-- An assign comes with a load that rises, an unassign with one that falls.
def Accounts (s s' : Scheduler) : Effect → Prop
  | .assign _ r => s.load r < s'.load r
  | .unassign _ r => s'.load r < s.load r
  | _ => True

theorem accounts_assign : Accounts s s' (.assign w r) ↔ s.load r < s'.load r := Iff.rfl

theorem accounts_unassign : Accounts s s' (.unassign w r) ↔ s'.load r < s.load r := Iff.rfl

-- Only the tasks of these rooms change, and the packets sent tell how.
structure Adjusts (rooms : List RoomId) (s s' : Scheduler) : Prop where
  frame : ∀ r ∉ rooms, ∀ w, s'.Serves w r ↔ s.Serves w r
  trace : ∃ effects, s'.trace = s.trace ++ effects ∧ ∀ effect ∈ effects, Accounts s s' effect

theorem Adjusts.refl {rooms : List RoomId} : Adjusts rooms s s where
  frame _ _ _ := Iff.rfl
  trace := ⟨[], (List.append_nil _).symm, by simp⟩

theorem Adjusts.load_eq {rooms : List RoomId} (h : Adjusts rooms s s') (hr : r ∉ rooms) :
    s'.load r = s.load r := load_congr (h.frame r hr)

-- What one part tells about its rooms, the other part leaves true.
theorem Adjusts.trans {rooms others : List RoomId} (h : Adjusts rooms s s') (h' : Adjusts others s' t)
    (hdisjoint : ∀ r ∈ rooms, r ∉ others) : Adjusts (rooms ++ others) s t := by
  have hkeep : ∀ r, s'.load r ≠ s.load r → t.load r = s'.load r := fun r hr =>
    h'.load_eq (hdisjoint r (by_contra fun hn => hr (h.load_eq hn)))
  have hkeep' : ∀ r, t.load r ≠ s'.load r → s'.load r = s.load r := fun r hr =>
    by_contra fun hn => hr (hkeep r hn)
  constructor
  · intro r hr w
    rw [List.mem_append, not_or] at hr
    exact (h'.frame r hr.2 w).trans (h.frame r hr.1 w)
  · obtain ⟨first, hfirst, haccounts⟩ := h.trace
    obtain ⟨next, hnext, haccounts'⟩ := h'.trace
    refine ⟨first ++ next, by rw [hnext, hfirst, List.append_assoc], fun effect he => ?_⟩
    rcases List.mem_append.mp he with he | he
    · have heffect := haccounts effect he
      cases effect with
      | assign w r => rwa [accounts_assign, hkeep r (Nat.ne_of_gt heffect)]
      | unassign w r => rwa [accounts_unassign, hkeep r (Nat.ne_of_lt heffect)]
      | _ => trivial
    · have heffect := haccounts' effect he
      cases effect with
      | assign w r => rwa [accounts_assign, ← hkeep' r (Nat.ne_of_gt heffect)]
      | unassign w r => rwa [accounts_unassign, ← hkeep' r (Nat.ne_of_lt heffect)]
      | _ => trivial

theorem adjusts_drops (hroom : ∀ task ∈ tasks, task ∈ s.tasks ∧ task.roomId = r) :
    Adjusts [r] s (s.drops env d tasks) := by
  constructor
  · intro q hq w
    refine serves_drops.trans (and_iff_left fun task ht hk => hq ?_)
    have htask : task.roomId = q := congrArg Prod.snd hk
    exact List.mem_singleton.mpr (htask.symm.trans (hroom task ht).2)
  · refine ⟨_, trace_drops, fun effect he => ?_⟩
    obtain ⟨task, hsent, rfl⟩ := List.mem_map.mp he
    have ht := (List.mem_filter.mp hsent).1
    exact load_lt_of_serves (fun w hw => (serves_drops.mp hw).1) (.of_mem (hroom task ht).1)
      fun hw => (serves_drops.mp hw).2 task ht rfl

theorem adjusts_addTask (hnew : ¬s.Serves w r) : Adjusts [r] s (s.addTask env w r) := by
  constructor
  · intro q hq v
    exact serves_addTask.trans (or_iff_left fun he => hq (List.mem_singleton.mpr he.2))
  · refine ⟨_, trace_addTask, fun effect he => ?_⟩
    split at he
    · obtain rfl := List.mem_singleton.mp he
      rw [accounts_assign, load_addTask hnew]
      exact Nat.lt_succ_self _
    · cases he

end Adjusts

section Collect

theorem mem_tasksByRoom (order : Arrangement RoomTask) {task : RoomTask} :
    task ∈ order.arrange (s.tasks.entries.filter fun task => task.roomId = r) ↔
      task ∈ s.tasks ∧ task.roomId = r := by
  rw [order.mem_arrange, List.mem_filter, decide_eq_true_eq]
  rfl

theorem adjusts_deleteInactiveRoom (roomId : RoomId) :
    Adjusts [roomId] s (s.deleteInactiveRoom env roomId) := by
  have h : Adjusts [roomId] s (s.drops env true
      (env.tasksByRoom.arrange (s.tasks.entries.filter fun task => task.roomId = roomId))) :=
    adjusts_drops fun task ht => (mem_tasksByRoom env.tasksByRoom).mp ht
  exact ⟨h.frame, h.trace⟩

theorem serves_of_deleteInactiveRoom {roomId : RoomId}
    (h : (s.deleteInactiveRoom env roomId).Serves w r) : s.Serves w r :=
  (serves_drops.mp h).1

variable {rooms : List RoomStatus} {scan : RoomScan}

theorem serves_of_foldl_visit (h : (rooms.foldl (RoomScan.visit env) scan).state.Serves w r) :
    scan.state.Serves w r := by
  induction rooms generalizing scan with
  | nil => exact h
  | cons room rest ih =>
      have hvisit := ih h
      rw [RoomScan.visit] at hvisit
      split at hvisit
      · exact hvisit
      · exact serves_of_deleteInactiveRoom hvisit

theorem adjusts_foldl_visit (hnodup : (rooms.map RoomStatus.roomId).Nodup) :
    Adjusts ((rooms.filter fun room => !room.active).map RoomStatus.roomId) scan.state
      (rooms.foldl (RoomScan.visit env) scan).state := by
  induction rooms generalizing scan with
  | nil => exact .refl
  | cons room rest ih =>
      obtain ⟨hnotin, hrest⟩ := List.nodup_cons.mp hnodup
      have htail := @ih (scan.visit env room) hrest
      rw [RoomScan.visit] at htail
      rw [List.foldl_cons, RoomScan.visit]
      cases hactive : room.active with
      | true =>
          simp only [hactive, if_true] at htail ⊢
          rwa [List.filter_cons_of_neg (by simp [hactive])]
      | false =>
          simp only [hactive, Bool.false_eq_true, if_false] at htail ⊢
          rw [List.filter_cons_of_pos (by simp [hactive])]
          refine (adjusts_deleteInactiveRoom room.roomId).trans htail fun r hr hother => hnotin ?_
          obtain rfl := List.mem_singleton.mp hr
          obtain ⟨other, ho, he⟩ := List.mem_map.mp hother
          exact List.mem_map.mpr ⟨other, (List.mem_filter.mp ho).1, he⟩

theorem roomNeedProc_foldl_visit : (rooms.foldl (RoomScan.visit env) scan).roomNeedProc =
    scan.roomNeedProc ++ rooms.filter RoomStatus.active := by
  induction rooms generalizing scan with
  | nil => exact (List.append_nil _).symm
  | cons room rest ih =>
      rw [List.foldl_cons, ih, RoomScan.visit]
      cases hactive : room.active with
      | true => simp [hactive]
      | false => simp [hactive]

-- The minimum is where it started, or the count of an active room.
theorem currentMin_foldl_visit :
    (rooms.foldl (RoomScan.visit env) scan).currentMinTasksPerRoom = scan.currentMinTasksPerRoom ∨
      ∃ room ∈ rooms, room.active = true ∧
        room.currentConnections = (rooms.foldl (RoomScan.visit env) scan).currentMinTasksPerRoom := by
  induction rooms generalizing scan with
  | nil => exact Or.inl rfl
  | cons room rest ih =>
      rw [List.foldl_cons]
      obtain heq | ⟨other, ho, hactive, heq⟩ := @ih (scan.visit env room)
      · rw [heq, RoomScan.visit]
        cases hactive : room.active with
        | true =>
            rw [if_pos rfl]
            rcases le_total scan.currentMinTasksPerRoom room.currentConnections with hle | hle
            · exact Or.inl (min_eq_left hle)
            · exact Or.inr ⟨room, List.mem_cons_self, hactive, (min_eq_right hle).symm⟩
        | false => exact Or.inl rfl
      · exact Or.inr ⟨other, List.mem_cons_of_mem _ ho, hactive, heq⟩

end Collect

section Process

variable {roomId : RoomId} {erasing : Bool} {workers : List Identifier}

-- A worker stays in the list only behind the one that is given the room, or when
-- it serves the room.
theorem offerRoom_kept (hw : w ∈ (offerRoom env roomId erasing workers s).1) :
    w ∈ workers ∧ (taker roomId s workers = none → s.Serves w roomId) := by
  induction workers generalizing erasing with
  | nil => cases hw
  | cons worker rest ih =>
      rw [offerRoom] at hw
      rw [taker_cons]
      cases hd : s.dropped worker with
      | true =>
          rw [hd, if_pos rfl] at hw
          obtain ⟨hmem, hserves⟩ := ih hw
          exact ⟨List.mem_cons_of_mem _ hmem, by simpa using hserves⟩
      | false =>
          by_cases ht : s.tasks.HasKey (worker, roomId)
          · simp only [hd, assignTask, ht, Bool.false_eq_true, if_false, if_true] at hw
            rcases List.mem_cons.mp hw with rfl | hw
            · exact ⟨List.mem_cons_self, fun _ => ht⟩
            · obtain ⟨hmem, hserves⟩ := ih hw
              exact ⟨List.mem_cons_of_mem _ hmem, by simpa [ht] using hserves⟩
          · simp only [hd, assignTask, ht, Bool.false_eq_true, if_false] at hw
            exact ⟨hw, by simp [ht]⟩

theorem offerRoom_nextRoom (h : taker roomId s workers = some w) :
    (offerRoom env roomId erasing workers s).2.2 = true := by
  induction workers generalizing erasing with
  | nil => cases h
  | cons worker rest ih =>
      rw [taker_cons] at h
      rw [offerRoom]
      cases hd : s.dropped worker with
      | true => exact ih (by simpa [hd] using h)
      | false =>
          by_cases ht : s.tasks.HasKey (worker, roomId)
          · simpa [assignTask, ht] using @ih false (by simpa [ht] using h)
          · simp [assignTask, ht]

theorem unassignOverkill_eq (tasks : List RoomTask) (overkill throttling : Int) :
    ∃ dropped, dropped.Sublist tasks ∧
      (dropped ≠ [] → (dropped.length : Int) ≤ overkill ∧ (dropped.length : Int) ≤ throttling) ∧
      unassignOverkill env tasks overkill throttling s =
        (throttling - dropped.length, s.drops env false dropped) := by
  induction tasks generalizing overkill throttling s with
  | nil => exact ⟨[], .slnil, by simp, by simp [unassignOverkill, drops]⟩
  | cons task rest ih =>
      rw [unassignOverkill]
      split
      · rename_i hover
        obtain ⟨dropped, hsub, hlength, heq⟩ := @ih ((s.sendUnassign task.identifier task.roomId).deleteTask
          env task.identifier task.roomId false) (overkill - 1) (throttling - 1)
        refine ⟨task :: dropped, hsub.cons_cons task, fun _ => ?_, ?_⟩
        · rw [List.length_cons]
          cases dropped with
          | nil =>
              simp only [List.length_nil]
              omega
          | cons next more =>
              have := hlength (List.cons_ne_nil _ _)
              omega
        · rw [heq, drops_cons, List.length_cons]
          congr 1
          omega
      · exact ⟨[], List.nil_sublist _, by simp, by simp [drops]⟩

theorem rebalance_eq (maxTasks currentMin : Int) (room : RoomStatus) (pass : AssignPass) :
    ∃ dropped, (∀ task ∈ dropped, task ∈ pass.state.tasks ∧ task.roomId = room.roomId) ∧
      (dropped ≠ [] → (dropped.length : Int) ≤ overkill maxTasks currentMin room ∧
        (dropped.length : Int) ≤ pass.roomDisconnectThrottling) ∧
      pass.rebalance env maxTasks currentMin room =
        { pass with
          state := pass.state.drops env false dropped
          roomDisconnectThrottling := pass.roomDisconnectThrottling - dropped.length } := by
  rw [AssignPass.rebalance]
  dsimp only
  split
  · obtain ⟨dropped, hsub, hlength, heq⟩ := @unassignOverkill_eq env pass.state
      (env.tasksByRoom.arrange (pass.state.tasks.entries.filter fun task => task.roomId = room.roomId))
      (overkill maxTasks currentMin room) pass.roomDisconnectThrottling
    rw [heq]
    exact ⟨dropped, fun task ht => (mem_tasksByRoom env.tasksByRoom).mp (hsub.subset ht), hlength, rfl⟩
  · exact ⟨[], by simp, by simp, by simp [drops]⟩

end Process

section Loop

-- What a stretch of the loop over `room_need_proc` does to its rooms. A worker
-- that is given a room has been offered the rooms with fewer tasks before.
structure Processed (maxTasks currentMin : Int) (rooms : List RoomId) (pass pass' : AssignPass) :
    Prop where
  workers : pass'.workersAvailable ⊆ pass.workersAvailable
  adjusts : Adjusts rooms pass.state pass'.state
  oneWay : ∀ r ∈ rooms, (∀ w, pass.state.Serves w r → pass'.state.Serves w r) ∨
    ∀ w, pass'.state.Serves w r → pass.state.Serves w r
  stay : ∀ r ∈ rooms, pass'.state.load r = pass.state.load r → pass.state.load r < maxTasks →
    ∀ w ∈ pass'.workersAvailable, pass.state.Serves w r
  shrink : ∀ r ∈ rooms, pass'.state.load r < pass.state.load r →
    maxTasks ≤ pass'.state.load r ∨ currentMin < pass'.state.load r
  grow : ∀ r ∈ rooms, pass.state.load r < pass'.state.load r → pass.state.load r < maxTasks ∧
    ∃ w ∈ pass.workersAvailable, pass'.state.Serves w r ∧ ¬pass.state.Serves w r ∧
      ∀ q ∈ rooms, pass.state.load q < pass.state.load r → pass'.state.load q = pass.state.load q →
        pass.state.Serves w q

variable {maxTasks currentMin : Int} {pass pass' pass₁ pass₂ : AssignPass} {room : RoomStatus}
  {rooms rest : List RoomId}

theorem Processed.of_subset (h : Processed maxTasks currentMin rooms pass₁ pass')
    (hstate : pass₁.state = pass.state) (hworkers : pass₁.workersAvailable ⊆ pass.workersAvailable) :
    Processed maxTasks currentMin rooms pass pass' := by
  obtain ⟨hsub, hadjusts, honeWay, hstay, hshrink, hgrow⟩ := h
  rw [hstate] at hadjusts honeWay hstay hshrink hgrow
  refine ⟨fun w hw => hworkers (hsub hw), hadjusts, honeWay, hstay, hshrink, fun r hr hless => ?_⟩
  obtain ⟨hmax, w, hw, hserves⟩ := hgrow r hr hless
  exact ⟨hmax, w, hworkers hw, hserves⟩

-- A room that no worker was given may lose the tasks that it has too many.
theorem processed_rebalance (hload : room.currentConnections = pass.state.load room.roomId)
    (hserves : pass.state.load room.roomId < maxTasks →
      ∀ w ∈ pass.workersAvailable, pass.state.Serves w room.roomId) :
    Processed maxTasks currentMin [room.roomId] pass (pass.rebalance env maxTasks currentMin room) := by
  obtain ⟨dropped, hroom, hlength, heq⟩ := @rebalance_eq env maxTasks currentMin room pass
  have hstate := congrArg AssignPass.state heq
  have hworkers := congrArg AssignPass.workersAvailable heq
  dsimp only at hstate hworkers
  have hsubset : ∀ w, (pass.rebalance env maxTasks currentMin room).state.Serves w room.roomId →
      pass.state.Serves w room.roomId := by
    rw [hstate]
    exact fun w hw => (serves_drops.mp hw).1
  constructor
  · rw [hworkers]
    exact List.Subset.refl _
  · rw [hstate]
    exact adjusts_drops hroom
  · intro r hr
    obtain rfl := List.mem_singleton.mp hr
    exact Or.inr hsubset
  · rintro r hr - hmax w hw
    obtain rfl := List.mem_singleton.mp hr
    exact hserves hmax w (hworkers ▸ hw)
  · intro r hr hless
    obtain rfl := List.mem_singleton.mp hr
    have hlost : pass.state.load room.roomId ≤
        (pass.rebalance env maxTasks currentMin room).state.load room.roomId + dropped.length := by
      rw [hstate]
      exact load_le_drops
    have hne : dropped ≠ [] := by
      rintro rfl
      rw [List.length_nil] at hlost
      omega
    have hover := (hlength hne).1
    rw [overkill, hload] at hover
    rcases le_total ((pass.state.load room.roomId : Int) - maxTasks)
      (pass.state.load room.roomId - currentMin - 1) with hmin | hmax
    · rw [max_eq_right hmin] at hover
      exact Or.inr (by omega)
    · rw [max_eq_left hmax] at hover
      exact Or.inl (by omega)
  · intro r hr hless
    obtain rfl := List.mem_singleton.mp hr
    exact absurd (load_le_of_serves hsubset) (Nat.not_le.mpr hless)

theorem processed_addTask {kept : List Identifier} (hkept : kept ⊆ pass.workersAvailable)
    (hw : w ∈ pass.workersAvailable) (hnew : ¬pass.state.Serves w r) (hmax : pass.state.load r < maxTasks) :
    Processed maxTasks currentMin [r] pass
      { pass with state := pass.state.addTask env w r, workersAvailable := kept } := by
  have hload : (pass.state.addTask env w r).load r = pass.state.load r + 1 := load_addTask hnew
  constructor
  · exact hkept
  · exact adjusts_addTask hnew
  · exact fun q _ => Or.inl fun v hv => serves_addTask.mpr (Or.inl hv)
  · intro q hq hsame
    obtain rfl := List.mem_singleton.mp hq
    dsimp only at hsame
    omega
  · intro q hq hless
    obtain rfl := List.mem_singleton.mp hq
    dsimp only at hless
    omega
  · intro q hq hless
    obtain rfl := List.mem_singleton.mp hq
    refine ⟨hmax, w, hw, serves_addTask.mpr (Or.inr ⟨rfl, rfl⟩), hnew, fun p hp hfewer => ?_⟩
    obtain rfl := List.mem_singleton.mp hp
    exact absurd hfewer (Nat.lt_irrefl _)

theorem processed_processRoom (hbalanced : Balanced pass.state) (hknown : pass.state.rooms.HasKey r) :
    Processed maxTasks currentMin [r] pass (pass.processRoom env maxTasks currentMin r) := by
  rw [AssignPass.processRoom]
  split
  · rename_i hfind
    exact absurd hknown (Keyed.find?_eq_none.mp hfind)
  · rename_i room hfind
    obtain ⟨hroom, rfl⟩ := Keyed.find?_eq_some.mp hfind
    have hload := hbalanced.count_eq hroom
    by_cases hmax : maxTasks > room.currentConnections
    · rw [if_pos hmax]
      dsimp only
      have hkept : ∀ w ∈ (offerRoom env room.roomId false pass.workersAvailable pass.state).1,
          w ∈ pass.workersAvailable ∧ (taker room.roomId pass.state pass.workersAvailable = none →
            pass.state.Serves w room.roomId) := fun w => offerRoom_kept
      cases ht : taker room.roomId pass.state pass.workersAvailable with
      | none =>
          have hstate : (offerRoom env room.roomId false pass.workersAvailable pass.state).2.1 =
              pass.state := by
            rw [offerRoom_state, ht]
          rw [hstate]
          split
          · exact ⟨fun w hw => (hkept w hw).1, .refl, fun _ _ => Or.inl fun _ hw => hw,
              fun r hr _ _ w hw => List.mem_singleton.mp hr ▸ (hkept w hw).2 ht,
              fun r hr hless => absurd hless (Nat.lt_irrefl _),
              fun r hr hless => absurd hless (Nat.lt_irrefl _)⟩
          · refine Processed.of_subset (processed_rebalance hload fun _ w hw => ?_) rfl fun w hw => ?_
            · exact (hkept w hw).2 ht
            · exact (hkept w hw).1
      | some worker =>
          have hstate : (offerRoom env room.roomId false pass.workersAvailable pass.state).2.1 =
              pass.state.addTask env worker room.roomId := by
            rw [offerRoom_state, ht]
          rw [hstate, offerRoom_nextRoom ht, if_pos rfl]
          exact processed_addTask (fun w hw => (hkept w hw).1) (List.mem_of_find?_eq_some ht)
            (taker_eq_some ht).2 (hload ▸ hmax)
    · rw [if_neg hmax]
      exact processed_rebalance hload fun hless => absurd (hload ▸ hless) hmax

-- One room after the other, those with fewer tasks first.
theorem Processed.cons (h : Processed maxTasks currentMin [r] pass pass₁)
    (h' : Processed maxTasks currentMin rest pass₁ pass₂) (hr : r ∉ rest)
    (hsorted : ∀ q ∈ rest, pass.state.load r ≤ pass.state.load q) :
    Processed maxTasks currentMin (r :: rest) pass pass₂ := by
  have hhead : pass₂.state.load r = pass₁.state.load r := h'.adjusts.load_eq hr
  have hne : ∀ q ∈ rest, q ∉ [r] := fun q hq he => hr (List.mem_singleton.mp he ▸ hq)
  have htail : ∀ q ∈ rest, pass₁.state.load q = pass.state.load q := fun q hq =>
    h.adjusts.load_eq (hne q hq)
  have hframe : ∀ q ∈ rest, ∀ w, pass₁.state.Serves w q ↔ pass.state.Serves w q := fun q hq =>
    h.adjusts.frame q (hne q hq)
  constructor
  · exact fun w hw => h.workers (h'.workers hw)
  · exact h.adjusts.trans h'.adjusts fun q hq => List.mem_singleton.mp hq ▸ hr
  · intro q hq
    rcases List.mem_cons.mp hq with rfl | hq
    · simp only [h'.adjusts.frame q hr]
      exact h.oneWay q (List.mem_singleton_self q)
    · simp only [← hframe q hq]
      exact h'.oneWay q hq
  · intro q hq hsame hmax w hw
    rcases List.mem_cons.mp hq with rfl | hq
    · exact h.stay q (List.mem_singleton_self q) (hhead ▸ hsame) hmax w (h'.workers hw)
    · rw [← htail q hq] at hsame hmax
      exact (hframe q hq w).mp (h'.stay q hq hsame hmax w hw)
  · intro q hq hless
    rcases List.mem_cons.mp hq with rfl | hq
    · rw [hhead] at hless ⊢
      exact h.shrink q (List.mem_singleton_self q) hless
    · rw [← htail q hq] at hless
      exact h'.shrink q hq hless
  · intro q hq hless
    rcases List.mem_cons.mp hq with rfl | hq
    · rw [hhead] at hless
      obtain ⟨hmax, w, hw, hserves, hnew, -⟩ := h.grow q (List.mem_singleton_self q) hless
      refine ⟨hmax, w, hw, (h'.adjusts.frame q hr w).mpr hserves, hnew, fun p hp hfewer => ?_⟩
      rcases List.mem_cons.mp hp with rfl | hp
      · exact absurd hfewer (Nat.lt_irrefl _)
      · exact absurd (hsorted p hp) (Nat.not_le.mpr hfewer)
    · rw [← htail q hq] at hless
      obtain ⟨hmax, w, hw, hserves, hnew, hbelow⟩ := h'.grow q hq hless
      rw [htail q hq] at hmax
      refine ⟨hmax, w, h.workers hw, hserves, mt (hframe q hq w).mpr hnew, fun p hp hfewer hsame => ?_⟩
      rcases List.mem_cons.mp hp with rfl | hp
      · have hp : (pass.state.load p : Int) < maxTasks :=
          (Int.ofNat_lt.mpr hfewer).trans hmax
        exact h.stay p (List.mem_singleton_self p) (hhead ▸ hsame) hp w hw
      · rw [← htail p hp] at hfewer hsame
        rw [← htail q hq] at hfewer
        exact (hframe p hp w).mp (hbelow p hp hfewer hsame)

theorem processed_foldl (hbalanced : Balanced pass.state)
    (hknown : ∀ r ∈ rooms, pass.state.rooms.HasKey r) (hnodup : rooms.Nodup)
    (hsorted : rooms.Pairwise fun a b => pass.state.load a ≤ pass.state.load b) :
    Processed maxTasks currentMin rooms pass
      (rooms.foldl (AssignPass.processRoom env maxTasks currentMin) pass) := by
  induction rooms generalizing pass with
  | nil => exact ⟨List.Subset.refl _, .refl, by simp, by simp, by simp, by simp⟩
  | cons r rest ih =>
      obtain ⟨hnotin, hrest⟩ := List.nodup_cons.mp hnodup
      obtain ⟨hfirst, hsorted⟩ := List.pairwise_cons.mp hsorted
      have hturn : Processed maxTasks currentMin [r] pass (pass.processRoom env maxTasks currentMin r) :=
        processed_processRoom hbalanced (hknown r List.mem_cons_self)
      have hmoves : PassMoves env Unguarded .assign pass.state
          (pass.processRoom env maxTasks currentMin r).state :=
        processRoom_moves currentMin fun _ _ _ _ _ _ _ => trivial
      have htail : ∀ q ∈ rest, (pass.processRoom env maxTasks currentMin r).state.load q =
          pass.state.load q := fun q hq =>
        hturn.adjusts.load_eq fun he => hnotin (List.mem_singleton.mp he ▸ hq)
      refine hturn.cons (ih ?_ (fun q hq => ?_) hrest ?_) hnotin hfirst
      · exact moves_invariant (fun _ _ => Balanced.passMove (by simp)) hbalanced hmoves
      · obtain ⟨a, ha⟩ := hasKey_iff_inRoster.mp (hknown q (List.mem_cons_of_mem _ hq))
        exact hasKey_iff_inRoster.mpr ⟨a, (inRoster_passMoves (by simp) hmoves).mpr ha⟩
      · refine hsorted.imp_of_mem fun {a b} ha hb hle => ?_
        rwa [htail a ha, htail b hb]

end Loop

end LiveReceptor.Supervisor.Scheduler

import LiveReceptor.Supervisor.Conserving

namespace LiveReceptor.Supervisor

def Effect.assigned : Effect → Option (Identifier × RoomId)
  | .assign identifier roomId => some (identifier, roomId)
  | _ => none

def Effect.unassigned : Effect → Option (Identifier × RoomId)
  | .unassign identifier roomId => some (identifier, roomId)
  | _ => none

namespace Scheduler

-- What the connection manager has been given to send between the two states.
def assignsSent (s s' : Scheduler) : List (Identifier × RoomId) :=
  (s'.trace.drop s.trace.length).filterMap Effect.assigned

def unassignsSent (s s' : Scheduler) : List (Identifier × RoomId) :=
  (s'.trace.drop s.trace.length).filterMap Effect.unassigned

variable {env : Env} {s s' t : Scheduler} {r : RoomId} {v w : Identifier} {pass pass' pass₁ pass₂ : AssignPass}
  {maxTasks currentMin : Int} {rooms rest : List RoomId} {given taken given' taken' : List (Identifier × RoomId)}

section Record

-- The tasks that are new and the tasks that are gone, and of no others has a
-- worker been told.
structure Record (s s' : Scheduler) (given taken : List (Identifier × RoomId)) : Prop where
  serves : ∀ w r, s'.Serves w r ↔ s.Serves w r ∧ (w, r) ∉ taken ∨ (w, r) ∈ given
  trace : ∃ effects, s'.trace = s.trace ++ effects ∧ (effects.filterMap Effect.assigned).Sublist given ∧
    (effects.filterMap Effect.unassigned).Sublist taken

theorem Record.refl (s : Scheduler) : Record s s [] [] where
  serves w r := by simp
  trace := ⟨[], (List.append_nil _).symm, .slnil, .slnil⟩

-- What the second part takes is not what the first one has given.
theorem Record.trans (h : Record s s' given taken) (h' : Record s' t given' taken')
    (hdisjoint : ∀ key ∈ given, key ∉ taken') : Record s t (given ++ given') (taken ++ taken') := by
  constructor
  · intro w r
    rw [h'.serves, h.serves, List.mem_append, List.mem_append]
    have := hdisjoint (w, r)
    tauto
  · obtain ⟨first, hfirst, hassigned, hunassigned⟩ := h.trace
    obtain ⟨next, hnext, hassigned', hunassigned'⟩ := h'.trace
    refine ⟨first ++ next, by rw [hnext, hfirst, List.append_assoc], ?_, ?_⟩
    · rw [List.filterMap_append]
      exact hassigned.append hassigned'
    · rw [List.filterMap_append]
      exact hunassigned.append hunassigned'

theorem record_addTask : Record s (s.addTask env w r) [(w, r)] [] where
  serves v q := by simp [serves_addTask]
  trace := by
    refine ⟨_, trace_addTask, ?_⟩
    split <;> simp [Effect.assigned, Effect.unassigned]

theorem record_drops (d : Bool) (tasks : List RoomTask) :
    Record s (s.drops env d tasks) [] (tasks.map RoomTask.key) where
  serves w r := by
    simp only [serves_drops, List.mem_map, List.not_mem_nil, or_false, not_exists, not_and]
  trace := by
    have hsub : ((tasks.filter fun task => s.manager.sockets.HasKey task.identifier).map unassignOf).Sublist
        (tasks.map unassignOf) := List.filter_sublist.map _
    refine ⟨_, trace_drops, ?_, ?_⟩
    · have hnone : (tasks.map unassignOf).filterMap Effect.assigned = [] := by
        simp [unassignOf, Effect.assigned]
      exact hnone ▸ hsub.filterMap Effect.assigned
    · have hall : (tasks.map unassignOf).filterMap Effect.unassigned = tasks.map RoomTask.key := by
        rw [List.filterMap_map, ← List.filterMap_eq_map]
        rfl
      exact hall ▸ hsub.filterMap Effect.unassigned

end Record

section Turn

-- The two things that the turn of a room can do, the second one to no task at all.
inductive Turn (env : Env) (roomId : RoomId) (pass pass' : AssignPass) : Prop
  | given (w : Identifier) (hw : w ∈ pass.workersAvailable) (hspare : pass.state.dropped w = false)
      (hstate : pass'.state = pass.state.addTask env w roomId)
      (hthrottling : pass'.roomDisconnectThrottling = pass.roomDisconnectThrottling)
  | taken (tasks : List RoomTask) (hroom : ∀ task ∈ tasks, task.roomId = roomId)
      (hstate : pass'.state = pass.state.drops env false tasks)
      (hfew : tasks ≠ [] → (tasks.length : Int) ≤ pass.roomDisconnectThrottling)
      (hthrottling : pass'.roomDisconnectThrottling = pass.roomDisconnectThrottling - tasks.length)

theorem Turn.refl : Turn env r pass pass :=
  .taken [] (by simp) rfl (by simp) (by simp)

theorem turn_rebalance {room : RoomStatus} (hstate : pass₁.state = pass.state)
    (hthrottling : pass₁.roomDisconnectThrottling = pass.roomDisconnectThrottling) :
    Turn env room.roomId pass (pass₁.rebalance env maxTasks currentMin room) := by
  obtain ⟨dropped, hroom, hlength, heq⟩ := @rebalance_eq env maxTasks currentMin room pass₁
  rw [heq]
  refine .taken dropped (fun task ht => (hroom task ht).2) (by rw [hstate]) (fun hne => ?_)
    (by rw [hthrottling])
  rw [← hthrottling]
  exact (hlength hne).2

theorem turn_processRoom (r : RoomId) : Turn env r pass (pass.processRoom env maxTasks currentMin r) := by
  cases hfind : pass.state.rooms.find? r with
  | none =>
      rw [AssignPass.processRoom, hfind]
      exact .refl
  | some room =>
      obtain ⟨hroom, rfl⟩ := Keyed.find?_eq_some.mp hfind
      rw [processRoom_of_mem hroom]
      have hoffered : (pass.offered env room.roomId).state = _ := offerRoom_state room.roomId false _ _
      by_cases hmax : room.currentConnections < maxTasks
      · rw [if_pos hmax]
        cases ht : taker room.roomId pass.state pass.workersAvailable with
        | none =>
            rw [ht] at hoffered
            split
            · exact .taken [] (by simp) hoffered (by simp) (by simp [AssignPass.offered])
            · exact turn_rebalance hoffered rfl
        | some w =>
            rw [ht] at hoffered
            rw [offerRoom_nextRoom ht, if_pos rfl]
            exact .given w (List.mem_of_find?_eq_some ht) (taker_eq_some ht).1 hoffered rfl
      · rw [if_neg hmax]
        exact turn_rebalance rfl rfl

end Turn

section Allowance

def remaining (s : Scheduler) (w : Identifier) : Int :=
  ((s.workers.find? w).map WorkerStatus.remainingThisBunch).getD 0

-- How many tasks the worker may still be given in the pass.
def AssignPass.allowance (pass : AssignPass) (w : Identifier) : Int :=
  if w ∈ pass.workersAvailable then max 0 (pass.state.remaining w) else 0

theorem remaining_of_update {f : WorkerStatus → WorkerStatus}
    {hf : ∀ worker, (f worker).identifier = worker.identifier} (h : s'.workers = s.workers.update f hf)
    (hkeep : ∀ worker, worker.identifier = w → (f worker).remainingThisBunch = worker.remainingThisBunch) :
    s'.remaining w = s.remaining w := by
  rw [remaining, remaining, h, Keyed.find?_update]
  cases hfind : s.workers.find? w with
  | none => rfl
  | some worker =>
      have hid := (Keyed.find?_eq_some.mp hfind).2
      exact hkeep worker hid

theorem remaining_deleteTask {i : Identifier} {d : Bool} :
    (s.deleteTask env i r d).remaining w = s.remaining w := by
  by_cases h : s.tasks.HasKey (i, r)
  · refine remaining_of_update (workers_deleteTask_of_hasKey h) fun worker _ => ?_
    split <;> rfl
  · rw [deleteTask_of_not_hasKey h]

theorem remaining_drops (d : Bool) (tasks : List RoomTask) :
    (s.drops env d tasks).remaining w = s.remaining w := by
  induction tasks generalizing s with
  | nil => rfl
  | cons task rest ih =>
      rw [drops_cons, ih, remaining_deleteTask, remaining, remaining, workers_sendUnassign]

theorem remaining_addTask_of_ne (h : v ≠ w) : (s.addTask env w r).remaining v = s.remaining v := by
  refine remaining_of_update workers_addTask fun worker hid => ?_
  rw [if_neg fun he => h (hid.symm.trans he)]

theorem remaining_addTask_self (h : s.workers.HasKey w) :
    (s.addTask env w r).remaining w = s.remaining w - 1 := by
  obtain ⟨worker, hworker, hid⟩ := h
  have hfind := Keyed.find?_eq_some.mpr ⟨hworker, hid⟩
  rw [remaining, remaining, workers_addTask, Keyed.modify, Keyed.find?_update, hfind]
  simp [hid]

theorem remaining_pos (h : s.dropped w = false) : 0 < s.remaining w := by
  obtain ⟨status, hstatus, hid, -, hpos⟩ := not_dropped h
  rw [remaining, Keyed.find?_eq_some.mpr ⟨hstatus, hid⟩]
  exact hpos

theorem hasKey_of_not_dropped (h : s.dropped w = false) : s.workers.HasKey w := by
  obtain ⟨status, hstatus, hid, -⟩ := not_dropped h
  exact ⟨status, hstatus, hid⟩

theorem allowance_nonneg : 0 ≤ pass.allowance w := by
  rw [AssignPass.allowance]
  split
  · exact le_max_left _ _
  · exact le_refl _

theorem allowance_mono (hworkers : pass'.workersAvailable ⊆ pass.workersAvailable)
    (hremaining : pass'.state.remaining w = pass.state.remaining w) :
    pass'.allowance w ≤ pass.allowance w := by
  rw [AssignPass.allowance]
  split
  · rename_i hw
    rw [AssignPass.allowance, if_pos (hworkers hw), hremaining]
  · exact allowance_nonneg

-- Giving a room to a worker uses up one of the tasks it may be given.
theorem allowance_given (hw : w ∈ pass.workersAvailable) (hspare : pass.state.dropped w = false)
    (hstate : pass'.state = pass.state.addTask env w r) : pass'.allowance w + 1 ≤ pass.allowance w := by
  have hpos := remaining_pos hspare
  have hless : pass'.state.remaining w = pass.state.remaining w - 1 := by
    rw [hstate]
    exact remaining_addTask_self (hasKey_of_not_dropped hspare)
  rw [AssignPass.allowance, AssignPass.allowance, if_pos hw, hless]
  split <;> omega

end Allowance

section Loop

-- What a stretch of the loop over `room_need_proc` has given and taken.
structure Rationed (rooms : List RoomId) (pass : AssignPass) (given taken : List (Identifier × RoomId)) :
    Prop where
  workers : ∀ w, ((given.map Prod.fst).count w : Int) ≤ pass.allowance w
  nodup : (given.map Prod.snd).Nodup
  apart : ∀ key ∈ given, key.2 ∉ taken.map Prod.snd
  few : (taken.length : Int) ≤ max 0 pass.roomDisconnectThrottling
  rooms : ∀ key ∈ given ++ taken, key.2 ∈ rooms

theorem Rationed.cons_given (h : Rationed rest pass' given taken) (hr : r ∉ rest)
    (hworkers : pass'.workersAvailable ⊆ pass.workersAvailable) (hw : w ∈ pass.workersAvailable)
    (hspare : pass.state.dropped w = false) (hstate : pass'.state = pass.state.addTask env w r)
    (hthrottling : pass'.roomDisconnectThrottling = pass.roomDisconnectThrottling) :
    Rationed (r :: rest) pass ((w, r) :: given) taken := by
  have hothers : ∀ key ∈ given ++ taken, key.2 ≠ r := fun key hk he => hr (he ▸ h.rooms key hk)
  constructor
  · intro v
    have hcount := h.workers v
    rw [List.map_cons, List.count_cons]
    by_cases hv : v = w
    · have hless := allowance_given hw hspare hstate
      simp only [hv] at hcount ⊢
      simp
      omega
    · have hle : pass'.allowance v ≤ pass.allowance v :=
        allowance_mono hworkers (by rw [hstate, remaining_addTask_of_ne hv])
      simp [Ne.symm hv]
      omega
  · rw [List.map_cons, List.nodup_cons]
    refine ⟨fun hmem => ?_, h.nodup⟩
    obtain ⟨key, hk, he⟩ := List.mem_map.mp hmem
    exact hothers key (List.mem_append_left _ hk) he
  · intro key hk
    rcases List.mem_cons.mp hk with rfl | hk
    · intro hmem
      obtain ⟨other, ho, he⟩ := List.mem_map.mp hmem
      exact hothers other (List.mem_append_right _ ho) he
    · exact h.apart key hk
  · rw [← hthrottling]
    exact h.few
  · intro key hk
    rcases List.mem_cons.mp hk with rfl | hk
    · exact List.mem_cons_self
    · exact List.mem_cons_of_mem _ (h.rooms key hk)

theorem Rationed.cons_taken {tasks : List RoomTask} (h : Rationed rest pass' given taken) (hr : r ∉ rest)
    (hworkers : pass'.workersAvailable ⊆ pass.workersAvailable) (hroom : ∀ task ∈ tasks, task.roomId = r)
    (hstate : pass'.state = pass.state.drops env false tasks)
    (hfew : tasks ≠ [] → (tasks.length : Int) ≤ pass.roomDisconnectThrottling)
    (hthrottling : pass'.roomDisconnectThrottling = pass.roomDisconnectThrottling - tasks.length) :
    Rationed (r :: rest) pass given (tasks.map RoomTask.key ++ taken) := by
  constructor
  · intro v
    exact (h.workers v).trans (allowance_mono hworkers (by rw [hstate, remaining_drops]))
  · exact h.nodup
  · intro key hk hmem
    rw [List.map_append, List.mem_append, List.map_map] at hmem
    rcases hmem with hmem | hmem
    · obtain ⟨task, ht, he⟩ := List.mem_map.mp hmem
      have hroom' : key.2 = r := he.symm.trans (hroom task ht)
      exact hr (hroom' ▸ h.rooms key (List.mem_append_left _ hk))
    · exact h.apart key hk hmem
  · have hrest := h.few
    rw [List.length_append, List.length_map]
    cases tasks with
    | nil =>
        rw [hthrottling] at hrest
        simpa using hrest
    | cons task more =>
        have := hfew (List.cons_ne_nil _ _)
        rw [hthrottling] at hrest
        push_cast at hrest this ⊢
        omega
  · intro key hk
    rcases List.mem_append.mp hk with hk | hk
    · exact List.mem_cons_of_mem _ (h.rooms key (List.mem_append_left _ hk))
    · rcases List.mem_append.mp hk with hk | hk
      · obtain ⟨task, ht, rfl⟩ := List.mem_map.mp hk
        exact List.mem_cons.mpr (Or.inl (hroom task ht))
      · exact List.mem_cons_of_mem _ (h.rooms key (List.mem_append_right _ hk))

theorem rationed_foldl (hnodup : rooms.Nodup) : ∃ given taken,
    Record pass.state (rooms.foldl (AssignPass.processRoom env maxTasks currentMin) pass).state given taken ∧
      Rationed rooms pass given taken := by
  induction rooms generalizing pass with
  | nil =>
      refine ⟨[], [], .refl _, fun w => ?_, List.nodup_nil, by simp, by simp, by simp⟩
      exact allowance_nonneg
  | cons r rest ih =>
      obtain ⟨hr, hrest⟩ := List.nodup_cons.mp hnodup
      obtain ⟨given, taken, hrecord, hrationed⟩ := @ih (pass.processRoom env maxTasks currentMin r) hrest
      have hworkers := @workersAvailable_processRoom_subset env r pass maxTasks currentMin
      rw [List.foldl_cons]
      have hturn : Turn env r pass (pass.processRoom env maxTasks currentMin r) := turn_processRoom r
      cases hturn with
      | given w hw hspare hstate hthrottling =>
          refine ⟨(w, r) :: given, taken, ?_, hrationed.cons_given hr hworkers hw hspare hstate hthrottling⟩
          have hfirst : Record pass.state (pass.processRoom env maxTasks currentMin r).state [(w, r)] [] :=
            hstate ▸ record_addTask
          refine hfirst.trans hrecord fun key hk htaken => ?_
          obtain rfl := List.mem_singleton.mp hk
          exact hr (hrationed.rooms _ (List.mem_append_right _ htaken))
      | taken tasks hroom hstate hfew hthrottling =>
          refine ⟨given, tasks.map RoomTask.key ++ taken, ?_,
            hrationed.cons_taken hr hworkers hroom hstate hfew hthrottling⟩
          have hfirst : Record pass.state (pass.processRoom env maxTasks currentMin r).state []
              (tasks.map RoomTask.key) := hstate ▸ record_drops false tasks
          exact hfirst.trans hrecord (by simp)

end Loop

section Claim

-- The limits of the part of a pass that assigns.
structure RateLimited (env : Env) (t : Scheduler) : Prop where
  assigns : ∀ w, (((assignsSent (t.assignStart env).state (t.checkAllStates env)).map Prod.fst).count w : Int) ≤
    max 0 t.config.worker.maxNewTasksPerBunch
  newTasks : ∀ r, ((t.checkAllStates env).tasks.count fun task =>
    task.roomId = r ∧ ¬(t.assignStart env).state.tasks.HasKey task.key) ≤ 1
  apart : ∀ r, Receives (t.assignStart env).state (t.checkAllStates env) r →
    ¬Receives (t.checkAllStates env) (t.assignStart env).state r
  apartSent : ∀ key ∈ assignsSent (t.assignStart env).state (t.checkAllStates env),
    ∀ other ∈ unassignsSent (t.assignStart env).state (t.checkAllStates env), key.2 ≠ other.2
  unassigned : ((t.assignStart env).state.tasks.count fun task =>
    ¬(t.checkAllStates env).tasks.HasKey task.key) ≤ 10
  unassigns : (unassignsSent (t.assignStart env).state (t.checkAllStates env)).length ≤ 10

-- What two lists of the tasks' keys say about the number of the tasks.
theorem count_le_of_keys {p : RoomTask → Bool} {keys : List (Identifier × RoomId)}
    (h : ∀ task ∈ s.tasks, p task = true → task.key ∈ keys) : s.tasks.count p ≤ keys.length := by
  rw [Keyed.count, List.countP_eq_length_filter, ← List.length_map (f := RoomTask.key)]
  refine (List.subperm_of_subset (s.tasks.filter p).nodup fun key hk => ?_).length_le
  obtain ⟨task, ht, rfl⟩ := List.mem_map.mp hk
  obtain ⟨hmem, hp⟩ := List.mem_filter.mp ht
  exact h task hmem hp

theorem Record.sent (h : Record s s' given taken) :
    (assignsSent s s').Sublist given ∧ (unassignsSent s s').Sublist taken := by
  obtain ⟨effects, htrace, hassigned, hunassigned⟩ := h.trace
  rw [assignsSent, unassignsSent, htrace, List.drop_left]
  exact ⟨hassigned, hunassigned⟩

theorem config_drops (d : Bool) (tasks : List RoomTask) : (s.drops env d tasks).config = s.config := by
  induction tasks generalizing s with
  | nil => rfl
  | cons task rest ih => rw [drops_cons, ih, config_deleteTask, config_sendUnassign]

theorem config_expireWorkers (threshold : Time) (skip : Bool) (workers : List WorkerStatus) :
    (expireWorkers env threshold skip workers s).config = s.config := by
  induction workers generalizing skip s with
  | nil => cases skip <;> rfl
  | cons worker rest ih =>
      cases skip with
      | true => exact ih false
      | false =>
          rw [expireWorkers]
          split
          · rw [ih, deleteAndDisconnectWorker, config_disconnectWorker, config_deleteWorker]
          · exact ih false

theorem config_refreshed (env : Env) (s : Scheduler) : (s.refreshed env).config = s.config := by
  have hinterval : ∀ s : Scheduler, (s.checkWorkerTaskInterval env).config = s.config := by
    intro s
    rw [checkWorkerTaskInterval, expireTasks_eq_foldl]
    exact (config_drops true _).trans (config_expireWorkers _ _ _)
  exact hinterval _

theorem remaining_foldl_visit (rooms : List RoomStatus) (scan : RoomScan) :
    (rooms.foldl (RoomScan.visit env) scan).state.remaining w = scan.state.remaining w := by
  induction rooms generalizing scan with
  | nil => rfl
  | cons room rest ih =>
      rw [List.foldl_cons, ih, RoomScan.visit]
      split
      · rfl
      · exact remaining_drops true _

-- The allowance with which every pass starts.
theorem allowance_assignStart (env : Env) (t : Scheduler) (w : Identifier) :
    (t.assignStart env).allowance w ≤ max 0 t.config.worker.maxNewTasksPerBunch := by
  rw [AssignPass.allowance]
  split
  · rename_i hw
    obtain ⟨worker, hworker, rfl⟩ := List.mem_map.mp hw
    obtain ⟨hmem, hfree⟩ := List.mem_filter.mp ((env.sortWorkers.mem_arrange).mp hworker)
    have hfind := Keyed.find?_eq_some.mpr ⟨(env.workers.mem_arrange).mp hmem, rfl⟩
    have hcollected : (t.collected env).remaining worker.identifier =
        t.config.worker.maxNewTasksPerBunch := by
      rw [collected, remaining, workers_emit, collectWorkers, Keyed.find?_update, hfind]
      simp [of_decide_eq_true hfree, config_refreshed]
    have hstart : (t.assignStart env).state.remaining worker.identifier =
        (t.collected env).remaining worker.identifier := remaining_foldl_visit _ _
    rw [hstart, hcollected]
  · exact le_max_left _ _

theorem rateLimited (hdue : ¬throttled env t) : RateLimited env t := by
  obtain ⟨given, taken, hrecord, hrationed⟩ := @rationed_foldl env (t.assignStart env)
    (t.refreshed env).maxTasksPerRoom (t.roomScan env).currentMinTasksPerRoom _ (@nodup_roomNeedProc env t)
  have hdone : t.checkAllStates env = (t.processRooms env (t.roomNeedProc env)).state := by
    rw [checkAllStates, if_neg hdue]
  change Record _ (t.processRooms env (t.roomNeedProc env)).state given taken at hrecord
  rw [← hdone] at hrecord
  obtain ⟨hassigns, hunassigns⟩ := hrecord.sent
  have hfew : taken.length ≤ 10 := by
    have := hrationed.few
    change (taken.length : Int) ≤ max 0 10 at this
    omega
  have hgiven : ∀ task ∈ (t.checkAllStates env).tasks, ¬(t.assignStart env).state.tasks.HasKey task.key →
      task.key ∈ given := fun task ht hnew =>
    ((hrecord.serves task.identifier task.roomId).mp (.of_mem ht)).resolve_left fun h => hnew h.1
  have htaken : ∀ task ∈ (t.assignStart env).state.tasks, ¬(t.checkAllStates env).tasks.HasKey task.key →
      task.key ∈ taken := fun task ht hgone => by_contra fun hn =>
    hgone ((hrecord.serves task.identifier task.roomId).mpr (Or.inl ⟨.of_mem ht, hn⟩))
  constructor
  · intro w
    have hcount := (hassigns.map Prod.fst).count_le w
    have hallowance := (hrationed.workers w).trans (allowance_assignStart env t w)
    omega
  · intro r
    have hone : (given.map Prod.snd).count r ≤ 1 := List.nodup_iff_count_le_one.mp hrationed.nodup r
    have hkeys : ∀ task ∈ (t.checkAllStates env).tasks, decide (task.roomId = r ∧
        ¬(t.assignStart env).state.tasks.HasKey task.key) = true →
          task.key ∈ given.filter fun key => key.2 = r := by
      intro task ht hp
      obtain ⟨hr, hnew⟩ := of_decide_eq_true hp
      exact List.mem_filter.mpr ⟨hgiven task ht hnew, decide_eq_true hr⟩
    apply (count_le_of_keys hkeys).trans
    rw [← List.countP_eq_length_filter]
    rw [List.count, List.countP_map] at hone
    exact hone
  · rintro r ⟨task, ht, rfl, hnew⟩ ⟨other, ho, hroom, hgone⟩
    exact hrationed.apart _ (hgiven task ht hnew) (List.mem_map.mpr ⟨_, htaken other ho hgone, hroom⟩)
  · intro key hk other ho he
    exact hrationed.apart key (hassigns.subset hk) (List.mem_map.mpr ⟨other, hunassigns.subset ho, he.symm⟩)
  · exact (count_le_of_keys fun task ht hp => htaken task ht (of_decide_eq_true hp)).trans hfew
  · exact hunassigns.length_le.trans hfew

theorem run_rateLimited (config : Config) (inputs : List Input) : EveryPass RateLimited config inputs :=
  everyPass_of (fun _ _ _ hdue => rateLimited hdue) config inputs

end Claim

end Scheduler

end LiveReceptor.Supervisor

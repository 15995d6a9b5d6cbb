import LiveReceptor.Supervisor.Pass

namespace LiveReceptor.Supervisor

open SimpleWorkerProto

def Effect.Commands : Effect → Prop
  | .assign _ _ | .unassign _ _ => True
  | _ => False

instance (effect : Effect) : Decidable effect.Commands :=
  match effect with
  | .assign _ _ | .unassign _ _ => isTrue trivial
  | .connected _ | .received _ _ _ | .reset _ | .deleted _ | .disconnect _ | .staleWorker _
  | .checked _ | .diagnostics _ | .data _ _ _ _ _ => isFalse id

namespace Scheduler

-- No worker and no task has timed out.
def Fresh (env : Env) (s : Scheduler) : Prop :=
  (∀ worker ∈ s.workers,
    env.now .interval - worker.lastReceived ≤ seconds s.config.worker.workerTimeoutSec) ∧
  ∀ task ∈ s.tasks, env.now .interval - task.lastReceived < seconds s.config.worker.workerTimeoutSec

instance (env : Env) (s : Scheduler) : Decidable (Fresh env s) := inferInstanceAs (Decidable (_ ∧ _))

variable {env : Env} {s s' t : Scheduler} {r q : RoomId} {a : Bool}

section Pass

theorem expireWorkers_of_fresh {threshold : Time} (skip : Bool) (workers : List WorkerStatus)
    (h : ∀ worker ∈ workers, env.now .interval - worker.lastReceived ≤ threshold) :
    expireWorkers env threshold skip workers s = s := by
  induction workers generalizing skip with
  | nil => cases skip <;> rfl
  | cons worker rest ih =>
      obtain ⟨hworker, hrest⟩ := List.forall_mem_cons.mp h
      cases skip with
      | true => exact ih false hrest
      | false =>
          rw [expireWorkers, if_neg (not_lt.mpr hworker)]
          exact ih false hrest

theorem expireTasks_of_fresh {threshold : Time} (tasks : List RoomTask)
    (h : ∀ task ∈ tasks, env.now .interval - task.lastReceived < threshold) :
    expireTasks env threshold tasks s = s := by
  induction tasks with
  | nil => rfl
  | cons task rest ih =>
      obtain ⟨htask, hrest⟩ := List.forall_mem_cons.mp h
      rw [expireTasks, if_pos htask]
      exact ih hrest

theorem checkWorkerTaskInterval_of_fresh (h : Fresh env s) : s.checkWorkerTaskInterval env = s := by
  rw [checkWorkerTaskInterval]
  rw [expireWorkers_of_fresh false _ fun worker hw => h.1 worker ((env.workers.mem_arrange).mp hw)]
  exact expireTasks_of_fresh _ fun task ht => h.2 task ((env.tasks.mem_arrange).mp ht)

theorem refreshed_of_fresh (h : Fresh env s) : s.refreshed env =
    ({ s with lastChecked := env.now .check }.emit (.checked (env.now .check))).refreshCounts := by
  have hstart : Fresh env
      ({ s with lastChecked := env.now .check }.emit (.checked (env.now .check))) := h
  rw [refreshed, checkWorkerTaskInterval_of_fresh hstart]

-- Up to the look at the rooms nothing has moved.
theorem adjusts_collected (h : Fresh env s) : Adjusts [] s (s.collected env) := by
  rw [collected]
  rw [refreshed_of_fresh h]
  refine ⟨fun _ _ _ => Iff.rfl, _, List.append_assoc _ _ _, ?_⟩
  simp [Accounts]

theorem load_assignStart (h : Fresh env s) (hr : InRoster s r true) :
    (s.assignStart env).state.load r = s.load r := by
  rw [load_assignStart_of_active hr]
  exact (adjusts_collected h).load_eq List.not_mem_nil

-- The packets of a pass tell which loads it has changed.
theorem accounts_checkAllStates (h : Fresh env s) (hdue : ¬throttled env s) :
    ∃ effects, (s.checkAllStates env).trace = s.trace ++ effects ∧
      ∀ effect ∈ effects, Accounts s (s.checkAllStates env) effect := by
  have hpass := (processed_pass hdue).adjusts
  have hdisjoint : ∀ r ∈ s.inactiveRooms env, r ∉ s.roomNeedProc env := fun r hr hr' =>
    notMem_inactiveRooms (mem_roomNeedProc.mp hr') hr
  rw [checkAllStates, if_neg hdue]
  exact ((adjusts_collected h).trans (adjusts_assignStart.trans hpass hdisjoint) (by simp)).trace

theorem length_workers_refreshed (h : Fresh env s) :
    (s.refreshed env).workers.entries.length = s.workers.entries.length := by
  rw [refreshed_of_fresh h]
  exact List.length_map _

-- A room that stays above the minimum that the pass uses stays above an active
-- room, where the loads are at most one above the value the minimum starts with.
theorem exists_load_lt (h : Fresh env s) {n : Nat} (hless : n < s.load r) (hfew : s.load r ≤ 1073741824)
    (hmin : (s.roomScan env).currentMinTasksPerRoom < n) : ∃ q, InRoster s q true ∧ s.load q < n := by
  have hattained : (s.roomScan env).currentMinTasksPerRoom = 2147483647 / 2 ∨
      ∃ room ∈ env.rooms.arrange (s.collected env).rooms.entries, room.active = true ∧
        room.currentConnections = (s.roomScan env).currentMinTasksPerRoom := currentMin_foldl_visit
  obtain hstart | ⟨room, hroom, hactive, heq⟩ := hattained
  · omega
  · have hroom' := (env.rooms.mem_arrange).mp hroom
    have hload := (balanced_collected s).count_eq hroom'
    rw [(adjusts_collected h).load_eq List.not_mem_nil] at hload
    exact ⟨room.roomId, (inRoster_collected env).mp ⟨room, hroom', rfl, hactive⟩, by omega⟩

-- A pass is a round of the balancing.
theorem checkAllStates_round (hinv : Inv s) (h : Fresh env s) (hdue : ¬throttled env s)
    (hfew : s.workers.entries.length ≤ 1073741824) :
    Balancing.Round (fun r => InRoster s r true) load Serves s (s.checkAllStates env) := by
  have hpass := processed_pass hdue
  rw [checkAllStates, if_neg hdue]
  constructor
  · intro r hr
    rw [hpass.adjusts.load_eq (mt mem_roomNeedProc.mp hr),
      ← (adjusts_collected h).load_eq (r := r) List.not_mem_nil]
    exact load_le_of_serves fun w => serves_of_foldl_visit
  · intro r hr hless
    have hmost := load_le_workers hinv r
    have hlength := length_workers_refreshed h
    have hbound : ((s.refreshed env).workers.entries.length : Int) ≤ (s.refreshed env).maxTasksPerRoom :=
      le_maxTasksPerRoom (by omega)
    have hstart := load_assignStart h hr
    obtain hmax | hmin := hpass.shrink r (mem_roomNeedProc.mpr hr) (hstart.symm ▸ hless)
    · omega
    · exact exists_load_lt h hless (hmost.trans hfew) hmin
  · intro r hr hless
    have hstart : ∀ q, InRoster s q true → (s.assignStart env).state.load q = s.load q := fun q hq =>
      load_assignStart h hq
    have hserves : ∀ q, InRoster s q true → ∀ w, (s.assignStart env).state.Serves w q ↔ s.Serves w q :=
      fun q hq w => (adjusts_assignStart.frame q (notMem_inactiveRooms hq) w).trans
        ((adjusts_collected h).frame q List.not_mem_nil w)
    obtain ⟨-, w, -, hgiven, hnew, hbelow⟩ := hpass.grow r (mem_roomNeedProc.mpr hr)
      ((hstart r hr).symm ▸ hless)
    refine ⟨w, hgiven, mt (hserves r hr w).mpr hnew, fun q hq hfewer hsame => ?_⟩
    rw [← hstart q hq] at hfewer hsame
    rw [← hstart r hr] at hfewer
    exact (hserves q hq w).mp (hbelow q (mem_roomNeedProc.mpr hq) hfewer hsame)

theorem length_workers_checkAllStates (h : Fresh env s) (hdue : ¬throttled env s) :
    (s.checkAllStates env).workers.entries.length = s.workers.entries.length := by
  have hrooms : PassMoves env Unguarded .rooms (s.refreshed env) (s.assignStart env).state :=
    assignStart_moves s
  rw [checkAllStates, if_neg hdue,
    length_workers_passMoves (by simp) (processRooms_moves (passMeetsGuard_true s)),
    length_workers_passMoves (by simp) hrooms, length_workers_refreshed h]

end Pass

section Rests

-- A step that moves no task, no worker and no room, and sends no packet.
structure Rests (s s' : Scheduler) : Prop where
  serves : ∀ r w, s'.Serves w r ↔ s.Serves w r
  roster : ∀ r a, InRoster s' r a ↔ InRoster s r a
  workers : s'.workers.entries.length = s.workers.entries.length
  trace : ∃ effects, s'.trace = s.trace ++ effects ∧ ∀ effect ∈ effects, ¬effect.Commands

theorem Rests.refl (s : Scheduler) : Rests s s where
  serves _ _ := Iff.rfl
  roster _ _ := Iff.rfl
  workers := rfl
  trace := ⟨[], (List.append_nil _).symm, by simp⟩

theorem Rests.trans (h : Rests s s') (h' : Rests s' t) : Rests s t where
  serves r w := (h'.serves r w).trans (h.serves r w)
  roster r a := (h'.roster r a).trans (h.roster r a)
  workers := h'.workers.trans h.workers
  trace := extends_trans h.trace h'.trace

theorem Rests.of_eq (htasks : s'.tasks = s.tasks) (hworkers : s'.workers = s.workers)
    (hrooms : s'.rooms = s.rooms) {effects : List Effect} (htrace : s'.trace = s.trace ++ effects)
    (hnone : ∀ effect ∈ effects, ¬effect.Commands) : Rests s s' where
  serves r w := by rw [Serves, Serves, htasks]
  roster r a := inRoster_of_rooms hrooms
  workers := by rw [hworkers]
  trace := ⟨effects, htrace, hnone⟩

theorem Rests.of_quiet (h : Quiet s s') : Rests s s' where
  serves r w := by
    obtain ⟨f, hf, htasks⟩ := h.tasks
    rw [Serves, Serves, htasks]
    exact Keyed.hasKey_update
  roster r a := inRoster_quiet h
  workers := length_workers_quiet h
  trace := by
    obtain ⟨effects, htrace, hquiet⟩ := h.trace
    refine ⟨effects, htrace, fun effect he hcommands => ?_⟩
    have heffect := hquiet effect he
    cases effect <;> first | exact hcommands | exact heffect

variable {identifier : Identifier} {payload : Bytes}

theorem rests_callDataHandler (roomId : RoomId) :
    Rests s (s.callDataHandler identifier roomId payload) :=
  .of_eq rfl rfl rfl rfl (by simp [Effect.Commands])

theorem rests_handleData : Rests s (s.handleData env identifier payload) := by
  have htouch : Rests s (s.touchTask env identifier (roomIdOf payload)) :=
    .of_quiet (quiet_touchTask _ _)
  unfold handleData
  dsimp only
  split
  · exact .refl s
  split
  · split
    · split
      · exact htouch
      · split
        · exact (htouch.trans (.of_quiet (quiet_touchRoom _))).trans (rests_callDataHandler _)
        · exact htouch
    · exact htouch.trans (rests_callDataHandler _)
  · exact .refl s

-- So does every payload but a WORKER_READY and a ROOM_FAILED. Only such a
-- payload of a worker that is not known has tasks to clear, and there are none.
theorem rests_handleBuffer (hinv : Inv s) (hready : ¬isReady payload) (hfailed : ¬isFailed payload) :
    Rests s (s.handleBuffer env identifier payload) := by
  have hreceived : Rests s (s.emit (.received identifier payload s.authCode)) :=
    .of_eq rfl rfl rfl rfl (by simp [Effect.Commands])
  by_cases hlen : payload.length < roomFailedPayloadLength
  · rw [handleBuffer_malformed hlen]
    exact hreceived
  rw [Nat.not_lt] at hlen
  by_cases hkey : s.workers.HasKey identifier
  · have htouch : Rests s ((s.emit (.received identifier payload s.authCode)).touchWorker env identifier) :=
      hreceived.trans (.of_quiet (quiet_touchWorker identifier))
    rw [handleBuffer_known hlen hkey]
    dsimp only
    rw [if_neg fun hc => hready ⟨hlen, hc⟩, if_neg fun hc => hfailed ⟨hlen, hc⟩]
    split
    · exact htouch.trans rests_handleData
    · exact htouch
  · rw [handleBuffer_unknown hlen hkey]
    refine .of_eq ?_ (by simp) (by simp) trace_unknown (by simp [Effect.Commands])
    rw [tasks_disconnectWorker, tasks_clearWorkerTasks, tasks_emit]
    exact hinv.filter_eq_self hkey

theorem Rests.load_eq (h : Rests s s') (r : RoomId) : s'.load r = s.load r := load_congr (h.serves r)

theorem Rests.round (h : Rests s s') :
    Balancing.Round (fun r => InRoster s r true) load Serves s s' where
  inactive r _ := (h.load_eq r).le
  shrink r _ hless := absurd hless (h.load_eq r).ge.not_gt
  grow r _ hless := absurd hless (h.load_eq r).le.not_gt

theorem Rests.accounts (h : Rests s s') :
    ∃ effects, s'.trace = s.trace ++ effects ∧ ∀ effect ∈ effects, Accounts s s' effect := by
  obtain ⟨effects, htrace, hnone⟩ := h.trace
  refine ⟨effects, htrace, fun effect he => ?_⟩
  have heffect := hnone effect he
  cases effect <;> first | trivial | exact absurd trivial heffect

end Rests

section Claim

-- The step is a pass that is not throttled, in which nothing has timed out and
-- nobody is under a penalty, or what keeps the tasks alive between the passes: a
-- payload that is neither a WORKER_READY nor a ROOM_FAILED.
def Calm (input : Input) (s : Scheduler) : Prop :=
  match input.event with
  | .tick .failed | .tick .expired =>
      ¬throttled input.env s ∧ Fresh input.env s ∧
        ∀ worker ∈ s.workers, worker.allowNewTaskAfter < input.env.now .check
  | .payload _ payload => ¬isReady payload ∧ ¬isFailed payload
  | _ => False

instance (input : Input) (s : Scheduler) : Decidable (Calm input s) :=
  match input with
  | ⟨_, .tick .failed⟩ | ⟨_, .tick .expired⟩ => inferInstanceAs (Decidable (_ ∧ _ ∧ ∀ worker ∈ s.workers, _))
  | ⟨_, .payload _ payload⟩ => inferInstanceAs (Decidable (¬isReady payload ∧ ¬isFailed payload))
  | ⟨_, .tick .aborted⟩ | ⟨_, .accept _ _⟩ | ⟨_, .workerDisconnect _⟩ | ⟨_, .updateRoomLists _⟩
  | ⟨_, .configure _⟩ | ⟨_, .loadAuthCode⟩ => isFalse id

-- An active room that no active room has fewer tasks than.
def Least (s : Scheduler) (roomId : RoomId) : Prop :=
  InRoster s roomId true ∧ ∀ room ∈ s.rooms, room.active = true → s.load roomId ≤ s.load room.roomId

instance (s : Scheduler) (roomId : RoomId) : Decidable (Least s roomId) :=
  inferInstanceAs (Decidable ((∃ room ∈ s.rooms.entries, _) ∧ _))

-- The step gives no room to a worker that serves all the rooms with the fewest
-- tasks, unless that room is one of these.
def Fair (input : Input) (s : Scheduler) : Prop :=
  ∀ task ∈ (step input s).tasks, ¬s.tasks.HasKey task.key →
    Least s task.roomId ∨ ∃ room ∈ s.rooms, Least s room.roomId ∧ ¬s.Serves task.identifier room.roomId

instance (input : Input) (s : Scheduler) : Decidable (Fair input s) :=
  inferInstanceAs (Decidable (∀ task ∈ (step input s).tasks.entries, _ →
    _ ∨ ∃ room ∈ s.rooms.entries, _))

def SameTasks (s s' : Scheduler) : Prop :=
  (∀ task ∈ s.tasks, s'.tasks.HasKey task.key) ∧ ∀ task ∈ s'.tasks, s.tasks.HasKey task.key

instance (s s' : Scheduler) : Decidable (SameTasks s s') := inferInstanceAs (Decidable (_ ∧ _))

-- Neither an assign nor an unassign has been sent from one state to the other.
def NoneSent (s s' : Scheduler) : Prop := ∀ effect ∈ s'.trace.drop s.trace.length, ¬effect.Commands

instance (s s' : Scheduler) : Decidable (NoneSent s s') :=
  inferInstanceAs (Decidable (∀ effect ∈ s'.trace.drop s.trace.length, _))

theorem SameTasks.load_eq (h : SameTasks s s') (r : RoomId) : s'.load r = s.load r := by
  refine load_congr fun w => ⟨?_, ?_⟩
  · rintro ⟨task, ht, hk⟩
    have hkey := h.2 task ht
    rwa [hk] at hkey
  · rintro ⟨task, ht, hk⟩
    have hkey := h.1 task ht
    rwa [hk] at hkey

variable {active : RoomId → Prop} {input : Input}

theorem least_iff (hactive : ∀ r, InRoster s r true ↔ active r) :
    Least s r ↔ Balancing.Least active load s r := by
  refine and_congr (hactive r) ⟨fun h q hq => ?_, fun h room hroom ha => ?_⟩
  · obtain ⟨room, hroom, rfl, ha⟩ := (hactive q).mpr hq
    exact h room hroom ha
  · exact h room.roomId ((hactive room.roomId).mp ⟨room, hroom, rfl, ha⟩)

theorem Fair.fair (hactive : ∀ r, InRoster s r true ↔ active r) (h : Fair input s) :
    Balancing.Fair active load Serves s (step input s) := by
  rintro w r ⟨task, ht, hk⟩ hnew
  cases hk
  apply (h task ht hnew).imp (least_iff hactive).mp
  rintro ⟨room, -, hleast, hserves⟩
  exact ⟨room.roomId, (least_iff hactive).mp hleast, hserves⟩

-- What holds of the start, and of every state in a run of calm steps.
structure Steady (active : RoomId → Prop) (s : Scheduler) : Prop where
  inv : Inv s
  roster : ∀ r, InRoster s r true ↔ active r
  few : s.workers.entries.length ≤ 1073741824

theorem Steady.active_eq (h : Steady active s) : (fun r => InRoster s r true) = active :=
  funext fun r => propext (h.roster r)

-- What a calm step does, be it a pass or a payload.
structure CalmStep (active : RoomId → Prop) (s s' : Scheduler) : Prop where
  steady : Steady active s'
  round : Balancing.Round active load Serves s s'
  trace : ∃ effects, s'.trace = s.trace ++ effects ∧ ∀ effect ∈ effects, Accounts s s' effect

theorem Steady.rests (h : Steady active s) (hinv : Inv s') (hrests : Rests s s') :
    CalmStep active s s' where
  steady := ⟨hinv, fun r => (hrests.roster r true).trans (h.roster r), hrests.workers ▸ h.few⟩
  round := h.active_eq ▸ hrests.round
  trace := hrests.accounts

theorem Steady.tick (h : Steady active s) (hdue : ¬throttled env s) (hfresh : Fresh env s)
    (hinv : Inv (s.endWait.checkAllStates env).rescheduleTimer) :
    CalmStep active s (s.endWait.checkAllStates env).rescheduleTimer := by
  have hfresh' : Fresh env s.endWait := hfresh
  have hdue' : ¬throttled env s.endWait := hdue
  constructor
  · refine ⟨hinv, fun r => ?_, ?_⟩
    · have hpass : InRoster (s.endWait.checkAllStates env) r true ↔ InRoster s.endWait r true ∧ true = true :=
        inRoster_checkAllStates hdue'
      exact (hpass.trans (and_iff_left rfl)).trans (h.roster r)
    · have hlength := length_workers_checkAllStates hfresh' hdue'
      exact hlength.trans_le h.few
  · have hinv' : Inv s.endWait := h.inv.of_eq rfl rfl rfl rfl
    have hactive : (fun r => InRoster s.endWait r true) = active := h.active_eq
    have hround := checkAllStates_round hinv' hfresh' hdue' h.few
    rw [hactive] at hround
    exact ⟨hround.inactive, hround.shrink, hround.grow⟩
  · exact accounts_checkAllStates hfresh' hdue'

theorem Steady.calmStep (h : Steady active s) (hcalm : Calm input s) :
    CalmStep active s (step input s) := by
  have hinv := step_inv input h.inv
  obtain ⟨env, event⟩ := input
  cases event with
  | payload identifier payload => exact h.rests hinv (rests_handleBuffer h.inv hcalm.1 hcalm.2)
  | tick result =>
      cases result with
      | aborted => exact hcalm.elim
      | failed => exact h.tick hcalm.1 hcalm.2.1 hinv
      | expired => exact h.tick hcalm.1 hcalm.2.1 hinv
  | accept _ _ => exact hcalm.elim
  | workerDisconnect _ => exact hcalm.elim
  | updateRoomLists _ => exact hcalm.elim
  | configure _ => exact hcalm.elim
  | loadAuthCode => exact hcalm.elim

-- Where no load has changed, no packet has been sent.
theorem CalmStep.trace_of_load_eq (h : CalmStep active s s') (hload : ∀ r, s'.load r = s.load r) :
    ∃ effects, s'.trace = s.trace ++ effects ∧ ∀ effect ∈ effects, ¬effect.Commands := by
  obtain ⟨effects, htrace, haccounts⟩ := h.trace
  refine ⟨effects, htrace, fun effect he hcommands => ?_⟩
  have heffect := haccounts effect he
  cases effect with
  | assign w r => exact absurd (hload r) (Nat.ne_of_gt heffect)
  | unassign w r => exact absurd (hload r) (Nat.ne_of_lt heffect)
  | _ => exact hcommands

theorem Steady.noneSent {inputs : List Input} (h : Steady active s)
    (hsteps : Runs.EveryStep step (fun input s => Calm input s ∧ Fair input s) s inputs)
    (hreturn : SameTasks s (Runs.run step s inputs)) : NoneSent s (Runs.run step s inputs) := by
  have hcalm : Runs.EveryStep step (fun input s => CalmStep active s (step input s) ∧
      Balancing.Fair active load Serves s (step input s)) s inputs :=
    Runs.everyStep_of (fun _ _ h hstep => (h.calmStep hstep.1).steady)
      (fun _ _ h hstep => ⟨h.calmStep hstep.1, hstep.2.fair h.roster⟩) h hsteps
  have hloads : Runs.EveryStep step (fun input s => ∀ r, (step input s).load r = s.load r) s inputs :=
    Balancing.load_eq_of_return
      (Runs.everyStep_mono (fun _ _ hstep => ⟨hstep.1.round, hstep.2⟩) hcalm) hreturn.load_eq
  have hkept : ∀ input t, (∃ effects, t.trace = s.trace ++ effects ∧ ∀ effect ∈ effects, ¬effect.Commands) →
      (CalmStep active t (step input t) ∧ Balancing.Fair active load Serves t (step input t)) ∧
        (∀ r, (step input t).load r = t.load r) →
      ∃ effects, (step input t).trace = s.trace ++ effects ∧ ∀ effect ∈ effects, ¬effect.Commands :=
    fun _ _ hsent hstep => extends_trans hsent (hstep.1.1.trace_of_load_eq hstep.2)
  obtain ⟨effects, htrace, hnone⟩ :=
    Runs.run_invariant_of hkept ⟨[], (List.append_nil _).symm, by simp⟩ (hcalm.and hloads)
  rw [NoneSent, htrace, List.drop_left]
  exact hnone

-- Calm and fair steps that come back to the tasks they started with have sent
-- nothing. With more workers than this, a room that all of them serve has more
-- tasks to lose than the value the minimum starts with leaves it.
theorem run_settles (config : Config) (before inputs : List Input)
    (hfew : (run config before).workers.entries.length ≤ 1073741824)
    (hsteps : Runs.EveryStep step (fun input s => Calm input s ∧ Fair input s) (run config before) inputs)
    (hreturn : SameTasks (run config before) (Runs.run step (run config before) inputs)) :
    NoneSent (run config before) (Runs.run step (run config before) inputs) := by
  have hstart : Steady (fun r => InRoster (run config before) r true) (run config before) :=
    ⟨run_inv config before, fun _ => Iff.rfl, hfew⟩
  exact hstart.noneSent hsteps hreturn

section Example

-- A worker for two rooms and two workers for one each serve the first room. The
-- first worker is given the second room, while a fourth one comes and is removed
-- for a WORKER_READY with the wrong code.
def levelInputs : List Input :=
  [{ env := .at 0, event := .accept .accepted [1] },
    { env := .at 0, event := .accept .accepted [2] },
    { env := .at 0, event := .accept .accepted [3] },
    { env := .at 0, event := .updateRoomLists [1] },
    { env := .at 0, event := .payload 1 (plainReady 2) },
    { env := .at 0, event := .payload 2 (plainReady 1) },
    { env := .at 0, event := .payload 3 (plainReady 1) },
    { env := .at (seconds 10), event := .tick .expired },
    { env := .at (seconds 12), event := .tick .expired },
    { env := .at (seconds 14), event := .tick .expired },
    { env := .at (seconds 14), event := .accept .accepted [4] },
    { env := .at (seconds 14), event := .payload 4 (plainReady 1) },
    { env := .at (seconds 14), event := .updateRoomLists [1, 2] },
    { env := .at (seconds 16), event := .tick .expired },
    { env := .at (seconds 16)
      event := .payload 4 ([workerReadyCode, 0, 0, 0, 1] ++ List.replicate 32 66) }]

def levelPasses : List Input :=
  [{ env := .at (seconds 18), event := .tick .expired },
    { env := .at (seconds 20), event := .tick .expired }]

theorem run_settles_three : NoneSent (run plainConfig (levelInputs.take 10))
    (Runs.run step (run plainConfig (levelInputs.take 10))
      [{ env := .at (seconds 15), event := .payload 1 ([workerDataCode, 0, 0, 0, 1] ++ List.replicate 40 7) },
        { env := .at (seconds 16), event := .tick .expired }]) :=
  run_settles plainConfig (levelInputs.take 10)
    [{ env := .at (seconds 15), event := .payload 1 ([workerDataCode, 0, 0, 0, 1] ++ List.replicate 40 7) },
      { env := .at (seconds 16), event := .tick .expired }] (by decide) (by decide) (by decide)

-- The first pass takes the first room away from the worker for two rooms, since
-- the second room has one task only, and the second pass gives it back.
theorem run_settles_refuted : ¬∀ config before inputs,
    Runs.EveryStep step Calm (run config before) inputs →
    SameTasks (run config before) (Runs.run step (run config before) inputs) →
    NoneSent (run config before) (Runs.run step (run config before) inputs) := by
  intro h
  have hrun := h plainConfig levelInputs levelPasses (by decide) (by decide)
  revert hrun
  decide

end Example

end Claim

end Scheduler

end LiveReceptor.Supervisor

import LiveReceptor.Supervisor.Consistency

namespace LiveReceptor.Supervisor

open SimpleWorkerProto

-- When the worker was last heard of, next to the scheduler. It is no part of
-- the program.
structure Watched where
  scheduler : Scheduler
  lastHeard : Time

-- A payload of the worker that is not malformed.
def heard (worker : Identifier) (input : Input) : Option Time :=
  match input.event with
  | .payload identifier payload =>
      if identifier = worker ∧ roomFailedPayloadLength ≤ payload.length then some (input.env.now .message)
      else none
  | _ => none

namespace Watched

def step (worker : Identifier) (input : Input) (s : Watched) : Watched :=
  { scheduler := Scheduler.step input s.scheduler
    lastHeard := (heard worker input).getD s.lastHeard }

-- The connection stays up, and no WORKER_READY of the worker is turned down.
def StaysUp (worker : Identifier) (input : Input) (s : Watched) : Prop :=
  match input.event with
  | .workerDisconnect identifier => identifier ≠ worker
  | .payload identifier payload =>
      identifier = worker → isReady payload → authenticated s.scheduler.authCode payload
  | _ => True

-- The pass of the step, if there is one, does not come too late for the worker.
def InTime (worker : Identifier) (input : Input) (s : Watched) : Prop :=
  ∀ t, Scheduler.passStart input s.scheduler = some t → ¬Scheduler.throttled input.env t →
    input.env.now .interval - (step worker input s).lastHeard ≤ seconds t.config.worker.workerTimeoutSec

instance (worker : Identifier) (input : Input) (s : Watched) : Decidable (StaysUp worker input s) := by
  unfold StaysUp
  split <;> infer_instance

instance (worker : Identifier) (input : Input) (s : Watched) : Decidable (InTime worker input s) :=
  decidable_of_iff (∀ t ∈ Scheduler.passStart input s.scheduler, ¬Scheduler.throttled input.env t →
    input.env.now .interval - (step worker input s).lastHeard ≤
      seconds t.config.worker.workerTimeoutSec) Iff.rfl

end Watched

namespace Scheduler

-- The worker is known, and was last heard of at this time.
def HeardAt (worker : Identifier) (time : Time) (s : Scheduler) : Prop :=
  ∃ status ∈ s.workers, status.identifier = worker ∧ status.lastReceived = time

variable {env : Env} {s s' t : Scheduler} {w i : Identifier} {r : RoomId} {time : Time} {payload : Bytes}

theorem HeardAt.hasKey (h : HeardAt w time s) : s.workers.HasKey w := by
  obtain ⟨status, hstatus, hid, -⟩ := h
  exact ⟨status, hstatus, hid⟩

theorem HeardAt.of_eq (h : HeardAt w time s) (hworkers : s'.workers = s.workers) :
    HeardAt w time s' := by
  rwa [HeardAt, hworkers]

section Operations

-- Whatever is done to the workers, their times are kept.
theorem HeardAt.update {f : WorkerStatus → WorkerStatus}
    {hf : ∀ status, (f status).identifier = status.identifier} (h : HeardAt w time s) (hworkers : s'.workers = s.workers.update f hf)
    (htime : ∀ status, (f status).lastReceived = status.lastReceived) : HeardAt w time s' := by
  obtain ⟨status, hstatus, hid, hlast⟩ := h
  rw [HeardAt, hworkers]
  exact ⟨f status, Keyed.mem_update.mpr ⟨status, hstatus, rfl⟩, (hf status).trans hid,
    (htime status).trans hlast⟩

theorem HeardAt.deleteTask (h : HeardAt w time s) (i : Identifier) (r : RoomId) (d : Bool) :
    HeardAt w time (s.deleteTask env i r d) := by
  by_cases htask : s.tasks.HasKey (i, r)
  · exact h.update (workers_deleteTask_of_hasKey htask) fun status => by split <;> rfl
  · rwa [deleteTask_of_not_hasKey htask]

theorem HeardAt.drop (h : HeardAt w time s) (i : Identifier) (r : RoomId) (d : Bool) :
    HeardAt w time ((s.sendUnassign i r).deleteTask env i r d) :=
  (h.of_eq workers_sendUnassign).deleteTask i r d

theorem HeardAt.drops (h : HeardAt w time s) (tasks : List RoomTask) (d : Bool) :
    HeardAt w time (tasks.foldl (fun s task =>
      (s.sendUnassign task.identifier task.roomId).deleteTask env task.identifier task.roomId d) s) := by
  induction tasks generalizing s with
  | nil => exact h
  | cons task rest ih => exact ih (h.drop task.identifier task.roomId d)

theorem HeardAt.addTask (h : HeardAt w time s) (i : Identifier) (r : RoomId) :
    HeardAt w time (s.addTask env i r) :=
  h.update workers_addTask fun status => by split <;> rfl

theorem HeardAt.deleteWorker (h : HeardAt w time s) (hne : w ≠ i) :
    HeardAt w time (s.deleteWorker env i) := by
  obtain ⟨status, hstatus, hid, hlast⟩ := h
  exact ⟨status, mem_workers_deleteWorker.mpr ⟨hstatus, hid ▸ hne⟩, hid, hlast⟩

theorem HeardAt.readyWorker (h : HeardAt w time s) (i : Identifier) (payload : Bytes) :
    HeardAt w time (s.readyWorker env i payload) := by
  have hreset : HeardAt w time (s.resetWorker env i) :=
    h.update workers_resetWorker fun status => by split <;> rfl
  have hworkers : (s.readyWorker env i payload).workers = (s.resetWorker env i).workers.modify i
      fun worker => { worker with initialized := true, maxRooms := roomIdOf payload } := rfl
  exact hreset.update hworkers fun status => by split <;> rfl

theorem HeardAt.refreshCounts (h : HeardAt w time s) : HeardAt w time s.refreshCounts := by
  obtain ⟨status, hstatus, hid, hlast⟩ := h
  exact ⟨_, mem_workers_refreshCounts.mpr ⟨status, hstatus, rfl⟩, hid, hlast⟩

theorem HeardAt.collectWorkers (h : HeardAt w time s) : HeardAt w time (s.collectWorkers env) := by
  obtain ⟨status, hstatus, hid, hlast⟩ := h
  refine ⟨_, mem_workers_collectWorkers.mpr ⟨status, hstatus, rfl⟩, ?_, ?_⟩
  · split <;> exact hid
  · split <;> exact hlast

end Operations

section Pass

theorem HeardAt.expireWorkers (h : HeardAt w time s) (threshold : Time)
    (htime : env.now .interval - time ≤ threshold) (skip : Bool) (workers : List WorkerStatus)
    (hworkers : ∀ status ∈ workers, status.identifier = w → status.lastReceived = time) :
    HeardAt w time (expireWorkers env threshold skip workers s) := by
  induction workers generalizing skip s with
  | nil => cases skip <;> exact h
  | cons status rest ih =>
      have hrest : ∀ other ∈ rest, other.identifier = w → other.lastReceived = time :=
        fun other ho => hworkers other (List.mem_cons_of_mem _ ho)
      cases skip with
      | true => exact ih h false hrest
      | false =>
          rw [Scheduler.expireWorkers]
          split
          · rename_i hlate
            have hne : w ≠ status.identifier := fun hw => by
              rw [hworkers status List.mem_cons_self hw.symm] at hlate
              exact absurd htime (not_le.mpr hlate)
            exact ih ((h.deleteWorker hne).of_eq workers_disconnectWorker) _ hrest
          · exact ih h false hrest

theorem HeardAt.refreshed (h : HeardAt w time s)
    (htime : env.now .interval - time ≤ seconds s.config.worker.workerTimeoutSec) :
    HeardAt w time (s.refreshed env) := by
  have hchecked : HeardAt w time
      ({ s with lastChecked := env.now .check }.emit (.checked (env.now .check))) := h
  have hexpired := hchecked.expireWorkers (seconds s.config.worker.workerTimeoutSec) htime false
    (env.workers.arrange s.workers.entries) fun status hstatus hid => by
      obtain ⟨found, hfound, hfoundId, hlast⟩ := h
      have hsame := Keyed.eq_of_key_eq ((env.workers.mem_arrange).mp hstatus) hfound
        (hid.trans hfoundId.symm)
      rw [hsame, hlast]
  have hinterval : HeardAt w time (({ s with lastChecked := env.now .check }.emit
      (.checked (env.now .check))).checkWorkerTaskInterval env) := by
    rw [checkWorkerTaskInterval, expireTasks_eq_foldl]
    exact hexpired.drops _ true
  exact hinterval.refreshCounts

theorem HeardAt.roomScan (rooms : List RoomStatus) (scan : RoomScan)
    (hscan : HeardAt w time scan.state) : HeardAt w time (rooms.foldl (RoomScan.visit env) scan).state := by
  induction rooms generalizing scan with
  | nil => exact hscan
  | cons room rest ih =>
      apply ih _
      rw [RoomScan.visit]
      split
      · exact hscan
      · exact hscan.drops _ true

theorem HeardAt.unassignOverkill (h : HeardAt w time s) (tasks : List RoomTask)
    (overkill throttling : Int) :
    HeardAt w time (unassignOverkill env tasks overkill throttling s).2 := by
  induction tasks generalizing overkill throttling s with
  | nil => exact h
  | cons task rest ih =>
      rw [Scheduler.unassignOverkill]
      split
      · exact ih (h.drop task.identifier task.roomId false) _ _
      · exact h

theorem HeardAt.rebalance {pass : AssignPass} (h : HeardAt w time pass.state) (maxTasks currentMin : Int)
    (room : RoomStatus) : HeardAt w time (pass.rebalance env maxTasks currentMin room).state := by
  rw [AssignPass.rebalance]
  dsimp only
  split
  · exact h.unassignOverkill _ _ _
  · exact h

theorem HeardAt.processRoom {pass : AssignPass} (h : HeardAt w time pass.state)
    (maxTasks currentMin : Int) (roomId : RoomId) :
    HeardAt w time (pass.processRoom env maxTasks currentMin roomId).state := by
  have hoffer : HeardAt w time (offerRoom env roomId false pass.workersAvailable pass.state).2.1 := by
    rw [offerRoom_state]
    split
    · exact h
    · exact h.addTask _ roomId
  rw [AssignPass.processRoom]
  split
  · exact h
  split
  · dsimp only
    split
    · exact hoffer
    · exact HeardAt.rebalance hoffer maxTasks currentMin _
  · exact h.rebalance maxTasks currentMin _

-- A pass that does not come too late keeps the worker.
theorem HeardAt.checkAllStates (h : HeardAt w time s)
    (htime : ¬throttled env s → env.now .interval - time ≤ seconds s.config.worker.workerTimeoutSec) :
    HeardAt w time (s.checkAllStates env) := by
  rw [Scheduler.checkAllStates]
  split
  · exact h
  · rename_i hdue
    have hrefreshed := h.refreshed (htime hdue)
    have hstart : HeardAt w time (s.assignStart env).state :=
      HeardAt.roomScan _ { state := s.collected env } hrefreshed.collectWorkers
    exact @Runs.run_invariant _ _ _ (fun pass : AssignPass => HeardAt w time pass.state)
      (fun _ _ hpass => HeardAt.processRoom hpass _ _ _) _ hstart (s.roomNeedProc env)

end Pass

section Step

theorem HeardAt.touchWorker (h : HeardAt w time s) (i : Identifier) :
    HeardAt w (if i = w then env.now .message else time) (s.touchWorker env i) := by
  obtain ⟨status, hstatus, hid, hlast⟩ := h
  rw [HeardAt, workers_touchWorker]
  by_cases hi : i = w
  · exact ⟨_, Keyed.mem_modify.mpr (Or.inl ⟨status, hstatus, hid.trans hi.symm, rfl⟩), hid,
      (if_pos hi).symm⟩
  · exact ⟨status, Keyed.mem_modify.mpr (Or.inr ⟨hstatus, fun he => hi (he.symm.trans hid)⟩), hid,
      hlast.trans (if_neg hi).symm⟩

theorem heard_payload (hlen : roomFailedPayloadLength ≤ payload.length) (time : Time) :
    (heard w ⟨env, .payload i payload⟩).getD time = if i = w then env.now .message else time := by
  by_cases hi : i = w <;> simp [heard, hi, hlen]

-- The state in which a payload of a known worker is handled.
theorem HeardAt.received (h : HeardAt w time s) (hlen : roomFailedPayloadLength ≤ payload.length) :
    HeardAt w ((heard w ⟨env, .payload i payload⟩).getD time)
      ((s.emit (.received i payload s.authCode)).touchWorker env i) := by
  have hemit : HeardAt w time (s.emit (.received i payload s.authCode)) := h
  rw [heard_payload hlen]
  exact hemit.touchWorker i

theorem HeardAt.passStart {input : Input} (h : HeardAt w time s)
    (hstays : Watched.StaysUp w input ⟨s, time⟩) (hstart : passStart input s = some t) :
    HeardAt w ((heard w input).getD time) t := by
  obtain ⟨env, event⟩ := input
  cases event with
  | payload i payload =>
      unfold Scheduler.passStart at hstart
      dsimp only at hstart
      split at hstart
      · cases hstart
      split at hstart
      · rename_i hready
        have hreceived : HeardAt w _ ((s.emit (.received i payload s.authCode)).touchWorker env i) :=
          h.received hready.1
        obtain rfl := Option.some.inj hstart
        split
        · exact hreceived.readyWorker i payload
        · rename_i hauth
          have hne : w ≠ i := fun hi => hauth (hstays hi.symm hready)
          exact ((hreceived.deleteWorker hne).of_eq workers_disconnectWorker).readyWorker i payload
      split at hstart
      · rename_i hfailed
        obtain rfl := Option.some.inj hstart
        have hreceived : HeardAt w _ ((s.emit (.received i payload s.authCode)).touchWorker env i) :=
          h.received hfailed.1
        exact hreceived.deleteTask i _ true
      · cases hstart
  | tick result =>
      cases result with
      | aborted => cases hstart
      | failed => exact Option.some.inj hstart ▸ h
      | expired => exact Option.some.inj hstart ▸ h
  | _ => cases hstart

theorem workers_handleData (s : Scheduler) : (s.handleData env i payload).workers = s.workers := by
  unfold handleData
  dsimp only
  split
  · rfl
  split
  · split
    · split
      · rfl
      · split <;> rfl
    · rfl
  · rfl

theorem HeardAt.handleBuffer_of_none (h : HeardAt w time s)
    (hstart : Scheduler.passStart ⟨env, .payload i payload⟩ s = none) :
    HeardAt w ((heard w ⟨env, .payload i payload⟩).getD time) (s.handleBuffer env i payload) := by
  by_cases hlen : payload.length < roomFailedPayloadLength
  · have hnone : heard w ⟨env, .payload i payload⟩ = none := if_neg fun hboth =>
      absurd hboth.2 (not_le.mpr hlen)
    rw [hnone, handleBuffer_malformed hlen]
    exact h
  rw [Nat.not_lt] at hlen
  by_cases hkey : s.workers.HasKey i
  · have hready : ¬isReady payload := fun hr => by simp [Scheduler.passStart, hkey, hr] at hstart
    have hfailed : ¬isFailed payload := fun hf => by simp [Scheduler.passStart, hkey, hready, hf] at hstart
    rw [handleBuffer_known hlen hkey]
    dsimp only
    rw [if_neg fun hc => hready ⟨hlen, hc⟩, if_neg fun hc => hfailed ⟨hlen, hc⟩]
    split
    · exact (h.received hlen).of_eq (workers_handleData _)
    · exact h.received hlen
  · have hne : i ≠ w := fun hi => hkey (hi ▸ h.hasKey)
    rw [handleBuffer_unknown hlen hkey, heard_payload hlen, if_neg hne]
    exact h.of_eq workers_disconnectWorker

theorem HeardAt.onAccept (h : HeardAt w time s) (hsocket : s.manager.sockets.HasKey w)
    (result : AcceptResult) (draws : List Identifier) : HeardAt w time (s.onAccept env result draws) := by
  unfold Scheduler.onAccept
  split
  · exact h
  · exact h
  · exact h
  · exact h
  · rename_i identifier hdraw
    have hfree : ¬s.manager.sockets.HasKey identifier := by
      simpa [drawIdentifier] using List.find?_some hdraw
    obtain ⟨status, hstatus, hid, hlast⟩ := h
    have hne : status.identifier ≠ identifier := fun he => hfree (he ▸ hid.symm ▸ hsocket)
    exact ⟨status, (mem_workers_handleNewWorker_of_ne hne).mpr hstatus, hid, hlast⟩

theorem HeardAt.step {input : Input} (h : HeardAt w time s) (hinv : Inv s)
    (hstays : Watched.StaysUp w input ⟨s, time⟩) (hintime : Watched.InTime w input ⟨s, time⟩) :
    HeardAt w ((heard w input).getD time) (Scheduler.step input s) := by
  cases hstart : Scheduler.passStart input s with
  | some t =>
      have hpass := (h.passStart hstays hstart).checkAllStates (hintime t hstart)
      rcases (step_of_some hstart).2 with heq | heq <;> rw [heq]
      · exact hpass
      · exact hpass
  | none =>
      obtain ⟨env, event⟩ := input
      cases event with
      | accept result draws => exact h.onAccept (hinv.socket_of_hasKey h.hasKey) result draws
      | payload i payload => exact h.handleBuffer_of_none hstart
      | workerDisconnect i =>
          show HeardAt w time (s.handleWorkerDisconnect env i)
          unfold handleWorkerDisconnect
          dsimp only
          have hcleared : HeardAt w time (s.clearWorkerTasks i) := h
          split
          · exact hcleared.deleteWorker (Ne.symm hstays)
          · exact hcleared
      | tick result =>
          cases result with
          | aborted => exact h
          | failed => cases hstart
          | expired => cases hstart
      | updateRoomLists rooms => exact h
      | configure config => exact h
      | loadAuthCode => exact h

end Step

end Scheduler

namespace Watched

variable {worker : Identifier}

structure Inv (worker : Identifier) (s : Watched) : Prop where
  scheduler : s.scheduler.Inv
  heardAt : s.scheduler.HeardAt worker s.lastHeard

theorem Inv.step {input : Input} {s : Watched} (h : Inv worker s)
    (hstep : StaysUp worker input s ∧ InTime worker input s) : Inv worker (Watched.step worker input s) where
  scheduler := Scheduler.step_inv input h.scheduler
  heardAt := h.heardAt.step h.scheduler hstep.1 hstep.2

-- A worker whose WORKER_READY has been accepted stays for as long as its
-- connection does and every pass comes in time, whatever else it does or does
-- not do.
theorem run_keeps (config : Config) (before : List Input) (worker : Identifier) (lastHeard : Time)
    (env : Env) (payload : Bytes) (after : List Input)
    (hknown : (Scheduler.run config before).workers.HasKey worker) (hready : isReady payload)
    (hsteps : Runs.EveryStep (step worker) (fun input s => StaysUp worker input s ∧ InTime worker input s)
      ⟨Scheduler.run config before, lastHeard⟩ (⟨env, .payload worker payload⟩ :: after)) :
    Runs.EveryState (step worker) (fun s => s.scheduler.workers.HasKey worker)
      ⟨Scheduler.run config before, lastHeard⟩ (⟨env, .payload worker payload⟩ :: after) := by
  obtain ⟨⟨hstays, hintime⟩, hafter⟩ := hsteps
  obtain ⟨status, hstatus, hid⟩ := hknown
  have hinv := Scheduler.run_inv config before
  have hheard : heard worker ⟨env, .payload worker payload⟩ = some (env.now .message) :=
    if_pos ⟨rfl, hready.1⟩
  have hstart : (Scheduler.run config before).HeardAt worker status.lastReceived :=
    ⟨status, hstatus, hid, rfl⟩
  have hfirst : Inv worker (step worker ⟨env, .payload worker payload⟩
      ⟨Scheduler.run config before, lastHeard⟩) := by
    refine ⟨Scheduler.step_inv ⟨env, .payload worker payload⟩ hinv, ?_⟩
    have htouched := hstart.step hinv hstays fun t ht hdue => by
      have hlate := hintime t ht hdue
      simp only [step, hheard, Option.getD_some] at hlate ⊢
      exact hlate
    rw [hheard] at htouched
    simp only [step, hheard]
    exact htouched
  exact ⟨⟨status, hstatus, hid⟩, Runs.everyState_of (fun _ _ h hstep => h.step hstep)
    (fun _ h => h.heardAt.hasKey) hfirst hafter⟩

section Example

def idleInputs : List Input := [{ env := .at 0, event := .accept .accepted [5] }]

-- There is no room, and a pass 40 s after the WORKER_READY.
theorem run_keeps_forty : Runs.EveryState (step 5) (fun s => s.scheduler.workers.HasKey 5)
    ⟨Scheduler.run plainConfig idleInputs, 0⟩
    [{ env := .at (seconds 10), event := .payload 5 (plainReady 1) },
      { env := .at (seconds 50), event := .tick .expired }] :=
  run_keeps plainConfig idleInputs 5 0 (.at (seconds 10)) (plainReady 1)
    [{ env := .at (seconds 50), event := .tick .expired }] (by decide) (by decide) (by decide)

-- One second later the pass removes the worker, which had nothing to say.
theorem run_keeps_refuted : ¬∀ config before worker lastHeard env payload after,
    (Scheduler.run config before).workers.HasKey worker → isReady payload →
    Runs.EveryStep (step worker) (StaysUp worker) ⟨Scheduler.run config before, lastHeard⟩
      (⟨env, .payload worker payload⟩ :: after) →
    Runs.EveryState (step worker)
      (fun s => (∀ task ∈ s.scheduler.tasks, task.identifier ≠ worker) →
        s.scheduler.workers.HasKey worker)
      ⟨Scheduler.run config before, lastHeard⟩ (⟨env, .payload worker payload⟩ :: after) := by
  intro h
  have hstates := h plainConfig idleInputs 5 0 (.at (seconds 10)) (plainReady 1)
    [{ env := .at (seconds 51), event := .tick .expired }] (by decide) (by decide) (by decide)
  have hlast := Runs.everyState_iff_prefix.mp hstates
    [{ env := .at (seconds 10), event := .payload 5 (plainReady 1) },
      { env := .at (seconds 51), event := .tick .expired }] [] (List.append_nil _).symm
  exact absurd (hlast (by decide)) (by decide)

end Example

end Watched

end LiveReceptor.Supervisor

import LiveReceptor.Supervisor.Charges

namespace LiveReceptor.Supervisor

-- The accept and the wait are cancelled by the destructor of the connection
-- manager only.
def Input.cancelled (input : Input) : Bool :=
  match input.event with
  | .accept .canceled _ => true
  | .tick .aborted => true
  | _ => false

-- What happens until the manager is destroyed.
def untilDestroyed (inputs : List Input) : List Input := inputs.takeWhile fun input => !input.cancelled

namespace Scheduler

-- One accept and one wait are under way.
def Listening (s : Scheduler) : Prop := s.manager.pendingAccepts = 1 ∧ s.manager.pendingWaits = 1

instance : DecidablePred Listening := fun _ => inferInstanceAs (Decidable (_ ∧ _))

-- The peer of an accepted connection is gone when its endpoint is asked for.
def PeerGone (input : Input) (s : Scheduler) : Prop :=
  match input.event with
  | .accept .endpointGone draws => (s.drawIdentifier draws).isSome = true
  | _ => False

-- The asynchronous operations under way: the accepts and the waits.
def pending (s : Scheduler) : Nat × Nat := (s.manager.pendingAccepts, s.manager.pendingWaits)

variable {env : Env} {input : Input} {i : Identifier} {r : RoomId} {d : Bool} {payload : Bytes}
  {rooms : List RoomId} {s s' : Scheduler}

section Pending

theorem pending_of_manager (h : s'.manager = s.manager) : s'.pending = s.pending := by
  rw [pending, pending, h]

theorem listening_iff_pending : s.Listening ↔ s.pending = (1, 1) := by
  rw [Listening, pending, Prod.mk.injEq]

@[simp] theorem pending_disconnectWorker : (s.disconnectWorker i).pending = s.pending := by
  unfold disconnectWorker
  dsimp only
  split <;> rfl

@[simp] theorem pending_deleteAndDisconnectWorker :
    (s.deleteAndDisconnectWorker env i).pending = s.pending := by
  rw [deleteAndDisconnectWorker, pending_disconnectWorker]
  exact pending_of_manager manager_deleteWorker

@[simp] theorem pending_drops (tasks : List RoomTask) : (s.drops env d tasks).pending = s.pending := by
  induction tasks generalizing s with
  | nil => rfl
  | cons task rest ih =>
      rw [drops_cons, ih]
      apply pending_of_manager
      rw [manager_deleteTask, manager_sendUnassign]

@[simp] theorem pending_expireWorkers (threshold : Time) (skip : Bool) (workers : List WorkerStatus) :
    (expireWorkers env threshold skip workers s).pending = s.pending := by
  induction workers generalizing skip s with
  | nil => cases skip <;> rfl
  | cons worker rest ih =>
      cases skip with
      | true => exact ih false
      | false =>
          rw [expireWorkers]
          split
          · rw [ih, pending_deleteAndDisconnectWorker]
          · exact ih false

theorem pending_collected : (s.collected env).pending = s.pending := by
  have hrefreshed : (s.refreshed env).pending = s.pending := by
    rw [refreshed_eq]
    exact (pending_drops _).trans (pending_expireWorkers _ _ _)
  exact hrefreshed

theorem pending_foldl_visit (rooms : List RoomStatus) (scan : RoomScan) :
    (rooms.foldl (RoomScan.visit env) scan).state.pending = scan.state.pending := by
  induction rooms generalizing scan with
  | nil => rfl
  | cons room rest ih =>
      rw [List.foldl_cons, ih, RoomScan.visit]
      split
      · rfl
      · exact pending_drops _

theorem pending_processRooms (maxTasks currentMin : Int) (rooms : List RoomId) (pass : AssignPass) :
    (rooms.foldl (AssignPass.processRoom env maxTasks currentMin) pass).state.pending =
      pass.state.pending := by
  induction rooms generalizing pass with
  | nil => rfl
  | cons r rest ih =>
      rw [List.foldl_cons, ih]
      have hturn : Turn env r pass (pass.processRoom env maxTasks currentMin r) := turn_processRoom r
      cases hturn with
      | given w hw hspare hstate hthrottling =>
          rw [hstate]
          exact pending_of_manager manager_addTask
      | taken tasks hroom hstate hfew hthrottling => rw [hstate, pending_drops]

-- A pass starts nothing and ends nothing.
@[simp] theorem pending_checkAllStates : (s.checkAllStates env).pending = s.pending := by
  rw [checkAllStates]
  split
  · rfl
  · rw [processRooms, pending_processRooms]
    exact (pending_foldl_visit _ _).trans pending_collected

@[simp] theorem pending_handleReady : (s.handleReady env i payload).pending = s.pending := by
  rw [handleReady, pending_checkAllStates, pending_of_manager manager_readyWorker]
  split
  · rfl
  · rw [rejectWorker, pending_disconnectWorker]
    exact pending_of_manager manager_deleteWorker

@[simp] theorem pending_handleData : (s.handleData env i payload).pending = s.pending := by
  unfold handleData
  dsimp only
  repeat' split
  all_goals rfl

@[simp] theorem pending_handleBuffer : (s.handleBuffer env i payload).pending = s.pending := by
  unfold handleBuffer
  dsimp only
  split
  · split
    · rfl
    · split
      · split
        · exact pending_handleReady
        · split
          · rw [pending_checkAllStates]
            exact pending_of_manager manager_deleteTask
          · split
            · exact pending_handleData
            · rfl
      · exact pending_disconnectWorker
  · rfl

@[simp] theorem pending_handleWorkerDisconnect :
    (s.handleWorkerDisconnect env i).pending = s.pending := by
  unfold handleWorkerDisconnect
  dsimp only
  split
  · exact pending_of_manager manager_deleteWorker
  · rfl

@[simp] theorem pending_handleNewWorker : (s.handleNewWorker env i).pending = s.pending :=
  pending_of_manager manager_handleNewWorker

@[simp] theorem pending_updateRoomLists : (s.updateRoomLists rooms).pending = s.pending :=
  pending_of_manager manager_updateRoomLists

end Pending

section Steps

@[simp] theorem pending_startAccept : s.startAccept.pending = (s.pending.1 + 1, s.pending.2) := rfl

@[simp] theorem pending_endAccept : s.endAccept.pending = (s.pending.1 - 1, s.pending.2) := rfl

@[simp] theorem pending_rescheduleTimer : s.rescheduleTimer.pending = (s.pending.1, s.pending.2 + 1) := rfl

@[simp] theorem pending_endWait : s.endWait.pending = (s.pending.1, s.pending.2 - 1) := rfl

@[simp] theorem pending_addSession : (s.addSession i).pending = s.pending := rfl

-- An accept that has completed is followed by the next one, unless it was
-- cancelled or its peer is gone.
theorem listening_onAccept_iff (h : s.Listening) (result : AcceptResult) (draws : List Identifier) :
    (s.onAccept env result draws).Listening ↔
      result ≠ .canceled ∧ ¬(result = .endpointGone ∧ (s.drawIdentifier draws).isSome = true) := by
  rw [listening_iff_pending] at h ⊢
  cases result with
  | canceled => simp [onAccept, h]
  | failed => simp [onAccept, h]
  | endpointGone => cases hdraw : s.drawIdentifier draws <;> simp [onAccept, hdraw, h]
  | accepted => cases hdraw : s.drawIdentifier draws <;> simp [onAccept, hdraw, h]

theorem listening_onTimerTick_iff (h : s.Listening) (result : TimerResult) :
    (s.onTimerTick env result).Listening ↔ result ≠ .aborted := by
  rw [listening_iff_pending] at h ⊢
  cases result <;> simp [onTimerTick, h]

theorem Listening.of_pending (h : s.Listening) (hpending : s'.pending = s.pending) : s'.Listening := by
  rw [listening_iff_pending] at h ⊢
  rw [hpending, h]

-- The other handlers leave the accept and the wait alone.
theorem listening_step_iff (input : Input) (h : s.Listening) :
    (step input s).Listening ↔ input.cancelled = false ∧ ¬PeerGone input s := by
  obtain ⟨env, event⟩ := input
  cases event with
  | accept result draws =>
      apply (listening_onAccept_iff h result draws).trans
      cases result <;> simp [Input.cancelled, PeerGone]
  | tick result =>
      apply (listening_onTimerTick_iff h result).trans
      cases result <;> simp [Input.cancelled, PeerGone]
  | payload i payload => exact iff_of_true (h.of_pending pending_handleBuffer) ⟨rfl, id⟩
  | workerDisconnect i => exact iff_of_true (h.of_pending pending_handleWorkerDisconnect) ⟨rfl, id⟩
  | updateRoomLists rooms => exact iff_of_true (h.of_pending pending_updateRoomLists) ⟨rfl, id⟩
  | configure config => exact iff_of_true h ⟨rfl, id⟩
  | loadAuthCode => exact iff_of_true h ⟨rfl, id⟩

end Steps

section Runs

theorem listening_initial (config : Config) : (initial config).Listening := ⟨rfl, rfl⟩

theorem not_cancelled_untilDestroyed {inputs : List Input} :
    Runs.EveryStep step (fun input _ => input.cancelled = false) s (untilDestroyed inputs) := by
  apply Runs.everyStep_iff_prefix.mpr
  intro before input after hinputs
  have hmem : input ∈ untilDestroyed inputs := by simp [hinputs]
  have hall : (untilDestroyed inputs).all (fun input => !input.cancelled) = true := List.all_takeWhile
  simpa using List.all_eq_true.mp hall input hmem

theorem run_listening_iff (config : Config) (inputs : List Input) :
    Runs.EveryState step Listening (initial config) (untilDestroyed inputs) ↔
      Runs.EveryStep step (fun input s => ¬PeerGone input s) (initial config) (untilDestroyed inputs) := by
  have hstep : ∀ input s, True → Listening s →
      ((step input s).Listening ↔ input.cancelled = false ∧ ¬PeerGone input s) :=
    fun input s _ h => listening_step_iff input h
  rw [Runs.everyState_iff_everyStep (fun _ _ _ => trivial) hstep trivial (listening_initial config)]
  constructor
  · exact Runs.everyStep_mono fun _ _ h => h.2
  · exact fun h => not_cancelled_untilDestroyed.and h

-- The first worker that connects is gone when its endpoint is asked for.
theorem run_listening_refuted : ¬∀ config inputs,
    Runs.EveryState step Listening (initial config) (untilDestroyed inputs) := by
  intro h
  have hgone := h plainConfig [{ env := .at 0, event := .accept .endpointGone [5] }]
  exact absurd hgone.2.1 (by decide)

end Runs

end Scheduler

end LiveReceptor.Supervisor

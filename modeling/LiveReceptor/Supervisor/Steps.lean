import LiveReceptor.Supervisor.Moves

namespace LiveReceptor.Supervisor.Scheduler

open SimpleWorkerProto

-- What the handlers do outside of check_all_states, one move for each of their
-- branches. `told` is the room list that the event brings.
inductive HandlerMove (env : Env) (told : Option (List RoomId)) (s : Scheduler) : Scheduler → Prop
  | quiet {s' : Scheduler} (h : Quiet s s') (htrace : s'.trace = s.trace) : HandlerMove env told s s'
  | accept (identifier : Identifier) (hfree : ¬s.manager.sockets.HasKey identifier) :
      HandlerMove env told s ((s.addSession identifier).handleNewWorker env identifier)
  | ignore (identifier : Identifier) (payload : Bytes) (hready : ¬isReady payload)
      (hfailed : ¬isFailed payload) :
      HandlerMove env told s (s.emit (.received identifier payload s.authCode))
  | unknown (identifier : Identifier) (payload : Bytes) (hkey : ¬s.workers.HasKey identifier) :
      HandlerMove env told s (((s.emit (.received identifier payload s.authCode)).clearWorkerTasks
        identifier).disconnectWorker identifier)
  | ready (identifier : Identifier) (payload : Bytes) (hkey : s.workers.HasKey identifier)
      (hready : isReady payload) (hauth : authenticated s.authCode payload) :
      HandlerMove env told s (((s.emit (.received identifier payload s.authCode)).touchWorker env
        identifier).readyWorker env identifier payload)
  | reject (identifier : Identifier) (payload : Bytes) (hkey : s.workers.HasKey identifier)
      (hready : isReady payload) :
      HandlerMove env told s ((((s.emit (.received identifier payload s.authCode)).touchWorker env
        identifier).rejectWorker env identifier).readyWorker env identifier payload)
  | fail (identifier : Identifier) (payload : Bytes) (hkey : s.workers.HasKey identifier)
      (hfailed : isFailed payload) :
      HandlerMove env told s (((s.emit (.received identifier payload s.authCode)).touchWorker env
        identifier).deleteTask env identifier (roomIdOf payload) true)
  | forward (identifier : Identifier) (payload : Bytes)
      (htask : s.tasks.HasKey (identifier, roomIdOf payload)) :
      HandlerMove env told s (s.callDataHandler identifier (roomIdOf payload) payload)
  | absent (identifier : Identifier) (hkey : ¬s.workers.HasKey identifier) :
      HandlerMove env told s (s.clearWorkerTasks identifier)
  | leave (identifier : Identifier) (hkey : s.workers.HasKey identifier) :
      HandlerMove env told s ((s.clearWorkerTasks identifier).deleteWorker env identifier)
  | list (rooms : List RoomId) (htold : told = some rooms) :
      HandlerMove env told s (s.updateRoomLists rooms)

abbrev HandlerMoves (env : Env) (told : Option (List RoomId)) :=
  Relation.ReflTransGen (HandlerMove env told)

variable {env : Env} {told : Option (List RoomId)} {guard : Guard} {input : Input} {s s' t : Scheduler}

section Quiet

-- A change of what no move is about: the configuration, the timer, the accepts.
theorem quiet_of_eq (htasks : s'.tasks = s.tasks) (hworkers : s'.workers = s.workers)
    (hrooms : s'.rooms = s.rooms) (hsessions : s'.manager.sessions = s.manager.sessions)
    (hsockets : s'.manager.sockets = s.manager.sockets) (htrace : s'.trace = s.trace) :
    HandlerMove env told s s' :=
  .quiet
    { tasks := htasks ▸ quiet_tasks_self s
      workers := hworkers ▸ quiet_workers_self s
      rooms := hrooms ▸ quiet_rooms_self s
      sessions := hsessions
      sockets := hsockets
      trace := ⟨[], by rw [htrace, List.append_nil], by simp⟩ } htrace

theorem quiet_touchWorker (identifier : Identifier) : Quiet s (s.touchWorker env identifier) where
  tasks := quiet_tasks_self s
  workers := ⟨_, fun _ => by split <;> rfl, rfl, fun worker => by split <;> exact ⟨rfl, rfl, rfl⟩⟩
  rooms := quiet_rooms_self s
  sessions := rfl
  sockets := rfl
  trace := ⟨[], (List.append_nil _).symm, by simp⟩

theorem quiet_touchTask (identifier : Identifier) (roomId : RoomId) :
    Quiet s (s.touchTask env identifier roomId) where
  tasks := ⟨_, fun _ => by split <;> rfl, rfl⟩
  workers := quiet_workers_self s
  rooms := quiet_rooms_self s
  sessions := rfl
  sockets := rfl
  trace := ⟨[], (List.append_nil _).symm, by simp⟩

theorem quiet_touchRoom (roomId : RoomId) : Quiet s (s.touchRoom env roomId) where
  tasks := quiet_tasks_self s
  workers := quiet_workers_self s
  rooms := ⟨_, fun _ => by split <;> rfl, rfl, fun room => by split <;> exact ⟨rfl, rfl⟩⟩
  sessions := rfl
  sockets := rfl
  trace := ⟨[], (List.append_nil _).symm, by simp⟩

end Quiet

section Handlers

theorem hasKey_touchTask {identifier : Identifier} {roomId : RoomId} {key : Identifier × RoomId} :
    (s.touchTask env identifier roomId).tasks.HasKey key ↔ s.tasks.HasKey key := by
  unfold touchTask
  dsimp only
  refine Keyed.hasKey_update

theorem hasKey_handleData {identifier : Identifier} {payload : Bytes} {key : Identifier × RoomId} :
    (s.handleData env identifier payload).tasks.HasKey key ↔ s.tasks.HasKey key := by
  unfold handleData
  dsimp only
  split
  · exact Iff.rfl
  split
  · split
    · split
      · exact hasKey_touchTask
      · split
        · exact hasKey_touchTask
        · exact hasKey_touchTask
    · exact hasKey_touchTask
  · exact Iff.rfl

theorem handleData_moves (identifier : Identifier) (payload : Bytes) :
    HandlerMoves env told s (s.handleData env identifier payload) := by
  unfold handleData
  dsimp only
  split
  · exact .refl
  split
  · rename_i htask
    have htouch : HandlerMoves env told s (s.touchTask env identifier (roomIdOf payload)) :=
      .single (.quiet (quiet_touchTask _ _) rfl)
    have hheld : (s.touchTask env identifier (roomIdOf payload)).tasks.HasKey
        (identifier, roomIdOf payload) := hasKey_touchTask.mpr htask
    split
    · split
      · exact htouch
      · split
        · exact (htouch.tail (.quiet (quiet_touchRoom _) rfl)).tail (.forward identifier payload hheld)
        · exact htouch
    · exact htouch.tail (.forward identifier payload hheld)
  · exact .refl

theorem onAccept_moves (result : AcceptResult) (draws : List Identifier) :
    HandlerMoves env told s (s.onAccept env result draws) := by
  unfold onAccept
  split
  · exact .single (quiet_of_eq rfl rfl rfl rfl rfl rfl)
  · exact .single (quiet_of_eq rfl rfl rfl rfl rfl rfl)
  · exact .refl
  · exact .single (quiet_of_eq rfl rfl rfl rfl rfl rfl)
  · rename_i identifier hdraw
    have hfree : ¬s.manager.sockets.HasKey identifier := by
      simpa [drawIdentifier] using List.find?_some hdraw
    have hend : HandlerMoves env told s s.endAccept := .single (quiet_of_eq rfl rfl rfl rfl rfl rfl)
    exact (hend.tail (.accept identifier hfree)).tail (quiet_of_eq rfl rfl rfl rfl rfl rfl)

theorem handleWorkerDisconnect_moves (identifier : Identifier) :
    HandlerMoves env told s (s.handleWorkerDisconnect env identifier) := by
  unfold handleWorkerDisconnect
  dsimp only
  split
  · rename_i hkey
    exact .single (.leave identifier hkey)
  · rename_i hkey
    exact .single (.absent identifier hkey)

end Handlers

section Steps

-- The state in which the step calls check_all_states, if it does.
def passStart (input : Input) (s : Scheduler) : Option Scheduler :=
  match input.event with
  | .payload identifier payload =>
      let s' := (s.emit (.received identifier payload s.authCode)).touchWorker input.env identifier
      if ¬s.workers.HasKey identifier then none
      else if isReady payload then
        let s' := if authenticated s.authCode payload then s' else s'.rejectWorker input.env identifier
        some (s'.readyWorker input.env identifier payload)
      else if isFailed payload then
        some (s'.deleteTask input.env identifier (roomIdOf payload) true)
      else none
  | .tick .failed | .tick .expired => some s.endWait
  | _ => none

section Payload

theorem not_isReady_of_isFailed {payload : Bytes} (h : isFailed payload) : ¬isReady payload := by
  intro hready
  have hcode := h.2.symm.trans hready.2
  simp [roomFailedCode, workerReadyCode] at hcode

variable {identifier : Identifier} {payload : Bytes}

theorem handleBuffer_malformed (hlen : payload.length < roomFailedPayloadLength) :
    s.handleBuffer env identifier payload = s.emit (.received identifier payload s.authCode) := by
  cases payload with
  | nil => rfl
  | cons opCode rest => exact if_pos hlen

theorem handleBuffer_unknown (hlen : roomFailedPayloadLength ≤ payload.length)
    (hkey : ¬s.workers.HasKey identifier) :
    s.handleBuffer env identifier payload =
      ((s.emit (.received identifier payload s.authCode)).clearWorkerTasks identifier).disconnectWorker
        identifier := by
  cases payload with
  | nil => simp [roomFailedPayloadLength] at hlen
  | cons opCode rest => rw [handleBuffer, if_neg (Nat.not_lt.mpr hlen), if_neg (by simpa using hkey)]

theorem handleBuffer_known (hlen : roomFailedPayloadLength ≤ payload.length)
    (hkey : s.workers.HasKey identifier) :
    s.handleBuffer env identifier payload =
      let s := (s.emit (.received identifier payload s.authCode)).touchWorker env identifier
      if payload.head? = some workerReadyCode then s.handleReady env identifier payload
      else if payload.head? = some roomFailedCode then
        (s.deleteTask env identifier (roomIdOf payload) true).checkAllStates env
      else if payload.head? = some workerDataCode then s.handleData env identifier payload
      else s := by
  cases payload with
  | nil => simp [roomFailedPayloadLength] at hlen
  | cons opCode rest =>
      rw [handleBuffer, if_neg (Nat.not_lt.mpr hlen), if_pos (by simpa using hkey)]
      simp only [List.head?_cons, Option.some.injEq]

theorem handleBuffer_of_none (h : passStart ⟨env, .payload identifier payload⟩ s = none) :
    HandlerMoves env told s (s.handleBuffer env identifier payload) := by
  by_cases hlen : payload.length < roomFailedPayloadLength
  · rw [handleBuffer_malformed hlen]
    exact .single (.ignore identifier payload (fun hr => absurd hr.1 (Nat.not_le.mpr hlen))
      fun hf => absurd hf.1 (Nat.not_le.mpr hlen))
  rw [Nat.not_lt] at hlen
  by_cases hkey : s.workers.HasKey identifier
  · have hready : ¬isReady payload := fun hr => by simp [passStart, hkey, hr] at h
    have hfailed : ¬isFailed payload := fun hf => by simp [passStart, hkey, hready, hf] at h
    have htouch : HandlerMoves env told s
        ((s.emit (.received identifier payload s.authCode)).touchWorker env identifier) :=
      (Relation.ReflTransGen.single (.ignore identifier payload hready hfailed)).tail
        (.quiet (quiet_touchWorker identifier) rfl)
    rw [handleBuffer_known hlen hkey]
    dsimp only
    rw [if_neg fun hc => hready ⟨hlen, hc⟩, if_neg fun hc => hfailed ⟨hlen, hc⟩]
    split
    · exact htouch.trans (handleData_moves identifier payload)
    · exact htouch
  · rw [handleBuffer_unknown hlen hkey]
    exact .single (.unknown identifier payload hkey)

theorem handleBuffer_of_some (h : passStart ⟨env, .payload identifier payload⟩ s = some t) :
    HandlerMove env told s t ∧ s.handleBuffer env identifier payload = t.checkAllStates env := by
  by_cases hkey : s.workers.HasKey identifier
  · by_cases hready : isReady payload
    · rw [handleBuffer_known hready.1 hkey]
      dsimp only
      rw [if_pos hready.2]
      by_cases hauth : authenticated s.authCode payload
      · obtain rfl : _ = t := by simpa [passStart, hkey, hready, hauth] using h
        refine ⟨.ready identifier payload hkey hready hauth, ?_⟩
        exact congrArg (fun s => (readyWorker env identifier payload s).checkAllStates env)
          (if_pos hauth)
      · obtain rfl : _ = t := by simpa [passStart, hkey, hready, hauth] using h
        refine ⟨.reject identifier payload hkey hready, ?_⟩
        exact congrArg (fun s => (readyWorker env identifier payload s).checkAllStates env)
          (if_neg hauth)
    · by_cases hfailed : isFailed payload
      · obtain rfl : _ = t := by simpa [passStart, hkey, hready, hfailed] using h
        refine ⟨.fail identifier payload hkey hfailed, ?_⟩
        rw [handleBuffer_known hfailed.1 hkey]
        dsimp only
        rw [if_neg fun hc => hready ⟨hfailed.1, hc⟩, if_pos hfailed.2]
      · simp [passStart, hkey, hready, hfailed] at h
  · simp [passStart, hkey] at h

end Payload

-- A step without a call of check_all_states.
theorem step_of_none (h : passStart input s = none) :
    HandlerMoves input.env input.told s (step input s) := by
  obtain ⟨env, event⟩ := input
  cases event with
  | accept result draws => exact onAccept_moves result draws
  | payload identifier payload => exact handleBuffer_of_none h
  | workerDisconnect identifier => exact handleWorkerDisconnect_moves identifier
  | tick result =>
      cases result with
      | aborted => exact .single (quiet_of_eq rfl rfl rfl rfl rfl rfl)
      | failed => cases h
      | expired => cases h
  | updateRoomLists rooms => exact .single (.list rooms rfl)
  | configure config => exact .single (quiet_of_eq rfl rfl rfl rfl rfl rfl)
  | loadAuthCode => exact .single (quiet_of_eq rfl rfl rfl rfl rfl rfl)

-- A step with one: what follows it is at most the next wait of the timer.
theorem step_of_some (h : passStart input s = some t) :
    HandlerMove input.env input.told s t ∧
      (step input s = t.checkAllStates input.env ∨
        step input s = (t.checkAllStates input.env).rescheduleTimer) := by
  obtain ⟨env, event⟩ := input
  cases event with
  | payload identifier payload =>
      obtain ⟨hmove, heq⟩ := handleBuffer_of_some h
      exact ⟨hmove, Or.inl heq⟩
  | tick result =>
      cases result with
      | aborted => cases h
      | failed =>
          obtain rfl := Option.some.inj h
          exact ⟨quiet_of_eq rfl rfl rfl rfl rfl rfl, Or.inr rfl⟩
      | expired =>
          obtain rfl := Option.some.inj h
          exact ⟨quiet_of_eq rfl rfl rfl rfl rfl rfl, Or.inr rfl⟩
  | accept _ _ => cases h
  | workerDisconnect _ => cases h
  | updateRoomLists _ => cases h
  | configure _ => cases h
  | loadAuthCode => cases h

-- The guard holds in the pass that the step takes, if it takes one.
def StepMeetsGuard (guard : Guard) (input : Input) (s : Scheduler) : Prop :=
  ∀ t, passStart input s = some t → ¬throttled input.env t → PassMeetsGuard input.env guard t

instance [∀ s worker room, Decidable (guard s worker room)] (input : Input) (s : Scheduler) :
    Decidable (StepMeetsGuard guard input s) :=
  decidable_of_iff (∀ t ∈ passStart input s, ¬throttled input.env t → PassMeetsGuard input.env guard t)
    Iff.rfl

theorem stepMeetsGuard_true (input : Input) (s : Scheduler) :
    StepMeetsGuard Unguarded input s := fun t _ _ => passMeetsGuard_true t

theorem handlerMoves_invariant {P : Scheduler → Prop}
    (hP : ∀ s s', P s → HandlerMove env told s s' → P s') (h : P s) (hmoves : HandlerMoves env told s s') :
    P s' := by
  induction hmoves with
  | refl => exact h
  | tail _ hmove ih => exact hP _ _ ih hmove

-- What the moves of the handlers and of the passes preserve, a step preserves.
theorem step_invariant {P : Scheduler → Prop}
    (hhandler : ∀ s s', P s → HandlerMove input.env input.told s s' → P s')
    (hpass : ∀ stage s s', P s → PassMove input.env guard stage s s' → P s') (h : P s)
    (hguard : StepMeetsGuard guard input s) : P (step input s) := by
  cases hstart : passStart input s with
  | none => exact handlerMoves_invariant hhandler h (step_of_none hstart)
  | some t =>
      obtain ⟨hmove, heq⟩ := step_of_some hstart
      have hdone : P (t.checkAllStates input.env) :=
        checkAllStates_invariant hpass (hhandler s t h hmove) (hguard t hstart)
      rcases heq with heq | heq <;> rw [heq]
      · exact hdone
      · exact hhandler _ _ hdone (quiet_of_eq rfl rfl rfl rfl rfl rfl)

end Steps

section Trace

-- The handlers themselves check nothing.
theorem HandlerMove.trace (h : HandlerMove env told s s') :
    ∃ effects, s'.trace = s.trace ++ effects ∧ ∀ now, .checked now ∉ effects := by
  cases h with
  | quiet h htrace => exact ⟨[], by rw [htrace, List.append_nil], by simp⟩
  | accept identifier hfree =>
      refine ⟨_, trace_handleNewWorker, fun now => ?_⟩
      split <;> simp
  | ignore identifier payload hready hfailed => exact ⟨_, rfl, by simp⟩
  | unknown identifier payload hkey => exact ⟨_, trace_unknown, by simp⟩
  | ready identifier payload hkey hready hauth => exact ⟨_, trace_ready hkey, by simp⟩
  | reject identifier payload hkey hready => exact ⟨_, trace_reject hkey, by simp⟩
  | fail identifier payload hkey hfailed => exact ⟨_, trace_fail, by simp⟩
  | forward identifier payload htask => exact ⟨_, rfl, by simp⟩
  | absent identifier hkey => exact ⟨[], by simp, by simp⟩
  | leave identifier hkey => exact ⟨_, trace_leave hkey, by simp⟩
  | list rooms htold => exact ⟨[], by simp, by simp⟩

theorem HandlerMoves.trace (h : HandlerMoves env told s s') :
    ∃ effects, s'.trace = s.trace ++ effects ∧ ∀ now, .checked now ∉ effects := by
  induction h with
  | refl => exact ⟨[], (List.append_nil _).symm, by simp⟩
  | tail _ hmove ih =>
      obtain ⟨first, hfirst, hnone⟩ := ih
      obtain ⟨next, hnext, hnone'⟩ := hmove.trace
      refine ⟨first ++ next, by rw [hnext, hfirst, List.append_assoc], fun now hnow => ?_⟩
      exact (List.mem_append.mp hnow).elim (hnone now) (hnone' now)

-- A pass that was not throttled has taken place.
def Checked (s s' : Scheduler) : Prop :=
  ∃ effects now, s'.trace = s.trace ++ effects ∧ .checked now ∈ effects

theorem HandlerMoves.not_checked (h : HandlerMoves env told s s') : ¬Checked s s' := by
  rintro ⟨effects, now, heffects, hnow⟩
  obtain ⟨effects', heffects', hnone⟩ := h.trace
  rw [heffects, List.append_cancel_left_eq] at heffects'
  exact hnone now (heffects' ▸ hnow)

theorem passStart_of_checked (h : Checked s (step input s)) :
    ∃ t, passStart input s = some t ∧ ¬throttled input.env t := by
  cases hstart : passStart input s with
  | none => exact absurd h (step_of_none hstart).not_checked
  | some t =>
      refine ⟨t, rfl, fun hthrottled => ?_⟩
      obtain ⟨hmove, heq⟩ := step_of_some hstart
      rw [checkAllStates, if_pos hthrottled] at heq
      rcases heq with heq | heq <;> rw [heq] at h
      · exact HandlerMoves.not_checked (Relation.ReflTransGen.single hmove) h
      · exact HandlerMoves.not_checked
          ((Relation.ReflTransGen.single hmove).tail (quiet_of_eq rfl rfl rfl rfl rfl rfl)) h

-- A pass only adds to the record, and no payload comes in or goes out.
theorem PassMove.extends {stage : Stage} (h : PassMove env guard stage s s') :
    ∃ effects, s'.trace = s.trace ++ effects ∧ ∀ effect ∈ effects, ¬effect.CarriesPayload := by
  cases h with
  | quiet hquiet =>
      obtain ⟨effects, heffects, hquiets⟩ := hquiet.trace
      refine ⟨effects, heffects, fun effect he => ?_⟩
      have heffect := hquiets effect he
      cases effect <;> simp_all [Effect.Quiet, Effect.CarriesPayload]
  | drop descRank htask =>
      refine ⟨_, by rw [trace_deleteTask, trace_sendUnassign], fun effect he => ?_⟩
      split at he
      · simp_all [Effect.CarriesPayload]
      · cases he
  | @expire _ worker hworker =>
      exact ⟨_, trace_expire (.of_mem hworker), by simp [Effect.CarriesPayload]⟩
  | refresh => exact ⟨[], (List.append_nil _).symm, by simp⟩
  | forget hempty => exact ⟨[], (List.append_nil _).symm, by simp⟩
  | assign hworker hroom hlimit hnew hguard =>
      refine ⟨_, trace_addTask, fun effect he => ?_⟩
      split at he
      · simp_all [Effect.CarriesPayload]
      · cases he

theorem PassMoves.extends {stage : Stage} (h : PassMoves env guard stage s s') :
    ∃ effects, s'.trace = s.trace ++ effects ∧ ∀ effect ∈ effects, ¬effect.CarriesPayload := by
  induction h with
  | refl => exact ⟨[], (List.append_nil _).symm, by simp⟩
  | tail _ hmove ih => exact extends_trans ih hmove.extends

theorem checkAllStates_trace (hdue : ¬throttled env t) :
    ∃ effects, (t.checkAllStates env).trace = t.trace ++ .checked (env.now .check) :: effects ∧
      ∀ effect ∈ effects, ¬effect.CarriesPayload := by
  have hinterval : PassMoves env Unguarded .interval
      ({ t with lastChecked := env.now .check }.emit (.checked (env.now .check))) (t.refreshed env) :=
    (checkWorkerTaskInterval_moves _).tail .refresh
  have hrooms : PassMoves env Unguarded .rooms (t.refreshed env) (t.assignStart env).state :=
    assignStart_moves t
  have hassign : PassMoves env Unguarded .assign (t.assignStart env).state
      (t.processRooms env (t.roomNeedProc env)).state :=
    processRooms_moves (passMeetsGuard_true t)
  obtain ⟨effects, htrace, hnone⟩ :=
    extends_trans (extends_trans (PassMoves.extends hinterval) (PassMoves.extends hrooms))
      (PassMoves.extends hassign)
  refine ⟨effects, ?_, hnone⟩
  rw [checkAllStates, if_neg hdue, htrace, trace_emit, List.append_assoc]
  rfl

-- Exactly the steps that call check_all_states when it is due check.
theorem checked_iff : Checked s (step input s) ↔
    ∃ t, passStart input s = some t ∧ ¬throttled input.env t := by
  constructor
  · exact passStart_of_checked
  · rintro ⟨t, hstart, hdue⟩
    obtain ⟨hmove, heq⟩ := step_of_some hstart
    obtain ⟨first, hfirst, -⟩ := hmove.trace
    obtain ⟨rest, hrest, -⟩ := checkAllStates_trace hdue
    refine ⟨first ++ .checked (input.env.now .check) :: rest, input.env.now .check, ?_, by simp⟩
    have htrace : (step input s).trace = (t.checkAllStates input.env).trace := by
      rcases heq with heq | heq <;> rw [heq]
      rfl
    rw [htrace, hrest, hfirst, List.append_assoc]

theorem checkAllStates_extends (env : Env) (t : Scheduler) :
    ∃ effects, (t.checkAllStates env).trace = t.trace ++ effects ∧
      ∀ effect ∈ effects, ¬effect.CarriesPayload := by
  by_cases hthrottled : throttled env t
  · rw [checkAllStates, if_pos hthrottled]
    exact ⟨[], (List.append_nil _).symm, by simp⟩
  · obtain ⟨effects, htrace, hnone⟩ := checkAllStates_trace hthrottled
    refine ⟨_, htrace, fun effect he => ?_⟩
    rcases List.mem_cons.mp he with rfl | he
    · exact id
    · exact hnone effect he

theorem step_tick_extends (env : Env) (result : TimerResult) (s : Scheduler) :
    ∃ effects, (step ⟨env, .tick result⟩ s).trace = s.trace ++ effects ∧
      ∀ effect ∈ effects, ¬effect.CarriesPayload := by
  cases result with
  | aborted => exact ⟨[], (List.append_nil _).symm, by simp⟩
  | failed => exact checkAllStates_extends env s.endWait
  | expired => exact checkAllStates_extends env s.endWait

-- The timer publishes nothing.
theorem step_tick_trace (env : Env) (result : TimerResult) (s : Scheduler) :
    ∃ effects, (step ⟨env, .tick result⟩ s).trace = s.trace ++ effects ∧
      ∀ effect ∈ effects, ¬effect.Publishes := by
  obtain ⟨effects, htrace, hnone⟩ := step_tick_extends env result s
  exact ⟨effects, htrace, fun effect he hpublishes => hnone effect he hpublishes.carriesPayload⟩

instance (input : Input) (s : Scheduler) : Decidable (Checked s (step input s)) :=
  decidable_of_iff (∃ t ∈ passStart input s, ¬throttled input.env t) checked_iff.symm

end Trace

end LiveReceptor.Supervisor.Scheduler

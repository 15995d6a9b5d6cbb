import LiveReceptor.Supervisor.CommandLog
import LiveReceptor.Supervisor.Conserving

namespace LiveReceptor.Supervisor

def Effect.Stale : Effect → Prop
  | .staleWorker _ => True
  | _ => False

namespace Scheduler

variable {env : Env} {input : Input} {s s' t : Scheduler} {i : Identifier} {payload : Bytes}
  {guard : Guard} {stage : Stage}

section Fresh

-- No worker has been looked at through a pointer to where it no longer is.
def KeepsClear (s s' : Scheduler) : Prop :=
  ∃ effects, s'.trace = s.trace ++ effects ∧ ∀ effect ∈ effects, ¬effect.Stale

theorem KeepsClear.refl (s : Scheduler) : KeepsClear s s := ⟨[], (List.append_nil _).symm, by simp⟩

theorem KeepsClear.trans (h : KeepsClear s s') (h' : KeepsClear s' t) : KeepsClear s t :=
  extends_trans h h'

theorem KeepsClear.passMove (hmove : PassMove env guard stage s s') : KeepsClear s s' := by
  cases hmove with
  | quiet hquiet =>
      obtain ⟨effects, htrace, hquiets⟩ := hquiet.trace
      refine ⟨effects, htrace, fun effect he => ?_⟩
      have heffect := hquiets effect he
      cases effect <;> simp_all [Effect.Quiet, Effect.Stale]
  | drop descRank htask =>
      refine ⟨_, by rw [trace_deleteTask, trace_sendUnassign], fun effect he => ?_⟩
      split at he
      · simp_all [Effect.Stale]
      · cases he
  | expire hworker => exact ⟨_, trace_expire (.of_mem hworker), by simp [Effect.Stale]⟩
  | refresh => exact .refl s
  | forget hempty => exact .refl s
  | assign hworker hroom hlimit hnew hguard =>
      refine ⟨_, trace_addTask, fun effect he => ?_⟩
      split at he
      · simp_all [Effect.Stale]
      · cases he

-- The loops of a pass look at workers that are there.
theorem KeepsClear.checkAllStates (h : KeepsClear s t) : KeepsClear s (t.checkAllStates env) :=
  checkAllStates_invariant (fun _ _ _ hkept hmove => hkept.trans (.passMove hmove)) h
    fun _ => passMeetsGuard_true t

theorem keepsClear_handleData : KeepsClear s (s.handleData env i payload) := by
  unfold handleData
  dsimp only
  split
  · exact .refl s
  split
  · split
    · split
      · exact .refl s
      · split
        · exact ⟨_, rfl, by simp [Effect.Stale]⟩
        · exact .refl s
    · exact ⟨_, rfl, by simp [Effect.Stale]⟩
  · exact .refl s

theorem keepsClear_onAccept (result : AcceptResult) (draws : List Identifier) :
    KeepsClear s (s.onAccept env result draws) := by
  unfold onAccept
  split
  · exact .refl s
  · exact .refl s
  · exact .refl s
  · exact .refl s
  · refine ⟨_, trace_handleNewWorker, fun effect he => ?_⟩
    rcases List.mem_cons.mp he with rfl | he
    · exact id
    · split at he
      · rw [List.mem_singleton.mp he]
        exact id
      · cases he

end Fresh

section Claim

-- The event is a WORKER_READY of a known worker that is not authenticated.
def Rejects (input : Input) (s : Scheduler) : Prop :=
  ∃ identifier payload, input.event = .payload identifier payload ∧ s.workers.HasKey identifier ∧
    isReady payload ∧ ¬authenticated s.authCode payload

theorem keepsClear_handleBuffer (h : ¬Rejects ⟨env, .payload i payload⟩ s) :
    KeepsClear s (s.handleBuffer env i payload) := by
  by_cases hlen : payload.length < SimpleWorkerProto.roomFailedPayloadLength
  · rw [handleBuffer_malformed hlen]
    exact ⟨_, rfl, by simp [Effect.Stale]⟩
  rw [Nat.not_lt] at hlen
  by_cases hkey : s.workers.HasKey i
  · rw [handleBuffer_known hlen hkey]
    dsimp only
    split
    · rename_i hready
      have hauth : authenticated s.authCode payload :=
        by_contra fun hauth => h ⟨i, payload, rfl, hkey, ⟨hlen, hready⟩, hauth⟩
      unfold handleReady
      dsimp only
      rw [if_pos (by exact hauth)]
      exact KeepsClear.checkAllStates ⟨_, trace_ready hkey, by simp [Effect.Stale]⟩
    split
    · exact KeepsClear.checkAllStates ⟨_, trace_fail, by simp [Effect.Stale]⟩
    split
    · have hreceived : KeepsClear s ((s.emit (.received i payload s.authCode)).touchWorker env i) :=
        ⟨_, rfl, by simp [Effect.Stale]⟩
      exact hreceived.trans keepsClear_handleData
    · exact ⟨_, rfl, by simp [Effect.Stale]⟩
  · rw [handleBuffer_unknown hlen hkey]
    exact ⟨_, trace_unknown, by simp [Effect.Stale]⟩

theorem keepsClear_step (h : ¬Rejects input s) : KeepsClear s (step input s) := by
  obtain ⟨env, event⟩ := input
  cases event with
  | accept result draws => exact keepsClear_onAccept result draws
  | payload i payload => exact keepsClear_handleBuffer h
  | workerDisconnect i =>
      show KeepsClear s (s.handleWorkerDisconnect env i)
      unfold handleWorkerDisconnect
      dsimp only
      split
      · rename_i hkey
        exact ⟨_, trace_leave hkey, by simp [Effect.Stale]⟩
      · exact .refl s
  | tick result =>
      have hwait : KeepsClear s s.endWait := .refl s
      cases result with
      | aborted => exact hwait
      | failed => exact hwait.checkAllStates
      | expired => exact hwait.checkAllStates
  | updateRoomLists rooms => exact .refl s
  | configure config => exact .refl s
  | loadAuthCode => exact .refl s

-- The step looks at no worker whose entry is gone. The last part is about the
-- list of pointers that the loop over the rooms walks along.
structure UsesNoErased (input : Input) (s : Scheduler) : Prop where
  derefs : ∀ identifier, .staleWorker identifier ∉ s.effects input
  pointers : ∀ t, passStart input s = some t → ¬throttled input.env t →
    EveryTurn input.env (fun _ _ _ pass => Pointing pass) t

theorem everyTurn_pointing (env : Env) (t : Scheduler) :
    EveryTurn env (fun _ _ _ pass => Pointing pass) t :=
  Runs.everyStep_of (fun r _ hpoint _ => hpoint.processRoom r) (fun _ _ hpoint _ => hpoint)
    (pointing_assignStart env t) (Runs.everyStep_of_forall (P := fun _ _ => True) (fun _ _ => trivial) _ _)

theorem stale_of_rejects (h : Rejects input s) :
    ∃ identifier, .staleWorker identifier ∈ s.effects input := by
  obtain ⟨env, event⟩ := input
  obtain ⟨i, payload, rfl, hkey, hready, hauth⟩ := h
  obtain ⟨rest, hrest, -⟩ := checkAllStates_extends env ((((s.emit (.received i payload s.authCode)).touchWorker
    env i).rejectWorker env i).readyWorker env i payload)
  have hstep : (step ⟨env, .payload i payload⟩ s).trace = s.trace ++ ([.received i payload s.authCode, .reset i,
      .deleted i, .disconnect i, .staleWorker i, .reset i] ++ rest) := by
    show (s.handleBuffer env i payload).trace = _
    rw [handleBuffer_known hready.1 hkey]
    dsimp only
    rw [if_pos hready.2]
    unfold handleReady
    dsimp only
    rw [if_neg (by exact hauth), hrest, trace_reject hkey, List.append_assoc]
  exact ⟨i, by rw [effects_eq hstep]; simp⟩

theorem usesNoErased_iff : UsesNoErased input s ↔ ¬Rejects input s := by
  constructor
  · intro h hrejects
    obtain ⟨identifier, hstale⟩ := stale_of_rejects hrejects
    exact h.derefs identifier hstale
  · intro h
    refine ⟨fun identifier hstale => ?_, fun t _ _ => everyTurn_pointing input.env t⟩
    obtain ⟨effects, htrace, hnone⟩ := keepsClear_step h
    rw [effects_eq htrace] at hstale
    exact hnone _ hstale trivial

-- No worker is used after its entry is gone, exactly in the runs without a
-- WORKER_READY that fails authentication.
theorem run_usesNoErased_iff (config : Config) (inputs : List Input) :
    Runs.EveryStep step UsesNoErased (initial config) inputs ↔
      Runs.EveryStep step (fun input s => ¬Rejects input s) (initial config) inputs := by
  constructor
  · exact Runs.everyStep_mono fun _ _ => usesNoErased_iff.mp
  · exact Runs.everyStep_mono fun _ _ => usesNoErased_iff.mpr

-- A worker connects and presents the wrong code.
def rejectingRun : List Input :=
  [{ env := .at 0, event := .accept .accepted [1] },
    { env := .at 0, event := .payload 1 ([SimpleWorkerProto.workerReadyCode, 0, 0, 0, 1] ++ List.replicate 32 66) }]

theorem run_usesNoErased_refuted :
    ¬∀ config inputs, Runs.EveryStep step UsesNoErased (initial config) inputs := by
  intro h
  have hrun := (h plainConfig rejectingRun).2.1.derefs 1
  revert hrun
  decide

end Claim

end Scheduler

end LiveReceptor.Supervisor

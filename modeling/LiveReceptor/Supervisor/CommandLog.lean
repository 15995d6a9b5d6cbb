import LiveReceptor.Supervisor.Commands
import LiveReceptor.Supervisor.Consistency

namespace LiveReceptor.Supervisor

open SwitchCommand (Toggles)

-- Applying the packets in order leads from one set of rooms to another: every
-- ASSIGN is for a room that is not held at that moment, every UNASSIGN for one
-- that is.
def Applies : Set RoomId → List Packet → Set RoomId → Prop
  | held, [], after => held = after
  | held, .assign roomId :: rest, after => roomId ∉ held ∧ Applies (insert roomId held) rest after
  | held, .unassign roomId :: rest, after => roomId ∈ held ∧ Applies (held \ {roomId}) rest after

section Toggles

variable {held after : RoomId → Bool} {packets : List Packet}

-- One command moves one switch, and the rest goes on from there.
theorem toggles_update {packet : Packet} (value : Bool)
    (hself : Toggles value (commandsFor packet.roomId packets) (after packet.roomId))
    (h : ∀ roomId, Toggles (held roomId) (commandsFor roomId (packet :: packets)) (after roomId))
    (roomId : RoomId) :
    Toggles (Function.update held packet.roomId value roomId) (commandsFor roomId packets)
      (after roomId) := by
  by_cases hroom : roomId = packet.roomId
  · subst hroom
    rwa [Function.update_self]
  · have hother := h roomId
    rwa [commandsFor_cons_of_ne (Ne.symm hroom), ← Function.update_of_ne hroom value held] at hother

-- Room by room, the packets are commands for a switch.
theorem applies_of_toggles
    (h : ∀ roomId, Toggles (held roomId) (commandsFor roomId packets) (after roomId)) :
    Applies {roomId | held roomId = true} packets {roomId | after roomId = true} := by
  induction packets generalizing held with
  | nil =>
      have hsame : held = after := funext h
      rw [hsame]
      rfl
  | cons packet rest ih =>
      have hself := h packet.roomId
      rw [commandsFor_cons_self] at hself
      cases packet with
      | assign room =>
          obtain ⟨hfree, hrest⟩ := hself
          have hheld : {roomId | Function.update held room true roomId = true} =
              insert room {roomId | held roomId = true} := by
            ext other
            by_cases hother : other = room <;> simp [Function.update_apply, hother]
          refine ⟨by simpa [Packet.roomId] using hfree, ?_⟩
          rw [← hheld]
          exact ih (toggles_update true hrest h)
      | unassign room =>
          obtain ⟨htaken, hrest⟩ := hself
          have hheld : {roomId | Function.update held room false roomId = true} =
              {roomId | held roomId = true} \ {room} := by
            ext other
            by_cases hother : other = room <;> simp [Function.update_apply, hother]
          refine ⟨htaken, ?_⟩
          rw [← hheld]
          exact ih (toggles_update false hrest h)

end Toggles

namespace Scheduler

-- The rooms of the worker.
def tasksOf (worker : Identifier) (s : Scheduler) : Set RoomId :=
  {roomId | s.tasks.HasKey (worker, roomId)}

-- The room that the event reports as failed by the worker.
def reported (worker : Identifier) (input : Input) : Set RoomId :=
  match input.event with
  | .payload identifier payload =>
      {roomId | identifier = worker ∧ isFailed payload ∧ roomIdOf payload = roomId}
  | _ => ∅

def effects (input : Input) (s : Scheduler) : List Effect :=
  (step input s).trace.drop s.trace.length

variable {env : Env} {input : Input} {s t : Scheduler} {w i : Identifier} {payload : Bytes}

section Received

theorem effects_eq {effects : List Effect} (h : (step input s).trace = s.trace ++ effects) :
    s.effects input = effects := by
  rw [Scheduler.effects, h, List.drop_left]

-- What the step records as received is what the event brings.
def Brings (event : Event) : Effect → Prop
  | .received identifier payload _ => event = .payload identifier payload
  | _ => True

variable {event : Event}

theorem brings_of_not_carriesPayload {effect : Effect} (h : ¬effect.CarriesPayload) :
    Brings event effect := by
  cases effect with
  | received => exact absurd trivial h
  | _ => trivial

theorem handleData_brings (event : Event) (env : Env) (i : Identifier) (payload : Bytes)
    (s : Scheduler) : ∃ effects, (s.handleData env i payload).trace = s.trace ++ effects ∧
      ∀ effect ∈ effects, Brings event effect := by
  have hnothing : ∃ effects, s.trace = s.trace ++ effects ∧ ∀ effect ∈ effects, Brings event effect :=
    ⟨[], (List.append_nil _).symm, by simp⟩
  unfold handleData
  dsimp only
  split
  · exact hnothing
  split
  · split
    · split
      · exact hnothing
      · split
        · exact ⟨_, rfl, by simp [Brings]⟩
        · exact hnothing
    · exact ⟨_, rfl, by simp [Brings]⟩
  · exact hnothing

theorem checkAllStates_brings {first : List Effect} (hfirst : t.trace = s.trace ++ first)
    (hbrings : ∀ effect ∈ first, Brings event effect) :
    ∃ effects, (t.checkAllStates env).trace = s.trace ++ effects ∧
      ∀ effect ∈ effects, Brings event effect := by
  obtain ⟨rest, hrest, hnone⟩ := checkAllStates_extends env t
  refine ⟨first ++ rest, by rw [hrest, hfirst, List.append_assoc], fun effect hmem => ?_⟩
  exact (List.mem_append.mp hmem).elim (hbrings effect) fun h =>
    brings_of_not_carriesPayload (hnone effect h)

theorem handleBuffer_brings (env : Env) (i : Identifier) (payload : Bytes) (s : Scheduler) :
    ∃ effects, (s.handleBuffer env i payload).trace = s.trace ++ effects ∧
      ∀ effect ∈ effects, Brings (.payload i payload) effect := by
  by_cases hlen : payload.length < SimpleWorkerProto.roomFailedPayloadLength
  · rw [handleBuffer_malformed hlen]
    exact ⟨_, rfl, by simp [Brings]⟩
  rw [Nat.not_lt] at hlen
  by_cases hkey : s.workers.HasKey i
  · rw [handleBuffer_known hlen hkey]
    dsimp only
    split
    · unfold handleReady
      dsimp only
      split
      · exact checkAllStates_brings (trace_ready hkey) (by simp [Brings])
      · exact checkAllStates_brings (trace_reject hkey) (by simp [Brings])
    split
    · exact checkAllStates_brings trace_fail (by simp [Brings])
    split
    · obtain ⟨rest, hrest, hnone⟩ := handleData_brings (.payload i payload) env i payload
        ((s.emit (.received i payload s.authCode)).touchWorker env i)
      refine ⟨_ :: rest, by rw [hrest]; exact List.append_assoc _ _ _, fun effect hmem => ?_⟩
      rcases List.mem_cons.mp hmem with rfl | hmem
      · rfl
      · exact hnone effect hmem
    · exact ⟨_, rfl, by simp [Brings]⟩
  · rw [handleBuffer_unknown hlen hkey]
    exact ⟨_, trace_unknown, by simp [Brings]⟩

theorem onAccept_brings (result : AcceptResult) (draws : List Identifier) :
    ∃ effects, (s.onAccept env result draws).trace = s.trace ++ effects ∧
      ∀ effect ∈ effects, Brings event effect := by
  have hnothing : ∃ effects, s.trace = s.trace ++ effects ∧ ∀ effect ∈ effects, Brings event effect :=
    ⟨[], (List.append_nil _).symm, by simp⟩
  unfold onAccept
  split
  · exact hnothing
  · exact hnothing
  · exact hnothing
  · exact hnothing
  · refine ⟨_, trace_handleNewWorker, fun effect hmem => ?_⟩
    rcases List.mem_cons.mp hmem with rfl | hmem
    · trivial
    · split at hmem
      · rw [List.mem_singleton.mp hmem]
        trivial
      · cases hmem

theorem step_brings (input : Input) (s : Scheduler) : ∃ effects,
    (step input s).trace = s.trace ++ effects ∧ ∀ effect ∈ effects, Brings input.event effect := by
  have hnothing : ∃ effects, s.trace = s.trace ++ effects ∧
      ∀ effect ∈ effects, Brings input.event effect := ⟨[], (List.append_nil _).symm, by simp⟩
  obtain ⟨env, event⟩ := input
  cases event with
  | accept result draws => exact onAccept_brings result draws
  | payload i payload => exact handleBuffer_brings env i payload s
  | workerDisconnect i =>
      show ∃ effects, (s.handleWorkerDisconnect env i).trace = _ ∧ _
      unfold handleWorkerDisconnect
      dsimp only
      split
      · rename_i hkey
        exact ⟨_, trace_leave hkey, by simp [Brings]⟩
      · exact hnothing
  | tick result =>
      obtain ⟨effects, htrace, hnone⟩ := step_tick_extends env result s
      exact ⟨effects, htrace, fun effect hmem => brings_of_not_carriesPayload (hnone effect hmem)⟩
  | updateRoomLists rooms => exact hnothing
  | configure config => exact hnothing
  | loadAuthCode => exact hnothing

end Received

section Run

-- The tasks of the worker change without a packet.
def Unlogged (worker : Identifier) : Effect → Prop
  | .reset identifier => identifier = worker
  | .received identifier payload _ => identifier = worker ∧ isFailed payload
  | _ => False

theorem reported_payload (hfailed : isFailed payload) :
    reported w ⟨env, .payload w payload⟩ = {roomIdOf payload} := by
  ext roomId
  simp [reported, hfailed, eq_comm]

theorem reported_eq_empty (h : ∀ payload, input.event = .payload w payload → ¬isFailed payload) :
    reported w input = ∅ := by
  obtain ⟨env, event⟩ := input
  cases event with
  | payload i payload =>
      ext roomId
      refine iff_of_false ?_ (Set.notMem_empty roomId)
      rintro ⟨rfl, hfailed, -⟩
      exact h payload rfl hfailed
  | _ => rfl

theorem tasksOf_eq (w : Identifier) (s : Scheduler) : s.tasksOf w = {roomId | holds w roomId s = true} := by
  ext roomId
  simp [tasksOf, holds]

-- No failure is reported: the packets tell everything.
theorem step_applies (hconnected : Connected w s) (hreset : .reset w ∉ s.effects input)
    (hreported : ∀ payload, input.event = .payload w payload → ¬isFailed payload) :
    Applies (s.tasksOf w) (packetsTo w (s.effects input)) ((step input s).tasksOf w) := by
  have hexcluded : Unlogged w (.reset w) := rfl
  have hreport : ∀ payload authCode, isFailed payload → Unlogged w (.received w payload authCode) :=
    fun _ _ hfailed => ⟨rfl, hfailed⟩
  obtain ⟨effects, htrace, hlog⟩ := step_logs hexcluded hreport input s
  obtain ⟨brought, hbrought, hbrings⟩ := step_brings input s
  rw [effects_eq htrace] at hreset ⊢
  have hsame : brought = effects := (effects_eq hbrought).symm.trans (effects_eq htrace)
  rw [tasksOf_eq, tasksOf_eq]
  refine applies_of_toggles (hlog hconnected fun effect hmem hunlogged => ?_).2
  have hbrings := hbrings effect (hsame ▸ hmem)
  cases effect with
  | reset i => exact hreset (hunlogged ▸ hmem)
  | received i payload authCode =>
      obtain ⟨rfl, hfailed⟩ := hunlogged
      exact hreported payload hbrings hfailed
  | _ => exact hunlogged

-- A failure is reported: its room goes first, and what the pass then sends
-- tells the rest.
theorem failed_applies (hconnected : Connected w s) (hfailed : isFailed payload)
    (hreset : .reset w ∉ s.effects ⟨env, .payload w payload⟩) :
    Applies (s.tasksOf w \ {roomIdOf payload}) (packetsTo w (s.effects ⟨env, .payload w payload⟩))
      ((step ⟨env, .payload w payload⟩ s).tasksOf w) := by
  obtain ⟨t, ht⟩ : ∃ t, t = ((s.emit (.received w payload s.authCode)).touchWorker env w).deleteTask env w
    (roomIdOf payload) true := ⟨_, rfl⟩
  have hstep : step ⟨env, .payload w payload⟩ s = t.checkAllStates env := by
    show s.handleBuffer env w payload = _
    rw [handleBuffer_known hfailed.1 hconnected.1, ht]
    dsimp only
    rw [if_neg fun hcode => not_isReady_of_isFailed hfailed ⟨hfailed.1, hcode⟩, if_pos hfailed.2]
  have htrace : t.trace = s.trace ++ [.received w payload s.authCode] := ht ▸ trace_fail
  have hconnected' : Connected w t := ht ▸ (hconnected.received w payload).deleteTask
  have htasks : s.tasksOf w \ {roomIdOf payload} = t.tasksOf w := by
    ext roomId
    simp [tasksOf, ht]
  have hpass : Logs (· = .reset w) w t (t.checkAllStates env) := checkAllStates_logs (Or.inl (by rfl)) t
  obtain ⟨effects, hrest, hlog⟩ := hpass
  have heffects : s.effects ⟨env, .payload w payload⟩ = .received w payload s.authCode :: effects := by
    apply effects_eq
    rw [hstep, hrest, htrace, List.append_assoc]
    rfl
  rw [heffects, hstep, htasks, tasksOf_eq, tasksOf_eq]
  rw [heffects] at hreset
  refine applies_of_toggles (hlog hconnected' fun effect hmem he => hreset ?_).2
  rw [← he]
  exact List.mem_cons_of_mem _ hmem

-- For every event of every run and every worker that the event does not reset:
-- the packets sent to it are a log of what happens to its tasks.
theorem run_applies (config : Config) (inputs : List Input) (input : Input) (worker : Identifier)
    (hworker : (run config inputs).workers.HasKey worker)
    (hreset : .reset worker ∉ (run config inputs).effects input) :
    Applies ((run config inputs).tasksOf worker \ reported worker input)
      (packetsTo worker ((run config inputs).effects input))
      ((step input (run config inputs)).tasksOf worker) := by
  have hinv := run_inv config inputs
  have hconnected : Connected worker (run config inputs) := ⟨hworker, hinv.socket_of_hasKey hworker⟩
  by_cases hreported : ∃ payload, input.event = .payload worker payload ∧ isFailed payload
  · obtain ⟨payload, hevent, hfailed⟩ := hreported
    obtain ⟨env, event⟩ := input
    obtain rfl : event = .payload worker payload := hevent
    rw [reported_payload hfailed]
    exact failed_applies hconnected hfailed hreset
  · rw [not_exists] at hreported
    have hnone : ∀ payload, input.event = .payload worker payload → ¬isFailed payload :=
      fun payload hevent hfailed => hreported payload ⟨hevent, hfailed⟩
    rw [reported_eq_empty hnone, Set.sdiff_empty]
    exact step_applies hconnected hreset hnone

-- The first pass after the WORKER_READY assigns the room.
theorem run_applies_first :
    let config : Config := { worker := { authCode := [] } }
    let inputs : List Input :=
      [{ env := .at 0, event := .accept .accepted [5] },
        { env := .at 0, event := .updateRoomLists [1] },
        { env := .at (seconds 10)
          event := .payload 5 ([SimpleWorkerProto.workerReadyCode, 0, 0, 0, 1] ++ List.replicate 32 0) }]
    let input : Input := { env := .at (seconds 13), event := .tick .expired }
    Applies ((run config inputs).tasksOf 5 \ reported 5 input)
      (packetsTo 5 ((run config inputs).effects input)) ((step input (run config inputs)).tasksOf 5) :=
  run_applies { worker := { authCode := [] } } _ _ 5 (by decide) (by decide)

end Run

end Scheduler

end LiveReceptor.Supervisor

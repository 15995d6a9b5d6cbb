import LiveReceptor.Library.Switch
import LiveReceptor.Supervisor.Steps

namespace LiveReceptor.Supervisor

open SwitchCommand (Turns Toggles)

-- What the supervisor sends to a worker.
inductive Packet
  | assign (roomId : RoomId)
  | unassign (roomId : RoomId)
  deriving DecidableEq, Repr

def Packet.roomId : Packet → RoomId
  | .assign roomId => roomId
  | .unassign roomId => roomId

def Packet.command : Packet → SwitchCommand
  | .assign _ => .on
  | .unassign _ => .off

def Effect.packetTo (worker : Identifier) : Effect → Option Packet
  | .assign identifier roomId => if identifier = worker then some (.assign roomId) else none
  | .unassign identifier roomId => if identifier = worker then some (.unassign roomId) else none
  | _ => none

def packetsTo (worker : Identifier) (effects : List Effect) : List Packet :=
  effects.filterMap (Effect.packetTo worker)

-- The packets about one room, as commands for the switch that its task is.
def commandsFor (roomId : RoomId) (packets : List Packet) : List SwitchCommand :=
  packets.filterMap fun packet => if packet.roomId = roomId then some packet.command else none

theorem packetsTo_append (worker : Identifier) (effects more : List Effect) :
    packetsTo worker (effects ++ more) = packetsTo worker effects ++ packetsTo worker more :=
  List.filterMap_append

theorem commandsFor_append (roomId : RoomId) (packets more : List Packet) :
    commandsFor roomId (packets ++ more) = commandsFor roomId packets ++ commandsFor roomId more :=
  List.filterMap_append

theorem commandsFor_cons_of_ne {roomId : RoomId} {packet : Packet} (h : packet.roomId ≠ roomId)
    (packets : List Packet) : commandsFor roomId (packet :: packets) = commandsFor roomId packets :=
  List.filterMap_cons_none (if_neg h)

theorem commandsFor_cons_self (packet : Packet) (packets : List Packet) :
    commandsFor packet.roomId (packet :: packets) =
      packet.command :: commandsFor packet.roomId packets :=
  List.filterMap_cons_some (if_pos rfl)

theorem on_mem_commandsFor {roomId : RoomId} {packets : List Packet} :
    .on ∈ commandsFor roomId packets ↔ .assign roomId ∈ packets := by
  rw [commandsFor, List.mem_filterMap]
  constructor
  · rintro ⟨packet, hpacket, hcommand⟩
    cases packet with
    | assign other =>
        by_cases hroom : other = roomId
        · exact hroom ▸ hpacket
        · simp [Packet.roomId, hroom] at hcommand
    | unassign other =>
        by_cases hroom : other = roomId
        · simp [Packet.roomId, Packet.command, hroom] at hcommand
        · simp [Packet.roomId, hroom] at hcommand
  · intro hpacket
    exact ⟨.assign roomId, hpacket, if_pos rfl⟩

theorem packetsTo_eq_nil {worker : Identifier} {effects : List Effect}
    (h : ∀ effect ∈ effects, effect.packetTo worker = none) : packetsTo worker effects = [] :=
  List.filterMap_eq_nil_iff.mpr h

-- The worker's connection or its tasks are taken away without a packet, or it
-- has reported a failure itself.
def Effect.Disturbs (worker : Identifier) : Effect → Prop
  | .disconnect identifier => identifier = worker
  | .reset identifier => identifier = worker
  | .received identifier payload _ => identifier = worker ∧ isFailed payload
  | _ => False

instance (worker : Identifier) (effect : Effect) : Decidable (effect.Disturbs worker) := by
  unfold Effect.Disturbs
  split <;> infer_instance

namespace Scheduler

variable {env : Env} {guard : Guard} {stage : Stage} {input : Input} {told : Option (List RoomId)}
  {s s' s'' t : Scheduler} {w : Identifier} {r : RoomId} {excluded : Effect → Prop}

def Connected (worker : Identifier) (s : Scheduler) : Prop :=
  s.workers.HasKey worker ∧ s.manager.sockets.HasKey worker

instance (worker : Identifier) (s : Scheduler) : Decidable (Connected worker s) :=
  inferInstanceAs (Decidable (_ ∧ _))

def holds (worker : Identifier) (roomId : RoomId) (s : Scheduler) : Bool :=
  decide (s.tasks.HasKey (worker, roomId))

-- Unless one of the excluded effects occurs, the worker stays connected, and
-- the packets sent to it say what happens to its tasks.
def Follows (excluded : Effect → Prop) (worker : Identifier) (s s' : Scheduler) : Prop :=
  ∃ effects, s'.trace = s.trace ++ effects ∧
    (Connected worker s → (∀ effect ∈ effects, ¬excluded effect) → Connected worker s' ∧
      ∀ roomId, Turns (s.holds worker roomId) (commandsFor roomId (packetsTo worker effects))
        (s'.holds worker roomId))

-- The same, and no packet asks for what is so already.
def Logs (excluded : Effect → Prop) (worker : Identifier) (s s' : Scheduler) : Prop :=
  ∃ effects, s'.trace = s.trace ++ effects ∧
    (Connected worker s → (∀ effect ∈ effects, ¬excluded effect) → Connected worker s' ∧
      ∀ roomId, Toggles (s.holds worker roomId) (commandsFor roomId (packetsTo worker effects))
        (s'.holds worker roomId))

theorem Logs.follows (h : Logs excluded w s s') : Follows excluded w s s' := by
  obtain ⟨effects, htrace, htoggles⟩ := h
  refine ⟨effects, htrace, fun hconnected hnone => ?_⟩
  obtain ⟨hend, hrooms⟩ := htoggles hconnected hnone
  exact ⟨hend, fun roomId => (hrooms roomId).turns⟩

theorem Logs.refl (s : Scheduler) : Logs excluded w s s :=
  ⟨[], (List.append_nil _).symm, fun hconnected _ => ⟨hconnected, fun _ => rfl⟩⟩

theorem Logs.trans (h : Logs excluded w s s') (h' : Logs excluded w s' s'') :
    Logs excluded w s s'' := by
  obtain ⟨effects, htrace, hturns⟩ := h
  obtain ⟨more, htrace', hturns'⟩ := h'
  refine ⟨effects ++ more, by rw [htrace', htrace, List.append_assoc], fun hconnected hnone => ?_⟩
  obtain ⟨hmid, hfirst⟩ := hturns hconnected fun effect he => hnone effect (List.mem_append_left _ he)
  obtain ⟨hend, hsecond⟩ := hturns' hmid fun effect he => hnone effect (List.mem_append_right _ he)
  refine ⟨hend, fun roomId => ?_⟩
  rw [packetsTo_append, commandsFor_append]
  exact (hfirst roomId).append (hsecond roomId)

-- No packet, and no task of the worker comes or goes.
theorem Logs.still {effects : List Effect} (htrace : s'.trace = s.trace ++ effects)
    (hnone : ∀ effect ∈ effects, effect.packetTo w = none)
    (h : Connected w s → (∀ effect ∈ effects, ¬excluded effect) → Connected w s' ∧
      ∀ roomId, s'.tasks.HasKey (w, roomId) ↔ s.tasks.HasKey (w, roomId)) :
    Logs excluded w s s' := by
  refine ⟨effects, htrace, fun hconnected hexcluded => ?_⟩
  obtain ⟨hend, htasks⟩ := h hconnected hexcluded
  refine ⟨hend, fun roomId => ?_⟩
  rw [packetsTo_eq_nil hnone]
  exact decide_eq_decide.mpr (htasks roomId).symm

theorem hasKey_tasks_filter_ne {i : Identifier} (h : i ≠ w) :
    (s.tasks.filter fun task => task.identifier ≠ i).HasKey (w, r) ↔ s.tasks.HasKey (w, r) := by
  constructor
  · rintro ⟨task, htask, hkey⟩
    exact ⟨task, (Keyed.mem_filter.mp htask).1, hkey⟩
  · rintro ⟨task, htask, hkey⟩
    refine ⟨task, Keyed.mem_filter.mpr ⟨htask, decide_eq_true fun hi => h ?_⟩, hkey⟩
    exact hi.symm.trans (congrArg Prod.fst hkey)

theorem hasKey_workers_deleteTask {i other : Identifier} {d : Bool} :
    (s.deleteTask env i r d).workers.HasKey other ↔ s.workers.HasKey other := by
  by_cases h : s.tasks.HasKey (i, r)
  · rw [workers_deleteTask_of_hasKey h]
    exact Keyed.hasKey_modify
  · rw [deleteTask_of_not_hasKey h]

theorem hasKey_workers_refreshCounts {other : Identifier} :
    s.refreshCounts.workers.HasKey other ↔ s.workers.HasKey other := by
  unfold refreshCounts
  dsimp only
  exact Keyed.hasKey_update

theorem hasKey_workers_deleteWorker {i other : Identifier} :
    (s.deleteWorker env i).workers.HasKey other ↔ s.workers.HasKey other ∧ other ≠ i := by
  constructor
  · rintro ⟨worker, hworker, rfl⟩
    obtain ⟨hmem, hne⟩ := mem_workers_deleteWorker.mp hworker
    exact ⟨.of_mem hmem, hne⟩
  · rintro ⟨⟨worker, hworker, rfl⟩, hne⟩
    exact ⟨worker, mem_workers_deleteWorker.mpr ⟨hworker, hne⟩, rfl⟩

theorem Connected.sendUnassign {i : Identifier} (h : Connected w s) :
    Connected w (s.sendUnassign i r) := by
  constructor
  · rw [workers_sendUnassign]
    exact h.1
  · rw [manager_sendUnassign]
    exact h.2

-- The state in which a payload of a known worker is handled.
theorem Connected.received (h : Connected w s) (i : Identifier) (payload : Bytes) :
    Connected w ((s.emit (.received i payload s.authCode)).touchWorker env i) := by
  constructor
  · rw [hasKey_touchWorker]
    exact h.1
  · rw [manager_touchWorker]
    exact h.2

theorem Connected.readyWorker {i : Identifier} {payload : Bytes} (h : Connected w s) :
    Connected w (s.readyWorker env i payload) := by
  constructor
  · rw [hasKey_readyWorker]
    exact h.1
  · rw [manager_readyWorker]
    exact h.2

theorem Connected.deleteTask {i : Identifier} {d : Bool} (h : Connected w s) :
    Connected w (s.deleteTask env i r d) := by
  constructor
  · rw [hasKey_workers_deleteTask]
    exact h.1
  · rw [manager_deleteTask]
    exact h.2

theorem Connected.addTask {i : Identifier} (h : Connected w s) : Connected w (s.addTask env i r) := by
  constructor
  · rw [workers_addTask]
    exact Keyed.hasKey_modify.mpr h.1
  · rw [manager_addTask]
    exact h.2

theorem Connected.deleteWorker {i : Identifier} (h : Connected w s) (hne : i ≠ w) :
    Connected w (s.deleteWorker env i) := by
  constructor
  · rw [hasKey_workers_deleteWorker]
    exact ⟨h.1, hne.symm⟩
  · rw [manager_deleteWorker]
    exact h.2

theorem Connected.disconnectWorker {i : Identifier} (h : Connected w s) (hne : i ≠ w) :
    Connected w (s.disconnectWorker i) := by
  constructor
  · rw [workers_disconnectWorker]
    exact h.1
  · rw [sockets_disconnectWorker, Keyed.hasKey_erase]
    exact ⟨h.2, hne.symm⟩

theorem Quiet.logs (hquiet : Quiet s s') : Logs excluded w s s' := by
  obtain ⟨f, hf, htasks⟩ := hquiet.tasks
  obtain ⟨g, hg, hworkers, -⟩ := hquiet.workers
  obtain ⟨effects, htrace, hquiets⟩ := hquiet.trace
  refine .still htrace (fun effect he => ?_) fun hconnected _ => ⟨⟨?_, ?_⟩, fun roomId => ?_⟩
  · have heffect := hquiets effect he
    cases effect <;> simp_all [Effect.Quiet, Effect.packetTo]
  · rw [hworkers]
    exact Keyed.hasKey_update.mpr hconnected.1
  · rw [hquiet.sockets]
    exact hconnected.2
  · rw [htasks]
    exact Keyed.hasKey_update

section Moves

-- One task changes, and the packet for its worker says how.
theorem Logs.packet (i : Identifier) (packet : Packet) (effect : Effect)
    (htrace : s'.trace = s.trace ++ if s.manager.sockets.HasKey i then [effect] else [])
    (heffect : effect.packetTo w = if i = w then some packet else none)
    (hconnected : Connected w s → Connected w s')
    (hothers : ∀ task, task ≠ (i, packet.roomId) → (s'.tasks.HasKey task ↔ s.tasks.HasKey task))
    (hturns : Toggles (s.holds i packet.roomId) [packet.command] (s'.holds i packet.roomId)) :
    Logs excluded w s s' := by
  refine ⟨_, htrace, fun hbefore _ => ⟨hconnected hbefore, fun roomId => ?_⟩⟩
  have hsame : (w, roomId) ≠ (i, packet.roomId) → s.holds w roomId = s'.holds w roomId :=
    fun hne => decide_eq_decide.mpr (hothers _ hne).symm
  by_cases hi : i = w
  · subst hi
    rw [if_pos rfl] at heffect
    have hpackets : packetsTo i [effect] = [packet] := List.filterMap_cons_some heffect
    rw [if_pos hbefore.2, hpackets]
    by_cases hroom : packet.roomId = roomId
    · subst hroom
      have hcommands : commandsFor packet.roomId [packet] = [packet.command] :=
        commandsFor_cons_self packet []
      rw [hcommands]
      exact hturns
    · have hcommands : commandsFor roomId [packet] = [] := commandsFor_cons_of_ne hroom []
      rw [hcommands]
      exact SwitchCommand.toggles_nil.mpr (hsame fun he => hroom (Prod.ext_iff.mp he).2.symm)
  · rw [if_neg hi] at heffect
    have hpackets : packetsTo w (if s.manager.sockets.HasKey i then [effect] else []) = [] := by
      refine packetsTo_eq_nil fun other hother => ?_
      split at hother
      · rw [List.mem_singleton.mp hother]
        exact heffect
      · cases hother
    rw [hpackets]
    exact SwitchCommand.toggles_nil.mpr (hsame fun he => hi (Prod.ext_iff.mp he).1.symm)

-- Dropping a task of the worker comes with an UNASSIGN for its room.
theorem logs_drop {task : RoomTask} (descRank : Bool) (htask : task ∈ s.tasks) :
    Logs excluded w s ((s.sendUnassign task.identifier task.roomId).deleteTask env task.identifier
      task.roomId descRank) := by
  have hkey : ∀ other, ((s.sendUnassign task.identifier task.roomId).deleteTask env task.identifier
      task.roomId descRank).tasks.HasKey other ↔
        s.tasks.HasKey other ∧ other ≠ (task.identifier, task.roomId) := by
    intro other
    rw [tasks_deleteTask, tasks_sendUnassign]
    exact Keyed.hasKey_erase
  refine .packet task.identifier (.unassign task.roomId) (.unassign task.identifier task.roomId) ?_ rfl
    (fun hconnected => hconnected.sendUnassign.deleteTask) (fun other hne => ?_) ?_
  · rw [trace_deleteTask, trace_sendUnassign]
  · rw [hkey]
    exact and_iff_left hne
  · exact ⟨decide_eq_true (.of_mem htask), (decide_eq_false fun h => ((hkey _).mp h).2 rfl).symm⟩

-- A new task of the worker comes with an ASSIGN for its room.
theorem logs_addTask {i : Identifier} {room : RoomId} (hnew : ¬s.tasks.HasKey (i, room)) :
    Logs excluded w s (s.addTask env i room) := by
  have hkey : ∀ other, (s.addTask env i room).tasks.HasKey other ↔
      s.tasks.HasKey other ∨ other = (i, room) := by
    intro other
    rw [tasks_addTask]
    exact Keyed.hasKey_insert
  refine .packet i (.assign room) (.assign i room) trace_addTask rfl Connected.addTask
    (fun other hne => ?_) ⟨decide_eq_false hnew, ?_⟩
  · rw [hkey]
    exact or_iff_left hne
  · exact (decide_eq_true ((hkey _).mpr (Or.inr rfl))).symm

theorem PassMove.logs (hexcluded : excluded (.reset w) ∨ excluded (.disconnect w))
    (hmove : PassMove env guard stage s s') : Logs excluded w s s' := by
  cases hmove with
  | quiet hquiet => exact hquiet.logs
  | drop descRank htask => exact logs_drop descRank htask
  | @expire _ worker hworker =>
      have hkey : s.workers.HasKey worker.identifier := .of_mem hworker
      refine .still (trace_expire hkey) (by simp [Effect.packetTo]) fun hconnected hnone => ?_
      have hne : worker.identifier ≠ w := by
        rintro rfl
        exact hexcluded.elim (hnone (.reset worker.identifier) (by simp))
          (hnone (.disconnect worker.identifier) (by simp))
      refine ⟨(hconnected.deleteWorker hne).disconnectWorker hne, fun roomId => ?_⟩
      rw [deleteAndDisconnectWorker, tasks_disconnectWorker, tasks_deleteWorker]
      exact hasKey_tasks_filter_ne hne
  | refresh =>
      refine .still (List.append_nil _).symm (by simp) fun hconnected _ =>
        ⟨⟨hasKey_workers_refreshCounts.mpr hconnected.1, hconnected.2⟩, fun _ => Iff.rfl⟩
  | forget hempty =>
      exact .still (List.append_nil _).symm (by simp) fun hconnected _ => ⟨hconnected, fun _ => Iff.rfl⟩
  | assign hworker hroom hlimit hnew hguard => exact logs_addTask hnew

theorem checkAllStates_logs (hexcluded : excluded (.reset w) ∨ excluded (.disconnect w)) (s : Scheduler) :
    Logs excluded w s (s.checkAllStates env) :=
  checkAllStates_invariant (P := Logs excluded w s)
    (fun _ _ _ h hmove => h.trans (hmove.logs hexcluded)) (.refl s) fun _ => passMeetsGuard_true s

theorem checkAllStates_follows (hdisconnect : excluded (.disconnect w)) (s : Scheduler) :
    Follows excluded w s (s.checkAllStates env) :=
  (checkAllStates_logs (Or.inr hdisconnect) s).follows

theorem HandlerMove.logs (hreset : excluded (.reset w))
    (hreport : ∀ payload authCode, isFailed payload → excluded (.received w payload authCode))
    (hmove : HandlerMove env told s s') : Logs excluded w s s' := by
  cases hmove with
  | quiet hquiet => exact hquiet.logs
  | accept i hfree =>
      refine .still trace_handleNewWorker ?_ fun hconnected _ => ?_
      · intro effect he
        rcases List.mem_cons.mp he with rfl | he
        · rfl
        · split at he
          · rw [List.mem_singleton.mp he]
            rfl
          · cases he
      · have hne : i ≠ w := fun hi => hfree (hi ▸ hconnected.2)
        refine ⟨⟨?_, ?_⟩, fun roomId => ?_⟩
        · exact hasKey_handleNewWorker.mpr (Or.inl hconnected.1)
        · rw [manager_handleNewWorker]
          exact hasKey_addSession.mpr (Or.inl hconnected.2)
        · rw [tasks_handleNewWorker, tasks_addSession]
          split
          · exact hasKey_tasks_filter_ne hne
          · exact Iff.rfl
  | ignore i payload =>
      exact .still rfl (by simp [Effect.packetTo]) fun hconnected _ => ⟨hconnected, fun _ => Iff.rfl⟩
  | unknown i payload hkey =>
      refine .still trace_unknown (by simp [Effect.packetTo]) fun hconnected _ => ?_
      have hne : i ≠ w := fun hi => hkey (hi ▸ hconnected.1)
      have hcleared : Connected w ((s.emit (.received i payload s.authCode)).clearWorkerTasks i) :=
        hconnected
      refine ⟨hcleared.disconnectWorker hne, fun roomId => ?_⟩
      rw [tasks_disconnectWorker]
      exact hasKey_tasks_filter_ne hne
  | ready i payload hkey =>
      refine .still (trace_ready hkey) (by simp [Effect.packetTo]) fun hconnected hnone => ?_
      have hne : i ≠ w := fun hi => hnone (.reset i) (by simp) (hi ▸ hreset)
      refine ⟨(hconnected.received i payload).readyWorker, fun roomId => ?_⟩
      rw [tasks_readyWorker]
      exact hasKey_tasks_filter_ne hne
  | reject i payload hkey =>
      refine .still (trace_reject hkey) (by simp [Effect.packetTo]) fun hconnected hnone => ?_
      have hne : i ≠ w := fun hi => hnone (.reset i) (by simp) (hi ▸ hreset)
      have hrejected : Connected w (((s.emit (.received i payload s.authCode)).touchWorker env
          i).rejectWorker env i) :=
        ((hconnected.received i payload).deleteWorker hne).disconnectWorker hne
      refine ⟨hrejected.readyWorker, fun roomId => ?_⟩
      rw [tasks_readyWorker, tasks_rejectWorker, Keyed.filter_filter_self]
      exact hasKey_tasks_filter_ne hne
  | fail i payload hkey hfailed =>
      refine .still trace_fail (by simp [Effect.packetTo]) fun hconnected hnone => ?_
      have hne : i ≠ w := fun hi => hnone (.received i payload s.authCode) List.mem_cons_self
        (hi ▸ hreport payload s.authCode hfailed)
      refine ⟨(hconnected.received i payload).deleteTask, fun roomId => ?_⟩
      rw [tasks_deleteTask, Keyed.hasKey_erase]
      exact ⟨fun hkey => hkey.1, fun hkey => ⟨hkey, fun he => hne (Prod.ext_iff.mp he).1.symm⟩⟩
  | forward i payload htask =>
      exact .still rfl (by simp [Effect.packetTo]) fun hconnected _ => ⟨hconnected, fun _ => Iff.rfl⟩
  | absent i hkey =>
      refine .still (List.append_nil _).symm (by simp) fun hconnected _ => ?_
      have hne : i ≠ w := fun hi => hkey (hi ▸ hconnected.1)
      exact ⟨hconnected, fun roomId => hasKey_tasks_filter_ne hne⟩
  | leave i hkey =>
      refine .still (trace_leave hkey) (by simp [Effect.packetTo]) fun hconnected hnone => ?_
      have hne : i ≠ w := fun hi => hnone (.reset i) (by simp) (hi ▸ hreset)
      have hcleared : Connected w (s.clearWorkerTasks i) := hconnected
      refine ⟨hcleared.deleteWorker hne, fun roomId => ?_⟩
      rw [tasks_deleteWorker, tasks_clearWorkerTasks, Keyed.filter_filter_self]
      exact hasKey_tasks_filter_ne hne
  | list rooms htold =>
      exact .still (List.append_nil _).symm (by simp) fun hconnected _ => ⟨hconnected, fun _ => Iff.rfl⟩

theorem step_logs (hreset : excluded (.reset w))
    (hreport : ∀ payload authCode, isFailed payload → excluded (.received w payload authCode))
    (input : Input) (s : Scheduler) : Logs excluded w s (step input s) :=
  step_invariant (P := Logs excluded w s) (fun _ _ h hmove => h.trans (hmove.logs hreset hreport))
    (fun _ _ _ h hmove => h.trans (hmove.logs (Or.inl hreset))) (.refl s) (stepMeetsGuard_true input s)

-- Unless a step disturbs a connected worker, its packets say all that happens
-- to the tasks of the worker.
theorem step_follows (input : Input) (s : Scheduler) :
    Follows (Effect.Disturbs w) w s (step input s) := by
  have hreset : (Effect.reset w).Disturbs w := rfl
  have hreport : ∀ payload authCode, isFailed payload → (Effect.received w payload authCode).Disturbs w :=
    fun _ _ hfailed => ⟨rfl, hfailed⟩
  exact (step_logs hreset hreport input s).follows

end Moves

end Scheduler

end LiveReceptor.Supervisor

import LiveReceptor.Supervisor.Sessions

namespace LiveReceptor.Supervisor

namespace Scheduler

variable {env : Env} {guard : Guard} {stage : Stage} {input : Input} {told : Option (List RoomId)}
  {s s' : Scheduler}

-- No session has let go of its socket.
def AllOpen (s : Scheduler) : Prop := ∀ worker ∈ s.manager.sessions, worker.socket = true

theorem AllOpen.of_eq (h : AllOpen s) (hsessions : s'.manager.sessions = s.manager.sessions) :
    AllOpen s' := by
  intro worker hworker
  rw [hsessions] at hworker
  exact h worker hworker

-- The guard of worker_session::disconnect stops it while there is a socket.
theorem disconnect_of_open {worker : WorkerSession} (h : worker.socket = true) (callback : Bool) :
    worker.disconnect callback = (worker, false) := if_pos h

theorem AllOpen.disconnectWorker (h : AllOpen s) (identifier : Identifier) :
    AllOpen (s.disconnectWorker identifier) := by
  unfold Scheduler.disconnectWorker
  dsimp only
  split
  · exact h
  · intro worker hworker
    obtain ⟨n, hn⟩ := List.mem_iff_getElem?.mp hworker
    dsimp only at hn
    rw [List.getElem?_modify] at hn
    obtain ⟨before, hbefore, rfl⟩ := Option.map_eq_some_iff.mp hn
    have hopen : before.socket = true := h before (List.mem_of_getElem? hbefore)
    split
    · rw [disconnect_of_open hopen]
      exact hopen
    · exact hopen

theorem AllOpen.addSession (h : AllOpen s) (identifier : Identifier) :
    AllOpen (s.addSession identifier) := by
  intro worker hworker
  rcases List.mem_append.mp hworker with hold | hnew
  · exact h worker hold
  · rw [List.mem_singleton.mp hnew]

theorem AllOpen.handlerMove (h : AllOpen s) (hmove : HandlerMove env told s s') : AllOpen s' := by
  cases hmove with
  | quiet hquiet => exact h.of_eq hquiet.sessions
  | accept identifier hfree =>
      apply (h.addSession identifier).of_eq
      rw [manager_handleNewWorker]
  | ignore identifier payload => exact h.of_eq rfl
  | unknown identifier payload hkey =>
      refine AllOpen.disconnectWorker (h.of_eq ?_) identifier
      rfl
  | ready identifier payload hkey hready hauth =>
      apply h.of_eq
      rw [manager_readyWorker, manager_touchWorker, manager_emit]
  | reject identifier payload hkey hready =>
      have hdeleted : AllOpen (((s.emit (.received identifier payload s.authCode)).touchWorker env
          identifier).deleteWorker env identifier) := by
        apply h.of_eq
        rw [manager_deleteWorker, manager_touchWorker, manager_emit]
      apply (hdeleted.disconnectWorker identifier).of_eq
      rw [manager_readyWorker, rejectWorker]
  | fail identifier payload hkey hfailed =>
      apply h.of_eq
      rw [manager_deleteTask, manager_touchWorker, manager_emit]
  | forward identifier payload htask => exact h.of_eq rfl
  | absent identifier hkey => exact h.of_eq rfl
  | leave identifier hkey =>
      apply h.of_eq
      rw [manager_deleteWorker, manager_clearWorkerTasks]
  | list rooms htold =>
      apply h.of_eq
      rw [manager_updateRoomLists]

theorem AllOpen.passMove (h : AllOpen s) (hmove : PassMove env guard stage s s') : AllOpen s' := by
  cases hmove with
  | quiet hquiet => exact h.of_eq hquiet.sessions
  | drop descRank htask =>
      apply h.of_eq
      rw [manager_deleteTask, manager_sendUnassign]
  | @expire _ worker hworker =>
      refine AllOpen.disconnectWorker (h.of_eq ?_) worker.identifier
      rw [manager_deleteWorker]
  | refresh => exact h.of_eq rfl
  | forget hempty => exact h.of_eq rfl
  | assign hworker hroom hlimit hnew hguard =>
      apply h.of_eq
      rw [manager_addTask]

theorem AllOpen.step (h : AllOpen s) : AllOpen (step input s) :=
  step_invariant (fun _ _ h hmove => h.handlerMove hmove) (fun _ _ _ h hmove => h.passMove hmove) h
    (stepMeetsGuard_true input s)

theorem run_allOpen (config : Config) (inputs : List Input) : AllOpen (run config inputs) := by
  refine Runs.run_invariant (fun _ _ h => AllOpen.step h) ?_ inputs
  intro worker hworker
  cases hworker

end Scheduler

namespace Sessions

open Scheduler (AllOpen)

variable {s : Sessions} {event : SessionEvent}

section Refinement

theorem disconnectSession_of_open (h : AllOpen s.scheduler) (env : Env) (session : Nat) :
    s.disconnectSession env session = s := by
  unfold disconnectSession
  split
  · rfl
  · rename_i worker hworker
    have hopen : worker.socket = true := h worker (List.mem_of_getElem? hworker)
    have hset : s.scheduler.manager.sessions.set session worker = s.scheduler.manager.sessions := by
      obtain ⟨hlt, rfl⟩ := List.getElem?_eq_some_iff.mp hworker
      exact List.set_getElem_self hlt
    rw [Scheduler.disconnect_of_open hopen]
    dsimp only
    rw [hset]
    rfl

theorem deliver_scheduler (envs : Nat → Env) (session : Nat) (identifier : Identifier) (n : Nat)
    (payloads : List Bytes) (s : Sessions) :
    ∃ inputs, (s.deliver envs session identifier n payloads).scheduler =
      Runs.run Scheduler.step s.scheduler inputs := by
  induction payloads generalizing n s with
  | nil => exact ⟨[], rfl⟩
  | cons payload rest ih =>
      obtain ⟨inputs, hinputs⟩ := ih (n + 1)
        { s with
          scheduler := s.scheduler.handleBuffer (envs n) identifier payload
          delivered := s.delivered ++ [(session, payload)] }
      exact ⟨⟨envs n, .payload identifier payload⟩ :: inputs, hinputs⟩

-- The scheduler sees nothing but its own events: a socket error that reaches a
-- session does not get through to it.
theorem step_scheduler (event : SessionEvent) (h : AllOpen s.scheduler) :
    ∃ inputs, (step event s).scheduler = Runs.run Scheduler.step s.scheduler inputs := by
  cases event with
  | accept env result draws memory => exact ⟨[⟨env, .accept result draws⟩], rfl⟩
  | receive envs session read =>
      show ∃ inputs, (s.onReceive envs session read).scheduler = _
      unfold onReceive
      split
      · split
        · exact deliver_scheduler envs session _ 0 _ s
        · exact ⟨[], rfl⟩
      · exact ⟨[], rfl⟩
  | receiveError env session ec =>
      refine ⟨[], ?_⟩
      show (s.onReceiveError env session ec).scheduler = s.scheduler
      unfold onReceiveError
      split
      · rfl
      · split
        · dsimp only
          rw [disconnectSession_of_open h]
          split <;> rfl
        · rfl
  | writeError env session ec =>
      refine ⟨[], ?_⟩
      show (s.onWriteError env session ec).scheduler = s.scheduler
      unfold onWriteError
      rw [disconnectSession_of_open h]
      split <;> rfl
  | tick env result => exact ⟨[⟨env, .tick result⟩], rfl⟩
  | updateRoomLists rooms => exact ⟨[⟨Env.at 0, .updateRoomLists rooms⟩], rfl⟩
  | configure config => exact ⟨[⟨Env.at 0, .configure config⟩], rfl⟩
  | loadAuthCode => exact ⟨[⟨Env.at 0, .loadAuthCode⟩], rfl⟩

-- Every run with sessions is a run of the scheduler.
theorem run_scheduler (config : Config) (events : List SessionEvent) :
    ∃ inputs, (run config events).scheduler = Scheduler.run config inputs := by
  have hstep : ∀ event (s : Sessions), (∃ inputs, s.scheduler = Scheduler.run config inputs) →
      ∃ inputs, (step event s).scheduler = Scheduler.run config inputs := by
    rintro event s ⟨inputs, hinputs⟩
    have hopen : AllOpen s.scheduler := hinputs ▸ Scheduler.run_allOpen config inputs
    obtain ⟨more, hmore⟩ := step_scheduler event hopen
    refine ⟨inputs ++ more, ?_⟩
    rw [hmore, hinputs, Scheduler.run, Scheduler.run, Runs.run_append]
  exact Runs.run_invariant hstep ⟨[], rfl⟩ events

theorem run_open (config : Config) (events : List SessionEvent) :
    AllOpen (run config events).scheduler := by
  obtain ⟨inputs, hinputs⟩ := run_scheduler config events
  rw [hinputs]
  exact Scheduler.run_allOpen config inputs

end Refinement

-- The read handler or the write helper of the session calls its close handler.
def ReportsError (event : SessionEvent) (session : Nat) (s : Sessions) : Prop :=
  match event with
  | .receiveError _ k ec => k = session ∧ ec = .other ∧ s.reading session = true
  | .writeError _ k ec => k = session ∧ ec = .other
  | _ => False

def ReceivesOn (event : SessionEvent) (session : Nat) : Prop :=
  match event with
  | .receive _ k _ => k = session
  | _ => False

-- What the scheduler does in a step, as far as others can see it.
def effects (event : SessionEvent) (s : Sessions) : List Effect :=
  (step event s).scheduler.trace.drop s.scheduler.trace.length

-- disconnect_worker is called with the identifier, and the session is the one
-- it is registered with, or the one whose message is being handled.
def SchedulerDisconnects (event : SessionEvent) (session : Nat) (identifier : Identifier)
    (s : Sessions) : Prop :=
  .disconnect identifier ∈ effects event s ∧
    (⟨identifier, session⟩ ∈ s.scheduler.manager.sockets ∨ ReceivesOn event session)

-- In the step the disconnect of the session is requested, for its identifier.
def Requests (event : SessionEvent) (session : Nat) (identifier : Identifier) (s : Sessions) : Prop :=
  s.scheduler.manager.sessions[session]?.map WorkerSession.identifier = some identifier ∧
    (ReportsError event session s ∨ SchedulerDisconnects event session identifier s)

-- What the request is for: the socket is closed, and the identifier is in none
-- of the containers.
def Disconnected (session : Nat) (identifier : Identifier) (s : Sessions) : Prop :=
  s.scheduler.manager.sessions[session]?.map WorkerSession.socket = some false ∧
    ¬s.scheduler.workers.HasKey identifier ∧
    (∀ task ∈ s.scheduler.tasks, task.identifier ≠ identifier) ∧
    ¬s.scheduler.manager.sockets.HasKey identifier

-- The payloads that reach the scheduler between two states of a run.
def deliveredSince (s s' : Sessions) : List (Nat × Bytes) := s'.delivered.drop s.delivered.length

-- After each request of the run, its session is disconnected when the handler
-- returns, and nothing comes from it until the end.
def DisconnectEffective (config : Config) (events : List SessionEvent) : Prop :=
  ∀ before event after, events = before ++ event :: after → ∀ session identifier,
    Requests event session identifier (run config before) →
      Disconnected session identifier (run config (before ++ [event])) ∧
      ∀ payload, (session, payload) ∉
        deliveredSince (run config (before ++ [event])) (run config events)

def NeverRequested (config : Config) (events : List SessionEvent) : Prop :=
  ∀ before event after, events = before ++ event :: after → ∀ session identifier,
    ¬Requests event session identifier (run config before)

-- In no state of a run is a session disconnected.
theorem not_disconnected (config : Config) (events : List SessionEvent) (session : Nat)
    (identifier : Identifier) : ¬Disconnected session identifier (run config events) := by
  rintro ⟨hclosed, -⟩
  obtain ⟨worker, hworker, hsocket⟩ := Option.map_eq_some_iff.mp hclosed
  have hopen : worker.socket = true :=
    run_open config events worker (List.mem_of_getElem? hworker)
  rw [hopen] at hsocket
  cases hsocket

-- Disconnects work as long as nobody asks for one.
theorem disconnectEffective_iff (config : Config) (events : List SessionEvent) :
    DisconnectEffective config events ↔ NeverRequested config events := by
  constructor
  · intro heffective before event after heq session identifier hrequest
    have hdone := (heffective before event after heq session identifier hrequest).1
    exact not_disconnected config (before ++ [event]) session identifier hdone
  · intro hnever before event after heq session identifier hrequest
    exact absurd hrequest (hnever before event after heq session identifier)

-- A worker connects and closes its connection; its entries all stay.
theorem disconnectEffective_refuted :
    ¬∀ config events, DisconnectEffective config events := by
  intro h
  have hdone := h plainConfig
    [.accept (Env.at 0) .accepted [5] (fun _ => 0), .receiveError (Env.at (seconds 1)) 0 .other]
    [.accept (Env.at 0) .accepted [5] (fun _ => 0)] (.receiveError (Env.at (seconds 1)) 0 .other) []
    rfl 0 5 ⟨by decide, Or.inl ⟨rfl, rfl, by decide⟩⟩
  exact absurd hdone.1.2.1 (by decide)

end Sessions

end LiveReceptor.Supervisor

import LiveReceptor.Shared.AsioSocketWriteHelper
import LiveReceptor.Worker.SupervisorConnection

namespace LiveReceptor.Worker

open SimpleWorkerProtoHandler (ErrorCode)

-- supervisor_connection with its resolver and its retry timer. Of the attempts that
-- the connection has under way, `resolving` have not got their endpoints yet.
structure RetryingConnection where
  connection : SupervisorConnection
  resolving : Nat := 0
  timer : WaitTimer := {}

inductive RetryEvent
  | retryTimerTick (completion : WaitEnd)
  | resolved (ec : Option ErrorCode)
  | connected (ec : Option ErrorCode)
  | publish (msg : Bytes)
  | runPosted
  | received (n : Nat) (result : Except ErrorCode Bytes)
  | written (n : Nat) (ec : Option ErrorCode)

namespace RetryingConnection

def rescheduleRetryTimer (s : RetryingConnection) : RetryingConnection := { s with timer := s.timer.start }

-- The connection takes a step of its own. on_failed, which is when it calls the
-- disconnected handler, reschedules the timer.
def handle (event : SupervisorEvent) (s : RetryingConnection) : RetryingConnection :=
  let connection := SupervisorConnection.step event s.connection
  let s' := { s with connection }
  if s.connection.disconnects < connection.disconnects then s'.rescheduleRetryTimer else s'

def onRetryTimerTick (aborted : Bool) (s : RetryingConnection) : RetryingConnection :=
  if aborted then s else { s with connection := s.connection.connect, resolving := s.resolving + 1 }

def onResolved (ec : Option ErrorCode) (s : RetryingConnection) : RetryingConnection :=
  match ec with
  | none => { s with timer := s.timer.cancel }
  | some ec =>
      let s := { s with connection := SupervisorConnection.step .resolveFailed s.connection }
      if ec = .operationAborted then s else s.rescheduleRetryTimer

def onConnected (ec : Option ErrorCode) (s : RetryingConnection) : RetryingConnection :=
  let s := { s with connection := s.connection.onConnected ec }
  match ec with
  | none => { s with timer := s.timer.cancel }
  | some ec => if ec = .operationAborted then s else s.rescheduleRetryTimer

def step (event : RetryEvent) (s : RetryingConnection) : RetryingConnection :=
  match event with
  | .retryTimerTick completion =>
      match s.timer.finish completion with
      | none => s
      | some timer => { s with timer }.onRetryTimerTick completion.aborted
  | .resolved ec =>
      if 0 < s.resolving then { s with resolving := s.resolving - 1 }.onResolved ec else s
  | .connected ec => if s.resolving < s.connection.connecting then s.onConnected ec else s
  | .publish msg => s.handle (.publish msg)
  | .runPosted => s.handle .runPosted
  | .received n result => s.handle (.received n result)
  | .written n ec => s.handle (.written n ec)

-- The constructor starts the timer.
def initial (readyPacket memory : Bytes) : RetryingConnection :=
  { connection := .initial readyPacket memory : RetryingConnection }.rescheduleRetryTimer

def run (readyPacket memory : Bytes) (events : List RetryEvent) : RetryingConnection :=
  Runs.run step (initial readyPacket memory) events

-- Nothing cancels the resolver or an attempt to connect.
def Uncancelled (event : RetryEvent) : Prop :=
  event ≠ .resolved (some .operationAborted) ∧ event ≠ .connected (some .operationAborted)

-- A cancelled read completes while a connection is up, which can only be a later
-- one, and nothing else is under way.
def Deafens (event : RetryEvent) (s : RetryingConnection) : Prop :=
  match event with
  | .received n (.error .operationAborted) =>
      n < s.connection.reads.length ∧ s.connection.socket ≠ none ∧ s.connection.connecting = 0 ∧
        s.timer.waiting = false
  | _ => False

-- The worker has a connection that it reads from, or it is on its way to one.
def Trying (s : RetryingConnection) : Prop :=
  s.timer.waiting = true ∨ 0 < s.connection.connecting ∨
    ∃ socket ∈ s.connection.reads, s.connection.socket = some socket ∧ s.connection.readSocket = some socket

variable {s : RetryingConnection} {c c' : SupervisorConnection} {event : RetryEvent}

section Connection

-- What the worker has going for it in the connection alone.
def OnItsWay (c : SupervisorConnection) : Prop :=
  0 < c.connecting ∨ ∃ socket ∈ c.reads, c.socket = some socket ∧ c.readSocket = some socket

theorem OnItsWay.of_eq (h : OnItsWay c) (hconnecting : c'.connecting = c.connecting)
    (hreads : c'.reads = c.reads) (hsocket : c'.socket = c.socket)
    (hreadSocket : c'.readSocket = c.readSocket) : OnItsWay c' := by
  rw [OnItsWay, hconnecting, hreads, hsocket, hreadSocket]
  exact h

theorem onItsWay_startAsyncWrite (h : OnItsWay c) : OnItsWay c.startAsyncWrite := by
  unfold SupervisorConnection.startAsyncWrite
  split
  · exact h
  · exact h.of_eq rfl rfl rfl rfl

theorem onItsWay_publishMsg (h : OnItsWay c) (msg : Bytes) : OnItsWay (c.publishMsg msg) := by
  unfold SupervisorConnection.publishMsg SupervisorConnection.write
  split
  · exact h
  · split
    · exact h
    · exact h.of_eq rfl rfl rfl rfl

theorem onItsWay_runPosted (h : OnItsWay c) : OnItsWay c.runPosted := by
  unfold SupervisorConnection.runPosted
  split
  · exact h
  · dsimp only
    split
    · exact h.of_eq rfl rfl rfl rfl
    · have hqueued : ∀ queue, OnItsWay { c with writeQueue := queue } := fun queue => h.of_eq rfl rfl rfl rfl
      exact (onItsWay_startAsyncWrite (hqueued _)).of_eq rfl rfl rfl rfl

theorem disconnects_startAsyncWrite : c.startAsyncWrite.disconnects = c.disconnects := by
  unfold SupervisorConnection.startAsyncWrite
  split <;> rfl

-- A write that fails closes the connection, any other one leaves it alone.
theorem onItsWay_onWritten (h : OnItsWay c) (ec : Option ErrorCode) (bufferCount : Nat) :
    c.disconnects < (c.onWritten ec bufferCount).disconnects ∨ OnItsWay (c.onWritten ec bufferCount) := by
  have hdeleted : OnItsWay (c.deleteFirstNBuffers bufferCount) := h.of_eq rfl rfl rfl rfl
  unfold SupervisorConnection.onWritten
  dsimp only
  split
  · exact Or.inr hdeleted
  · split
    · refine Or.inr ?_
      split
      · exact hdeleted
      · exact onItsWay_startAsyncWrite hdeleted
    · have hfailed : c.disconnects < (c.deleteFirstNBuffers bufferCount).onFailed.disconnects :=
        Nat.lt_succ_self c.disconnects
      refine Or.inl ?_
      split
      · exact hfailed
      · rwa [disconnects_startAsyncWrite]

-- The next read is started on the current socket.
theorem onItsWay_of_socket {socket : Nat} (hsocket : c.socket = some socket)
    (hread : c.readSocket = some socket) : OnItsWay c.startAsyncRead := by
  have hlock : c.lock c.readSocket = some socket := by
    rw [SupervisorConnection.lock, hread]
    simp [hsocket]
  rw [SupervisorConnection.startAsyncRead, hlock]
  exact Or.inr ⟨socket, by simp, hsocket, hread⟩

theorem onItsWay_startAsyncRead (h : OnItsWay c) (reads : List Nat) :
    OnItsWay ({ c with reads } : SupervisorConnection).startAsyncRead := by
  rcases h with hconnecting | ⟨socket, -, hsocket, hread⟩
  · refine Or.inl ?_
    unfold SupervisorConnection.startAsyncRead
    split <;> exact hconnecting
  · exact onItsWay_of_socket hsocket hread

theorem onItsWay_received (h : OnItsWay c) (n : Nat) {result : Except ErrorCode Bytes}
    (hresult : result ≠ .error .operationAborted) :
    c.disconnects < (SupervisorConnection.step (.received n result) c).disconnects ∨
      OnItsWay (SupervisorConnection.step (.received n result) c) := by
  rw [SupervisorConnection.step]
  split
  · exact Or.inr h
  · cases result with
    | ok read =>
        have hread : OnItsWay { c with
            protoHandler := c.protoHandler.onReceive read
            delivered := c.delivered ++ c.protoHandler.payloads read } := h.of_eq rfl rfl rfl rfl
        exact Or.inr (onItsWay_startAsyncRead hread (c.reads.eraseIdx n))
    | error ec =>
        cases ec with
        | operationAborted => exact absurd rfl hresult
        | other => exact Or.inl (Nat.lt_succ_self c.disconnects)

theorem onItsWay_written (h : OnItsWay c) (n : Nat) (ec : Option ErrorCode) :
    c.disconnects < (SupervisorConnection.step (.written n ec) c).disconnects ∨
      OnItsWay (SupervisorConnection.step (.written n ec) c) := by
  rw [SupervisorConnection.step]
  split
  · exact Or.inr h
  · rename_i pending hpending
    have herased : OnItsWay { c with writes := c.writes.eraseIdx n } := h.of_eq rfl rfl rfl rfl
    exact onItsWay_onWritten herased ec pending.bufferCount

theorem onItsWay_resetProtoHandler {socket : Nat} (h : c.socket = some socket) :
    OnItsWay (c.resetProtoHandler socket) := by
  unfold SupervisorConnection.resetProtoHandler
  exact onItsWay_of_socket h rfl

-- The new connection is read from at once.
theorem onItsWay_onConnected (h : c.connecting ≠ 0) : OnItsWay (c.onConnected none) := by
  obtain ⟨connecting, hsucc⟩ := Nat.exists_eq_succ_of_ne_zero h
  unfold SupervisorConnection.onConnected
  rw [hsucc]
  apply onItsWay_publishMsg
  have hreset : ∀ c' : SupervisorConnection, c'.socket = some c.forceClose.sockets.length →
      OnItsWay (c'.resetProtoHandler c.forceClose.sockets.length) := fun _ => onItsWay_resetProtoHandler
  exact OnItsWay.of_eq (hreset _ rfl) rfl rfl rfl rfl

end Connection

section Timer

theorem trying_iff : Trying s ↔ s.timer.waiting = true ∨ OnItsWay s.connection := Iff.rfl

theorem Trying.rescheduleRetryTimer : Trying s.rescheduleRetryTimer := Or.inl rfl

-- Where the connection gets nowhere, on_failed has been called.
theorem Trying.handle {event : SupervisorEvent} (h : Trying s)
    (hevent : OnItsWay s.connection →
      s.connection.disconnects < (SupervisorConnection.step event s.connection).disconnects ∨
        OnItsWay (SupervisorConnection.step event s.connection)) : Trying (s.handle event) := by
  unfold RetryingConnection.handle
  dsimp only
  split
  · exact .rescheduleRetryTimer
  · rename_i hkept
    rcases h with hwaiting | hway
    · exact Or.inl hwaiting
    · exact Or.inr ((hevent hway).resolve_left hkept)

theorem connecting_handle (event : SupervisorEvent) : (s.handle event).connection.connecting =
    (SupervisorConnection.step event s.connection).connecting := by
  unfold RetryingConnection.handle
  dsimp only
  split <;> rfl

theorem resolving_handle (event : SupervisorEvent) : (s.handle event).resolving = s.resolving := by
  unfold RetryingConnection.handle
  dsimp only
  split <;> rfl

-- What waits for its endpoints is an attempt under way.
structure RetryInv (s : RetryingConnection) : Prop where
  trying : Trying s
  resolving : s.resolving ≤ s.connection.connecting

theorem initial_retryInv (readyPacket memory : Bytes) : RetryInv (initial readyPacket memory) where
  trying := .rescheduleRetryTimer
  resolving := Nat.zero_le _

theorem RetryInv.handle {event : SupervisorEvent} (h : RetryInv s)
    (hevent : OnItsWay s.connection →
      s.connection.disconnects < (SupervisorConnection.step event s.connection).disconnects ∨
        OnItsWay (SupervisorConnection.step event s.connection))
    (hconnecting : (SupervisorConnection.step event s.connection).connecting = s.connection.connecting) :
    RetryInv (s.handle event) where
  trying := h.trying.handle hevent
  resolving := by
    rw [resolving_handle, connecting_handle, hconnecting]
    exact h.resolving

theorem connecting_startAsyncWrite : c.startAsyncWrite.connecting = c.connecting := by
  unfold SupervisorConnection.startAsyncWrite
  split <;> rfl

theorem connecting_forceClose : c.forceClose.connecting = c.connecting := by
  unfold SupervisorConnection.forceClose
  split <;> rfl

theorem connecting_startAsyncRead : c.startAsyncRead.connecting = c.connecting := by
  unfold SupervisorConnection.startAsyncRead
  split <;> rfl

theorem connecting_publishMsg (msg : Bytes) : (c.publishMsg msg).connecting = c.connecting := by
  unfold SupervisorConnection.publishMsg SupervisorConnection.write
  split
  · rfl
  · split <;> rfl

theorem connecting_runPosted : c.runPosted.connecting = c.connecting := by
  unfold SupervisorConnection.runPosted
  split
  · rfl
  · dsimp only
    split
    · rfl
    · exact connecting_startAsyncWrite

theorem connecting_received (n : Nat) (result : Except ErrorCode Bytes) :
    (SupervisorConnection.step (.received n result) c).connecting = c.connecting := by
  rw [SupervisorConnection.step]
  split
  · rfl
  · cases result with
    | ok read => exact connecting_startAsyncRead
    | error ec =>
        cases ec with
        | operationAborted => rfl
        | other => exact connecting_forceClose

theorem connecting_written (n : Nat) (ec : Option ErrorCode) :
    (SupervisorConnection.step (.written n ec) c).connecting = c.connecting := by
  have hqueue : ∀ c : SupervisorConnection,
      (if c.writeQueue.isEmpty then c else c.startAsyncWrite).connecting = c.connecting := by
    intro c
    split
    · rfl
    · exact connecting_startAsyncWrite
  rw [SupervisorConnection.step]
  split
  · rfl
  · unfold SupervisorConnection.onWritten
    dsimp only
    split
    · rfl
    · rw [hqueue]
      split
      · rfl
      · exact connecting_forceClose

theorem connecting_onConnected (ec : Option ErrorCode) :
    (c.onConnected ec).connecting = c.connecting - 1 := by
  unfold SupervisorConnection.onConnected
  split
  · rename_i hzero
    rw [hzero]
  · rename_i connecting _ hsucc
    rw [hsucc]
    rfl
  · rename_i connecting hsucc
    rw [hsucc, connecting_publishMsg]
    exact connecting_startAsyncRead

theorem retryInv_connect (h : s.resolving ≤ s.connection.connecting) :
    RetryInv { s with connection := s.connection.connect, resolving := s.resolving + 1 } where
  trying := Or.inr (Or.inl (Nat.succ_pos _))
  resolving := Nat.succ_le_succ h

theorem RetryInv.tick (h : RetryInv s) (completion : WaitEnd) :
    RetryInv (step (.retryTimerTick completion) s) := by
  rw [step]
  split
  · exact h
  · rename_i timer hfinish
    cases completion with
    | expired => exact retryInv_connect h.resolving
    | cancelled aborted =>
        cases aborted with
        | false => exact retryInv_connect h.resolving
        | true =>
            have hwaiting : timer.waiting = s.timer.waiting := by
              rw [WaitTimer.finish] at hfinish
              split at hfinish
              · obtain rfl := Option.some.inj hfinish
                rfl
              · cases hfinish
            refine ⟨?_, h.resolving⟩
            show Trying { s with timer }
            rw [trying_iff, hwaiting]
            exact h.trying

theorem RetryInv.resolved (h : RetryInv s) (ec : Option ErrorCode) (hec : Uncancelled (.resolved ec)) :
    RetryInv (step (.resolved ec) s) := by
  have hresolving := h.resolving
  rw [step]
  split
  · cases ec with
    | none =>
        refine ⟨Or.inr (Or.inl ?_), ?_⟩
        · show 0 < s.connection.connecting
          omega
        · show s.resolving - 1 ≤ s.connection.connecting
          omega
    | some ec =>
        cases ec with
        | operationAborted => exact absurd rfl hec.1
        | other =>
            refine ⟨.rescheduleRetryTimer, ?_⟩
            show s.resolving - 1 ≤ s.connection.connecting - 1
            omega
  · exact h

theorem RetryInv.connected (h : RetryInv s) (ec : Option ErrorCode) (hec : Uncancelled (.connected ec)) :
    RetryInv (step (.connected ec) s) := by
  rw [step]
  split
  · rename_i hpending
    have hconnecting := @connecting_onConnected s.connection ec
    cases ec with
    | none =>
        refine ⟨Or.inr (onItsWay_onConnected (by omega)), ?_⟩
        show s.resolving ≤ (s.connection.onConnected none).connecting
        omega
    | some ec =>
        cases ec with
        | operationAborted => exact absurd rfl hec.2
        | other =>
            refine ⟨.rescheduleRetryTimer, ?_⟩
            show s.resolving ≤ (s.connection.onConnected _).connecting
            omega
  · exact h

section Aborted

variable {n : Nat}

theorem step_received_aborted (hn : n < s.connection.reads.length) :
    ∃ connection, step (.received n (.error .operationAborted)) s = { s with connection } ∧
      connection.connecting = s.connection.connecting ∧ connection.readSocket = none := by
  have hread : s.connection.reads[n]? = some (s.connection.reads[n]) := List.getElem?_eq_getElem hn
  refine ⟨SupervisorConnection.step (.received n (.error .operationAborted)) s.connection, ?_, ?_, ?_⟩
  · have hkept : (SupervisorConnection.step (.received n (.error .operationAborted))
        s.connection).disconnects = s.connection.disconnects := by
      rw [SupervisorConnection.step, hread]
      rfl
    rw [step, RetryingConnection.handle, hkept, if_neg (Nat.lt_irrefl _)]
  · exact connecting_received n _
  · rw [SupervisorConnection.step, hread]
    rfl

-- The reader has lost its socket, and nothing brings it a new one.
theorem not_trying_of_deafens (h : Deafens event s) : ¬Trying (step event s) := by
  unfold Deafens at h
  split at h
  · obtain ⟨hn, -, hconnecting, hwaiting⟩ := h
    obtain ⟨connection, hstep, hsame, hread⟩ := step_received_aborted hn
    rw [hstep]
    rintro (htimer | hattempt | ⟨socket, -, -, hsocket⟩)
    · have htimer' : s.timer.waiting = true := htimer
      rw [hwaiting] at htimer'
      cases htimer'
    · have hattempt' : 0 < connection.connecting := hattempt
      omega
    · have hsocket' : connection.readSocket = some socket := hsocket
      rw [hread] at hsocket'
      cases hsocket'
  · cases h

theorem RetryInv.received_aborted (h : RetryInv s)
    (hheard : ¬Deafens (.received n (.error .operationAborted)) s) :
    RetryInv (RetryingConnection.step (.received n (.error .operationAborted)) s) := by
  by_cases hn : n < s.connection.reads.length
  · obtain ⟨connection, hstep, hsame, -⟩ := step_received_aborted hn
    rw [hstep]
    refine ⟨?_, ?_⟩
    · rcases h.trying with hwaiting | hattempt | ⟨socket, -, hsocket, -⟩
      · exact Or.inl hwaiting
      · exact Or.inr (Or.inl (hsame ▸ hattempt))
      · by_cases hwaiting : s.timer.waiting = true
        · exact Or.inl hwaiting
        · refine Or.inr (Or.inl ?_)
          show 0 < connection.connecting
          rw [hsame]
          refine Nat.pos_of_ne_zero fun hzero => hheard ⟨hn, ?_, hzero, Bool.eq_false_iff.mpr hwaiting⟩
          rw [hsocket]
          exact Option.some_ne_none socket
    · show s.resolving ≤ connection.connecting
      rw [hsame]
      exact h.resolving
  · have hnone : s.connection.reads[n]? = none := List.getElem?_eq_none (Nat.not_lt.mp hn)
    have hsame : SupervisorConnection.step (.received n (.error .operationAborted)) s.connection =
        s.connection := by
      rw [SupervisorConnection.step, hnone]
    refine h.handle (fun hway => Or.inr ?_) ?_
    · rwa [hsame]
    · rw [hsame]

end Aborted

theorem RetryInv.step (h : RetryInv s) (hevent : Uncancelled event) (hheard : ¬Deafens event s) :
    RetryInv (RetryingConnection.step event s) := by
  cases event with
  | retryTimerTick completion => exact h.tick completion
  | resolved ec => exact h.resolved ec hevent
  | connected ec => exact h.connected ec hevent
  | publish msg => exact h.handle (fun hway => Or.inr (onItsWay_publishMsg hway msg)) (connecting_publishMsg msg)
  | runPosted => exact h.handle (fun hway => Or.inr (onItsWay_runPosted hway)) connecting_runPosted
  | received n result =>
      by_cases hresult : result = .error .operationAborted
      · subst hresult
        exact h.received_aborted hheard
      · exact h.handle (fun hway => onItsWay_received hway n hresult) (connecting_received n result)
  | written n ec => exact h.handle (fun hway => onItsWay_written hway n ec) (connecting_written n ec)

-- Whatever fails and in whatever order, the worker has in every state a connection
-- that it reads from, an attempt under way, or the retry timer waiting, exactly in
-- the runs in which no cancelled read of an earlier connection completes too late.
theorem run_trying_iff (readyPacket memory : Bytes) (events : List RetryEvent)
    (huncancelled : ∀ event ∈ events, Uncancelled event) :
    Runs.EveryState RetryingConnection.step Trying (initial readyPacket memory) events ↔
      Runs.EveryStep RetryingConnection.step (fun event s => ¬Deafens event s)
        (initial readyPacket memory) events := by
  have hevents : Runs.EveryStep RetryingConnection.step (fun event _ => Uncancelled event)
      (initial readyPacket memory) events := by
    rw [Runs.everyStep_iff_prefix]
    intro before event after he
    exact huncancelled event (he ▸ List.mem_append_right before List.mem_cons_self)
  constructor
  · intro htrying
    exact Runs.everyStep_mono (fun _ _ hnext hdeaf => not_trying_of_deafens hdeaf hnext)
      (Runs.everyState_iff_next.mp htrying).2
  · intro hheard
    exact Runs.everyState_of (fun _ _ h hboth => RetryInv.step h hboth.1 hboth.2) (fun _ h => h.trying)
      (initial_retryInv readyPacket memory) (hevents.and hheard)

-- The first attempt succeeds, and the peer closes the connection.
def lostEvents : List RetryEvent :=
  [.retryTimerTick .expired, .resolved none, .connected none, .received 0 (.ok [1]), .runPosted,
    .received 0 (.error .other), .retryTimerTick .expired, .resolved (some .other)]

theorem run_trying_iff_lost :
    Runs.EveryState RetryingConnection.step Trying (initial [0] (List.replicate 8 0)) lostEvents ↔
      Runs.EveryStep RetryingConnection.step (fun event s => ¬Deafens event s)
        (initial [0] (List.replicate 8 0)) lostEvents :=
  run_trying_iff [0] (List.replicate 8 0) lostEvents (by simp [lostEvents, Uncancelled])

end Timer

end RetryingConnection

end LiveReceptor.Worker

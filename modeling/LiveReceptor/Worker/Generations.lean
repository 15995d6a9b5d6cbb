import LiveReceptor.Worker.Retrying

namespace LiveReceptor.Worker.SupervisorConnection

open SimpleWorkerProtoHandler (ErrorCode)

-- A newer socket has replaced this one.
def Replaced (socket : Nat) (s : SupervisorConnection) : Prop := socket + 1 < s.sockets.length

instance (socket : Nat) (s : SupervisorConnection) : Decidable (Replaced socket s) :=
  inferInstanceAs (Decidable (_ < _))

-- An operation that was started on a replaced socket completes with an error.
def IsStale (event : SupervisorEvent) (s : SupervisorConnection) : Prop :=
  match event with
  | .received n (.error _) => ∃ socket ∈ s.reads[n]?, s.Replaced socket
  | .written n (some _) => ∃ pending ∈ s.writes[n]?, s.Replaced pending.socket
  | _ => False

-- The writes under way on the newest socket.
def newestWrites (s : SupervisorConnection) : Nat :=
  s.writes.countP fun pending => pending.socket + 1 = s.sockets.length

-- Nothing that belongs to the new connection changes: its buffers (the reset has
-- emptied the queue), the socket of its read handler, its socket, and no write
-- is started next to another one.
structure Untouched (s s' : SupervisorConnection) : Prop where
  writeQueue : s'.writeQueue = s.writeQueue
  readSocket : s'.readSocket = s.readSocket
  newestWrites : 0 < s.newestWrites → s'.newestWrites = s.newestWrites
  sockets : s'.sockets = s.sockets
  socket : s'.socket = s.socket

def Harmless (event : SupervisorEvent) (s : SupervisorConnection) : Prop :=
  IsStale event s → Untouched s (step event s)

-- Where nothing is left that a stale completion could spoil.
def Spared (event : SupervisorEvent) (s : SupervisorConnection) : Prop :=
  match event with
  | .received n (.error ec) => (∃ socket ∈ s.reads[n]?, s.Replaced socket) →
      s.readSocket = none ∧ (ec = .operationAborted ∨ s.socket = none)
  | .written n (some ec) => (∃ pending ∈ s.writes[n]?, s.Replaced pending.socket) →
      s.writeQueue = [] ∧ (ec = .operationAborted ∨ s.socket = none)
  | _ => True

variable {s : SupervisorConnection} {ec : ErrorCode}

section Completions

theorem forceClose_of_none (h : s.socket = none) : s.forceClose = s := by
  rw [forceClose, h]

theorem socket_forceClose : s.forceClose.socket = none := by
  unfold forceClose
  split
  · assumption
  · rfl

theorem writeQueue_forceClose : s.forceClose.writeQueue = s.writeQueue := by
  unfold forceClose
  split <;> rfl

-- Only another socket's write goes.
theorem newestWrites_eraseIdx {n : Nat} {pending : PendingWrite} (hn : s.writes[n]? = some pending)
    (hreplaced : s.Replaced pending.socket) :
    newestWrites { s with writes := s.writes.eraseIdx n } = s.newestWrites := by
  obtain ⟨hlength, hget⟩ := List.getElem?_eq_some_iff.mp hn
  have hsplit : s.writes = s.writes.take n ++ pending :: s.writes.drop (n + 1) := by
    rw [← hget, List.getElem_cons_drop, List.take_append_drop]
  have hother : ¬pending.socket + 1 = s.sockets.length := Nat.ne_of_lt hreplaced
  rw [newestWrites, newestWrites, List.eraseIdx_eq_take_drop_succ]
  conv_rhs => rw [hsplit]
  rw [List.countP_append, List.countP_append, List.countP_cons_of_neg (by simpa using hother)]

end Completions

section Reads

variable {n socket : Nat}

theorem step_received_error (hn : s.reads[n]? = some socket) :
    step (.received n (.error ec)) s =
      { (if ec != .operationAborted then onFailed { s with reads := s.reads.eraseIdx n }
          else { s with reads := s.reads.eraseIdx n }) with
        protoHandler := (s.protoHandler.onReceiveError ec).1
        readSocket := none } := by
  simp only [step, hn]
  rfl

theorem untouched_received_iff (hn : s.reads[n]? = some socket) :
    Untouched s (step (.received n (.error ec)) s) ↔
      s.readSocket = none ∧ (ec = .operationAborted ∨ s.socket = none) := by
  rw [step_received_error hn]
  cases ec with
  | operationAborted =>
      constructor
      · intro h
        exact ⟨h.readSocket.symm, Or.inl rfl⟩
      · rintro ⟨hread, -⟩
        exact ⟨rfl, hread.symm, fun _ => rfl, rfl, rfl⟩
  | other =>
      constructor
      · intro h
        have hclosed : (forceClose { s with reads := s.reads.eraseIdx n }).socket = s.socket := h.socket
        rw [socket_forceClose] at hclosed
        exact ⟨h.readSocket.symm, Or.inr hclosed.symm⟩
      · rintro ⟨hread, hsocket⟩
        have hnone := hsocket.resolve_left (by simp)
        have hclose : forceClose { s with reads := s.reads.eraseIdx n } =
            { s with reads := s.reads.eraseIdx n } := forceClose_of_none hnone
        simp only [onFailed, hclose]
        exact ⟨rfl, hread.symm, fun _ => rfl, rfl, rfl⟩

end Reads

section Writes

variable {n : Nat} {pending : PendingWrite}

-- The end of on_written.
def continueWriting (s : SupervisorConnection) : SupervisorConnection :=
  if s.writeQueue.isEmpty then s else s.startAsyncWrite

theorem writeQueue_continueWriting : s.continueWriting.writeQueue = s.writeQueue := by
  unfold continueWriting startAsyncWrite
  split
  · rfl
  · split <;> rfl

theorem socket_continueWriting : s.continueWriting.socket = s.socket := by
  unfold continueWriting startAsyncWrite
  split
  · rfl
  · split <;> rfl

theorem onWritten_other (count : Nat) :
    s.onWritten (some .other) count = (s.deleteFirstNBuffers count).onFailed.continueWriting := rfl

theorem writeQueue_onWritten (count : Nat) :
    (s.onWritten (some ec) count).writeQueue = s.writeQueue.drop (min count s.writeQueue.length) := by
  cases ec with
  | operationAborted => rfl
  | other =>
      rw [onWritten_other, writeQueue_continueWriting]
      exact writeQueue_forceClose

theorem socket_onWritten_other (count : Nat) : (s.onWritten (some .other) count).socket = none := by
  rw [onWritten_other, socket_continueWriting]
  exact socket_forceClose

-- With an empty queue and nothing to close, only the handlers' calls are left.
theorem onWritten_of_nil (hqueue : s.writeQueue = []) (hsocket : ec = .operationAborted ∨ s.socket = none)
    (count : Nat) : ∃ disconnects, s.onWritten (some ec) count = { s with disconnects } := by
  have hdelete : s.deleteFirstNBuffers count = s := by
    rw [deleteFirstNBuffers, hqueue, List.drop_nil, ← hqueue]
  cases ec with
  | operationAborted => exact ⟨s.disconnects, hdelete⟩
  | other =>
      have hclose : s.forceClose = s := forceClose_of_none (hsocket.resolve_left (by simp))
      have hempty : s.onFailed.writeQueue.isEmpty = true := by
        rw [onFailed, hclose, hqueue]
        rfl
      refine ⟨s.disconnects + 1, ?_⟩
      rw [onWritten_other, hdelete, continueWriting, if_pos hempty, onFailed, hclose]

theorem untouched_written_iff (hn : s.writes[n]? = some pending) (hreplaced : s.Replaced pending.socket) :
    Untouched s (step (.written n (some ec)) s) ↔
      s.writeQueue = [] ∧ (ec = .operationAborted ∨ s.socket = none) := by
  have hstep : step (.written n (some ec)) s =
      { s with writes := s.writes.eraseIdx n }.onWritten (some ec) pending.bufferCount := by
    simp only [step, hn]
  rw [hstep]
  constructor
  · intro h
    have hqueue : s.writeQueue.drop (min pending.bufferCount s.writeQueue.length) = s.writeQueue :=
      (writeQueue_onWritten (s := { s with writes := s.writes.eraseIdx n }) _).symm.trans h.writeQueue
    have hlength := congrArg List.length hqueue
    rw [List.length_drop] at hlength
    have hpositive := pending.positive
    refine ⟨List.length_eq_zero_iff.mp (by omega), ?_⟩
    cases ec with
    | operationAborted => exact Or.inl rfl
    | other =>
        have hsocket := h.socket
        rw [socket_onWritten_other] at hsocket
        exact Or.inr hsocket.symm
  · rintro ⟨hqueue, hsocket⟩
    obtain ⟨disconnects, hwritten⟩ := onWritten_of_nil
      (s := { s with writes := s.writes.eraseIdx n }) hqueue hsocket pending.bufferCount
    rw [hwritten]
    exact ⟨rfl, rfl, fun _ => newestWrites_eraseIdx hn hreplaced, rfl, rfl⟩

end Writes

-- Exactly the completions that find nothing left to spoil spoil nothing.
theorem harmless_iff (event : SupervisorEvent) (s : SupervisorConnection) :
    Harmless event s ↔ Spared event s := by
  cases event with
  | received n result =>
      cases result with
      | ok read => exact ⟨fun _ => trivial, fun _ => False.elim⟩
      | error ec =>
          refine forall_congr' fun hstale => ?_
          obtain ⟨socket, hn, -⟩ := hstale
          exact untouched_received_iff hn
  | written n ec =>
      cases ec with
      | none => exact ⟨fun _ => trivial, fun _ => False.elim⟩
      | some ec =>
          refine forall_congr' fun hstale => ?_
          obtain ⟨pending, hn, hreplaced⟩ := hstale
          exact untouched_written_iff hn hreplaced
  | _ => exact ⟨fun _ => trivial, fun _ => False.elim⟩

theorem run_harmless_iff (readyPacket memory : Bytes) (events : List SupervisorEvent) :
    Runs.EveryStep step Harmless (initial readyPacket memory) events ↔
      Runs.EveryStep step Spared (initial readyPacket memory) events :=
  ⟨Runs.everyStep_mono fun event s => (harmless_iff event s).mp,
    Runs.everyStep_mono fun event s => (harmless_iff event s).mpr⟩

-- The write on the first socket fails, and the next attempt is under way when the
-- read on that socket fails too, so that the retry timer starts another one.
def overtakingAttempts : List RetryEvent :=
  [.retryTimerTick .expired, .resolved none, .connected none, .runPosted, .written 0 (some .other),
    .retryTimerTick .expired, .resolved none, .received 0 (.error .other), .retryTimerTick .expired,
    .connected none, .resolved none, .connected none]

-- Both attempts succeed, the second one while the read of the first is pending. Then
-- that read ends with operation_aborted, and the read handler has no socket.
theorem run_harmless_refuted : ¬∀ readyPacket memory events completion,
    Harmless completion (RetryingConnection.run readyPacket memory events).connection := by
  intro h
  have huntouched := h [0] [] overtakingAttempts (.received 0 (.error .operationAborted)) ⟨1, rfl, by decide⟩
  exact absurd huntouched.readSocket (by decide)

end LiveReceptor.Worker.SupervisorConnection

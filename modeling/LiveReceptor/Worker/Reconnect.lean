import LiveReceptor.Shared.Framing.Reset
import LiveReceptor.Worker.SupervisorConnection

namespace LiveReceptor.Worker

namespace SupervisorConnection

open SimpleWorkerProtoHandler Framing

variable {s : SupervisorConnection}

-- Nothing but the events of a reader has happened to the reader.
def Reads (reader reader' : SimpleWorkerProtoHandler) : Prop :=
  ∃ events, reader' = Runs.run Framing.handle reader events

theorem Reads.refl (reader : SimpleWorkerProtoHandler) : Reads reader reader := ⟨[], rfl⟩

theorem Reads.event {reader reader' : SimpleWorkerProtoHandler} (event : ReaderEvent)
    (h : reader' = Framing.handle event reader) : Reads reader reader' := ⟨[event], h⟩

theorem Reads.trans {reader reader' reader'' : SimpleWorkerProtoHandler} (h : Reads reader reader')
    (h' : Reads reader' reader'') : Reads reader reader'' := by
  obtain ⟨events, rfl⟩ := h
  obtain ⟨events', rfl⟩ := h'
  exact ⟨events ++ events', (Runs.run_append _ reader events events').symm⟩

theorem protoHandler_forceClose : s.forceClose.protoHandler = s.protoHandler := by
  unfold forceClose
  split <;> rfl

theorem protoHandler_startAsyncRead : s.startAsyncRead.protoHandler = s.protoHandler := by
  unfold startAsyncRead
  split <;> rfl

theorem protoHandler_startAsyncWrite : s.startAsyncWrite.protoHandler = s.protoHandler := by
  unfold startAsyncWrite
  split <;> rfl

theorem protoHandler_resetProtoHandler (socket : Nat) :
    (s.resetProtoHandler socket).protoHandler = s.protoHandler.reset := by
  rw [resetProtoHandler, protoHandler_startAsyncRead]
  rfl

theorem protoHandler_publishMsg (msg : Bytes) : (s.publishMsg msg).protoHandler = s.protoHandler := by
  unfold publishMsg write
  split
  · rfl
  · split <;> rfl

-- A new connection resets the reader.
theorem protoHandler_onConnected (h : s.connecting ≠ 0) :
    (s.onConnected none).protoHandler = s.protoHandler.reset := by
  obtain ⟨connecting, hconnecting⟩ := Nat.exists_eq_succ_of_ne_zero h
  unfold onConnected
  rw [hconnecting]
  dsimp only
  rw [protoHandler_publishMsg, resetWriteHelper]
  show (SupervisorConnection.resetProtoHandler _ _).protoHandler = _
  rw [protoHandler_resetProtoHandler]
  exact congrArg reset protoHandler_forceClose

theorem protoHandler_onFailed : s.onFailed.protoHandler = s.protoHandler := protoHandler_forceClose

theorem protoHandler_onWritten (ec : Option ErrorCode) (bufferCount : Nat) :
    (s.onWritten ec bufferCount).protoHandler = s.protoHandler := by
  have hfailed : (if ec = none then s.deleteFirstNBuffers bufferCount
      else (s.deleteFirstNBuffers bufferCount).onFailed).protoHandler = s.protoHandler := by
    split
    · rfl
    · exact protoHandler_onFailed
  have hqueue : ∀ s' : SupervisorConnection,
      (if s'.writeQueue.isEmpty then s' else s'.startAsyncWrite).protoHandler = s'.protoHandler := by
    intro s'
    split
    · rfl
    · exact protoHandler_startAsyncWrite
  rw [onWritten]
  split
  · rfl
  · exact (hqueue _).trans hfailed

theorem reads_onReceive (result : Except ErrorCode Bytes) :
    Reads s.protoHandler (s.onReceive result).protoHandler := by
  cases result with
  | error ec => exact .event (.failed ec) rfl
  | ok read =>
      refine .event (.received read) ?_
      rw [onReceive, protoHandler_startAsyncRead]
      rfl

theorem step_reads (event : SupervisorEvent) (s : SupervisorConnection) :
    Reads s.protoHandler (step event s).protoHandler := by
  have hsame : ∀ {s' : SupervisorConnection}, s'.protoHandler = s.protoHandler →
      Reads s.protoHandler s'.protoHandler := fun h => h ▸ .refl s.protoHandler
  cases event with
  | retryTimerTick ec =>
      rw [step, onRetryTimerTick]
      split
      · exact .refl _
      · exact hsame protoHandler_forceClose
  | resolveFailed => exact .refl _
  | connected ec =>
      show Reads s.protoHandler (s.onConnected ec).protoHandler
      by_cases hconnecting : s.connecting = 0
      · have hnothing : s.onConnected ec = s := by
          unfold onConnected
          rw [hconnecting]
        rw [hnothing]
        exact .refl _
      · cases ec with
        | none => exact .event .reset (protoHandler_onConnected hconnecting)
        | some ec =>
            obtain ⟨connecting, hsucc⟩ := Nat.exists_eq_succ_of_ne_zero hconnecting
            apply hsame
            unfold onConnected
            rw [hsucc]
  | publish msg => exact hsame (protoHandler_publishMsg msg)
  | runPosted =>
      show Reads s.protoHandler s.runPosted.protoHandler
      unfold runPosted
      split
      · exact .refl _
      · apply hsame
        dsimp only
        split
        · rfl
        · exact protoHandler_startAsyncWrite
  | received n result =>
      rw [step]
      split
      · exact .refl _
      · exact reads_onReceive result
  | written n ec =>
      rw [step]
      split
      · exact .refl _
      · exact hsame (protoHandler_onWritten ec _)

theorem run_reads (readyPacket memory : Bytes) (events : List SupervisorEvent) :
    Reads (.fresh memory) (run readyPacket memory events).protoHandler :=
  @Runs.run_invariant _ _ step (fun s => Reads (.fresh memory) s.protoHandler)
    (fun event s h => h.trans (step_reads event s)) _ (.refl _) events

-- The reader as on_connected finds it: the reads under way are those of sockets
-- before the new one.
def reading (s : SupervisorConnection) : Reading where
  reader := s.protoHandler
  underWay := false
  cancelled := s.reads.length

-- So a new connection of supervisor_connection starts clean exactly where the
-- ones before have left nothing behind.
theorem run_resetsClean_iff (readyPacket memory : Bytes) (events : List SupervisorEvent) :
    (run readyPacket memory events).reading.ResetsClean ↔
      (run readyPacket memory events).protoHandler.readBufferSize < 4 ∨
        (run readyPacket memory events).reads = [] ∧
        (run readyPacket memory events).protoHandler.offset = 0 ∧
        (run readyPacket memory events).protoHandler.skipping = 0 := by
  obtain ⟨readerEvents, hreader⟩ := run_reads readyPacket memory events
  obtain ⟨position, hstands⟩ := run_stands memory readerEvents
  rw [← hreader] at hstands
  rw [← List.length_eq_zero_iff, Reading.resetsClean_iff hstands]
  exact or_congr_right (and_iff_right rfl)

end SupervisorConnection

end LiveReceptor.Worker

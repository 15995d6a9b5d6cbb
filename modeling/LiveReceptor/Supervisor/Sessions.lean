import LiveReceptor.Supervisor.Steps
import LiveReceptor.Shared.SimpleWorkerProtoHandler

namespace LiveReceptor.Supervisor

open SimpleWorkerProtoHandler (ErrorCode)

-- The scheduler and the read handlers of its sessions, each under the number of
-- its session. `delivered` is no part of the program; it is the record of the
-- payloads that reached the scheduler, with the sessions they came from.
structure Sessions where
  scheduler : Scheduler
  readers : List SimpleWorkerProtoHandler := []
  delivered : List (Nat × Bytes) := []

-- What completes on the thread of the connection manager. A payload reads the
-- clock anew, so that a read comes with an environment for each of them. What
-- waits in the write queues is not kept: a write may fail at any time.
inductive SessionEvent
  | accept (env : Env) (result : AcceptResult) (draws : List Identifier) (memory : Nat → UInt8)
  | receive (envs : Nat → Env) (session : Nat) (read : Bytes)
  | receiveError (env : Env) (session : Nat) (ec : ErrorCode)
  | writeError (env : Env) (session : Nat) (ec : ErrorCode)
  | tick (env : Env) (result : TimerResult)
  | updateRoomLists (rooms : List RoomId)
  | configure (config : Config)
  | loadAuthCode

namespace Sessions

-- The handler bound to worker_session::disconnect, with the callback.
def disconnectSession (env : Env) (session : Nat) (s : Sessions) : Sessions :=
  match s.scheduler.manager.sessions[session]? with
  | none => s
  | some worker =>
      let (worker, called) := worker.disconnect true
      let scheduler := { s.scheduler with
        manager := { s.scheduler.manager with
          sessions := s.scheduler.manager.sessions.set session worker } }
      { s with
        scheduler := if called then scheduler.handleWorkerDisconnect env worker.identifier else scheduler }

def onAccept (env : Env) (result : AcceptResult) (draws : List Identifier) (memory : Nat → UInt8)
    (s : Sessions) : Sessions :=
  let reader := SimpleWorkerProtoHandler.fresh
    ((List.range s.scheduler.config.worker.readBufferSize).map memory)
  { s with
    scheduler := s.scheduler.onAccept env result draws
    readers :=
      match result, s.scheduler.drawIdentifier draws with
      | .accepted, some _ => s.readers ++ [reader]
      | _, _ => s.readers }

-- The payloads of one read, in order.
def deliver (envs : Nat → Env) (session : Nat) (identifier : Identifier) :
    Nat → List Bytes → Sessions → Sessions
  | _, [], s => s
  | n, payload :: rest, s =>
      deliver envs session identifier (n + 1) rest
        { s with
          scheduler := s.scheduler.handleBuffer (envs n) identifier payload
          delivered := s.delivered ++ [(session, payload)] }

-- Whether the TCP socket of the session is open.
def isOpen (session : Nat) (s : Sessions) : Bool :=
  s.scheduler.manager.sessions[session]?.any WorkerSession.socket

-- on_receive without an error. The next read is started only while the weak
-- pointer still finds the socket.
def onReceive (envs : Nat → Env) (session : Nat) (read : Bytes) (s : Sessions) : Sessions :=
  match s.readers[session]?, s.scheduler.manager.sessions[session]? with
  | some reader, some worker =>
      if reader.socket ∧ worker.socket ∧ read.length ≤ reader.free then
        let s' := s.deliver envs session worker.identifier 0 (reader.payloads read)
        { s' with
          readers := s'.readers.set session
            { reader.onReceive read with
              socket := s'.isOpen session } }
      else s
  | _, _ => s

-- A read of the session is under way.
def reading (session : Nat) (s : Sessions) : Bool :=
  s.readers[session]?.any SimpleWorkerProtoHandler.socket

def onReceiveError (env : Env) (session : Nat) (ec : ErrorCode) (s : Sessions) : Sessions :=
  match s.readers[session]? with
  | none => s
  | some reader =>
      if reader.socket then
        let (reader, closes) := reader.onReceiveError ec
        let s := if closes then s.disconnectSession env session else s
        { s with readers := s.readers.set session reader }
      else s

-- on_written of the write helper, when the write failed.
def onWriteError (env : Env) (session : Nat) (ec : ErrorCode) (s : Sessions) : Sessions :=
  if ec = .operationAborted then s else s.disconnectSession env session

def step (event : SessionEvent) (s : Sessions) : Sessions :=
  match event with
  | .accept env result draws memory => s.onAccept env result draws memory
  | .receive envs session read => s.onReceive envs session read
  | .receiveError env session ec => s.onReceiveError env session ec
  | .writeError env session ec => s.onWriteError env session ec
  | .tick env result => { s with scheduler := s.scheduler.onTimerTick env result }
  | .updateRoomLists rooms => { s with scheduler := s.scheduler.updateRoomLists rooms }
  | .configure config => { s with scheduler := { s.scheduler with config } }
  | .loadAuthCode => { s with scheduler := s.scheduler.loadAuthCode }

def initial (config : Config) : Sessions := { scheduler := Scheduler.initial config }

def run (config : Config) (events : List SessionEvent) : Sessions :=
  Runs.run step (initial config) events

end Sessions

end LiveReceptor.Supervisor

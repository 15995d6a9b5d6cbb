import LiveReceptor.Supervisor.Types

namespace LiveReceptor.Supervisor

open SimpleWorkerProto

-- worker_session::disconnect. The guard returns when there is a socket; the
-- rest is for a session without one, whose `_socket` it dereferences. The flag
-- says whether the disconnect handler is called.
def WorkerSession.disconnect (session : WorkerSession) (callback : Bool) : WorkerSession × Bool :=
  if session.socket then (session, false)
  else ({ session with socket := false }, callback)

namespace Scheduler

def emit (effect : Effect) (s : Scheduler) : Scheduler := { s with trace := s.trace ++ [effect] }

-- load_auth_code fills the 33 bytes of `_auth_code`; a longer string would be
-- written past their end.
def loadAuthCode (s : Scheduler) : Scheduler :=
  let code := s.config.worker.authCode
  { s with authCode := (code ++ List.replicate (authCodeSize + 1) 0).take (authCodeSize + 1) }

-- worker_connection_manager::send_message drops the message when the worker
-- has no socket.
def sendToIdentifier (identifier : Identifier) (packet : Effect) (s : Scheduler) : Scheduler :=
  if s.manager.sockets.HasKey identifier then s.emit packet else s

def sendAssign (identifier : Identifier) (roomId : RoomId) (s : Scheduler) : Scheduler :=
  s.sendToIdentifier identifier (.assign identifier roomId)

def sendUnassign (identifier : Identifier) (roomId : RoomId) (s : Scheduler) : Scheduler :=
  s.sendToIdentifier identifier (.unassign identifier roomId)

-- worker_connection_manager::disconnect_worker, never called with the callback.
def disconnectWorker (identifier : Identifier) (s : Scheduler) : Scheduler :=
  let s := s.emit (.disconnect identifier)
  match s.manager.sockets.find? identifier with
  | none => s
  | some entry =>
      { s with manager := { s.manager with
          sessions := s.manager.sessions.modify entry.session fun session =>
            (session.disconnect false).1
          sockets := s.manager.sockets.erase identifier } }

def clearWorkerTasks (identifier : Identifier) (s : Scheduler) : Scheduler :=
  { s with tasks := s.tasks.filter fun task => task.identifier ≠ identifier }

-- A `worker_status*` is the identifier of the entry it points to: the workers
-- live in nodes that do not move. Once the entry is erased the identifier can
-- still be read there, and writes no longer reach `_workers`.
def derefWorker (worker : Identifier) (s : Scheduler) : Scheduler :=
  if s.workers.HasKey worker then s else s.emit (.staleWorker worker)

def resetWorker (env : Env) (worker : Identifier) (s : Scheduler) : Scheduler :=
  let s := ((s.derefWorker worker).clearWorkerTasks worker).emit (.reset worker)
  { s with workers := s.workers.modify worker fun status =>
      { status with
        initialized := false
        currentConnections := 0
        maxRooms := -1
        allowNewTaskAfter := env.now (.reset worker)
        punished := false } }

def deleteWorker (env : Env) (worker : Identifier) (s : Scheduler) : Scheduler :=
  let s := s.resetWorker env worker
  { s with workers := s.workers.erase worker }.emit (.deleted worker)

def deleteAndDisconnectWorker (env : Env) (worker : Identifier) (s : Scheduler) : Scheduler :=
  (s.deleteWorker env worker).disconnectWorker worker

-- The penalty for a worker, when a task is deleted because of an error.
def WorkerStatus.penalized (now : Time) (penaltyMin : Int) (descRank : Bool) (worker : WorkerStatus) :
    Time :=
  if descRank then
    if !worker.punished then now + minutes penaltyMin
    else worker.allowNewTaskAfter + minutes penaltyMin
  else worker.allowNewTaskAfter

def deleteTask (env : Env) (identifier : Identifier) (roomId : RoomId) (descRank : Bool)
    (s : Scheduler) : Scheduler :=
  if s.tasks.HasKey (identifier, roomId) then
    { s with
      tasks := s.tasks.erase (identifier, roomId)
      workers := s.workers.modify identifier fun worker =>
        { worker with
          allowNewTaskAfter := WorkerStatus.penalized (env.now (.penalty identifier roomId))
            s.config.worker.workerPenaltyMin descRank worker
          currentConnections := worker.currentConnections - 1 }
      rooms := s.rooms.modify roomId fun room =>
        { room with currentConnections := room.currentConnections - 1 } }
  else s

-- The part of assign_task after the insertion.
def addTask (env : Env) (worker : Identifier) (room : RoomId) (s : Scheduler) : Scheduler :=
  let s := { s with tasks := s.tasks.insert ⟨worker, room, env.now .check⟩ }.sendAssign worker room
  { s with
    workers := s.workers.modify worker fun status =>
      { status with
        currentConnections := status.currentConnections + 1
        remainingThisBunch := status.remainingThisBunch - 1 }
    rooms := s.rooms.modify room fun status =>
      { status with currentConnections := status.currentConnections + 1 } }

def assignTask (env : Env) (worker : Identifier) (room : RoomId) (s : Scheduler) : Bool × Scheduler :=
  if s.tasks.HasKey (worker, room) then (false, s) else (true, s.addTask env worker room)

def refreshCounts (s : Scheduler) : Scheduler :=
  { s with
    workers := s.workers.update
      (fun worker => { worker with
        currentConnections := s.tasks.count fun task => task.identifier = worker.identifier })
      fun _ => rfl
    rooms := s.rooms.update
      (fun room => { room with
        currentConnections := s.tasks.count fun task => task.roomId = room.roomId })
      fun _ => rfl }

-- The loop over `_workers`. The iterator that erased its element stays on the
-- slot, so a successor that moved back into it is stepped over (`skip`).
def expireWorkers (env : Env) (threshold : Time) : Bool → List WorkerStatus → Scheduler → Scheduler
  | _, [], s => s
  | true, _ :: rest, s => expireWorkers env threshold false rest s
  | false, worker :: rest, s =>
      if env.now .interval - worker.lastReceived > threshold then
        expireWorkers env threshold (env.shiftedBack worker.identifier) rest
          (s.deleteAndDisconnectWorker env worker.identifier)
      else expireWorkers env threshold false rest s

def expireTasks (env : Env) (threshold : Time) : List RoomTask → Scheduler → Scheduler
  | [], s => s
  | task :: rest, s =>
      if env.now .interval - task.lastReceived < threshold then expireTasks env threshold rest s
      else
        expireTasks env threshold rest
          ((s.deleteTask env task.identifier task.roomId true).sendUnassign task.identifier task.roomId)

def checkWorkerTaskInterval (env : Env) (s : Scheduler) : Scheduler :=
  let threshold := seconds s.config.worker.workerTimeoutSec
  let s := expireWorkers env threshold false (env.workers.arrange s.workers.entries) s
  expireTasks env threshold (env.tasks.arrange s.tasks.entries) s

end Scheduler

end LiveReceptor.Supervisor

import LiveReceptor.Supervisor.WorkerScheduler

namespace LiveReceptor.Supervisor.Scheduler

-- static_cast<int>
def toInt (n : Int) : Int := (Int32.ofInt n).toInt

def calculateMaxWorkersPerRoom (workers : List WorkerStatus) (roomCount : Int) : Int :=
  if roomCount = 0 then 0
  else
    let sum := workers.foldl (fun sum worker => sum + worker.maxRooms.toInt) 0
    toInt (toInt (sum.tdiv roomCount) + 1)

def maxTasksPerRoom (s : Scheduler) : Int :=
  max 1 (max (calculateMaxWorkersPerRoom s.workers.entries (toInt s.rooms.entries.length))
    (toInt s.workers.entries.length))

-- A worker that is not full and not under penalty.
def available (env : Env) (worker : WorkerStatus) : Prop :=
  worker.currentConnections < worker.maxRooms.toInt ∧ worker.allowNewTaskAfter < env.now .check

instance (env : Env) (worker : WorkerStatus) : Decidable (available env worker) :=
  inferInstanceAs (Decidable (_ ∧ _))

def workersAvailable (env : Env) (s : Scheduler) : List Identifier :=
  (env.sortWorkers.arrange ((env.workers.arrange s.workers.entries).filter (available env ·))).map
    WorkerStatus.identifier

-- What collecting a worker writes to it.
def collectWorkers (env : Env) (s : Scheduler) : Scheduler :=
  { s with
    workers := s.workers.update
      (fun worker =>
        if available env worker then
          { worker with
            punished := false
            remainingThisBunch := s.config.worker.maxNewTasksPerBunch }
        else worker)
      fun _ => by split <;> rfl }

-- Takes every task of the room away, then the room itself.
def deleteInactiveRoom (env : Env) (roomId : RoomId) (s : Scheduler) : Scheduler :=
  let tasks := env.tasksByRoom.arrange (s.tasks.entries.filter fun task => task.roomId = roomId)
  let s := tasks.foldl (fun s task =>
    (s.sendUnassign task.identifier task.roomId).deleteTask env task.identifier task.roomId true) s
  { s with rooms := s.rooms.erase roomId }

structure RoomScan where
  state : Scheduler
  roomNeedProc : List RoomStatus := []
  currentMinTasksPerRoom : Int := 2147483647 / 2

-- One turn of the loop over `_rooms`; erase returns the next room.
def RoomScan.visit (env : Env) (scan : RoomScan) (room : RoomStatus) : RoomScan :=
  if room.active then
    { scan with
      roomNeedProc := scan.roomNeedProc ++ [room]
      currentMinTasksPerRoom := min scan.currentMinTasksPerRoom room.currentConnections }
  else { scan with state := scan.state.deleteInactiveRoom env room.roomId }

def collectRooms (env : Env) (s : Scheduler) : RoomScan :=
  (env.rooms.arrange s.rooms.entries).foldl (RoomScan.visit env) { state := s }

-- The condition under which the inner while drops a worker from the list. A
-- pointer without an entry does not occur there.
def dropped (worker : Identifier) (s : Scheduler) : Bool :=
  match s.workers.find? worker with
  | none => true
  | some status =>
      decide (status.currentConnections > status.maxRooms.toInt ∨ status.remainingThisBunch ≤ 0)

-- The walk over `workers_available` for one room: the workers that stay in the
-- list, the state, and whether the walk jumps to `next_room` or falls through
-- to the block that unassigns. `erasing` is the inner while, which jumps when
-- it runs into the end of the list.
def offerRoom (env : Env) (room : RoomId) :
    Bool → List Identifier → Scheduler → List Identifier × Scheduler × Bool
  | erasing, [], s => ([], s, erasing)
  | _, worker :: rest, s =>
      if s.dropped worker then offerRoom env room true rest s
      else
        match s.assignTask env worker room with
        | (true, s) => (worker :: rest, s, true)
        | (false, s) =>
            let (kept, s, nextRoom) := offerRoom env room false rest s
            (worker :: kept, s, nextRoom)

-- Unassigns from the front of the room's tasks while it has too many and the
-- throttling allows it.
def unassignOverkill (env : Env) : List RoomTask → Int → Int → Scheduler → Int × Scheduler
  | [], _, throttling, s => (throttling, s)
  | task :: rest, overkill, throttling, s =>
      if 0 < overkill ∧ 0 < throttling then
        unassignOverkill env rest (overkill - 1) (throttling - 1)
          ((s.sendUnassign task.identifier task.roomId).deleteTask env task.identifier task.roomId false)
      else (throttling, s)

structure AssignPass where
  state : Scheduler
  workersAvailable : List Identifier
  roomDisconnectThrottling : Int := 10

def overkill (maxTasks currentMin : Int) (room : RoomStatus) : Int :=
  max (room.currentConnections - maxTasks) (room.currentConnections - currentMin - 1)

def AssignPass.rebalance (env : Env) (maxTasks currentMin : Int) (room : RoomStatus)
    (pass : AssignPass) : AssignPass :=
  let s := pass.state
  let surplus := overkill maxTasks currentMin room
  if 0 < surplus ∧ 0 < pass.roomDisconnectThrottling then
    let tasks := env.tasksByRoom.arrange (s.tasks.entries.filter fun task => task.roomId = room.roomId)
    let (throttling, s) := unassignOverkill env tasks surplus pass.roomDisconnectThrottling s
    { pass with state := s, roomDisconnectThrottling := throttling }
  else pass

-- One turn of the loop over `room_need_proc`. The rooms in it are in `_rooms`.
def AssignPass.processRoom (env : Env) (maxTasks currentMin : Int) (pass : AssignPass)
    (roomId : RoomId) : AssignPass :=
  match pass.state.rooms.find? roomId with
  | none => pass
  | some room =>
      if maxTasks > room.currentConnections then
        let (kept, s, nextRoom) := offerRoom env roomId false pass.workersAvailable pass.state
        let pass := { pass with state := s, workersAvailable := kept }
        if nextRoom then pass else pass.rebalance env maxTasks currentMin room
      else pass.rebalance env maxTasks currentMin room

def throttled (env : Env) (s : Scheduler) : Prop :=
  env.now .check - s.lastChecked < milliseconds s.config.worker.minCheckIntervalMsec

instance (env : Env) (s : Scheduler) : Decidable (throttled env s) :=
  inferInstanceAs (Decidable (_ < _))

-- The pass up to the point where the rooms are looked at.
def refreshed (env : Env) (s : Scheduler) : Scheduler :=
  let s := { s with lastChecked := env.now .check }.emit (.checked (env.now .check))
  (s.checkWorkerTaskInterval env).refreshCounts

-- The state with which the loop over `_rooms` starts.
def collected (env : Env) (s : Scheduler) : Scheduler :=
  let s := s.refreshed env
  (s.collectWorkers env).emit (.diagnostics s.maxTasksPerRoom)

def roomScan (env : Env) (s : Scheduler) : RoomScan := (s.collected env).collectRooms env

def roomNeedProc (env : Env) (s : Scheduler) : List RoomId :=
  (env.sortRooms.arrange (s.roomScan env).roomNeedProc).map RoomStatus.roomId

def assignStart (env : Env) (s : Scheduler) : AssignPass :=
  { state := (s.roomScan env).state, workersAvailable := (s.refreshed env).workersAvailable env }

def processRooms (env : Env) (s : Scheduler) (rooms : List RoomId) : AssignPass :=
  rooms.foldl
    (AssignPass.processRoom env (s.refreshed env).maxTasksPerRoom
      (s.roomScan env).currentMinTasksPerRoom)
    (s.assignStart env)

def checkAllStates (env : Env) (s : Scheduler) : Scheduler :=
  if throttled env s then s else (s.processRooms env (s.roomNeedProc env)).state

end LiveReceptor.Supervisor.Scheduler

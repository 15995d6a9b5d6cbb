import LiveReceptor.Library.Keyed
import LiveReceptor.Shared.SimpleWorkerProto

namespace LiveReceptor.Supervisor

abbrev Identifier := UInt64
abbrev RoomId := Int32
abbrev Checksum := Int32

-- system_clock counts nanoseconds.
abbrev Time := Int

def seconds (n : Int) : Time := n * 1000000000
def milliseconds (n : Int) : Time := n * 1000000
def minutes (n : Int) : Time := n * 60000000000

structure ConfigWorker where
  authCode : Bytes
  workerTimeoutSec : Int := 40
  minCheckIntervalMsec : Int := 2000
  workerPenaltyMin : Int := 1
  readBufferSize : Nat := 128 * 1024
  maxNewTasksPerBunch : Int := 4

structure ConfigMessage where
  messageTtlSec : Int := 30
  minIntervalPopularitySec : Int := 20

structure Config where
  worker : ConfigWorker
  message : ConfigMessage := {}

structure RoomTask where
  identifier : Identifier
  roomId : RoomId
  lastReceived : Time
  deriving DecidableEq, Repr

def RoomTask.key (task : RoomTask) : Identifier × RoomId := (task.identifier, task.roomId)

structure WorkerStatus where
  identifier : Identifier
  lastReceived : Time
  initialized : Bool := false
  maxRooms : Int32 := -1
  currentConnections : Int := 0
  remainingThisBunch : Int := 0
  allowNewTaskAfter : Time := 0
  punished : Bool := false
  deriving DecidableEq, Repr

structure RoomStatus where
  roomId : RoomId
  active : Bool := true
  lastEmptyCrcReceived : Time := 0
  currentConnections : Int := 0
  deriving DecidableEq, Repr

-- compare_worker: more free places first.
def compareWorker (lhs rhs : WorkerStatus) : Prop :=
  lhs.maxRooms.toInt - lhs.currentConnections > rhs.maxRooms.toInt - rhs.currentConnections

def roomStatusLessTasks (i j : RoomStatus) : Prop := i.currentConnections < j.currentConnections

-- A session object. `socket` says whether `_socket` is still set, and with it
-- whether the TCP socket is open: the session closes it just before letting go.
structure WorkerSession where
  identifier : Identifier
  socket : Bool := true
  deriving DecidableEq, Repr

-- An entry of `_sockets`: the session is the number of its object.
structure SocketEntry where
  identifier : Identifier
  session : Nat
  deriving DecidableEq, Repr

-- Session objects keep themselves alive through their handlers, so none of
-- them ever leaves `sessions`. The two counts are the asynchronous operations
-- that the manager has started and that have not completed.
structure WorkerConnectionManager where
  sessions : List WorkerSession := []
  sockets : Keyed SocketEntry.identifier := ∅
  pendingAccepts : Nat := 1
  pendingWaits : Nat := 1

-- What the scheduler is told and what it does, as far as anybody else can see.
inductive Effect
  | connected (identifier : Identifier)
  | received (identifier : Identifier) (payload authCode : Bytes)
  | reset (identifier : Identifier)
  | deleted (identifier : Identifier)
  | disconnect (identifier : Identifier)
  | staleWorker (identifier : Identifier)
  | checked (now : Time)
  | diagnostics (maxTasksPerRoom : Int)
  | assign (identifier : Identifier) (roomId : RoomId)
  | unassign (identifier : Identifier) (roomId : RoomId)
  | data (identifier : Identifier) (roomId : RoomId) (checksum : Checksum) (routingKey payload : Bytes)
  deriving DecidableEq, Repr

-- scheduler_session with its connection manager. `trace` is no part of the
-- program; it is the record of the effects, newest last.
structure Scheduler where
  config : Config
  tasks : Keyed RoomTask.key := ∅
  rooms : Keyed RoomStatus.roomId := ∅
  workers : Keyed WorkerStatus.identifier := ∅
  manager : WorkerConnectionManager := {}
  lastChecked : Time := 0
  authCode : Bytes
  trace : List Effect := []

-- The places where the clock is read. Nothing says that it never steps back.
inductive ClockRead
  | newWorker
  | message
  | reset (identifier : Identifier)
  | check
  | interval
  | penalty (identifier : Identifier) (roomId : RoomId)
  | checkAndAdd
  | checkExpire
  deriving DecidableEq, Repr

-- Everything an event leaves to the outside: the clock, the orders in which
-- the hashed containers yield their elements, and the two std::sort calls.
-- `shiftedBack` says whether erasing a worker moves its successor in the table
-- back into the freed slot.
structure Env where
  now : ClockRead → Time
  workers : Arrangement WorkerStatus
  rooms : Arrangement RoomStatus
  tasks : Arrangement RoomTask
  tasksByRoom : Arrangement RoomTask
  shiftedBack : Identifier → Bool
  sortWorkers : Sorter compareWorker
  sortRooms : Sorter roomStatusLessTasks

-- Every clock read gives the same time, and every order is that of insertion.
def Env.at (time : Time) : Env where
  now _ := time
  workers := default
  rooms := default
  tasks := default
  tasksByRoom := default
  shiftedBack _ := false
  sortWorkers :=
    { toArrangement := (Sorter.insertion fun worker : WorkerStatus =>
        worker.currentConnections - worker.maxRooms.toInt).toArrangement
      sorted := fun l => ((Sorter.insertion fun worker : WorkerStatus =>
        worker.currentConnections - worker.maxRooms.toInt).sorted l).imp fun h => by
          unfold compareWorker
          omega }
  sortRooms := Sorter.insertion RoomStatus.currentConnections

end LiveReceptor.Supervisor

import LiveReceptor.Supervisor.CheckAllStates
import LiveReceptor.Library.Runs

namespace LiveReceptor.Supervisor

open SimpleWorkerProto

-- The four bytes behind the op code: the room, or the limit of a ready worker.
def roomIdOf (payload : Bytes) : Int32 := (networkToHostLong (payload.drop 1)).toInt32

-- An int in the byte order of a little-endian host.
def loadInt : Bytes → Int32
  | b₀ :: b₁ :: b₂ :: b₃ :: _ =>
      (UInt32.ofNat (b₀.toNat + b₁.toNat * 256 + b₂.toNat * 65536 + b₃.toNat * 16777216)).toInt32
  | _ => 0

-- Whether std::strncmp returns 0.
def strncmpEqual : Nat → Bytes → Bytes → Bool
  | 0, _, _ => true
  | n + 1, a :: as, b :: bs => a == b && (a == 0 || strncmpEqual n as bs)
  | _ + 1, _, _ => false

def isReady (payload : Bytes) : Prop :=
  roomFailedPayloadLength ≤ payload.length ∧ payload.head? = some workerReadyCode

def isFailed (payload : Bytes) : Prop :=
  roomFailedPayloadLength ≤ payload.length ∧ payload.head? = some roomFailedCode

instance (payload : Bytes) : Decidable (isReady payload) := inferInstanceAs (Decidable (_ ∧ _))
instance (payload : Bytes) : Decidable (isFailed payload) := inferInstanceAs (Decidable (_ ∧ _))

-- The length and the auth code of a WORKER_READY are right.
def authenticated (authCode payload : Bytes) : Prop :=
  workerReadyPayloadLength ≤ payload.length ∧
    strncmpEqual authCodeSize authCode (payload.drop 5) = true

instance (authCode payload : Bytes) : Decidable (authenticated authCode payload) :=
  inferInstanceAs (Decidable (_ ∧ _))

def checksumOf (payload : Bytes) : Checksum := loadInt (payload.drop 5)

def routingKeyOf (payload : Bytes) : Bytes :=
  ((payload.drop 9).take routingKeyMaxSize).takeWhile (· ≠ 0)

namespace Scheduler

def handleNewWorker (env : Env) (identifier : Identifier) (s : Scheduler) : Scheduler :=
  let s := s.emit (.connected identifier)
  if s.workers.HasKey identifier then
    let s := s.resetWorker env identifier
    { s with workers := s.workers.modify identifier fun worker =>
        { worker with lastReceived := env.now .newWorker } }
  else
    { s with workers := s.workers.insert { identifier, lastReceived := env.now .newWorker } }

def rejectWorker (env : Env) (identifier : Identifier) (s : Scheduler) : Scheduler :=
  (s.deleteWorker env identifier).disconnectWorker identifier

def readyWorker (env : Env) (identifier : Identifier) (payload : Bytes) (s : Scheduler) : Scheduler :=
  let s := s.resetWorker env identifier
  { s with workers := s.workers.modify identifier fun worker =>
    { worker with initialized := true, maxRooms := roomIdOf payload } }

-- The WORKER_READY branch. After a failed authentication it goes on with a
-- worker that is no longer there.
def handleReady (env : Env) (identifier : Identifier) (payload : Bytes) (s : Scheduler) : Scheduler :=
  let s := if authenticated s.authCode payload then s else s.rejectWorker env identifier
  (s.readyWorker env identifier payload).checkAllStates env

def touchWorker (env : Env) (identifier : Identifier) (s : Scheduler) : Scheduler :=
  { s with workers := s.workers.modify identifier fun worker =>
    { worker with lastReceived := env.now .message } }

def touchTask (env : Env) (identifier : Identifier) (roomId : RoomId) (s : Scheduler) : Scheduler :=
  { s with tasks := s.tasks.modify (identifier, roomId) fun task =>
    { task with lastReceived := env.now .message } }

def touchRoom (env : Env) (roomId : RoomId) (s : Scheduler) : Scheduler :=
  { s with rooms := s.rooms.modify roomId fun room =>
    { room with lastEmptyCrcReceived := env.now .message } }

-- A message without a checksum passes once in the popularity interval.
def passesInterval (env : Env) (room : RoomStatus) (s : Scheduler) : Prop :=
  ¬env.now .message - room.lastEmptyCrcReceived < seconds s.config.message.minIntervalPopularitySec

instance (env : Env) (room : RoomStatus) (s : Scheduler) : Decidable (passesInterval env room s) :=
  inferInstanceAs (Decidable (¬_))

def callDataHandler (identifier : Identifier) (roomId : RoomId) (payload : Bytes) (s : Scheduler) :
    Scheduler :=
  s.emit (.data identifier roomId (checksumOf payload) (routingKeyOf payload)
    (payload.drop workerDataPayloadHeaderLength))

def handleData (env : Env) (identifier : Identifier) (payload : Bytes) (s : Scheduler) : Scheduler :=
  let roomId := roomIdOf payload
  if payload.length < workerDataPayloadHeaderLength then s
  else if s.tasks.HasKey (identifier, roomId) then
    let s := s.touchTask env identifier roomId
    if checksumOf payload = 0 then
      match s.rooms.find? roomId with
      | none => s
      | some room =>
          if passesInterval env room s then
            (s.touchRoom env roomId).callDataHandler identifier roomId payload
          else s
    else s.callDataHandler identifier roomId payload
  else s

def handleBuffer (env : Env) (identifier : Identifier) (payload : Bytes) (s : Scheduler) : Scheduler :=
  let s := s.emit (.received identifier payload s.authCode)
  match payload with
  | opCode :: _ =>
      if payload.length < roomFailedPayloadLength then s
      else if s.workers.HasKey identifier then
        let s := s.touchWorker env identifier
        if opCode = workerReadyCode then s.handleReady env identifier payload
        else if opCode = roomFailedCode then
          (s.deleteTask env identifier (roomIdOf payload) true).checkAllStates env
        else if opCode = workerDataCode then s.handleData env identifier payload
        else s
      else (s.clearWorkerTasks identifier).disconnectWorker identifier
  | [] => s

def handleWorkerDisconnect (env : Env) (identifier : Identifier) (s : Scheduler) : Scheduler :=
  let s := s.clearWorkerTasks identifier
  if s.workers.HasKey identifier then s.deleteWorker env identifier else s

def markRooms (rooms : List RoomId) (s : Scheduler) : Scheduler :=
  { s with
    rooms := s.rooms.update
      (fun room => if room.roomId ∈ rooms then room else { room with active := false })
      fun _ => by split <;> rfl }

-- The closure that update_room_lists posts.
def updateRoomLists (rooms : List RoomId) (s : Scheduler) : Scheduler :=
  let s := s.markRooms rooms
  { s with rooms := rooms.foldl (fun known roomId => known.insert { roomId }) s.rooms }

end Scheduler

inductive AcceptResult
  | canceled
  | failed
  | endpointGone
  | accepted
  deriving DecidableEq, Repr

inductive TimerResult
  | aborted
  | failed
  | expired
  deriving DecidableEq, Repr

namespace Scheduler

def startAccept (s : Scheduler) : Scheduler :=
  { s with manager := { s.manager with pendingAccepts := s.manager.pendingAccepts + 1 } }

def endAccept (s : Scheduler) : Scheduler :=
  { s with manager := { s.manager with pendingAccepts := s.manager.pendingAccepts - 1 } }

-- Draws until the identifier is free; `none` while all the draws are taken.
def drawIdentifier (draws : List Identifier) (s : Scheduler) : Option Identifier :=
  draws.find? fun identifier => ¬s.manager.sockets.HasKey identifier

def addSession (identifier : Identifier) (s : Scheduler) : Scheduler :=
  { s with manager := { s.manager with
      sessions := s.manager.sessions ++ [{ identifier }]
      sockets := s.manager.sockets.insert ⟨identifier, s.manager.sessions.length⟩ } }

-- on_accept. When the peer is gone already it returns without accepting again.
def onAccept (env : Env) (result : AcceptResult) (draws : List Identifier) (s : Scheduler) : Scheduler :=
  match result, s.drawIdentifier draws with
  | .canceled, _ => s.endAccept
  | .failed, _ => s.endAccept.startAccept
  | _, none => s
  | .endpointGone, some _ => s.endAccept
  | .accepted, some identifier =>
      ((s.endAccept.addSession identifier).handleNewWorker env identifier).startAccept

def endWait (s : Scheduler) : Scheduler :=
  { s with manager := { s.manager with pendingWaits := s.manager.pendingWaits - 1 } }

def rescheduleTimer (s : Scheduler) : Scheduler :=
  { s with manager := { s.manager with pendingWaits := s.manager.pendingWaits + 1 } }

-- on_timer_tick. The tick handler of the connection manager is
-- check_all_states; the one handed to the scheduler is called nowhere.
def onTimerTick (env : Env) (result : TimerResult) (s : Scheduler) : Scheduler :=
  match result with
  | .aborted => s.endWait
  | .failed | .expired => (s.endWait.checkAllStates env).rescheduleTimer

end Scheduler

-- What may happen to the scheduler, in any order: its four handlers and the
-- closures posted to its thread. The identifier and the bytes of a payload are
-- arbitrary.
inductive Event
  | accept (result : AcceptResult) (draws : List Identifier)
  | payload (identifier : Identifier) (payload : Bytes)
  | workerDisconnect (identifier : Identifier)
  | tick (result : TimerResult)
  | updateRoomLists (rooms : List RoomId)
  | configure (config : Config)
  | loadAuthCode

structure Input where
  env : Env
  event : Event

def Input.told (input : Input) : Option (List RoomId) :=
  match input.event with
  | .updateRoomLists rooms => some rooms
  | _ => none

namespace Scheduler

def initial (config : Config) : Scheduler := { config, authCode := [] : Scheduler }.loadAuthCode

def step (input : Input) (s : Scheduler) : Scheduler :=
  match input.event with
  | .accept result draws => s.onAccept input.env result draws
  | .payload identifier payload => s.handleBuffer input.env identifier payload
  | .workerDisconnect identifier => s.handleWorkerDisconnect input.env identifier
  | .tick result => s.onTimerTick input.env result
  | .updateRoomLists rooms => s.updateRoomLists rooms
  | .configure config => { s with config }
  | .loadAuthCode => s.loadAuthCode

def run (config : Config) (inputs : List Input) : Scheduler := Runs.run step (initial config) inputs

end Scheduler

-- For runs on fixed inputs: a configuration that leaves the defaults, and the
-- WORKER_READY that it accepts.
def plainConfig : Config := { worker := { authCode := [65] } }

def plainReady (maxRooms : UInt8) : Bytes :=
  [workerReadyCode, 0, 0, 0, maxRooms] ++ [65] ++ List.replicate 31 0

end LiveReceptor.Supervisor

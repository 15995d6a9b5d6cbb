import LiveReceptor.Worker.BilibiliConnectionManager
import LiveReceptor.Worker.QuietConnections

namespace LiveReceptor.Worker

-- An object of bilibili_connection_websocket, with what its handlers see.
structure RoomConnection where
  roomId : RoomId
  connection : ConnectionObject
  deriving DecidableEq, Repr

inductive ManagerCall
  | openConnection (roomId : RoomId)
  | roomFailed (roomId : RoomId)
  deriving DecidableEq, Repr

-- The manager when its handlers are run one at a time. `log` is no part of the
-- program; it is the record of the calls, newest last.
structure SerialConnectionManager where
  objects : List RoomConnection := []
  connections : Keyed ConnectionEntry.roomId := ∅
  log : List ManagerCall := []

-- `parsed` says whether the config URL of the room can be parsed.
inductive ManagerEvent
  | openConnection (roomId : RoomId) (parsed : Bool)
  | closeConnection (roomId : RoomId)
  | closeAllConnections
  | complete (connection n : Nat) (code : CompletionCode) (malformed : Bool)
  | destroy (connection : Nat)
  deriving DecidableEq, Repr

-- begin() of `_connections`: the first entry of whatever order it is laid out in.
structure Beginning where
  first : Keyed ConnectionEntry.roomId → Option ConnectionEntry
  mem : ∀ connections entry, first connections = some entry → entry ∈ connections
  empty : ∀ connections, first connections = none → connections = ∅

namespace SerialConnectionManager

def called (call : ManagerCall) (m : SerialConnectionManager) : SerialConnectionManager :=
  { m with log := m.log ++ [call] }

def onRoomClosed (roomId : RoomId) (m : SerialConnectionManager) : SerialConnectionManager :=
  { m with connections := m.connections.erase roomId }

-- Of the deeds of a connection the manager sees the calls of its handlers.
def onDeed (roomId : RoomId) (m : SerialConnectionManager) (deed : Deed) : SerialConnectionManager :=
  match deed with
  | .roomFailed => m.called (.roomFailed roomId)
  | .roomClosed => m.onRoomClosed roomId
  | _ => m

-- A handler of an object is run, from one end to the other. It does not look at
-- the table, so that the calls it has added to its life can follow it.
def runHandler (n : Nat) (handler : ConnectionObject → ConnectionObject) (m : SerialConnectionManager) :
    SerialConnectionManager :=
  match m.objects[n]? with
  | none => m
  | some object =>
      let connection := handler object.connection
      let deeds := connection.life.drop object.connection.life.length
      deeds.foldl (onDeed object.roomId) { m with objects := m.objects.set n { object with connection } }

def close (n : Nat) (m : SerialConnectionManager) : SerialConnectionManager :=
  m.runHandler n (ConnectionObject.close .websocket false)

def dropClosed (roomId : RoomId) (m : SerialConnectionManager) : SerialConnectionManager :=
  match m.connections.find? roomId with
  | none => m
  | some entry =>
      if m.objects[entry.connection]?.any fun object => object.connection.closed then
        (m.close entry.connection).onRoomClosed roomId
      else m

def addObject (object : RoomConnection) (m : SerialConnectionManager) : SerialConnectionManager :=
  { m with objects := m.objects ++ [object] }

def openConnection (roomId : RoomId) (parsed : Bool) (m : SerialConnectionManager) :
    SerialConnectionManager :=
  let m := (m.called (.openConnection roomId)).dropClosed roomId
  let connection := m.objects.length
  if m.connections.HasKey roomId then
    (m.addObject ⟨roomId, {}⟩).close connection
  else
    { m.addObject ⟨roomId, .initial .websocket parsed⟩ with
      connections := m.connections.insert ⟨roomId, connection⟩ }

def closeConnection (roomId : RoomId) (m : SerialConnectionManager) : SerialConnectionManager :=
  match m.connections.find? roomId with
  | none => m
  | some entry => m.close entry.connection

-- `none` when the loop takes more turns than the fuel.
def closeAllLoop (beginning : Beginning) : Nat → SerialConnectionManager → Option SerialConnectionManager
  | 0, _ => none
  | fuel + 1, m =>
      match beginning.first m.connections with
      | none => some m
      | some entry => closeAllLoop beginning fuel (m.close entry.connection)

-- A turn for each entry, and the one that finds the table empty.
def closeAllConnections (beginning : Beginning) (m : SerialConnectionManager) : SerialConnectionManager :=
  (closeAllLoop beginning (m.connections.entries.length + 1) m).getD m

def complete (connection n : Nat) (code : CompletionCode) (malformed : Bool) (m : SerialConnectionManager) :
    SerialConnectionManager :=
  m.runHandler connection (ConnectionObject.complete .websocket n code malformed)

-- The references to an object are its entry and its pending operations.
def destroy (connection : Nat) (m : SerialConnectionManager) : SerialConnectionManager :=
  if m.connections.entries.any (·.connection == connection) ∨
      m.objects[connection]?.any (fun object => object.connection.pending ≠ []) then m
  else m.close connection

def step (beginning : Beginning) (event : ManagerEvent) (m : SerialConnectionManager) :
    SerialConnectionManager :=
  match event with
  | .openConnection roomId parsed => m.openConnection roomId parsed
  | .closeConnection roomId => m.closeConnection roomId
  | .closeAllConnections => m.closeAllConnections beginning
  | .complete connection n code malformed => m.complete connection n code malformed
  | .destroy connection => m.destroy connection

def run (beginning : Beginning) (events : List ManagerEvent) : SerialConnectionManager :=
  Runs.run (step beginning) {} events

end SerialConnectionManager

end LiveReceptor.Worker

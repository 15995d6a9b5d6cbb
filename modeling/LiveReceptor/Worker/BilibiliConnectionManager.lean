import LiveReceptor.Library.Keyed
import LiveReceptor.Library.Runs
import LiveReceptor.Shared.SimpleWorkerProto

namespace LiveReceptor.Worker

abbrev RoomId := Int32

-- bilibili_connection_websocket. An object that is destroyed stays behind as a
-- closed one.
structure BilibiliConnection where
  roomId : RoomId
  initialized : Bool := false
  closed : Bool := false
  deriving DecidableEq, Repr

def BilibiliConnection.live (object : BilibiliConnection) : Bool :=
  object.initialized && !object.closed

-- An entry of `_connections`: the connection is the number of its object.
structure ConnectionEntry where
  roomId : RoomId
  connection : Nat
  deriving DecidableEq, Repr

-- A close() on a pool thread that has set `_closed`; its next call is that of
-- the failure handler if it failed, and then on_room_closed.
structure Closing where
  roomId : RoomId
  connection : Nat
  unreported : Bool
  deriving DecidableEq, Repr

-- `failures` is no part of the program; it is the record of the calls of the
-- room failed handler, newest last.
structure BilibiliConnectionManager where
  objects : List BilibiliConnection := []
  connections : Keyed ConnectionEntry.roomId := ∅
  closing : List Closing := []
  failures : List RoomId := []

-- The pool threads take the steps of a close() one by one. The checks of
-- `_closed` and the write to it are one step.
inductive ConnectionEvent
  | openConnection (roomId : RoomId)
  | closeConnection (roomId : RoomId)
  | beginClose (connection : Nat) (failed : Bool)
  | reportFailure (n : Nat)
  | endClose (n : Nat)
  | destroy (connection : Nat)
  | failInit (connection : Nat)
  deriving DecidableEq, Repr

namespace BilibiliConnectionManager

def onRoomFailed (roomId : RoomId) (m : BilibiliConnectionManager) : BilibiliConnectionManager :=
  { m with failures := m.failures ++ [roomId] }

def onRoomClosed (roomId : RoomId) (m : BilibiliConnectionManager) : BilibiliConnectionManager :=
  { m with connections := m.connections.erase roomId }

def setClosed (connection : Nat) (m : BilibiliConnectionManager) : BilibiliConnectionManager :=
  { m with objects := m.objects.modify connection fun object => { object with closed := true } }

-- close(false) from one end to the other, as the thread that holds the mutex
-- runs it.
def close (connection : Nat) (m : BilibiliConnectionManager) : BilibiliConnectionManager :=
  match m.objects[connection]? with
  | none => m
  | some object =>
      if object.closed then m else (m.setClosed connection).onRoomClosed object.roomId

-- An entry whose connection is closed makes room for the new one.
def dropClosed (roomId : RoomId) (m : BilibiliConnectionManager) : BilibiliConnectionManager :=
  match m.connections.find? roomId with
  | none => m
  | some entry =>
      if m.objects[entry.connection]?.any BilibiliConnection.closed then
        (m.close entry.connection).onRoomClosed roomId
      else m

def addObject (object : BilibiliConnection) (m : BilibiliConnectionManager) :
    BilibiliConnectionManager :=
  { m with objects := m.objects ++ [object] }

-- The object is built before emplace looks at the key. When the key is taken
-- it is destroyed, and its destructor closes it.
def openConnection (roomId : RoomId) (m : BilibiliConnectionManager) : BilibiliConnectionManager :=
  let m := m.dropClosed roomId
  let connection := m.objects.length
  if m.connections.HasKey roomId then
    (m.addObject { roomId }).close connection
  else
    { m.addObject { roomId, initialized := true } with
      connections := m.connections.insert ⟨roomId, connection⟩ }

def closeConnection (roomId : RoomId) (m : BilibiliConnectionManager) : BilibiliConnectionManager :=
  match m.connections.find? roomId with
  | none => m
  | some entry => m.close entry.connection

-- The handlers of a connection run after its init().
def beginClose (connection : Nat) (failed : Bool) (m : BilibiliConnectionManager) :
    BilibiliConnectionManager :=
  match m.objects[connection]? with
  | none => m
  | some object =>
      if object.live then
        { m.setClosed connection with
          closing := m.closing ++ [{ roomId := object.roomId, connection, unreported := failed }] }
      else m

def reportFailure (n : Nat) (m : BilibiliConnectionManager) : BilibiliConnectionManager :=
  match m.closing[n]? with
  | none => m
  | some task =>
      if task.unreported then
        { m with closing := m.closing.set n { task with unreported := false } }.onRoomFailed task.roomId
      else m

def endClose (n : Nat) (m : BilibiliConnectionManager) : BilibiliConnectionManager :=
  match m.closing[n]? with
  | none => m
  | some task =>
      if task.unreported then m
      else { m with closing := m.closing.eraseIdx n }.onRoomClosed task.roomId

-- The last reference to an object goes once it is no entry any more and none of
-- its handlers is running.
def destroy (connection : Nat) (m : BilibiliConnectionManager) : BilibiliConnectionManager :=
  if m.connections.entries.any (·.connection == connection) ∨
      m.closing.any (·.connection == connection) then m
  else m.close connection

-- The failure handler of init, and on_resolved: these do not close.
def failInit (connection : Nat) (m : BilibiliConnectionManager) : BilibiliConnectionManager :=
  match m.objects[connection]? with
  | none => m
  | some object => if object.initialized then m.onRoomFailed object.roomId else m

def step (event : ConnectionEvent) (m : BilibiliConnectionManager) : BilibiliConnectionManager :=
  match event with
  | .openConnection roomId => m.openConnection roomId
  | .closeConnection roomId => m.closeConnection roomId
  | .beginClose connection failed => m.beginClose connection failed
  | .reportFailure n => m.reportFailure n
  | .endClose n => m.endClose n
  | .destroy connection => m.destroy connection
  | .failInit connection => m.failInit connection

def run (events : List ConnectionEvent) : BilibiliConnectionManager := Runs.run step {} events

end BilibiliConnectionManager

open SimpleWorkerProto

-- The operation that on_supervisor_message asks for, if any.
def onSupervisorMessage (msg : Bytes) : Option ConnectionEvent :=
  match msg with
  | opCode :: rest =>
      if msg.length < assignUnassignPayloadLength then none
      else
        let roomId := (networkToHostLong rest).toInt32
        if opCode = assignRoomCode then some (.openConnection roomId)
        else if opCode = unassignRoomCode then some (.closeConnection roomId)
        else none
  | [] => none

end LiveReceptor.Worker

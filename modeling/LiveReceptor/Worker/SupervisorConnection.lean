import LiveReceptor.Shared.SimpleWorkerProtoHandler

namespace LiveReceptor.Worker

open SimpleWorkerProtoHandler (ErrorCode)

-- A write under way: its socket, and how many buffers it takes off the queue.
structure PendingWrite where
  socket : Nat
  bufferCount : Nat
  positive : 0 < bufferCount

-- A closure posted by `write`. It keeps the socket that it has captured alive.
structure PostedWrite where
  socket : Nat
  buf : Bytes

-- supervisor_connection with its read handler and its write helper. Sockets go
-- by the order in which they have become `_socket`; `sockets` says which are
-- open. `readSocket` and `writeSocket` are the weak pointers of the two helpers.
-- `delivered` and `disconnects` are the record of the calls of the buffer
-- handler and of the disconnected handler.
structure SupervisorConnection where
  readyPacket : Bytes
  sockets : List Bool := []
  socket : Option Nat := none
  connecting : Nat := 0
  protoHandler : SimpleWorkerProtoHandler
  readSocket : Option Nat := none
  writeSocket : Option Nat := none
  writeQueue : List Bytes := []
  reads : List Nat := []
  writes : List PendingWrite := []
  posted : List PostedWrite := []
  delivered : List Bytes := []
  disconnects : Nat := 0

-- What may complete on the thread of the connection, in any order, and the
-- messages that other threads publish. A completed operation is given by its
-- place among those under way.
inductive SupervisorEvent
  | retryTimerTick (ec : Option ErrorCode)
  | resolveFailed
  | connected (ec : Option ErrorCode)
  | publish (msg : Bytes)
  | runPosted
  | received (n : Nat) (result : Except ErrorCode Bytes)
  | written (n : Nat) (ec : Option ErrorCode)

namespace SupervisorConnection

-- lock() of a weak pointer.
def lock (weak : Option Nat) (s : SupervisorConnection) : Option Nat :=
  weak.filter fun socket => s.socket = some socket || s.posted.any fun task => task.socket = socket

def forceClose (s : SupervisorConnection) : SupervisorConnection :=
  match s.socket with
  | none => s
  | some socket => { s with sockets := s.sockets.set socket false, socket := none }

-- The calls of cancel leave nothing behind but completions with an error, and
-- these may come at any time.
def startAsyncRead (s : SupervisorConnection) : SupervisorConnection :=
  match s.lock s.readSocket with
  | none => s
  | some socket => { s with reads := s.reads ++ [socket] }

def resetProtoHandler (socket : Nat) (s : SupervisorConnection) : SupervisorConnection :=
  { s with readSocket := some socket, protoHandler := { s.protoHandler with socket := true } }.startAsyncRead

def deleteFirstNBuffers (n : Nat) (s : SupervisorConnection) : SupervisorConnection :=
  { s with writeQueue := s.writeQueue.drop (min n s.writeQueue.length) }

def resetWriteHelper (socket : Nat) (s : SupervisorConnection) : SupervisorConnection :=
  { s with writeSocket := some socket }.deleteFirstNBuffers s.writeQueue.length

def startAsyncWrite (s : SupervisorConnection) : SupervisorConnection :=
  match s.lock s.writeSocket with
  | none => s
  | some socket =>
      { s with writes := s.writes ++ [⟨socket, max 1 s.writeQueue.length, by omega⟩] }

def write (buf : Bytes) (s : SupervisorConnection) : SupervisorConnection :=
  match s.lock s.writeSocket with
  | none => s
  | some socket => { s with posted := s.posted ++ [⟨socket, buf⟩] }

def publishMsg (msg : Bytes) (s : SupervisorConnection) : SupervisorConnection :=
  if s.socket = none then s else s.write msg

-- The closure that is next.
def runPosted (s : SupervisorConnection) : SupervisorConnection :=
  match s.posted with
  | [] => s
  | task :: rest =>
      let writeInProcess := !s.writeQueue.isEmpty
      let s := { s with writeQueue := s.writeQueue ++ [task.buf] }
      let s := if writeInProcess then s else s.startAsyncWrite
      { s with posted := rest }

def connect (s : SupervisorConnection) : SupervisorConnection :=
  { s.forceClose with connecting := s.connecting + 1 }

-- The timer that it starts may tick at any time.
def onFailed (s : SupervisorConnection) : SupervisorConnection :=
  { s.forceClose with disconnects := s.disconnects + 1 }

def onRetryTimerTick (ec : Option ErrorCode) (s : SupervisorConnection) : SupervisorConnection :=
  if ec = some .operationAborted then s else s.connect

-- on_connected, at the end of an attempt. The connected handler publishes the
-- WORKER_READY.
def onConnected (ec : Option ErrorCode) (s : SupervisorConnection) : SupervisorConnection :=
  match s.connecting, ec with
  | 0, _ => s
  | connecting + 1, some _ => { s with connecting }
  | connecting + 1, none =>
      let s := s.forceClose
      let socket := s.sockets.length
      let s := { s with connecting, sockets := s.sockets ++ [true], socket := some socket }
      ((s.resetProtoHandler socket).resetWriteHelper socket).publishMsg s.readyPacket

def onReceive (result : Except ErrorCode Bytes) (s : SupervisorConnection) : SupervisorConnection :=
  match result with
  | .error ec =>
      let (protoHandler, closes) := s.protoHandler.onReceiveError ec
      let s := if closes then s.onFailed else s
      { s with protoHandler, readSocket := none }
  | .ok read =>
      { s with
        protoHandler := s.protoHandler.onReceive read
        delivered := s.delivered ++ s.protoHandler.payloads read }.startAsyncRead

-- on_written. After an error it goes on with the queue.
def onWritten (ec : Option ErrorCode) (bufferCount : Nat) (s : SupervisorConnection) :
    SupervisorConnection :=
  let s := s.deleteFirstNBuffers bufferCount
  if ec = some .operationAborted then s
  else
    let s := if ec = none then s else s.onFailed
    if s.writeQueue.isEmpty then s else s.startAsyncWrite

def step (event : SupervisorEvent) (s : SupervisorConnection) : SupervisorConnection :=
  match event with
  | .retryTimerTick ec => s.onRetryTimerTick ec
  | .resolveFailed => { s with connecting := s.connecting - 1 }
  | .connected ec => s.onConnected ec
  | .publish msg => s.publishMsg msg
  | .runPosted => s.runPosted
  | .received n result =>
      match s.reads[n]? with
      | none => s
      | some _ => { s with reads := s.reads.eraseIdx n }.onReceive result
  | .written n ec =>
      match s.writes[n]? with
      | none => s
      | some pending => { s with writes := s.writes.eraseIdx n }.onWritten ec pending.bufferCount

def initial (readyPacket memory : Bytes) : SupervisorConnection :=
  { readyPacket, protoHandler := .fresh memory }

def run (readyPacket memory : Bytes) (events : List SupervisorEvent) : SupervisorConnection :=
  Runs.run step (initial readyPacket memory) events

end SupervisorConnection

end LiveReceptor.Worker

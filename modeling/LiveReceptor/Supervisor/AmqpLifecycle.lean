import LiveReceptor.Shared.AsioSocketWriteHelper
import LiveReceptor.Library.Halting

namespace LiveReceptor.Supervisor

-- The socket object of `_socket`, by its number. It is connected unless the attempt
-- to connect has failed or the peer has reset the connection.
structure AmqpSocket where
  number : Nat
  connected : Bool
  deriving DecidableEq, Repr

inductive AmqpExchange
  | topic
  | diagnostics
  deriving DecidableEq, Repr

structure AmqpMessage where
  exchange : AmqpExchange
  routingKey : Bytes
  payload : Bytes
  deriving DecidableEq, Repr

-- amqp_context with its amqp_asio_connection, less the bytes that it reads. The
-- objects of AMQP::Connection and of the sockets are numbered; `receives` are the
-- sockets with a pending async_receive, and `channel` is the connection that the
-- channel has been made for. `declared` and `published` are no part of the program:
-- the connection on which the exchange has been declared since it became ready, and
-- what has been handed to _channel->publish, with the connection of the channel.
structure AmqpClient where
  connection : Option Nat := none
  connections : Nat := 0
  initializing : Bool := false
  socket : Option AmqpSocket := none
  sockets : Nat := 0
  receives : List Nat := []
  heartbeatIntervalSec : Int := 60
  timer : WaitTimer := {}
  reconnectTimer : WaitTimer := {}
  channel : Option Nat := none
  available : Bool := false
  declared : Option Nat := none
  published : List (Nat × AmqpMessage) := []
  deriving DecidableEq, Repr

-- What AMQP::Connection calls while it parses. `sends` are the calls of onData, and
-- whether the send in each of them fails.
inductive AmqpCallback
  | data (fails : Bool)
  | negotiate (interval : UInt16)
  | ready (sends : List Bool)
  | declared
  | error
  | closed
  deriving DecidableEq, Repr

-- What a call of reconnect() meets with: the sends in closing the connection before,
-- whether the name is resolved and an endpoint accepts, and the sends in the
-- constructor of the new connection.
structure ConnectAttempt where
  closing : List Bool := []
  resolves : Bool := true
  connects : Bool := true
  opening : List Bool := []
  deriving DecidableEq, Repr

-- `received` is the completion of the n-th pending receive: an error, or what parse
-- calls. `disconnect` is the destructor of amqp_context, `reset` is the peer's doing.
inductive AmqpClientEvent
  | received (n : Nat) (callbacks : Option (List AmqpCallback))
  | timerTick (completion : WaitEnd) (usable : Bool) (sends : List Bool)
  | reconnectTick (completion : WaitEnd) (attempt : ConnectAttempt)
  | post (message : AmqpMessage) (sends : List Bool)
  | disconnect (sends : List Bool)
  | reset
  deriving DecidableEq, Repr

namespace AmqpClient

def minHeartbeatLenSec : Int := 60

def startReconnectTimer (s : AmqpClient) : AmqpClient := { s with reconnectTimer := s.reconnectTimer.start }

def startHeartbeatTimer (s : AmqpClient) : AmqpClient := { s with timer := s.timer.start }

-- `none` is std::terminate: no handler catches what _socket->shutdown throws on a
-- socket that is not connected.
def closeSocket (active : Bool) (s : AmqpClient) : Option AmqpClient :=
  match s.socket with
  | none => some s
  | some socket =>
      if socket.connected then
        let s := { s with timer := s.timer.cancel, socket := none }
        some (if active then s else s.startReconnectTimer)
      else none

def startAsyncRead (s : AmqpClient) : AmqpClient :=
  match s.socket with
  | none => s
  | some socket => { s with receives := s.receives ++ [socket.number] }

-- The guard of the callbacks.
def disregards (connection : Nat) (s : AmqpClient) : Bool :=
  (s.connection != some connection && !s.initializing) || s.socket.isNone

def onData (connection : Nat) (s : AmqpClient) (fails : Bool) : Option AmqpClient :=
  if s.disregards connection then some s
  else if fails then s.closeSocket false
  else some s

def sendAll (connection : Nat) (sends : List Bool) (s : AmqpClient) : Option AmqpClient :=
  sends.foldlM (onData connection) s

def onError (connection : Nat) (s : AmqpClient) : Option AmqpClient :=
  if s.disregards connection then some s else { s with initializing := false }.closeSocket false

def onClosed (connection : Nat) (s : AmqpClient) : Option AmqpClient :=
  if s.disregards connection then some s else { s with initializing := false }.closeSocket true

def onNegotiate (connection : Nat) (interval : UInt16) (s : AmqpClient) : AmqpClient :=
  if s.disregards connection then s
  else { s with heartbeatIntervalSec := (min (interval.toNat : Int) minHeartbeatLenSec).tdiv 2 }

-- amqp_context::on_ready is called at the end. Declaring the two exchanges sends.
def onReady (connection : Nat) (sends : List Bool) (s : AmqpClient) : Option AmqpClient :=
  let s := { s with initializing := false }.startHeartbeatTimer
  { s with available := false, channel := s.connection, declared := none }.sendAll connection sends

-- The handler for success, which belongs to the channel of this connection.
def onDeclared (connection : Nat) (s : AmqpClient) : AmqpClient :=
  if s.channel = some connection then { s with available := true, declared := some connection } else s

def callback (connection : Nat) (s : AmqpClient) : AmqpCallback → Option AmqpClient
  | .data fails => s.onData connection fails
  | .negotiate interval => some (s.onNegotiate connection interval)
  | .ready sends => s.onReady connection sends
  | .declared => some (s.onDeclared connection)
  | .error => s.onError connection
  | .closed => s.onClosed connection

def closeConnection (sends : List Bool) (s : AmqpClient) : Option AmqpClient :=
  match s.connection with
  | some connection => (s.sendAll connection sends).map fun s => { s with connection := none }
  | none => some s

-- reconnect() from the look at the name on, when there is neither a socket nor a
-- connection.
def connect (attempt : ConnectAttempt) (s : AmqpClient) : Option AmqpClient :=
  if !attempt.resolves then some s.startReconnectTimer
  else
    let s := { s with socket := some ⟨s.sockets, attempt.connects⟩, sockets := s.sockets + 1 }
    if !attempt.connects then some s.startReconnectTimer
    else
      let s := { s with initializing := true }
      (s.sendAll s.connections attempt.opening).map fun s =>
        startAsyncRead { s with connection := some s.connections, connections := s.connections + 1 }

def reconnect (attempt : ConnectAttempt) (s : AmqpClient) : Option AmqpClient := do
  let s ← s.closeConnection attempt.closing
  let s ← s.closeSocket true
  s.connect attempt

def onReceived (callbacks : Option (List AmqpCallback)) (s : AmqpClient) : Option AmqpClient :=
  match callbacks with
  | none => s.closeSocket false
  | some callbacks =>
      match s.connection with
      | none => some s
      | some connection => (callbacks.foldlM (callback connection) s).map startAsyncRead

def onTimerTick (aborted usable : Bool) (sends : List Bool) (s : AmqpClient) : Option AmqpClient :=
  if aborted then some s
  else
    match s.connection with
    | some connection =>
        (if usable then s.sendAll connection sends else some s).map startHeartbeatTimer
    | none => some s.startHeartbeatTimer

def onReconnectionTimerTick (aborted : Bool) (attempt : ConnectAttempt) (s : AmqpClient) :
    Option AmqpClient :=
  if aborted then some s else s.reconnect attempt

-- The closure that post_payload and post_diag_payload post. It asks neither whether
-- the connection is usable nor for the socket, without which onData sends nothing. A
-- channel whose connection is deleted does nothing.
def publish (message : AmqpMessage) (sends : List Bool) (s : AmqpClient) : Option AmqpClient :=
  match s.connection, s.channel with
  | some connection, some channel =>
      if s.available ∧ channel = connection then
        { s with published := s.published ++ [(connection, message)] }.sendAll connection sends
      else some s
  | _, _ => some s

def disconnect (sends : List Bool) (s : AmqpClient) : Option AmqpClient :=
  match s.connection with
  | some connection => s.sendAll connection sends
  | none => some s

def step (event : AmqpClientEvent) (s : AmqpClient) : Option AmqpClient :=
  match event with
  | .received n callbacks =>
      if n < s.receives.length then { s with receives := s.receives.eraseIdx n }.onReceived callbacks else some s
  | .timerTick completion usable sends =>
      match s.timer.finish completion with
      | some timer => { s with timer }.onTimerTick completion.aborted usable sends
      | none => some s
  | .reconnectTick completion attempt =>
      match s.reconnectTimer.finish completion with
      | some reconnectTimer => { s with reconnectTimer }.onReconnectionTimerTick completion.aborted attempt
      | none => some s
  | .post message sends => s.publish message sends
  | .disconnect sends => s.disconnect sends
  | .reset => some { s with socket := s.socket.map fun socket => { socket with connected := false } }

-- The first call of reconnect is posted by the constructor of amqp_context.
def run (first : ConnectAttempt) (events : List AmqpClientEvent) : Option AmqpClient :=
  Halting.run step (reconnect first {}) events

end AmqpClient

end LiveReceptor.Supervisor

import LiveReceptor.Shared.SimpleWorkerProto
import LiveReceptor.Library.Runs

namespace LiveReceptor.Supervisor

open SimpleWorkerProto (slice memmove)

-- What AMQP::Connection::parse makes of the bytes it is shown: how many of them
-- it consumed, and whether one of its callbacks (onData, onError, onClosed)
-- closed the socket.
structure ParseOutcome (σ : Type*) where
  consumed : Nat
  state : σ
  closes : Bool := false

-- AMQP::Connection, which belongs to the library.
structure AmqpConnection (σ : Type*) where
  parse : σ → Bytes → ParseOutcome σ
  parse_le : ∀ state data, (parse state data).consumed ≤ data.length

-- The end of the loop in on_received. `consumed` is no part of the program; it
-- is what the calls of parse have consumed, in order.
structure ParseLoop (σ : Type*) where
  ptr : Nat
  remaining : Nat
  state : σ
  closes : Bool
  consumed : Bytes

-- `read` is the read of the connection that is under way, by the place in the
-- buffer where its bytes go: the bytes of a read that is complete may wait for
-- on_received while another handler runs. `consumed` and `received` are no part
-- of the program; they are what has been consumed and received on the connection.
structure AmqpAsioConnection (σ : Type*) where
  connection : Option σ := none
  socket : Bool := false
  readBuffer : Bytes
  bufferLastRemaining : Nat := 0
  read : Option Nat := none
  consumed : Bytes := []
  received : Bytes := []

-- How a call of reconnect() ends: the name is not resolved, no endpoint accepts, or
-- there is a new connection. `sends` is whether its constructor could send.
inductive ReconnectOutcome (σ : Type*)
  | unresolved
  | unconnected
  | connected (state : σ) (sends : Bool)

-- `received` is on_received without an error, `receiveFailed` with one, and
-- `earlierFailed` with one for a read on a socket before. `sendFailed` is a failure
-- to send in onData.
inductive AmqpEvent (σ : Type*)
  | received (read : Bytes)
  | receiveFailed
  | earlierFailed
  | sendFailed
  | reconnect (outcome : ReconnectOutcome σ)

namespace AmqpAsioConnection

variable {σ : Type*}

def readBufferLen : Nat := 4096 * 2

-- The do-while loop, at `ptr` with `remaining` bytes left.
def parseLoop (parser : AmqpConnection σ) (buf : Bytes) (state : σ) (ptr remaining : Nat) :
    ParseLoop σ :=
  let outcome := parser.parse state (slice buf ptr remaining)
  let readLen := outcome.consumed
  if 0 < readLen ∧ 0 < remaining - readLen then
    let rest := parseLoop parser buf outcome.state (ptr + readLen) (remaining - readLen)
    { rest with
      closes := outcome.closes || rest.closes
      consumed := slice buf ptr readLen ++ rest.consumed }
  else
    { ptr := ptr + readLen
      remaining := remaining - readLen
      state := outcome.state
      closes := outcome.closes
      consumed := slice buf ptr readLen }
termination_by remaining
decreasing_by
  rename_i hmore
  exact Nat.sub_lt (Nat.lt_of_lt_of_le hmore.2 (Nat.sub_le _ _)) hmore.1

def closeSocket (s : AmqpAsioConnection σ) : AmqpAsioConnection σ :=
  { s with
    socket := false
    bufferLastRemaining := 0 }

def startAsyncRead (s : AmqpAsioConnection σ) : AmqpAsioConnection σ :=
  if s.socket then { s with read := some s.bufferLastRemaining } else s

-- The buffer once async_receive has written these bytes where they go.
def receivedBuffer (s : AmqpAsioConnection σ) (offset : Nat) (read : Bytes) : Bytes :=
  s.readBuffer.take offset ++ read ++ s.readBuffer.drop (offset + read.length)

-- on_received without an error, once `_connection` is known to be there. It asks
-- neither for the socket nor for the place where the bytes are. A callback on a
-- socket that is closed already does nothing.
def handleReceived (parser : AmqpConnection σ) (offset : Nat) (read : Bytes) (state : σ)
    (s : AmqpAsioConnection σ) : AmqpAsioConnection σ :=
  let buf := s.receivedBuffer offset read
  let result := parseLoop parser buf state 0 (read.length + s.bufferLastRemaining)
  let s := { s with
    connection := some result.state
    readBuffer := buf
    read := none
    consumed := s.consumed ++ result.consumed
    received := s.received ++ read }
  let s := if result.closes && s.socket then s.closeSocket else s
  let s := if 0 < result.remaining then
    { s with
      readBuffer := memmove buf result.ptr result.remaining
      bufferLastRemaining := result.remaining }
  else s
  s.startAsyncRead

-- A read fits in what has been offered for it, from `offset` to the end.
def onReceived (parser : AmqpConnection σ) (read : Bytes) (s : AmqpAsioConnection σ) :
    AmqpAsioConnection σ :=
  match s.read with
  | none => s
  | some offset =>
      if offset + read.length ≤ readBufferLen then
        match s.connection with
        | none => { s with read := none }
        | some state => s.handleReceived parser offset read state
      else s

-- A read that is under way on the socket before is aborted: earlierFailed. One that
-- was complete has been handled by then, as handlers run in the order in which they
-- become ready.
def reconnect (outcome : ReconnectOutcome σ) (s : AmqpAsioConnection σ) : AmqpAsioConnection σ :=
  let s := if s.socket then s.closeSocket else s
  let s := { s with connection := none, socket := false, read := none, consumed := [], received := [] }
  match outcome with
  | .unresolved => s
  | .unconnected => { s with socket := true }
  | .connected state sends =>
      let s := { s with connection := some state, socket := true }
      let s := if sends then s else s.closeSocket
      s.startAsyncRead

def step (parser : AmqpConnection σ) (event : AmqpEvent σ) (s : AmqpAsioConnection σ) :
    AmqpAsioConnection σ :=
  match event with
  | .received read => s.onReceived parser read
  | .receiveFailed => if s.read.isSome then { s with read := none }.closeSocket else s
  | .earlierFailed => s.closeSocket
  | .sendFailed => if s.connection.isSome && s.socket then s.closeSocket else s
  | .reconnect outcome => s.reconnect outcome

-- The allocated memory of a new buffer holds anything.
def initial (memory : Bytes) : AmqpAsioConnection σ := { readBuffer := memory }

end AmqpAsioConnection

end LiveReceptor.Supervisor

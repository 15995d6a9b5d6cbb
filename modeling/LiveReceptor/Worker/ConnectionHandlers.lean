import LiveReceptor.Library.Runs
import LiveReceptor.Library.Since

namespace LiveReceptor.Worker

-- bilibili_connection_websocket and bilibili_connection_plain_tcp.
inductive ConnectionClass
  | websocket
  | plainTcp
  deriving DecidableEq, Repr

-- The asynchronous operations of a connection. Fetching the config is one of
-- them: it ends with one call of on_config_fetched or of the failure handler.
inductive Operation
  | fetchConfig
  | resolve
  | connect
  | sslHandshake
  | handshake
  | read
  | writeJoinRoom
  | waitHeartbeat
  | writeHeartbeat
  deriving DecidableEq, Repr

-- What the handlers tell apart. Of operation_aborted only the value is compared,
-- in whatever category.
inductive CompletionCode
  | success
  | operationAborted
  | websocketClosed
  | endOfFile
  | other
  deriving DecidableEq, Repr

-- What a connection does: it starts operations, calls handle_buffer, uses a
-- `_socket` that is released, sets `_closed`, and calls the two handlers of the
-- manager.
inductive Deed
  | start (operation : Operation)
  | parse
  | dereference
  | close
  | roomFailed
  | roomClosed
  deriving DecidableEq, Repr

-- A connection with its pending operations. The websocket stream is never
-- released. `life` is no part of the program; it is the record of the deeds,
-- newest last.
structure ConnectionObject where
  closed : Bool := false
  socket : Bool := true
  pending : List Operation := []
  life : List Deed := []
  deriving DecidableEq, Repr

namespace ConnectionClass

-- The codes with which on_join_room_sent and on_heartbeat_sent return at once.
def ignored : ConnectionClass → CompletionCode → Bool
  | .websocket, code => code == .operationAborted || code == .websocketClosed
  | .plainTcp, code => code == .operationAborted

-- The same for on_receive.
def ignoredReceiving : ConnectionClass → CompletionCode → Bool
  | .websocket, code => code == .operationAborted || code == .websocketClosed || code == .endOfFile
  | .plainTcp, code => code == .operationAborted

def releasesSocket : ConnectionClass → Bool
  | .websocket => false
  | .plainTcp => true

end ConnectionClass

namespace ConnectionObject

def did (deed : Deed) (c : ConnectionObject) : ConnectionObject := { c with life := c.life ++ [deed] }

def start (operation : Operation) (c : ConnectionObject) : ConnectionObject :=
  { c.did (.start operation) with pending := c.pending ++ [operation] }

def startOnSocket (operation : Operation) (c : ConnectionObject) : ConnectionObject :=
  if c.socket then c.start operation else c.did .dereference

section Handlers

variable (kind : ConnectionClass)

-- Without a socket the function would return before it tells the manager.
def close (failed : Bool) (c : ConnectionObject) : ConnectionObject :=
  if c.closed then c
  else
    let c := { c.did .close with closed := true }
    if !c.socket then c
    else
      let c := { c with socket := !kind.releasesSocket }
      let c := if failed then c.did .roomFailed else c
      c.did .roomClosed

def rescheduleTimer (c : ConnectionObject) : ConnectionObject := c.start .waitHeartbeat

def startRead (c : ConnectionObject) : ConnectionObject := c.startOnSocket .read

-- on_connected and the handshakes, up to what they do next.
def proceed (next : ConnectionObject → ConnectionObject) (code : CompletionCode) (c : ConnectionObject) :
    ConnectionObject :=
  if code = .success then next c
  else if code = .operationAborted then c
  else c.close kind true

-- The end of the last of them.
def joinRoom (c : ConnectionObject) : ConnectionObject := c.startRead.startOnSocket .writeJoinRoom

def onConfigFetched (c : ConnectionObject) : ConnectionObject := c.start .resolve

-- The failure handler of init.
def onFetchFailed (c : ConnectionObject) : ConnectionObject := c.did .roomFailed

def onResolved (code : CompletionCode) (c : ConnectionObject) : ConnectionObject :=
  if code = .success then c.start .connect
  else if code = .operationAborted then c
  else c.did .roomFailed

def onConnected (code : CompletionCode) (c : ConnectionObject) : ConnectionObject :=
  match kind with
  | .websocket => c.proceed kind (start .sslHandshake) code
  | .plainTcp => c.proceed kind joinRoom code

def onSslHandshake (code : CompletionCode) (c : ConnectionObject) : ConnectionObject :=
  c.proceed kind (start .handshake) code

def onHandshake (code : CompletionCode) (c : ConnectionObject) : ConnectionObject :=
  c.proceed kind joinRoom code

-- After close(true) the handler goes on.
def onJoinRoomSent (code : CompletionCode) (c : ConnectionObject) : ConnectionObject :=
  if code ≠ .success then
    if kind.ignored code then c else (c.close kind true).rescheduleTimer
  else c.rescheduleTimer

def onHeartbeatTick (code : CompletionCode) (c : ConnectionObject) : ConnectionObject :=
  if code ≠ .success then c else (c.startOnSocket .writeHeartbeat).rescheduleTimer

def onHeartbeatSent (code : CompletionCode) (c : ConnectionObject) : ConnectionObject :=
  if code ≠ .success then
    if kind.ignored code then c else c.close kind true
  else c

def handleReceived (malformed : Bool) (c : ConnectionObject) : ConnectionObject :=
  let c := c.did .parse
  if malformed then c.close kind true else c.startRead

-- Here too. `malformed` says whether handle_buffer throws.
def onReceive (code : CompletionCode) (malformed : Bool) (c : ConnectionObject) : ConnectionObject :=
  if code ≠ .success then
    if kind.ignoredReceiving code then c else (c.close kind true).handleReceived kind malformed
  else c.handleReceived kind malformed

def handle (operation : Operation) (code : CompletionCode) (malformed : Bool) (c : ConnectionObject) :
    ConnectionObject :=
  match operation with
  | .fetchConfig => if code = .success then c.onConfigFetched else c.onFetchFailed
  | .resolve => c.onResolved code
  | .connect => c.onConnected kind code
  | .sslHandshake => c.onSslHandshake kind code
  | .handshake => c.onHandshake kind code
  | .read => c.onReceive kind code malformed
  | .writeJoinRoom => c.onJoinRoomSent kind code
  | .waitHeartbeat => c.onHeartbeatTick code
  | .writeHeartbeat => c.onHeartbeatSent kind code

-- One of the pending operations completes, with any code.
def complete (n : Nat) (code : CompletionCode) (malformed : Bool) (c : ConnectionObject) : ConnectionObject :=
  match c.pending[n]? with
  | none => c
  | some operation => { c with pending := c.pending.eraseIdx n }.handle kind operation code malformed

-- init(). A config URL that cannot be parsed is never fetched.
def init (parsed : Bool) (c : ConnectionObject) : ConnectionObject :=
  match kind with
  | .websocket => if parsed then c.start .fetchConfig else c
  | .plainTcp => c.startOnSocket .connect

end Handlers

end ConnectionObject

-- close() is called by the manager, or by the destructor.
inductive ConnectionCallback
  | complete (n : Nat) (code : CompletionCode) (malformed : Bool)
  | close
  deriving DecidableEq, Repr

namespace ConnectionObject

def step (kind : ConnectionClass) (callback : ConnectionCallback) (c : ConnectionObject) : ConnectionObject :=
  match callback with
  | .complete n code malformed => c.complete kind n code malformed
  | .close => c.close kind false

def initial (kind : ConnectionClass) (parsed : Bool) : ConnectionObject := init kind parsed {}

def run (kind : ConnectionClass) (parsed : Bool) (callbacks : List ConnectionCallback) : ConnectionObject :=
  Runs.run (step kind) (initial kind parsed) callbacks

end ConnectionObject

end LiveReceptor.Worker

import LiveReceptor.Shared.SimpleWorkerProto
import LiveReceptor.Library.Runs

namespace LiveReceptor

open SimpleWorkerProto

-- The reader of one connection. `socket` says whether the weak pointer still
-- refers to a socket, so that another read is started.
structure SimpleWorkerProtoHandler where
  readBufferSize : Nat
  buf : Bytes
  offset : Nat := 0
  skipping : Nat := 0
  socket : Bool := true

namespace SimpleWorkerProtoHandler

-- The allocated memory of a new handler holds anything.
def fresh (memory : Bytes) : SimpleWorkerProtoHandler := { readBufferSize := memory.length, buf := memory }

-- What start_async_read offers: the bytes from the offset to the end.
def free (reader : SimpleWorkerProtoHandler) : Nat := reader.readBufferSize - reader.offset

-- The buffer once async_receive has written these bytes behind the offset.
def received (reader : SimpleWorkerProtoHandler) (read : Bytes) : Bytes :=
  reader.buf.take reader.offset ++ read ++ reader.buf.drop (reader.offset + read.length)

def result (reader : SimpleWorkerProtoHandler) (read : Bytes) : MessageResult :=
  handleSimpleMessage (reader.received read) read.length reader.readBufferSize reader.offset
    reader.skipping

-- What the buffer handler is given, in order.
def payloads (reader : SimpleWorkerProtoHandler) (read : Bytes) : List Bytes :=
  (reader.result read).calls.map fun call => slice (reader.received read) call.position call.length

-- on_receive without an error.
def onReceive (reader : SimpleWorkerProtoHandler) (read : Bytes) : SimpleWorkerProtoHandler :=
  let result := reader.result read
  { reader with buf := result.buf, offset := result.offset, skipping := result.skipping }

inductive ErrorCode
  | operationAborted
  | other
  deriving DecidableEq, Repr

-- on_receive with an error: the reader forgets its socket. The flag says
-- whether the close handler is called first.
def onReceiveError (reader : SimpleWorkerProtoHandler) (ec : ErrorCode) :
    SimpleWorkerProtoHandler × Bool :=
  ({ reader with socket := false }, ec != .operationAborted)

-- reset, with a new socket. The read that it starts may complete at any time.
def reset (reader : SimpleWorkerProtoHandler) : SimpleWorkerProtoHandler := { reader with socket := true }

-- Reads one after the other, each into the free part of the buffer.
def receiveAll : SimpleWorkerProtoHandler → List Bytes → SimpleWorkerProtoHandler × List Bytes
  | reader, [] => (reader, [])
  | reader, read :: rest =>
      let (last, delivered) := receiveAll (reader.onReceive read) rest
      (last, reader.payloads read ++ delivered)

def Fits : SimpleWorkerProtoHandler → List Bytes → Prop
  | _, [] => True
  | reader, read :: rest => read.length ≤ reader.free ∧ Fits (reader.onReceive read) rest

instance decidableFits : ∀ reader reads, Decidable (Fits reader reads)
  | _, [] => inferInstanceAs (Decidable True)
  | reader, read :: rest =>
      have := decidableFits (reader.onReceive read) rest
      inferInstanceAs (Decidable (_ ∧ _))

end SimpleWorkerProtoHandler

end LiveReceptor

import Mathlib.Data.List.Basic

namespace LiveReceptor

abbrev Bytes := List UInt8

namespace SimpleWorkerProto

abbrev routingKeyMaxSize : Nat := 32
abbrev authCodeSize : Nat := 32

def workerReadyCode : UInt8 := 1
def roomFailedCode : UInt8 := 2
def workerDataCode : UInt8 := 0

def assignRoomCode : UInt8 := 1
def unassignRoomCode : UInt8 := 2

abbrev simpleMessageHeaderLength : Nat := 4
abbrev crc32Length : Nat := 4
abbrev roomIdLength : Nat := 4
abbrev workerReadyPayloadLength : Nat := 1 + roomIdLength + authCodeSize
abbrev roomFailedPayloadLength : Nat := 1 + roomIdLength
abbrev assignUnassignPayloadLength : Nat := 1 + roomIdLength
abbrev workerDataPayloadHeaderLength : Nat := 1 + roomIdLength + crc32Length + routingKeyMaxSize

-- The four bytes at an address, as network_to_host_long reads them. A wider
-- load gives the same value: the argument is cut down to 32 bits.
def networkToHostLong : Bytes → UInt32
  | b₀ :: b₁ :: b₂ :: b₃ :: _ =>
      .ofNat (b₀.toNat * 16777216 + b₁.toNat * 65536 + b₂.toNat * 256 + b₃.toNat)
  | _ => 0

def hostToNetworkLong (n : UInt32) : Bytes :=
  [.ofNat (n.toNat / 16777216), .ofNat (n.toNat / 65536), .ofNat (n.toNat / 256), .ofNat n.toNat]

theorem networkToHostLong_hostToNetworkLong (n : UInt32) (rest : Bytes) :
    networkToHostLong (hostToNetworkLong n ++ rest) = n := by
  apply UInt32.toNat_inj.mp
  have := n.toNat_lt
  simp only [hostToNetworkLong, List.cons_append, networkToHostLong, UInt32.toNat_ofNat',
    UInt8.toNat_ofNat']
  omega

theorem length_hostToNetworkLong (n : UInt32) : (hostToNetworkLong n).length = 4 := rfl

def slice (buf : Bytes) (start length : Nat) : Bytes := (buf.drop start).take length

-- std::memmove of `length` bytes from `buf + start` to `buf`.
def memmove (buf : Bytes) (start length : Nat) : Bytes := slice buf start length ++ buf.drop length

-- One call of the handler: where in the buffer it points, and how far.
structure HandlerCall where
  position : Nat
  length : Nat
  deriving DecidableEq, Repr

-- The branch that logs "Packet too big" and disposes of the packet.
structure TooBig where
  length : Nat
  remaining : Nat
  deriving DecidableEq, Repr

structure MessageResult where
  buf : Bytes
  offset : Nat
  skipping : Nat
  calls : List HandlerCall := []
  tooBig : Option TooBig := none
  assertions : Bool := true
  deriving DecidableEq, Repr

-- `length - remaining` is a signed 64-bit difference returned as a size_t.
def skipAfterTooBig (length remaining : Nat) : Nat :=
  (((length : Int) - (remaining : Int)) % UInt64.size).toNat

-- The while loop of handle_simple_message, at `begin` with `remaining` bytes
-- left. `limit` is transferred + last_remaining_size.
def messageLoop (buf : Bytes) (transferred bufferSize limit start remaining : Nat) : MessageResult :=
  if remaining = 0 then { buf, offset := 0, skipping := 0 }
  else
    let asserted := decide (remaining ≤ bufferSize ∧ remaining ≤ limit)
    if remaining < simpleMessageHeaderLength then
      { buf := memmove buf start remaining, offset := remaining, skipping := 0, assertions := asserted }
    else
      let length := (networkToHostLong (buf.drop start)).toNat
      let lengthWithHeader := length + simpleMessageHeaderLength
      if bufferSize < lengthWithHeader then
        { buf, offset := 0, skipping := skipAfterTooBig length remaining,
          tooBig := some { length, remaining },
          assertions := asserted && decide (transferred < length) }
      else if remaining < lengthWithHeader then
        { buf := memmove buf start remaining, offset := remaining, skipping := 0, assertions := asserted }
      else
        let rest := messageLoop buf transferred bufferSize limit (start + lengthWithHeader)
          (remaining - lengthWithHeader)
        { rest with
          calls := ⟨start + simpleMessageHeaderLength, length⟩ :: rest.calls
          assertions := asserted && rest.assertions }
termination_by remaining
decreasing_by simp only [simpleMessageHeaderLength]; omega

def handleSimpleMessage (buf : Bytes) (transferred bufferSize lastRemainingSize skippingSize : Nat) :
    MessageResult :=
  if skippingSize > transferred then
    { buf, offset := 0, skipping := skippingSize - transferred }
  else
    messageLoop buf transferred bufferSize (transferred + lastRemainingSize) skippingSize
      (transferred - skippingSize + lastRemainingSize)

end SimpleWorkerProto

end LiveReceptor

import LiveReceptor.Library.Memory
import LiveReceptor.Shared.SimpleWorkerProto

namespace LiveReceptor.Worker

open SimpleWorkerProto Memory

def networkToHostShort : Bytes → Nat
  | b₀ :: b₁ :: _ => b₀.toNat * 256 + b₁.toNat
  | _ => 0

structure BilibiliPacketHeader where
  length : Nat
  headerLength : Nat
  protocolVersion : Nat
  opCode : Nat
  deriving DecidableEq, Repr

abbrev packetHeaderSize : Nat := 16

def headerAt (buf : Bytes) (start : Nat) : BilibiliPacketHeader where
  length := (networkToHostLong (buf.drop start)).toNat
  headerLength := networkToHostShort (buf.drop (start + 4))
  protocolVersion := networkToHostShort (buf.drop (start + 6))
  opCode := (networkToHostLong (buf.drop (start + 8))).toNat

abbrev zlibCompressed : Nat := 2

abbrev heartbeatResp : Nat := 3
abbrev jsonMessage : Nat := 5

abbrev zlibBufferSize : Nat := 256 * 1024

-- The read buffer of the connection, and the one buffer of the thread that
-- everything is decompressed to.
inductive Place
  | read
  | zlib
  deriving DecidableEq, Repr

structure Buffers where
  read : Bytes
  zlib : Bytes
  deriving DecidableEq, Repr

def Buffers.buf (buffers : Buffers) : Place → Bytes
  | .read => buffers.read
  | .zlib => buffers.zlib

def Buffers.set (buffers : Buffers) (buf : Bytes) : Place → Buffers
  | .read => { buffers with read := buf }
  | .zlib => { buffers with zlib := buf }

-- A complete packet, [begin, begin + length).
structure BilibiliPacket where
  place : Place
  start : Nat
  length : Nat
  deriving DecidableEq, Repr

namespace BilibiliPacket

-- header->length() - sizeof(bilibili_packet_header), as a size_t
def payloadSize (packet : BilibiliPacket) : Nat :=
  (packet.length + (18446744073709551616 - packetHeaderSize)) % 18446744073709551616

def payloadStart (packet : BilibiliPacket) : Nat := packet.start + packetHeaderSize

def header (packet : BilibiliPacket) (buffers : Buffers) : BilibiliPacketHeader :=
  headerAt (buffers.buf packet.place) packet.start

def payload (packet : BilibiliPacket) (buffers : Buffers) : Bytes :=
  slice (buffers.buf packet.place) packet.payloadStart packet.payloadSize

-- The range that is passed on lies inside the packet.
def PayloadInside (packet : BilibiliPacket) : Prop :=
  packet.payloadStart + packet.payloadSize ≤ packet.start + packet.length

instance (packet : BilibiliPacket) : Decidable packet.PayloadInside := inferInstanceAs (Decidable (_ ≤ _))

end BilibiliPacket

-- What uncompress writes from the start of its destination, and whether it
-- returns Z_OK.
structure Uncompressed where
  ok : Bool
  output : Bytes
  fits : output.length ≤ zlibBufferSize

-- The functions of other libraries. uncompress may read where it writes to: it
-- is given the buffers as a whole. ParseInsitu leaves anything in the text.
structure PacketLibraries where
  uncompress : Buffers → BilibiliPacket → Uncompressed
  parseInsitu : (text : Bytes) → { left : Bytes // left.length = text.length }

-- What is handed to the serializer.
inductive Delivered
  | json (text : Bytes)
  | popularity (value : UInt32)
  deriving DecidableEq, Repr

-- What handle_packet does next: it returns, throws malformed_packet, or calls
-- handle_buffer with the zlib buffer. Where a range outside the packet has been
-- passed on, nothing is defined any more.
inductive Next
  | returns
  | malformed
  | undefined
  | nested (outSize : Nat)
  deriving DecidableEq, Repr

structure Handled where
  buffers : Buffers
  passed : List BilibiliPacket := []
  delivered : List Delivered := []
  next : Next := .returns

def decompressBuffer (libraries : PacketLibraries) (buffers : Buffers) (packet : BilibiliPacket) :
    Option Nat × Buffers :=
  let result := libraries.uncompress buffers packet
  (if result.ok then some result.output.length else none,
    { buffers with zlib := result.output ++ buffers.zlib.drop result.output.length })

-- The byte behind the payload is a NUL while the text is parsed.
def serializeInPlace (libraries : PacketLibraries) (buffers : Buffers) (packet : BilibiliPacket) : Buffers :=
  let buf := buffers.buf packet.place
  let last := packet.payloadStart + packet.payloadSize
  let lastChar := buf[last]?.getD 0
  let text := (libraries.parseInsitu (packet.payload buffers)).1
  buffers.set ((store (buf.set last 0) packet.payloadStart text).set last lastChar) packet.place

-- `passed` are the packets of which the payload is passed on.
def handlePacket (libraries : PacketLibraries) (buffers : Buffers) (packet : BilibiliPacket) : Handled :=
  let header := packet.header buffers
  if header.headerLength ≠ packetHeaderSize then { buffers, next := .malformed }
  else if header.protocolVersion = zlibCompressed then
    if ¬packet.PayloadInside then { buffers, passed := [packet], next := .undefined }
    else
      match decompressBuffer libraries buffers packet with
      | (none, buffers) => { buffers, passed := [packet] }
      | (some outSize, buffers) => { buffers, passed := [packet], next := .nested outSize }
  else if header.opCode = jsonMessage then
    if ¬packet.PayloadInside then { buffers, passed := [packet], next := .undefined }
    else
      { buffers := serializeInPlace libraries buffers packet
        passed := [packet]
        delivered := [.json (packet.payload buffers)] }
  else if header.opCode = heartbeatResp then
    if packet.payloadSize ≠ 4 then { buffers }
    else
      { buffers
        passed := [packet]
        delivered := [.popularity (networkToHostLong (packet.payload buffers))] }
  else { buffers }

-- The variables of one call of handle_buffer.
structure Frame where
  place : Place
  bufferSize : Nat
  start : Nat
  remaining : Nat
  deriving DecidableEq, Repr

-- One turn of the while loop, up to the call of handle_packet.
inductive Turn
  | returned (buffers : Buffers) (offset skipping : Nat)
  | malformed
  | packet (packet : BilibiliPacket)
  deriving DecidableEq, Repr

def turn (buffers : Buffers) (frame : Frame) : Turn :=
  let buf := buffers.buf frame.place
  let moved := buffers.set (memmove buf frame.start frame.remaining) frame.place
  if frame.remaining = 0 then .returned buffers 0 0
  else if frame.remaining < packetHeaderSize then .returned moved frame.remaining 0
  else
    let header := headerAt buf frame.start
    if header.headerLength ≠ packetHeaderSize then .malformed
    else if frame.bufferSize < header.length then
      .returned buffers 0 (skipAfterTooBig header.length frame.remaining)
    else if frame.remaining < header.length then .returned moved frame.remaining 0
    else .packet ⟨frame.place, frame.start, header.length⟩

inductive Outcome
  | returned (offset skipping : Nat)
  | malformed
  | undefined
  deriving DecidableEq, Repr

-- The calls of handle_buffer that are under way, the innermost first.
inductive Control
  | running (frame : Frame) (callers : List Frame)
  | ended (outcome : Outcome)
  deriving DecidableEq, Repr

structure Parser where
  buffers : Buffers
  control : Control
  passed : List BilibiliPacket := []
  delivered : List Delivered := []
  deriving DecidableEq, Repr

namespace Parser

def frames (parser : Parser) : List Frame :=
  match parser.control with
  | .running frame callers => frame :: callers
  | .ended _ => []

-- What a nested call returns is ignored.
def returnTo (offset skipping : Nat) : List Frame → Control
  | [] => .ended (.returned offset skipping)
  | frame :: callers => .running frame callers

def advance (frame : Frame) (packet : BilibiliPacket) : Frame :=
  { frame with start := frame.start + packet.length, remaining := frame.remaining - packet.length }

def resume (frame : Frame) (callers : List Frame) : Next → Control
  | .returns => .running frame callers
  | .malformed => .ended .malformed
  | .undefined => .ended .undefined
  | .nested outSize => .running ⟨.zlib, outSize, 0, outSize⟩ (frame :: callers)

def step (libraries : PacketLibraries) (parser : Parser) : Parser :=
  match parser.control with
  | .ended _ => parser
  | .running frame callers =>
      match turn parser.buffers frame with
      | .returned buffers offset skipping =>
          { parser with buffers, control := returnTo offset skipping callers }
      | .malformed => { parser with control := .ended .malformed }
      | .packet packet =>
          let handled := handlePacket libraries parser.buffers packet
          { buffers := handled.buffers
            control := resume (advance frame packet) callers handled.next
            passed := parser.passed ++ handled.passed
            delivered := parser.delivered ++ handled.delivered }

-- The call of handle_buffer for what was read from the connection.
def handleBuffer (buffers : Buffers) (transferred bufferSize lastRemaining skipping : Nat) : Parser :=
  if skipping > transferred then
    { buffers, control := .ended (.returned 0 (skipping - transferred)) }
  else
    { buffers
      control := .running ⟨.read, bufferSize, skipping, transferred - skipping + lastRemaining⟩ [] }

-- A call of handle_packet by itself.
def handlePacketCall (libraries : PacketLibraries) (buffers : Buffers) (packet : BilibiliPacket) : Parser :=
  let handled := handlePacket libraries buffers packet
  { buffers := handled.buffers
    control :=
      match handled.next with
      | .returns => .ended (.returned 0 0)
      | .malformed => .ended .malformed
      | .undefined => .ended .undefined
      | .nested outSize => .running ⟨.zlib, outSize, 0, outSize⟩ []
    passed := handled.passed
    delivered := handled.delivered }

end Parser

end LiveReceptor.Worker

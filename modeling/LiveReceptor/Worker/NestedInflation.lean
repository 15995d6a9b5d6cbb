import LiveReceptor.Worker.JsonTerminator

namespace LiveReceptor.Worker

open SimpleWorkerProto Memory StackMachine

-- A call of handle_buffer with a buffer of its own.
structure OwnCall where
  buf : Bytes
  frame : Frame
  deriving DecidableEq, Repr

inductive OwnControl
  | running (call : OwnCall) (callers : List OwnCall)
  | ended (outcome : Outcome)
  deriving DecidableEq, Repr

-- handle_buffer and handle_packet as they would be if every inflation had a
-- buffer for itself.
structure OwnParser where
  control : OwnControl
  delivered : List Delivered := []
  deriving DecidableEq, Repr

namespace OwnCall

-- What handle_packet is given: behind the buffer of the call an empty one, to be
-- filled by what it inflates.
def buffers (call : OwnCall) : Buffers := { read := call.buf, zlib := [] }

def ofBytes (bytes : Bytes) : OwnCall := ⟨bytes, ⟨.read, bytes.length, 0, bytes.length⟩⟩

def nextPacket (call : OwnCall) : Option BilibiliPacket :=
  match turn call.buffers call.frame with
  | .packet packet => some packet
  | _ => none

-- The call behind the packet.
def advance (call : OwnCall) (packet : BilibiliPacket) (buf : Bytes) : OwnCall :=
  ⟨buf, Parser.advance call.frame packet⟩

end OwnCall

namespace OwnParser

def returnTo (offset skipping : Nat) : List OwnCall → OwnControl
  | [] => .ended (.returned offset skipping)
  | call :: callers => .running call callers

def resume (call : OwnCall) (callers : List OwnCall) (inflated : Bytes) : Next → OwnControl
  | .returns => .running call callers
  | .malformed => .ended .malformed
  | .undefined => .ended .undefined
  | .nested _ => .running (.ofBytes inflated) (call :: callers)

def step (libraries : PacketLibraries) (parser : OwnParser) : OwnParser :=
  match parser.control with
  | .ended _ => parser
  | .running call callers =>
      match turn call.buffers call.frame with
      | .returned _ offset skipping => { parser with control := returnTo offset skipping callers }
      | .malformed => { parser with control := .ended .malformed }
      | .packet packet =>
          let handled := handlePacket libraries call.buffers packet
          { control := resume (call.advance packet handled.buffers.read) callers handled.buffers.zlib handled.next
            delivered := parser.delivered ++ handled.delivered }

-- handle_buffer(data, size, size, 0, 0)
def handleBuffer (data : Bytes) : OwnParser := { control := .running (.ofBytes data) [] }

-- Where the bytes that are inflated from a packet end, no call has bytes left to
-- walk in front: neither the one that found the packet nor its callers.
def Spares (libraries : PacketLibraries) (parser : OwnParser) : Prop :=
  match parser.control with
  | .ended _ => True
  | .running call callers =>
      ∀ packet ∈ call.nextPacket, packet.Compressed call.buffers → packet.PayloadInside →
        ∀ frame ∈ Parser.advance call.frame packet :: callers.map OwnCall.frame,
          frame.remaining = 0 ∨ (libraries.uncompress call.buffers packet).output.length ≤ frame.start

instance (libraries : PacketLibraries) (parser : OwnParser) : Decidable (parser.Spares libraries) :=
  match parser with
  | ⟨.ended _, _⟩ => isTrue trivial
  | ⟨.running _ _, _⟩ => inferInstanceAs (Decidable (∀ packet ∈ _, _ → _ → ∀ frame ∈ _, _ ∨ _))

end OwnParser

-- handle_packet is called for a packet that inflates to the data. What uncompress
-- writes and returns is decided by what it reads.
structure Inflates (libraries : PacketLibraries) (inflate : Bytes → Uncompressed) (buffers : Buffers)
    (packet : BilibiliPacket) (data : Bytes) : Prop where
  uncompress : ∀ buffers packet, libraries.uncompress buffers packet = inflate (packet.payload buffers)
  allocated : buffers.zlib.length = zlibBufferSize
  compressed : packet.Compressed buffers
  inside : packet.PayloadInside
  ok : (inflate (packet.payload buffers)).ok = true
  output : (inflate (packet.payload buffers)).output = data

-- The same messages in the same order, as far as either way gets.
def SameMessages (libraries : PacketLibraries) (buffers : Buffers) (packet : BilibiliPacket) (data : Bytes) :
    Prop :=
  (∀ n, ∃ k, (after (Parser.step libraries) n (Parser.handlePacketCall libraries buffers packet)).delivered <+:
    (after (OwnParser.step libraries) k (OwnParser.handleBuffer data)).delivered) ∧
  ∀ k, ∃ n, (after (OwnParser.step libraries) k (OwnParser.handleBuffer data)).delivered <+:
    (after (Parser.step libraries) n (Parser.handlePacketCall libraries buffers packet)).delivered

section Turn

variable {buffers : Buffers} {frame : Frame} {call : OwnCall}

-- A call in the zlib buffer walks the bytes that the call with its own buffer
-- walks.
structure Walks (buffers : Buffers) (frame : Frame) (call : OwnCall) : Prop where
  frame : frame = { call.frame with place := .zlib }
  place : call.frame.place = .read
  inside : call.frame.start + call.frame.remaining ≤ call.frame.bufferSize
  own : call.frame.bufferSize ≤ call.buf.length
  zlib : call.frame.bufferSize ≤ buffers.zlib.length
  same : slice buffers.zlib call.frame.start call.frame.remaining =
    slice call.buf call.frame.start call.frame.remaining

theorem slice_of_keptFrom {last start length : Nat} {buf buf' : Bytes} (h : KeptFrom last buf buf')
    (hstart : last ≤ start) : slice buf' start length = slice buf start length := by
  have hdrop : ∀ bytes : Bytes, bytes.drop start = (bytes.drop last).drop (start - last) := by
    intro bytes
    rw [List.drop_drop, Nat.add_sub_cancel' hstart]
  rw [slice, slice, hdrop, hdrop, h.behind]

-- A call walks the same as long as what is written ends before its next byte.
theorem Walks.kept {buffers' : Buffers} {last : Nat} (h : Walks buffers frame call)
    (hkept : KeptFrom last buffers.zlib buffers'.zlib)
    (hstart : call.frame.remaining = 0 ∨ last ≤ call.frame.start) : Walks buffers' frame call where
  frame := h.frame
  place := h.place
  inside := h.inside
  own := h.own
  zlib := hkept.length.symm ▸ h.zlib
  same := by
    rcases hstart with hnothing | hstart
    · rw [hnothing, slice, slice, List.take_zero, List.take_zero]
    · rw [slice_of_keptFrom hkept hstart, h.same]

theorem Walks.header (h : Walks buffers frame call) (hremaining : packetHeaderSize ≤ call.frame.remaining) :
    headerAt buffers.zlib call.frame.start = headerAt call.buf call.frame.start := by
  have hinside := h.inside
  have hown := h.own
  have hzlib := h.zlib
  rw [← headerAt_slice hremaining (by omega), h.same, headerAt_slice hremaining (by omega)]

-- Where the two ways stand after a turn of the loop.
inductive SameTurn (buffers : Buffers) (call : OwnCall) : Turn → Turn → Prop
  | returned (after after' : Buffers) (offset skipping : Nat)
      (kept : KeptFrom call.frame.remaining buffers.zlib after.zlib) :
      SameTurn buffers call (.returned after offset skipping) (.returned after' offset skipping)
  | malformed : SameTurn buffers call .malformed .malformed
  | packet (length : Nat) (whole : packetHeaderSize ≤ call.frame.remaining) (le : length ≤ call.frame.remaining)
      (header : length = (headerAt call.buf call.frame.start).length) :
      SameTurn buffers call (.packet ⟨.zlib, call.frame.start, length⟩) (.packet ⟨.read, call.frame.start, length⟩)

theorem keptFrom_memmove {buf : Bytes} {start length : Nat} (h : start + length ≤ buf.length) :
    KeptFrom length buf (memmove buf start length) where
  length := Parser.length_memmove h
  behind := by rw [memmove, List.drop_left' (Framing.slice_length h)]

theorem Walks.turn (h : Walks buffers frame call) :
    SameTurn buffers call (turn buffers frame) (turn call.buffers call.frame) := by
  have hinside := h.inside
  have hzlib := h.zlib
  have hmoved := @keptFrom_memmove buffers.zlib call.frame.start call.frame.remaining (by omega)
  have hread : call.buffers.buf call.frame.place = call.buf := by
    rw [h.place]
    rfl
  rw [h.frame]
  unfold Worker.turn
  dsimp only
  rw [hread, show buffers.buf .zlib = buffers.zlib from rfl]
  by_cases hzero : call.frame.remaining = 0
  · rw [if_pos hzero, if_pos hzero]
    exact .returned _ _ 0 0 (.refl _ _)
  rw [if_neg hzero, if_neg hzero]
  by_cases hshort : call.frame.remaining < packetHeaderSize
  · rw [if_pos hshort, if_pos hshort]
    exact .returned _ _ _ 0 hmoved
  rw [if_neg hshort, if_neg hshort, h.header (by omega)]
  generalize hheader : headerAt call.buf call.frame.start = header
  by_cases hsixteen : header.headerLength ≠ packetHeaderSize
  · rw [if_pos hsixteen, if_pos hsixteen]
    exact .malformed
  rw [if_neg hsixteen, if_neg hsixteen]
  by_cases hover : call.frame.bufferSize < header.length
  · rw [if_pos hover, if_pos hover]
    exact .returned _ _ 0 _ (.refl _ _)
  rw [if_neg hover, if_neg hover]
  by_cases hpart : call.frame.remaining < header.length
  · rw [if_pos hpart, if_pos hpart]
    exact .returned _ _ _ 0 hmoved
  rw [if_neg hpart, if_neg hpart, h.place]
  exact .packet _ (by omega) (by omega) (by rw [hheader])

end Turn

section HandlePacket

variable {libraries : PacketLibraries} {inflate : Bytes → Uncompressed} {buffers : Buffers} {frame : Frame}
  {call : OwnCall} {length : Nat}

-- handle_packet looks at the header and the payload only.
theorem handlePacket_congr {buffers' : Buffers} {packet packet' : BilibiliPacket}
    (hinflate : ∀ buffers packet, libraries.uncompress buffers packet = inflate (packet.payload buffers))
    (hstart : packet.start = packet'.start) (hlength : packet.length = packet'.length)
    (hheader : packet.header buffers = packet'.header buffers')
    (hpayload : packet.PayloadInside → packet.payload buffers = packet'.payload buffers')
    (hfour : packet.payloadSize = 4 → packet.PayloadInside) :
    (handlePacket libraries buffers packet).next = (handlePacket libraries buffers' packet').next ∧
      (handlePacket libraries buffers packet).delivered = (handlePacket libraries buffers' packet').delivered := by
  have hsize : packet.payloadSize = packet'.payloadSize := by
    rw [BilibiliPacket.payloadSize, BilibiliPacket.payloadSize, hlength]
  have hinside : packet.PayloadInside ↔ packet'.PayloadInside := by
    rw [BilibiliPacket.PayloadInside, BilibiliPacket.PayloadInside, BilibiliPacket.payloadStart,
      BilibiliPacket.payloadStart, hstart, hlength, hsize]
  unfold handlePacket
  dsimp only
  rw [hheader]
  by_cases hsixteen : (packet'.header buffers').headerLength ≠ packetHeaderSize
  · rw [if_pos hsixteen, if_pos hsixteen]
    exact ⟨rfl, rfl⟩
  rw [if_neg hsixteen, if_neg hsixteen]
  by_cases hversion : (packet'.header buffers').protocolVersion = zlibCompressed
  · rw [if_pos hversion, if_pos hversion]
    by_cases hin : packet.PayloadInside
    · rw [if_neg (not_not_intro hin), if_neg (not_not_intro (hinside.mp hin))]
      simp only [decompressBuffer, hinflate, hpayload hin]
      cases (inflate (packet'.payload buffers')).ok <;> exact ⟨rfl, rfl⟩
    · rw [if_pos hin, if_pos (mt hinside.mpr hin)]
      exact ⟨rfl, rfl⟩
  rw [if_neg hversion, if_neg hversion]
  by_cases hjson : (packet'.header buffers').opCode = jsonMessage
  · rw [if_pos hjson, if_pos hjson]
    by_cases hin : packet.PayloadInside
    · rw [if_neg (not_not_intro hin), if_neg (not_not_intro (hinside.mp hin)), hpayload hin]
      exact ⟨rfl, rfl⟩
    · rw [if_pos hin, if_pos (mt hinside.mpr hin)]
      exact ⟨rfl, rfl⟩
  rw [if_neg hjson, if_neg hjson]
  by_cases hheartbeat : (packet'.header buffers').opCode = heartbeatResp
  · rw [if_pos hheartbeat, if_pos hheartbeat, ← hsize]
    by_cases hpopularity : packet.payloadSize ≠ 4
    · rw [if_pos hpopularity, if_pos hpopularity]
      exact ⟨rfl, rfl⟩
    · rw [if_neg hpopularity, if_neg hpopularity, hpayload (hfour (not_not.mp hpopularity))]
      exact ⟨rfl, rfl⟩
  · rw [if_neg hheartbeat, if_neg hheartbeat]
    exact ⟨rfl, rfl⟩

theorem buffers_handlePacket_of_short {packet : BilibiliPacket} (h : ¬packet.PayloadInside) :
    (handlePacket libraries buffers packet).buffers = buffers := by
  unfold handlePacket
  dsimp only
  split
  · rfl
  split
  · rfl
  split
  · rfl
  split
  · split <;> rfl
  · rfl

-- The two packets of a turn in which both ways find one.
def inZlib (call : OwnCall) (length : Nat) : BilibiliPacket := ⟨.zlib, call.frame.start, length⟩

def inOwn (call : OwnCall) (length : Nat) : BilibiliPacket := ⟨.read, call.frame.start, length⟩

-- A packet that both walks have in front, with the length in its header.
structure InFront (buffers : Buffers) (frame : Frame) (call : OwnCall) (length : Nat) : Prop where
  walks : Walks buffers frame call
  whole : packetHeaderSize ≤ call.frame.remaining
  le : length ≤ call.frame.remaining
  header : length = (headerAt call.buf call.frame.start).length

namespace InFront

theorem word (h : InFront buffers frame call length) : length < 4294967296 := by
  rw [h.header]
  exact UInt32.toNat_lt _

theorem header_eq (h : InFront buffers frame call length) :
    (inZlib call length).header buffers = (inOwn call length).header call.buffers := h.walks.header h.whole

theorem compressed_iff (h : InFront buffers frame call length) :
    (inZlib call length).Compressed buffers ↔ (inOwn call length).Compressed call.buffers := by
  rw [BilibiliPacket.Compressed, BilibiliPacket.Compressed, h.header_eq]

theorem payload_eq (h : InFront buffers frame call length) (hinside : (inZlib call length).PayloadInside) :
    (inZlib call length).payload buffers = (inOwn call length).payload call.buffers := by
  have hle := h.le
  have hpayload : packetHeaderSize + (inZlib call length).payloadSize ≤ call.frame.remaining := by
    have hin : call.frame.start + packetHeaderSize + (inZlib call length).payloadSize ≤
        call.frame.start + length := hinside
    omega
  have hslice : ∀ buf : Bytes, slice buf (call.frame.start + packetHeaderSize) (inZlib call length).payloadSize =
      slice (slice buf call.frame.start call.frame.remaining) packetHeaderSize
        (inZlib call length).payloadSize := fun buf => (Framing.slice_slice _ _ _ _ _ hpayload).symm
  show slice buffers.zlib (call.frame.start + packetHeaderSize) (inZlib call length).payloadSize =
    slice call.buf (call.frame.start + packetHeaderSize) (inZlib call length).payloadSize
  rw [hslice, hslice, h.walks.same]

theorem handlePacket_eq (h : InFront buffers frame call length)
    (hinflate : ∀ buffers packet, libraries.uncompress buffers packet = inflate (packet.payload buffers)) :
    (handlePacket libraries buffers (inZlib call length)).next =
        (handlePacket libraries call.buffers (inOwn call length)).next ∧
      (handlePacket libraries buffers (inZlib call length)).delivered =
        (handlePacket libraries call.buffers (inOwn call length)).delivered :=
  handlePacket_congr hinflate rfl rfl h.header_eq h.payload_eq
    (BilibiliPacket.payloadInside_of_payloadSize h.word)

theorem uncompress_eq (h : InFront buffers frame call length)
    (hinflate : ∀ buffers packet, libraries.uncompress buffers packet = inflate (packet.payload buffers))
    (hinside : (inZlib call length).PayloadInside) :
    libraries.uncompress buffers (inZlib call length) =
      libraries.uncompress call.buffers (inOwn call length) := by
  rw [hinflate, hinflate, h.payload_eq hinside]

-- A buffer of one's own is changed up to the end of the packet.
theorem keptFrom_own (h : InFront buffers frame call length) :
    KeptFrom (call.frame.start + length) call.buf
      (handlePacket libraries call.buffers (inOwn call length)).buffers.read := by
  have hinside := h.walks.inside
  have hown := h.walks.own
  have hle := h.le
  by_cases hpayload : (inOwn call length).PayloadInside
  · have hlength := (@BilibiliPacket.payloadInside_iff (inOwn call length) h.word).mp hpayload
    have hin : call.frame.start + length ≤ call.buf.length := by omega
    exact @keptFrom_handlePacket libraries call.buffers (inOwn call length) rfl hlength h.word hin
  · rw [buffers_handlePacket_of_short hpayload]
    exact .refl _ _

-- So is the zlib buffer, where nothing is inflated to it.
theorem keptFrom_zlib (h : InFront buffers frame call length) (hallocated : buffers.zlib.length = zlibBufferSize)
    (hplain : ¬((inZlib call length).Compressed buffers ∧ (inZlib call length).PayloadInside)) :
    KeptFrom (call.frame.start + length) buffers.zlib
      (handlePacket libraries buffers (inZlib call length)).buffers.zlib := by
  have hinside := h.walks.inside
  have hzlib := h.walks.zlib
  have hle := h.le
  by_cases hpayload : (inZlib call length).PayloadInside
  · have hpacket : PacketIn buffers call.frame.bufferSize (inZlib call length) :=
      ⟨.zlib _ hallocated (hallocated ▸ hzlib), h.header.trans (congrArg _ (h.walks.header h.whole).symm),
        (@BilibiliPacket.payloadInside_iff (inZlib call length) h.word).mp hpayload,
        (Nat.add_le_add_left hle _).trans hinside⟩
    exact (keptOutside_handlePacket hpacket fun _ hcompressed => absurd ⟨hcompressed, hpayload⟩ hplain).behind
  · rw [buffers_handlePacket_of_short hpayload]
    exact .refl _ _

end InFront

end HandlePacket

section Simulation

variable {libraries : PacketLibraries} {inflate : Bytes → Uncompressed} {buffers buffers' : Buffers}
  {frame : Frame} {callers : List Frame} {call : OwnCall} {ownCallers : List OwnCall} {parser : Parser}
  {own : OwnParser}

-- The call has nothing left to walk before this position.
def Clear (last : Nat) (frame : Frame) : Prop := frame.remaining = 0 ∨ last ≤ frame.start

theorem Clear.mono {last last' : Nat} (h : Clear last frame) (hle : last' ≤ last) : Clear last' frame :=
  h.imp id hle.trans

-- The calls under way: in the one buffer, each below has nothing left where the
-- calls above it walk.
structure Stacked (buffers : Buffers) (frames : List Frame) (calls : List OwnCall) : Prop where
  walks : List.Forall₂ (Walks buffers) frames calls
  apart : calls.Pairwise fun inner outer => Clear inner.frame.bufferSize outer.frame

theorem Stacked.nil : Stacked buffers [] [] := ⟨.nil, .nil⟩

theorem Stacked.kept {frames : List Frame} {calls : List OwnCall} {last : Nat} (h : Stacked buffers frames calls)
    (hkept : KeptFrom last buffers.zlib buffers'.zlib) (hclear : ∀ call ∈ calls, Clear last call.frame) :
    Stacked buffers' frames calls where
  walks := by
    obtain ⟨hwalks, -⟩ := h
    induction hwalks with
    | nil => exact .nil
    | cons hhead htail ih =>
        obtain ⟨hfirst, hrest⟩ := List.forall_mem_cons.mp hclear
        exact .cons (hhead.kept hkept hfirst) (ih hrest)
  apart := h.apart

inductive SameControl (buffers : Buffers) : Control → OwnControl → Prop
  | running {frame : Frame} {callers : List Frame} {call : OwnCall} {ownCallers : List OwnCall}
      (stacked : Stacked buffers (frame :: callers) (call :: ownCallers)) :
      SameControl buffers (.running frame callers) (.running call ownCallers)
  | ended (outcome : Outcome) : SameControl buffers (.ended outcome) (.ended outcome)

structure Simulates (parser : Parser) (own : OwnParser) : Prop where
  allocated : parser.buffers.zlib.length = zlibBufferSize
  delivered : parser.delivered = own.delivered
  control : SameControl parser.buffers parser.control own.control

theorem sameControl_returnTo (h : Stacked buffers callers ownCallers) (offset skipping : Nat) :
    SameControl buffers (Parser.returnTo offset skipping callers)
      (OwnParser.returnTo offset skipping ownCallers) := by
  obtain ⟨hwalks, hapart⟩ := h
  cases hwalks with
  | nil => exact .ended _
  | cons hhead htail => exact .running ⟨.cons hhead htail, hapart⟩

-- The walk goes on behind the packet, over what is left of either buffer.
theorem InFront.walks_advance {length last : Nat} {buf : Bytes} (h : InFront buffers frame call length)
    (hown : KeptFrom (call.frame.start + length) call.buf buf)
    (hzlib : KeptFrom last buffers.zlib buffers'.zlib)
    (hclear : Clear last (Parser.advance call.frame (inOwn call length))) :
    Walks buffers' (Parser.advance frame (inZlib call length)) (call.advance (inOwn call length) buf) := by
  have hinside := h.walks.inside
  have hle := h.le
  have hdrop : slice buffers.zlib (call.frame.start + length) (call.frame.remaining - length) =
      slice call.buf (call.frame.start + length) (call.frame.remaining - length) := by
    rw [← Framing.drop_slice, ← Framing.drop_slice, h.walks.same]
  constructor
  · rw [h.walks.frame]
    rfl
  · exact h.walks.place
  · show call.frame.start + length + (call.frame.remaining - length) ≤ call.frame.bufferSize
    omega
  · exact hown.length.symm ▸ h.walks.own
  · exact hzlib.length.symm ▸ h.walks.zlib
  · show slice buffers'.zlib (call.frame.start + length) (call.frame.remaining - length) =
      slice buf (call.frame.start + length) (call.frame.remaining - length)
    rw [slice_of_keptFrom hown (Nat.le_refl _), ← hdrop]
    rcases hclear with hnothing | hstart
    · have hzero : call.frame.remaining - length = 0 := hnothing
      rw [hzero, slice, slice, List.take_zero, List.take_zero]
    · exact slice_of_keptFrom hzlib hstart

-- What handle_packet writes to the zlib buffer, and that it ends before the bytes
-- that are still to be walked.
theorem InFront.exists_kept {length : Nat} (h : InFront buffers frame call length)
    (hallocated : buffers.zlib.length = zlibBufferSize)
    (hinflate : ∀ buffers packet, libraries.uncompress buffers packet = inflate (packet.payload buffers))
    (hapart : ∀ outer ∈ ownCallers, Clear call.frame.bufferSize outer.frame)
    (hspares : (inOwn call length).Compressed call.buffers → (inOwn call length).PayloadInside →
      ∀ frame ∈ Parser.advance call.frame (inOwn call length) :: ownCallers.map OwnCall.frame,
        Clear (libraries.uncompress call.buffers (inOwn call length)).output.length frame) :
    ∃ last, KeptFrom last buffers.zlib (handlePacket libraries buffers (inZlib call length)).buffers.zlib ∧
      Clear last (Parser.advance call.frame (inOwn call length)) ∧
      ∀ outer ∈ ownCallers, Clear last outer.frame := by
  by_cases hplain : (inZlib call length).Compressed buffers ∧ (inZlib call length).PayloadInside
  · obtain ⟨hcompressed, hpayload⟩ := hplain
    have hfits := (libraries.uncompress buffers (inZlib call length)).fits
    obtain ⟨hfirst, hrest⟩ := List.forall_mem_cons.mp (hspares (h.compressed_iff.mp hcompressed) hpayload)
    rw [← h.uncompress_eq hinflate hpayload] at hfirst hrest
    refine ⟨_, ?_, hfirst, fun outer houter => hrest _ (List.mem_map_of_mem houter)⟩
    rw [handlePacket_of_compressed hcompressed hpayload]
    constructor
    · rw [List.length_append, List.length_drop]
      omega
    · exact List.drop_left
  · have hinside := h.walks.inside
    have hle := h.le
    refine ⟨_, h.keptFrom_zlib hallocated hplain, Or.inr (Nat.le_refl _), fun outer houter => ?_⟩
    exact (hapart outer houter).mono (by omega)

-- The new call walks what has been inflated, in front of the zlib buffer and in a
-- buffer of its own.
theorem InFront.walks_nested {length outSize : Nat} (h : InFront buffers frame call length)
    (hinflate : ∀ buffers packet, libraries.uncompress buffers packet = inflate (packet.payload buffers))
    (hnext : (handlePacket libraries buffers (inZlib call length)).next = .nested outSize) :
    Walks (handlePacket libraries buffers (inZlib call length)).buffers ⟨.zlib, outSize, 0, outSize⟩
        (.ofBytes (handlePacket libraries call.buffers (inOwn call length)).buffers.zlib) ∧
      outSize = (libraries.uncompress call.buffers (inOwn call length)).output.length := by
  obtain ⟨hcompressed, hpayload, hsize⟩ := compressed_of_nested hnext
  have hsame := h.uncompress_eq hinflate hpayload
  have hzlib := congrArg Handled.buffers (@handlePacket_of_compressed libraries _ _ hcompressed hpayload)
  have hown := congrArg Handled.buffers (@handlePacket_of_compressed libraries _ (inOwn call length)
    (h.compressed_iff.mp hcompressed) hpayload)
  dsimp only at hzlib hown
  rw [hsame] at hzlib hsize
  have hinflated : (handlePacket libraries call.buffers (inOwn call length)).buffers.zlib =
      (libraries.uncompress call.buffers (inOwn call length)).output := by
    rw [hown]
    show _ ++ List.drop _ [] = _
    rw [List.drop_nil, List.append_nil]
  refine ⟨?_, hsize⟩
  rw [hinflated, hzlib, hsize]
  refine ⟨rfl, rfl, Nat.le_of_eq (Nat.zero_add _), Nat.le_refl _, ?_, ?_⟩
  · rw [List.length_append]
    exact Nat.le_add_right _ _
  · rw [OwnCall.ofBytes, slice, slice, List.drop_zero, List.drop_zero, List.take_left, List.take_length]

-- handle_packet does the same in both ways, as long as the bytes are spared.
theorem InFront.sameControl {length : Nat} (h : InFront buffers frame call length)
    (hstacked : Stacked buffers (frame :: callers) (call :: ownCallers))
    (hallocated : buffers.zlib.length = zlibBufferSize)
    (hinflate : ∀ buffers packet, libraries.uncompress buffers packet = inflate (packet.payload buffers))
    (hspares : (inOwn call length).Compressed call.buffers → (inOwn call length).PayloadInside →
      ∀ frame ∈ Parser.advance call.frame (inOwn call length) :: ownCallers.map OwnCall.frame,
        Clear (libraries.uncompress call.buffers (inOwn call length)).output.length frame) :
    (handlePacket libraries buffers (inZlib call length)).buffers.zlib.length = zlibBufferSize ∧
      SameControl (handlePacket libraries buffers (inZlib call length)).buffers
        (Parser.resume (Parser.advance frame (inZlib call length)) callers
          (handlePacket libraries buffers (inZlib call length)).next)
        (OwnParser.resume
          (call.advance (inOwn call length) (handlePacket libraries call.buffers (inOwn call length)).buffers.read)
          ownCallers (handlePacket libraries call.buffers (inOwn call length)).buffers.zlib
          (handlePacket libraries call.buffers (inOwn call length)).next) := by
  obtain ⟨happart, hbelow⟩ := List.pairwise_cons.mp hstacked.apart
  obtain ⟨last, hkept, hfirst, hothers⟩ := h.exists_kept hallocated hinflate happart hspares
  have hadvance := h.walks_advance (@InFront.keptFrom_own libraries _ _ _ _ h) hkept hfirst
  have hcallers : Stacked (handlePacket libraries buffers (inZlib call length)).buffers callers ownCallers := by
    refine Stacked.kept ⟨?_, hbelow⟩ hkept hothers
    cases hstacked.walks with
    | cons hhead htail => exact htail
  have hstay : Stacked (handlePacket libraries buffers (inZlib call length)).buffers
      (Parser.advance frame (inZlib call length) :: callers)
      (call.advance (inOwn call length) (handlePacket libraries call.buffers (inOwn call length)).buffers.read ::
        ownCallers) :=
    ⟨.cons hadvance hcallers.walks, List.pairwise_cons.mpr ⟨happart, hbelow⟩⟩
  refine ⟨hkept.length.trans hallocated, ?_⟩
  rw [← (h.handlePacket_eq hinflate).1]
  cases hnext : (handlePacket libraries buffers (inZlib call length)).next with
  | returns => exact .running hstay
  | malformed => exact .ended .malformed
  | undefined => exact .ended .undefined
  | nested outSize =>
      obtain ⟨hcompressed, hpayload, -⟩ := compressed_of_nested hnext
      obtain ⟨hnested, hsize⟩ := h.walks_nested hinflate hnext
      have hclear := hspares (h.compressed_iff.mp hcompressed) hpayload
      refine .running ⟨.cons hnested hstay.walks, List.pairwise_cons.mpr ⟨fun outer houter => ?_, hstay.apart⟩⟩
      have hframe := congrArg Frame.bufferSize hnested.frame
      rw [← hsize] at hclear
      rw [← hframe]
      rcases List.mem_cons.mp houter with rfl | houter
      · exact hclear _ List.mem_cons_self
      · exact hclear _ (List.mem_cons_of_mem _ (List.mem_map_of_mem houter))

theorem Simulates.step (h : Simulates parser own)
    (hinflate : ∀ buffers packet, libraries.uncompress buffers packet = inflate (packet.payload buffers))
    (hspares : own.Spares libraries) :
    Simulates (Parser.step libraries parser) (OwnParser.step libraries own) := by
  obtain ⟨hallocated, hdelivered, hcontrol⟩ := h
  obtain ⟨buffers, control, passed, delivered⟩ := parser
  obtain ⟨ownControl, ownDelivered⟩ := own
  dsimp only at hallocated hdelivered hcontrol
  cases hcontrol with
  | ended outcome => exact ⟨hallocated, hdelivered, .ended outcome⟩
  | @running frame callers call ownCallers hstacked =>
      obtain ⟨happart, hbelow⟩ := List.pairwise_cons.mp hstacked.apart
      have hwalks : Walks buffers frame call ∧ List.Forall₂ (Walks buffers) callers ownCallers := by
        cases hstacked.walks with
        | cons hhead htail => exact ⟨hhead, htail⟩
      have hturn := hwalks.1.turn
      rw [OwnParser.Spares] at hspares
      dsimp only [OwnCall.nextPacket] at hspares
      rw [Parser.step, OwnParser.step]
      dsimp only
      generalize turn buffers frame = zlibTurn at hturn ⊢
      generalize turn call.buffers call.frame = ownTurn at hturn hspares ⊢
      cases hturn with
      | returned after after' offset skipping hkept =>
          have hinside := hwalks.1.inside
          have hclear : ∀ outer ∈ ownCallers, Clear call.frame.remaining outer.frame := fun outer houter =>
            (happart outer houter).mono (by omega)
          exact ⟨hkept.length.trans hallocated, hdelivered,
            sameControl_returnTo (Stacked.kept ⟨hwalks.2, hbelow⟩ hkept hclear) offset skipping⟩
      | malformed => exact ⟨hallocated, hdelivered, .ended .malformed⟩
      | packet length hwhole hle hheader =>
          have hfront : InFront buffers frame call length := ⟨hwalks.1, hwhole, hle, hheader⟩
          obtain ⟨hlength, hsame⟩ := hfront.sameControl hstacked hallocated hinflate (hspares _ rfl)
          refine ⟨hlength, ?_, hsame⟩
          show delivered ++ _ = ownDelivered ++ _
          rw [hdelivered]
          exact congrArg (ownDelivered ++ ·) (hfront.handlePacket_eq hinflate).2

theorem Simulates.after (h : Simulates parser own)
    (hinflate : ∀ buffers packet, libraries.uncompress buffers packet = inflate (packet.payload buffers))
    (hspares : ∀ n, (after (OwnParser.step libraries) n own).Spares libraries) (n : Nat) :
    Simulates (after (Parser.step libraries) n parser) (after (OwnParser.step libraries) n own) := by
  induction n generalizing parser own with
  | zero => exact h
  | succ n ih => exact ih (h.step hinflate (hspares 0)) fun k => hspares (k + 1)

end Simulation

section Delivery

variable {libraries : PacketLibraries} {inflate : Bytes → Uncompressed} {buffers : Buffers}
  {packet : BilibiliPacket} {data : Bytes}

theorem Inflates.simulates (h : Inflates libraries inflate buffers packet data) :
    Simulates (Parser.handlePacketCall libraries buffers packet) (OwnParser.handleBuffer data) := by
  have houtput : (libraries.uncompress buffers packet).output = data := by rw [h.uncompress, h.output]
  have hok : (libraries.uncompress buffers packet).ok = true := by rw [h.uncompress, h.ok]
  have hfits := (libraries.uncompress buffers packet).fits
  have hcall := @handlePacket_of_compressed libraries _ _ h.compressed h.inside
  rw [houtput] at hfits
  rw [hok, houtput, if_pos rfl] at hcall
  rw [Parser.handlePacketCall, hcall]
  have hlength : (data ++ buffers.zlib.drop data.length).length = zlibBufferSize := by
    rw [List.length_append, List.length_drop, h.allocated]
    omega
  refine ⟨hlength, rfl, .running ⟨.cons ⟨rfl, rfl, Nat.le_of_eq (Nat.zero_add _), Nat.le_refl _, ?_, ?_⟩ .nil,
    List.pairwise_singleton _ _⟩⟩
  · rw [hlength]
    exact hfits
  · rw [OwnCall.ofBytes, slice, slice, List.drop_zero, List.drop_zero, List.take_left, List.take_length]

-- Where every inflation spares what is still to be walked, the one buffer is as
-- good as a new one for each.
theorem sameMessages (h : Inflates libraries inflate buffers packet data)
    (hspares : ∀ n, (after (OwnParser.step libraries) n (.handleBuffer data)).Spares libraries) :
    SameMessages libraries buffers packet data := by
  have hsame := fun n => (h.simulates.after h.uncompress hspares n).delivered
  exact ⟨fun n => ⟨n, hsame n ▸ List.prefix_rfl⟩, fun n => ⟨n, hsame n ▸ List.prefix_rfl⟩⟩

-- zlib as far as these streams go.
def inflateListed (streams : List (Bytes × { data : Bytes // data.length ≤ zlibBufferSize })) (payload : Bytes) :
    Uncompressed :=
  match streams.lookup payload with
  | some data => ⟨true, data.1, data.2⟩
  | none => ⟨false, [], Nat.zero_le _⟩

def inflating (inflate : Bytes → Uncompressed) : PacketLibraries where
  uncompress buffers packet := inflate (packet.payload buffers)
  parseInsitu := blankText

theorem uncompress_inflating (inflate : Bytes → Uncompressed) (buffers : Buffers) (packet : BilibiliPacket) :
    (inflating inflate).uncompress buffers packet = inflate (packet.payload buffers) := rfl

-- The packet has been read, and nothing has been decompressed yet.
def asRead (packet : Bytes) : Buffers := ⟨packet, List.replicate zlibBufferSize 0⟩

theorem length_zlib_asRead (packet : Bytes) : (asRead packet).zlib.length = zlibBufferSize :=
  List.length_replicate

-- A heartbeat response.
def popularityPacket : Bytes := [0, 0, 0, 20, 0, 16, 0, 0, 0, 0, 0, 3, 0, 0, 0, 1, 0, 0, 0, 7]

-- The same compressed, and both of them, one behind the other, compressed again.
def popularityZipped : Bytes := [0, 0, 0, 38, 0, 16, 0, 2, 0, 0, 0, 5, 0, 0, 0, 1, 120, 218, 99, 96, 96, 16, 97, 16,
  96, 0, 1, 102, 32, 102, 4, 98, 118, 0, 2, 127, 0, 48]

def bothZipped : Bytes := [0, 0, 0, 70, 0, 16, 0, 2, 0, 0, 0, 5, 0, 0, 0, 1, 120, 218, 99, 96, 96, 16, 97, 16, 96, 0,
  1, 102, 32, 102, 4, 98, 118, 32, 86, 3, 138, 49, 1, 105, 86, 144, 88, 197, 173, 228, 132, 4, 129, 68, 129, 4, 6,
  198, 52, 133, 52, 150, 164, 50, 6, 166, 122, 6, 3, 0, 97, 102, 6, 62]

def inflateBoth : Bytes → Uncompressed :=
  inflateListed [(bothZipped.drop 16, ⟨popularityPacket ++ popularityZipped, by decide⟩),
    (popularityZipped.drop 16, ⟨popularityPacket, by decide⟩)]

theorem sameMessages_last : SameMessages (inflating inflateBoth) (asRead bothZipped)
    ⟨.read, 0, 70⟩ (popularityPacket ++ popularityZipped) := by
  have hinflates : Inflates (inflating inflateBoth) inflateBoth (asRead bothZipped)
      ⟨.read, 0, 70⟩ (popularityPacket ++ popularityZipped) :=
    ⟨uncompress_inflating _, length_zlib_asRead _, by decide, by decide, by decide +kernel, by decide +kernel⟩
  refine sameMessages hinflates fun n => ?_
  rcases Nat.lt_or_ge n 5 with hfirst | hlater
  · have hrun : ∀ n < 5, (after (OwnParser.step (inflating inflateBoth)) n
        (.handleBuffer (popularityPacket ++ popularityZipped))).Spares (inflating inflateBoth) := by
      decide +kernel
    exact hrun n hfirst
  · have hended : (after (OwnParser.step (inflating inflateBoth)) 5
        (.handleBuffer (popularityPacket ++ popularityZipped))).control = .ended (.returned 0 0) := by
      decide +kernel
    rw [← Nat.add_sub_of_le hlater, after_add, after_of_fixed (by rw [OwnParser.step, hended])]
    rw [OwnParser.Spares, hended]
    trivial

-- 100 bytes inflated from a packet of 39.
def joinedPacket : Bytes := [0, 0, 0, 100, 0, 16, 0, 0, 0, 0, 0, 8, 0, 0, 0, 1] ++ List.replicate 84 0

def joinedZipped : Bytes := [0, 0, 0, 39, 0, 16, 0, 2, 0, 0, 0, 5, 0, 0, 0, 1, 120, 218, 99, 96, 96, 72, 97, 16, 96,
  0, 1, 14, 32, 102, 100, 160, 1, 0, 0, 47, 85, 0, 126]

def outerZipped : Bytes := [0, 0, 0, 73, 0, 16, 0, 2, 0, 0, 0, 5, 0, 0, 0, 1, 120, 218, 99, 96, 96, 80, 103, 16, 96,
  96, 98, 96, 96, 96, 5, 98, 198, 138, 91, 201, 9, 9, 30, 137, 2, 9, 12, 140, 124, 10, 105, 41, 11, 24, 25, 24, 244,
  67, 25, 234, 128, 82, 34, 64, 101, 32, 192, 12, 82, 6, 196, 236, 0, 226, 147, 6, 153]

def inflateOuter : Bytes → Uncompressed :=
  inflateListed [(outerZipped.drop 16, ⟨joinedZipped ++ popularityPacket, by decide⟩),
    (joinedZipped.drop 16, ⟨joinedPacket, by decide⟩)]

-- The heartbeat response behind the compressed packet is gone: there the loop
-- finds zeros, and handle_buffer throws.
theorem sameMessages_refuted : ¬∀ libraries inflate buffers packet (packets : List Bytes),
    Inflates libraries inflate buffers packet packets.flatten → (∀ packet ∈ packets, WellFormed packet) →
    packets.flatten.length < zlibBufferSize → SameMessages libraries buffers packet packets.flatten := by
  intro h
  have hinflates : Inflates (inflating inflateOuter) inflateOuter (asRead outerZipped)
      ⟨.read, 0, 73⟩ [joinedZipped, popularityPacket].flatten :=
    ⟨uncompress_inflating _, length_zlib_asRead _, by decide, by decide, by decide +kernel, by decide +kernel⟩
  have hwellFormed : ∀ packet ∈ [joinedZipped, popularityPacket], WellFormed packet := by
    intro packet hpacket
    rcases List.mem_pair.mp hpacket with rfl | rfl
    · exact ⟨by decide, by decide, by decide⟩
    · exact ⟨by decide, by decide, by decide⟩
  obtain ⟨-, hsame⟩ := h _ _ _ _ _ hinflates hwellFormed (by decide)
  obtain ⟨n, hmessage⟩ := hsame 4
  have hdelivered : (after (OwnParser.step (inflating inflateOuter)) 4
      (.handleBuffer [joinedZipped, popularityPacket].flatten)).delivered = [.popularity 7] := by decide +kernel
  have hnothing : (after (Parser.step (inflating inflateOuter)) n (Parser.handlePacketCall (inflating inflateOuter)
      (asRead outerZipped) ⟨.read, 0, 73⟩)).delivered = [] := by
    rcases Nat.lt_or_ge n 4 with hfirst | hlater
    · have hrun : ∀ n < 4, (after (Parser.step (inflating inflateOuter)) n
          (Parser.handlePacketCall (inflating inflateOuter) (asRead outerZipped)
            ⟨.read, 0, 73⟩)).delivered = [] := by decide +kernel
      exact hrun n hfirst
    · have hthrown : (after (Parser.step (inflating inflateOuter)) 4
          (Parser.handlePacketCall (inflating inflateOuter) (asRead outerZipped)
            ⟨.read, 0, 73⟩)).control = .ended .malformed := by decide +kernel
      rw [← Nat.add_sub_of_le hlater, after_add,
        after_of_fixed (Parser.step_of_ended (Parser.frames_eq_nil.mpr ⟨_, hthrown⟩))]
      decide +kernel
  rw [hdelivered, hnothing] at hmessage
  exact absurd hmessage (by decide)

end Delivery

end LiveReceptor.Worker

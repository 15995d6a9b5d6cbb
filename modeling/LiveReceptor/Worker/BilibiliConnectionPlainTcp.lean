import LiveReceptor.Worker.PacketChunking

namespace LiveReceptor.Worker

open SimpleWorkerProto Memory StackMachine SkippingDecoder

-- What bilibili_connection_plain_tcp reads with. The memory has one byte more
-- than it offers for a read.
structure BilibiliConnectionPlainTcp where
  readBufferSize : Nat
  buffers : Buffers
  readBufferOffset : Nat := 0
  skippingBytes : Nat := 0

namespace BilibiliConnectionPlainTcp

def initial (readBufferSize : Nat) (memory : Allocation UInt8 (readBufferSize + 1)) (zlib : Bytes) :
    BilibiliConnectionPlainTcp := { readBufferSize, buffers := { read := memory.1, zlib } }

-- What start_read offers: the bytes from the offset to the end.
def free (connection : BilibiliConnectionPlainTcp) : Nat :=
  connection.readBufferSize - connection.readBufferOffset

-- The buffers once async_receive has written these bytes behind the offset.
def received (connection : BilibiliConnectionPlainTcp) (read : Bytes) : Buffers :=
  { connection.buffers with read := store connection.buffers.read connection.readBufferOffset read }

-- The call of handle_buffer.
def handleRead (connection : BilibiliConnectionPlainTcp) (read : Bytes) : Parser :=
  Parser.handleBuffer (connection.received read) read.length connection.readBufferSize
    connection.readBufferOffset connection.skippingBytes

-- on_receive without an error, in which handle_buffer returns. The contents are
-- those that it has handed to handle_packet.
def OnReceive (libraries : PacketLibraries) (connection : BilibiliConnectionPlainTcp) (read : Bytes)
    (contents : List Bytes) (next : BilibiliConnectionPlainTcp) : Prop :=
  ∃ n offset skipping,
    (after (Parser.step libraries) n (connection.handleRead read)).control = .ended (.returned offset skipping) ∧
    contents = Parser.handed libraries n (connection.handleRead read) ∧
    next = { connection with
      buffers := (after (Parser.step libraries) n (connection.handleRead read)).buffers
      readBufferOffset := offset
      skippingBytes := skipping }

-- Reads one after the other.
inductive ReceiveAll (libraries : PacketLibraries) : BilibiliConnectionPlainTcp → List Bytes → List Bytes →
    BilibiliConnectionPlainTcp → Prop
  | nil (connection : BilibiliConnectionPlainTcp) : ReceiveAll libraries connection [] [] connection
  | cons {connection next last : BilibiliConnectionPlainTcp} {read : Bytes} {reads first later : List Bytes}
      (head : OnReceive libraries connection read first next) (tail : ReceiveAll libraries next reads later last) :
      ReceiveAll libraries connection (read :: reads) (first ++ later) last

-- It holds of every read, in the state that the connection is in then.
def EveryRead (libraries : PacketLibraries) (P : BilibiliConnectionPlainTcp → Bytes → Prop)
    (connection : BilibiliConnectionPlainTcp) (reads : List Bytes) : Prop :=
  ∀ before read later, reads = before ++ read :: later →
    ∀ contents next, ReceiveAll libraries connection before contents next → P next read

variable {libraries : PacketLibraries} {connection next next' : BilibiliConnectionPlainTcp}
  {read : Bytes} {reads contents contents' : List Bytes}

section Relation

variable {P : BilibiliConnectionPlainTcp → Bytes → Prop}

theorem EveryRead.head (h : EveryRead libraries P connection (read :: reads)) : P connection read :=
  h [] read reads rfl [] connection (.nil connection)

theorem EveryRead.tail (h : EveryRead libraries P connection (read :: reads))
    (hhead : OnReceive libraries connection read contents next) : EveryRead libraries P next reads := by
  intro before other later hreads contents last htail
  exact h (read :: before) other later (congrArg (read :: ·) hreads) _ last (.cons hhead htail)

theorem EveryRead.of_append {later : List Bytes} (h : EveryRead libraries P connection (reads ++ later)) :
    EveryRead libraries P connection reads := by
  intro before other rest hreads
  apply h before other (rest ++ later)
  rw [hreads, List.append_assoc]
  rfl

-- A call that has ended stays as it is, and hands over nothing more.
theorem after_of_ended {parser : Parser} {outcome : Outcome} (h : parser.control = .ended outcome) (n : Nat) :
    after (Parser.step libraries) n parser = parser ∧ Parser.handed libraries n parser = [] := by
  have hfixed := @Parser.step_of_ended libraries _ (Parser.frames_eq_nil.mpr ⟨outcome, h⟩)
  have hnow : parser.handedNow = [] := by rw [Parser.handedNow, h]
  induction n with
  | zero => exact ⟨rfl, rfl⟩
  | succ n ih =>
      refine ⟨after_of_fixed hfixed _, ?_⟩
      rw [Parser.handed, hnow, hfixed, ih.2]
      rfl

theorem after_unique {parser : Parser} {m n : Nat} {outcome outcome' : Outcome}
    (hm : (after (Parser.step libraries) m parser).control = .ended outcome)
    (hn : (after (Parser.step libraries) n parser).control = .ended outcome') :
    after (Parser.step libraries) m parser = after (Parser.step libraries) n parser ∧
      Parser.handed libraries m parser = Parser.handed libraries n parser := by
  have hle : ∀ {m n outcome}, (after (Parser.step libraries) m parser).control = .ended outcome → m ≤ n →
      after (Parser.step libraries) n parser = after (Parser.step libraries) m parser ∧
        Parser.handed libraries n parser = Parser.handed libraries m parser := by
    intro m n outcome hm hmn
    obtain ⟨hafter, hhanded⟩ := @after_of_ended libraries _ _ hm (n - m)
    constructor
    · rw [← Nat.add_sub_of_le hmn, after_add, hafter]
    · rw [← Nat.add_sub_of_le hmn, Parser.handed_add, hhanded, List.append_nil]
  rcases Nat.le_total m n with hmn | hnm
  · obtain ⟨hafter, hhanded⟩ := hle hm hmn
    exact ⟨hafter.symm, hhanded.symm⟩
  · exact hle hn hnm

theorem OnReceive.unique (h : OnReceive libraries connection read contents next)
    (h' : OnReceive libraries connection read contents' next') : contents = contents' ∧ next = next' := by
  obtain ⟨m, offset, skipping, hm, rfl, rfl⟩ := h
  obtain ⟨n, offset', skipping', hn, rfl, rfl⟩ := h'
  obtain ⟨hafter, hhanded⟩ := after_unique hm hn
  rw [hafter] at hm ⊢
  obtain ⟨rfl, rfl⟩ : offset = offset' ∧ skipping = skipping' := by simpa [hm] using hn
  exact ⟨hhanded, rfl⟩

theorem ReceiveAll.unique (h : ReceiveAll libraries connection reads contents next)
    (h' : ReceiveAll libraries connection reads contents' next') : contents = contents' ∧ next = next' := by
  induction h generalizing contents' next' with
  | nil connection =>
      cases h'
      exact ⟨rfl, rfl⟩
  | cons head tail ih =>
      cases h' with
      | cons head' tail' =>
          obtain ⟨rfl, rfl⟩ := head.unique head'
          obtain ⟨rfl, rfl⟩ := ih tail'
          exact ⟨rfl, rfl⟩

end Relation

-- The connection is at this position in its stream.
structure Stands {bufferSize : Nat} (connection : BilibiliConnectionPlainTcp)
    (position : (packetDecoder bufferSize).Position) : Prop where
  size : connection.readBufferSize = bufferSize
  memory : connection.buffers.read.length = bufferSize + 1
  offset : connection.readBufferOffset = position.tail.length
  front : connection.buffers.read.take position.tail.length = position.tail
  skipping : connection.skippingBytes = position.skip

section Refinement

variable {bufferSize : Nat} {position : (packetDecoder bufferSize).Position} {data more : Bytes}
  {packets : List Bytes}

theorem stands_initial (memory : Allocation UInt8 (bufferSize + 1)) (zlib : Bytes) :
    Stands (initial bufferSize memory zlib) (Position.start (packetDecoder bufferSize)) :=
  ⟨rfl, memory.2, rfl, rfl, rfl⟩

theorem Stands.length_received (h : Stands connection position)
    (hfits : position.tail.length + read.length ≤ bufferSize) :
    (connection.received read).read.length = bufferSize + 1 := by
  have hmemory := h.memory
  have hoffset := h.offset
  show (store connection.buffers.read connection.readBufferOffset read).length = _
  rw [length_store _ _ _ (by omega), hmemory]

theorem Stands.slice_received (h : Stands connection position)
    (hfits : position.tail.length + read.length ≤ bufferSize) :
    slice (connection.received read).read position.skip
      (position.tail.length + read.length - position.skip) = position.pending read := by
  have hmemory := h.memory
  have hread : read.take (connection.buffers.read.length - position.tail.length) = read :=
    List.take_of_length_le (by omega)
  have hwhole : slice (connection.received read).read 0 (position.tail.length + read.length) =
      position.tail ++ read := by
    show slice (store connection.buffers.read connection.readBufferOffset read) 0 _ = _
    rw [slice, List.drop_zero, store, h.offset, h.front, hread, ← List.length_append, List.take_left]
  rw [Position.pending, ← hwhole, Framing.drop_slice, Nat.zero_add]

theorem stands_of_leaves {buffers : Buffers} {offset skipping : Nat}
    {undecoded : (packetDecoder bufferSize).next data = none}
    (h : Parser.Leaves bufferSize data buffers.read offset skipping)
    (hsize : connection.readBufferSize = bufferSize) (hmemory : buffers.read.length = bufferSize + 1) :
    Stands { connection with buffers, readBufferOffset := offset, skippingBytes := skipping }
      (Position.settle data undecoded) := by
  rw [Parser.Leaves] at h
  cases hskips : (packetDecoder bufferSize).skips data with
  | none =>
      rw [hskips] at h
      rw [Position.settle_of_none hskips]
      exact ⟨hsize, hmemory, h.1, h.2.2, h.2.1⟩
  | some n =>
      rw [hskips] at h
      rw [Position.settle_of_some hskips]
      exact ⟨hsize, hmemory, h.1, rfl, h.2⟩

-- One read of the connection is one read of the decoder.
theorem Stands.receive (h : Stands connection position)
    (hfits : position.tail.length + read.length ≤ bufferSize)
    (hcalls : Parser.CallsReturn libraries (connection.handleRead read))
    (hgood : ¬position.skip > read.length →
      ¬Malformed ((packetDecoder bufferSize).drain (position.pending read)).2) :
    ∃ next, OnReceive libraries connection read (position.decoded read) next ∧
      Stands next (position.advance read) := by
  by_cases hskip : position.skip > read.length
  · have hcall : connection.handleRead read =
        { buffers := connection.received read
          control := .ended (.returned 0 (position.skip - read.length)) } := by
      rw [handleRead, Parser.handleBuffer, h.skipping, if_pos hskip]
    rw [Position.decoded, Position.advance, if_pos hskip, if_pos hskip]
    refine ⟨_, ⟨0, 0, position.skip - read.length, ?_, rfl, rfl⟩, h.size, ?_, rfl, rfl, rfl⟩
    · rw [hcall]
      rfl
    · rw [hcall]
      exact h.length_received hfits
  · have hlast : position.tail.length + read.length - position.skip =
        read.length - position.skip + connection.readBufferOffset := by
      rw [h.offset]
      omega
    have hcall : connection.handleRead read =
        { buffers := connection.received read
          control := .running ⟨.read, bufferSize, position.skip,
            position.tail.length + read.length - position.skip⟩ [] } := by
      rw [handleRead, Parser.handleBuffer, h.skipping, if_neg hskip, h.size, hlast]
    have hlength := h.length_received hfits
    have hin : position.skip + (position.tail.length + read.length - position.skip) ≤
        (connection.received read).read.length := by omega
    rw [hcall] at hcalls
    obtain ⟨n, offset, skipping, hended, hhanded, hsame, hleaves⟩ :=
      Parser.loop_returns rfl rfl rfl (h.slice_received hfits) hin hcalls (hgood hskip)
    rw [← hcall] at hended hhanded hsame hleaves
    rw [Position.decoded, Position.advance, if_neg hskip, if_neg hskip]
    refine ⟨_, ⟨n, offset, skipping, hended, hhanded.symm, rfl⟩, stands_of_leaves hleaves h.size ?_⟩
    rw [hsame, hcall]
    exact hlength

-- Of well-formed packets nothing malformed is ever kept.
theorem not_malformed_tail (hpackets : ∀ packet ∈ packets, WellFormed packet)
    (h : Before bufferSize position more packets) : ¬Malformed position.tail := by
  intro hbad
  have hskip : position.skip = 0 := by
    refine position.apart.resolve_right fun hnil => ?_
    rw [hnil] at hbad
    exact absurd hbad.1 (by decide)
  obtain ⟨skipped, hskipped, hrest⟩ := h.rest
  rw [List.eq_nil_of_length_eq_zero (hskipped.trans hskip), List.nil_append] at hrest
  cases packets with
  | nil =>
      rw [(List.append_eq_nil_iff.mp hrest).1] at hbad
      exact absurd hbad.1 (by decide)
  | cons packet packets =>
      have hpacket := hpackets packet List.mem_cons_self
      have hwhole := (malformed_append more hbad.1).mpr hbad
      rw [hrest, List.flatten_cons, malformed_append _ hpacket.header] at hwhole
      exact hpacket.not_malformed hwhole

theorem not_malformed_of_settle (hpackets : ∀ packet ∈ packets, WellFormed packet)
    (undecoded : (packetDecoder bufferSize).next data = none)
    (h : Before bufferSize (Position.settle data undecoded) more packets) : ¬Malformed data := by
  intro hbad
  have hkept : (packetDecoder bufferSize).skips data = none := if_neg fun hlong => hlong.2.1 hbad
  rw [Position.settle_of_none hkept] at h
  exact not_malformed_tail hpackets h hbad

theorem length_tail_lt (hsize : packetHeaderSize ≤ bufferSize) (hgood : ¬Malformed position.tail) :
    position.tail.length < bufferSize := by
  by_contra hlong
  have hheader : packetHeaderSize ≤ position.tail.length := by omega
  have hholds : ¬bufferSize < (headerAt position.tail 0).length := by
    intro hover
    have hkept := position.kept
    rw [packetDecoder_skips, if_pos ⟨hheader, hgood, hover⟩] at hkept
    cases hkept
  have hundecoded := position.undecoded
  rw [packetDecoder_next, if_pos ⟨hheader, hgood, by omega, by omega⟩] at hundecoded
  cases hundecoded

end Refinement

-- What is assumed of a read: it fits in what was offered for it, and
-- handle_packet does not throw.
structure Regular (libraries : PacketLibraries) (connection : BilibiliConnectionPlainTcp) (read : Bytes) :
    Prop where
  fits : read.length ≤ connection.free
  returns : Parser.CallsReturn libraries (connection.handleRead read)

section Claim

variable {bufferSize : Nat} {position : (packetDecoder bufferSize).Position} {more : Bytes}
  {packets : List Bytes}

theorem encodes_packets (hpackets : ∀ packet ∈ packets, WellFormed packet) :
    ∀ packet ∈ packets,
      (packetDecoder bufferSize).Encodes bufferSize packet (handedOver bufferSize packet) :=
  fun packet hpacket => encodes_of_wellFormed (hpackets packet hpacket)

-- One read brings the connection to the packets that it has not yet handed over.
theorem Stands.receive_packets (h : Stands connection position)
    (hpackets : ∀ packet ∈ packets, WellFormed packet) (hbefore : Before bufferSize position (read ++ more) packets)
    (hregular : Regular libraries connection read) :
    ∃ next others, OnReceive libraries connection read (position.decoded read) next ∧ others <:+ packets ∧
      packets.filterMap (handedOver bufferSize) =
        position.decoded read ++ others.filterMap (handedOver bufferSize) ∧
      Stands next (position.advance read) ∧ Before bufferSize (position.advance read) more others := by
  have hfits : position.tail.length + read.length ≤ bufferSize := by
    have hfree := hregular.fits
    have hkept := hbefore.fits
    rw [free, h.size, h.offset] at hfree
    omega
  obtain ⟨others, hothers, hframes, hlater⟩ := hbefore.advance (encodes_packets hpackets) hfits
  have hgood : ¬position.skip > read.length →
      ¬Malformed ((packetDecoder bufferSize).drain (position.pending read)).2 := by
    intro hskip
    rw [Position.advance, if_neg hskip] at hlater
    exact not_malformed_of_settle (fun packet hpacket => hpackets packet (hothers.subset hpacket)) _ hlater
  obtain ⟨next, hreceive, hstands⟩ := h.receive hfits hregular.returns hgood
  exact ⟨next, others, hreceive, hothers, hframes, hstands, hlater⟩

theorem Stands.receiveAll (h : Stands connection position)
    (hpackets : ∀ packet ∈ packets, WellFormed packet)
    (hbefore : Before bufferSize position (reads.flatten ++ more) packets)
    (hregular : EveryRead libraries (Regular libraries) connection reads) :
    ∃ contents next others, ∃ position' : (packetDecoder bufferSize).Position,
      ReceiveAll libraries connection reads contents next ∧ others <:+ packets ∧
      packets.filterMap (handedOver bufferSize) = contents ++ others.filterMap (handedOver bufferSize) ∧
      Stands next position' ∧ Before bufferSize position' more others := by
  induction reads generalizing connection position packets with
  | nil => exact ⟨[], connection, packets, position, .nil connection, List.suffix_rfl, rfl, h, hbefore⟩
  | cons read rest ih =>
      rw [List.flatten_cons, List.append_assoc] at hbefore
      obtain ⟨middle, left, hreceive, hleft, hfirst, hstands, hlater⟩ :=
        h.receive_packets hpackets hbefore hregular.head
      obtain ⟨contents, next, others, position', hrest, hothers, hsecond, hlast, hbefore'⟩ :=
        ih hstands (fun packet hpacket => hpackets packet (hleft.subset hpacket)) hlater
          (hregular.tail hreceive)
      refine ⟨_, next, others, position', .cons hreceive hrest, hothers.trans hleft, ?_, hlast, hbefore'⟩
      rw [hfirst, hsecond, List.append_assoc]

theorem filterMap_handedOver (packets : List Bytes) :
    packets.filterMap (handedOver bufferSize) = packets.filter fun packet => packet.length ≤ bufferSize := by
  induction packets with
  | nil => rfl
  | cons packet rest ih =>
      rw [List.filterMap_cons, List.filter_cons, ih, handedOver]
      by_cases h : packet.length ≤ bufferSize <;> simp [h]

-- However the packets of a stream are cut into reads, exactly those that fit in
-- the buffer are handed over, whole, in order and once each. The others are
-- skipped to their ends: the next packet is found behind each of them.
theorem receiveAll_packets (libraries : PacketLibraries) (bufferSize : Nat)
    (memory : Allocation UInt8 (bufferSize + 1)) (zlib : Bytes) (packets reads : List Bytes)
    (hsize : packetHeaderSize ≤ bufferSize) (hpackets : ∀ packet ∈ packets, WellFormed packet)
    (hcut : reads.flatten = packets.flatten)
    (hregular : EveryRead libraries (Regular libraries) (initial bufferSize memory zlib) reads) :
    (∃ last, ReceiveAll libraries (initial bufferSize memory zlib) reads
        (packets.filter fun packet => packet.length ≤ bufferSize) last ∧
      last.readBufferOffset = 0 ∧ last.skippingBytes = 0) ∧
    ∀ before, before <+: reads → ∀ contents next,
      ReceiveAll libraries (initial bufferSize memory zlib) before contents next →
        next.readBufferOffset < bufferSize := by
  have hstart : ∀ more : Bytes, more = packets.flatten →
      Before bufferSize (Position.start (packetDecoder bufferSize)) more packets := fun more hmore =>
    ⟨Nat.zero_le _, [], rfl, hmore⟩
  constructor
  · have hbegin := hstart (reads.flatten ++ []) ((List.append_nil _).trans hcut)
    obtain ⟨contents, next, others, position, hreceive, hothers, hframes, hstands, hbefore⟩ :=
      (stands_initial memory zlib).receiveAll hpackets hbegin hregular
    obtain ⟨rfl, rfl⟩ := hbefore.done (encodes_packets fun packet hpacket =>
      hpackets packet (hothers.subset hpacket))
    rw [List.filterMap_nil, List.append_nil, filterMap_handedOver] at hframes
    rw [hframes]
    exact ⟨next, hreceive, hstands.offset, hstands.skipping⟩
  · rintro before ⟨later, rfl⟩ contents next hreceive
    rw [List.flatten_append] at hcut
    obtain ⟨contents', next', others, position, hreceive', hothers, -, hstands, hbefore⟩ :=
      (stands_initial memory zlib).receiveAll hpackets (hstart _ hcut) hregular.of_append
    obtain ⟨-, rfl⟩ := hreceive.unique hreceive'
    rw [hstands.offset]
    exact length_tail_lt hsize (not_malformed_tail (fun packet hpacket =>
      hpackets packet (hothers.subset hpacket)) hbefore)

-- Libraries that never decompress anything.
theorem callsReturn_of_fails (h : ∀ buffers packet, (libraries.uncompress buffers packet).ok = false)
    (parser : Parser) : Parser.CallsReturn libraries parser := by
  intro m frame packet hcontrol hturn hlength
  obtain ⟨-, hword, hheader, -⟩ := Parser.turn_packet hturn
  have hinside : packet.PayloadInside := (BilibiliPacket.payloadInside_iff hword).mpr hlength
  have hreturns : ∀ buffers : Buffers, (packet.header buffers).headerLength = packetHeaderSize →
      (handlePacket libraries buffers packet).next = .returns := by
    intro buffers hsixteen
    unfold handlePacket
    simp only [hsixteen, hinside, decompressBuffer, h, not_true_eq_false, ne_eq, if_false,
      Bool.false_eq_true]
    split
    · rfl
    split
    · rfl
    split
    · split <;> rfl
    · rfl
  refine ⟨0, ?_⟩
  rw [Nat.zero_add, after_succ, Parser.step, hcontrol]
  dsimp only
  rw [hturn]
  dsimp only
  rw [hreturns _ hheader]
  rfl

-- A packet that is one byte longer than the buffer, and one without a payload.
def longPacket : Bytes :=
  [0, 0, 0, 33, 0, 16, 0, 0, 0, 0, 0, 5, 0, 0, 0, 1] ++ List.replicate 17 0

def shortPacket : Bytes := [0, 0, 0, 16, 0, 16, 0, 0, 0, 0, 0, 2, 0, 0, 0, 1]

def failingLibraries : PacketLibraries := ⟨fun _ _ => ⟨false, [], Nat.zero_le _⟩, fun text => ⟨text, rfl⟩⟩

-- The first read ends within the long packet, of which 13 bytes are then skipped.
theorem offset_after_long {contents : List Bytes}
    (h : OnReceive failingLibraries (initial 32 ⟨List.replicate 33 0, rfl⟩ []) (longPacket.take 20)
      contents next) : next.readBufferOffset = 0 ∧ next.readBufferSize = 32 := by
  obtain ⟨n, offset, skipping, hended, -, rfl⟩ := h
  have hknown : (after (Parser.step failingLibraries) 1 ((initial 32 ⟨List.replicate 33 0, rfl⟩ []).handleRead
      (longPacket.take 20))).control = .ended (.returned 0 13) := by decide
  have hsame := (after_unique hknown hended).1
  rw [hsame, hended] at hknown
  cases hknown
  exact ⟨rfl, rfl⟩

theorem regular_two : EveryRead failingLibraries (Regular failingLibraries)
    (initial 32 ⟨List.replicate 33 0, rfl⟩ []) [longPacket.take 20, longPacket.drop 20 ++ shortPacket] := by
  have hreturns : ∀ parser, Parser.CallsReturn failingLibraries parser := callsReturn_of_fails fun _ _ => rfl
  intro before read later hreads contents next hreceive
  refine ⟨?_, hreturns _⟩
  cases before with
  | nil =>
      obtain ⟨rfl, -⟩ := List.cons.inj hreads
      cases hreceive
      decide
  | cons first before =>
      obtain ⟨rfl, hsecond⟩ := List.cons.inj hreads
      cases before with
      | nil =>
          obtain ⟨rfl, -⟩ := List.cons.inj hsecond
          cases hreceive with
          | cons head tail =>
              cases tail
              obtain ⟨hoffset, hsize⟩ := offset_after_long head
              rw [free, hoffset, hsize]
              decide
      | cons second before =>
          obtain ⟨-, hnone⟩ := List.cons.inj hsecond
          exact absurd hnone.symm (List.append_ne_nil_of_right_ne_nil _ (List.cons_ne_nil _ _))

-- A read that ends within a packet that is skipped, and one with its end and the
-- next packet.
theorem receiveAll_packets_two :
    (∃ last, ReceiveAll failingLibraries (initial 32 ⟨List.replicate 33 0, rfl⟩ [])
        [longPacket.take 20, longPacket.drop 20 ++ shortPacket] [shortPacket] last ∧
      last.readBufferOffset = 0 ∧ last.skippingBytes = 0) ∧
    ∀ before, before <+: [longPacket.take 20, longPacket.drop 20 ++ shortPacket] → ∀ contents next,
      ReceiveAll failingLibraries (initial 32 ⟨List.replicate 33 0, rfl⟩ []) before contents next →
        next.readBufferOffset < 32 := by
  refine receiveAll_packets failingLibraries 32 ⟨List.replicate 33 0, rfl⟩ [] [longPacket, shortPacket] _
    (by decide) ?_ (by decide) regular_two
  exact List.forall_mem_cons.mpr ⟨⟨by decide, by decide, by decide⟩,
    List.forall_mem_singleton.mpr ⟨by decide, by decide, by decide⟩⟩

end Claim

end BilibiliConnectionPlainTcp

end LiveReceptor.Worker

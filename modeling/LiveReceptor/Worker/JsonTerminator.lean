import LiveReceptor.Worker.PacketChunking

namespace LiveReceptor.Worker

open SimpleWorkerProto Memory StackMachine

-- Where the bytes of the packets come to lie, and what is allocated for them.
inductive Received (buffers : Buffers) : Place → Nat → Prop
  -- new unsigned char[_read_buffer_size + 1], of which async_receive fills all but the last
  | plainTcp (readBufferSize received : Nat) (allocated : buffers.read.length = readBufferSize + 1)
      (fits : received ≤ readBufferSize) : Received buffers .read received
  -- _read_buffer.reserve(_read_buffer.size() + 1), before the pointer is taken
  | websocket (received : Nat) (reserved : received + 1 ≤ buffers.read.length) : Received buffers .read received
  -- new unsigned char[zlib_buffer_size], with all of it offered to uncompress
  | zlib (outSize : Nat) (allocated : buffers.zlib.length = zlibBufferSize) (fits : outSize ≤ zlibBufferSize) :
      Received buffers .zlib outSize

-- A packet anywhere in the received bytes.
structure PacketIn (buffers : Buffers) (received : Nat) (packet : BilibiliPacket) : Prop where
  allocation : Received buffers packet.place received
  length : packet.length = (packet.header buffers).length
  header : packetHeaderSize ≤ packet.length
  inside : packet.start + packet.length ≤ received

namespace BilibiliPacket

variable (packet : BilibiliPacket) (buffers : Buffers)

def Compressed : Prop :=
  (packet.header buffers).headerLength = packetHeaderSize ∧
    (packet.header buffers).protocolVersion = zlibCompressed

-- handle_packet stores a NUL behind the payload.
def Terminated : Prop :=
  (packet.header buffers).headerLength = packetHeaderSize ∧
    (packet.header buffers).protocolVersion ≠ zlibCompressed ∧ (packet.header buffers).opCode = jsonMessage

instance : Decidable (packet.Compressed buffers) := inferInstanceAs (Decidable (_ ∧ _))

instance : Decidable (packet.Terminated buffers) := inferInstanceAs (Decidable (_ ∧ _))

-- Whatever zlib and the parser do: the NUL is stored inside the allocation, and
-- when handle_packet is over, by a return or a throw, the bytes of the buffer
-- that are not of the payload are as they were.
structure TerminatorContained : Prop where
  inside : packet.Terminated buffers →
    packet.payloadStart + packet.payloadSize < (buffers.buf packet.place).length
  kept : ∀ libraries n outcome, outcome ≠ .undefined →
    (after (Parser.step libraries) n (Parser.handlePacketCall libraries buffers packet)).control =
      .ended outcome →
    ∀ i, i < packet.payloadStart ∨ packet.start + packet.length ≤ i →
      ((after (Parser.step libraries) n (Parser.handlePacketCall libraries buffers packet)).buffers.buf
        packet.place)[i]? = (buffers.buf packet.place)[i]?

-- In the zlib buffer nothing is reserved for the NUL, and what is decompressed
-- there goes over it.
def FitsPlace : Prop :=
  packet.place = .zlib → ¬packet.Compressed buffers ∧
    (packet.Terminated buffers → packet.start + packet.length < zlibBufferSize)

end BilibiliPacket

variable {libraries : PacketLibraries} {buffers : Buffers} {packet : BilibiliPacket} {received : Nat}

section Bounds

theorem PacketIn.word (h : PacketIn buffers received packet) : packet.length < 4294967296 := by
  rw [h.length]
  exact UInt32.toNat_lt _

theorem PacketIn.payload (h : PacketIn buffers received packet) :
    packet.payloadStart + packet.payloadSize = packet.start + packet.length :=
  payloadSize_of_sound h.header h.word

theorem Received.le_length {place : Place} (h : Received buffers place received) :
    received ≤ (buffers.buf place).length := by
  cases h with
  | plainTcp readBufferSize received allocated fits =>
      rw [Buffers.buf]
      omega
  | websocket received reserved =>
      rw [Buffers.buf]
      omega
  | zlib outSize allocated fits => rwa [Buffers.buf, allocated]

theorem PacketIn.le_length (h : PacketIn buffers received packet) :
    packet.start + packet.length ≤ (buffers.buf packet.place).length := h.inside.trans h.allocation.le_length

-- Both read buffers have a byte to spare.
theorem PacketIn.lt_length_iff (h : PacketIn buffers received packet) :
    packet.start + packet.length < (buffers.buf packet.place).length ↔
      (packet.place = .zlib → packet.start + packet.length < zlibBufferSize) := by
  obtain ⟨place, start, length⟩ := packet
  have hinside := h.inside
  have hreceived := h.allocation
  dsimp only at hinside hreceived ⊢
  cases hreceived with
  | plainTcp readBufferSize received allocated fits =>
      rw [Buffers.buf]
      simp only [reduceCtorEq, false_implies, iff_true]
      omega
  | websocket received reserved =>
      rw [Buffers.buf]
      simp only [reduceCtorEq, false_implies, iff_true]
      omega
  | zlib outSize allocated fits =>
      rw [Buffers.buf, allocated]
      simp only [forall_const]

end Bounds

section Memory

-- Nothing has changed before `first`, and nothing from `last` on.
structure KeptOutside (first last : Nat) (buf buf' : Bytes) : Prop where
  ahead : buf'.take first = buf.take first
  behind : KeptFrom last buf buf'

theorem KeptOutside.refl (first last : Nat) (buf : Bytes) : KeptOutside first last buf buf :=
  ⟨rfl, .refl last buf⟩

theorem KeptOutside.getElem?_eq {first last i : Nat} {buf buf' : Bytes} (h : KeptOutside first last buf buf')
    (hi : i < first ∨ last ≤ i) : buf'[i]? = buf[i]? := by
  rcases hi with hi | hi
  · have hahead := congrArg (fun bytes : Bytes => bytes[i]?) h.ahead
    simpa only [List.getElem?_take_of_lt hi] using hahead
  · have hbehind := congrArg (fun bytes : Bytes => bytes[i - last]?) h.behind.behind
    simpa only [List.getElem?_drop, Nat.add_sub_cancel' hi] using hbehind

-- The text is parsed where it stands.
theorem keptOutside_serializeInPlace (h : PacketIn buffers received packet) :
    KeptOutside packet.payloadStart (packet.start + packet.length) (buffers.buf packet.place)
      ((serializeInPlace libraries buffers packet).buf packet.place) := by
  have hpayload := h.payload
  have hin := h.le_length
  have hlength : (packet.payload buffers).length = packet.payloadSize :=
    Framing.slice_length (by rw [hpayload]; exact hin)
  have htext : (libraries.parseInsitu (packet.payload buffers)).1.length = packet.payloadSize :=
    (libraries.parseInsitu (packet.payload buffers)).2.trans hlength
  have hset : (serializeInPlace libraries buffers packet).buf packet.place =
      (store ((buffers.buf packet.place).set (packet.start + packet.length) 0) packet.payloadStart
        (libraries.parseInsitu (packet.payload buffers)).1).set (packet.start + packet.length)
        ((buffers.buf packet.place)[packet.start + packet.length]?.getD 0) := by
    rw [serializeInPlace, hpayload]
    cases packet.place <;> rfl
  rw [hset]
  constructor
  · rw [List.take_set_of_le (by omega), take_store_of_le (Nat.le_refl _) (by rw [List.length_set]; omega),
      List.take_set_of_le (by omega)]
  · exact keptFrom_store (by rw [htext, hpayload]) hin

-- Decompression of a packet of a read buffer writes elsewhere, and nothing at all
-- writes nowhere.
theorem buf_decompressBuffer
    (h : packet.place = .zlib → (libraries.uncompress buffers packet).output = []) :
    (decompressBuffer libraries buffers packet).2.buf packet.place = buffers.buf packet.place := by
  cases hplace : packet.place with
  | read => rfl
  | zlib =>
      rw [decompressBuffer, h hplace]
      rfl

theorem handlePacket_of_compressed (hcompressed : packet.Compressed buffers) (hinside : packet.PayloadInside) :
    handlePacket libraries buffers packet =
      { buffers := ⟨buffers.read, (libraries.uncompress buffers packet).output ++
          buffers.zlib.drop (libraries.uncompress buffers packet).output.length⟩
        passed := [packet]
        next := (if (libraries.uncompress buffers packet).ok then
          .nested (libraries.uncompress buffers packet).output.length else .returns) } := by
  unfold handlePacket
  dsimp only
  rw [if_neg (not_not_intro hcompressed.1), if_pos hcompressed.2, if_neg (not_not_intro hinside)]
  simp only [decompressBuffer]
  cases (libraries.uncompress buffers packet).ok <;> rfl

-- A nested call is for all that was decompressed.
theorem compressed_of_nested {outSize : Nat} (h : (handlePacket libraries buffers packet).next = .nested outSize) :
    packet.Compressed buffers ∧ packet.PayloadInside ∧
      outSize = (libraries.uncompress buffers packet).output.length := by
  unfold handlePacket at h
  dsimp only at h
  split at h
  · cases h
  next hheader =>
  split at h
  · next hversion =>
    split at h
    · cases h
    · next hinside =>
      refine ⟨⟨not_not.mp hheader, hversion⟩, not_not.mp hinside, ?_⟩
      split at h
      · cases h
      · next size after heq =>
        obtain rfl : size = outSize := Next.nested.inj h
        have hsize : (if (libraries.uncompress buffers packet).ok then
            some (libraries.uncompress buffers packet).output.length else none) = some size :=
          congrArg Prod.fst heq
        split at hsize
        · exact (Option.some.inj hsize).symm
        · cases hsize
  split at h
  · split at h <;> cases h
  split at h
  · split at h <;> cases h
  · cases h

theorem keptOutside_handlePacket (h : PacketIn buffers received packet)
    (hspared : packet.place = .zlib → packet.Compressed buffers →
      (libraries.uncompress buffers packet).output = []) :
    KeptOutside packet.payloadStart (packet.start + packet.length) (buffers.buf packet.place)
      ((handlePacket libraries buffers packet).buffers.buf packet.place) := by
  unfold handlePacket
  dsimp only
  split
  · exact .refl _ _ _
  next hheader =>
  split
  · next hversion =>
    have hkept := @buf_decompressBuffer libraries buffers packet fun hplace =>
      hspared hplace ⟨not_not.mp hheader, hversion⟩
    split
    · exact .refl _ _ _
    · split
      · next after heq =>
        rw [heq] at hkept
        exact hkept.symm ▸ .refl _ _ _
      · next after heq =>
        rw [heq] at hkept
        exact hkept.symm ▸ .refl _ _ _
  split
  · split
    · exact .refl _ _ _
    · exact keptOutside_serializeInPlace h
  split
  · split <;> exact .refl _ _ _
  · exact .refl _ _ _

end Memory

namespace Parser

-- The calls below a call of handle_packet walk the zlib buffer only.
structure InZlib (read : Bytes) (parser : Parser) : Prop where
  places : ∀ frame ∈ parser.frames, frame.place = .zlib
  kept : parser.buffers.read = read

theorem InZlib.step {read : Bytes} {parser : Parser} (h : InZlib read parser) :
    InZlib read (step libraries parser) := by
  cases hcontrol : parser.control with
  | ended outcome =>
      rw [step_of_ended (frames_eq_nil.mpr ⟨outcome, hcontrol⟩)]
      exact h
  | running frame callers =>
      have hplaces := h.places
      rw [frames_eq_cons.mpr hcontrol] at hplaces
      obtain ⟨hplace, hcallers⟩ := List.forall_mem_cons.mp hplaces
      rw [Parser.step, hcontrol]
      dsimp only
      cases hturn : turn parser.buffers frame with
      | returned after offset skipping =>
          refine ⟨?_, (read_of_turn hplace hturn).trans h.kept⟩
          cases callers with
          | nil => simp [frames, returnTo]
          | cons caller rest => simpa [frames, returnTo] using hcallers
      | malformed => exact ⟨by simp [frames], h.kept⟩
      | packet packet =>
          have hpacket : packet.place = .zlib := by
            rw [(turn_packet hturn).1]
            exact hplace
          have hadvance : ∀ other ∈ advance frame packet :: callers, other.place = .zlib :=
            List.forall_mem_cons.mpr ⟨hplace, hcallers⟩
          refine ⟨?_, (@read_handlePacket_of_zlib libraries _ _ hpacket).trans h.kept⟩
          dsimp only [frames]
          cases (handlePacket libraries parser.buffers packet).next with
          | returns => exact hadvance
          | malformed => simp [resume]
          | undefined => simp [resume]
          | nested outSize => exact List.forall_mem_cons.mpr ⟨rfl, hadvance⟩

theorem InZlib.after {read : Bytes} {parser : Parser} (h : InZlib read parser) (n : Nat) :
    InZlib read (after (Parser.step libraries) n parser) := by
  induction n generalizing parser with
  | zero => exact h
  | succ n ih => exact ih h.step

theorem inZlib_handlePacketCall : InZlib (handlePacket libraries buffers packet).buffers.read
    (handlePacketCall libraries buffers packet) := by
  refine ⟨?_, rfl⟩
  unfold handlePacketCall
  dsimp only [frames]
  cases (handlePacket libraries buffers packet).next with
  | nested outSize => simp
  | returns | malformed | undefined => simp

-- A call of handle_buffer for nothing returns at once.
theorem after_of_empty {frame : Frame} {parser : Parser} (hcontrol : parser.control = .running frame [])
    (hremaining : frame.remaining = 0) (n : Nat) :
    (after (step libraries) n parser).buffers = parser.buffers := by
  cases n with
  | zero => rfl
  | succ n =>
      have hturn : turn parser.buffers frame = .returned parser.buffers 0 0 := by
        unfold turn
        exact if_pos hremaining
      have hstep : step libraries parser = { parser with control := .ended (.returned 0 0) } := by
        rw [step, hcontrol]
        dsimp only
        rw [hturn]
        rfl
      rw [after, hstep, after_of_fixed (step_of_ended rfl)]

-- What the call leaves, when it is over.
theorem keptOutside_handlePacketCall (h : PacketIn buffers received packet)
    (hspared : packet.place = .zlib → packet.Compressed buffers →
      (libraries.uncompress buffers packet).output = []) (n : Nat) :
    KeptOutside packet.payloadStart (packet.start + packet.length) (buffers.buf packet.place)
      ((after (step libraries) n (handlePacketCall libraries buffers packet)).buffers.buf packet.place) := by
  have hkept := keptOutside_handlePacket h hspared
  suffices hsame : (after (step libraries) n (handlePacketCall libraries buffers packet)).buffers.buf
      packet.place = (handlePacket libraries buffers packet).buffers.buf packet.place by
    rwa [hsame]
  cases hplace : packet.place with
  | read => exact (inZlib_handlePacketCall.after n).kept
  | zlib =>
      cases hnext : (handlePacket libraries buffers packet).next with
      | nested outSize =>
          obtain ⟨hcompressed, -, hsize⟩ := compressed_of_nested hnext
          have hempty : outSize = 0 := by rw [hsize, hspared hplace hcompressed, List.length_nil]
          have hcontrol : (handlePacketCall libraries buffers packet).control =
              .running ⟨.zlib, outSize, 0, outSize⟩ [] := by
            rw [handlePacketCall, hnext]
          rw [after_of_empty hcontrol hempty]
          rfl
      | returns | malformed | undefined =>
          have hended : (handlePacketCall libraries buffers packet).frames = [] := by
            rw [frames, handlePacketCall, hnext]
          rw [after_of_fixed (step_of_ended hended)]
          rfl

end Parser

section Exactness

def blankText (text : Bytes) : { left : Bytes // left.length = text.length } :=
  ⟨List.replicate text.length 0, List.length_replicate⟩

-- A single byte comes out of the packet, which is not the one in front of the
-- buffer: it is stored there, and too short for a packet.
def otherByte (zlib : Bytes) : PacketLibraries where
  uncompress _ _ := ⟨true, [zlib.head?.getD 0 + 1], (by decide : 1 ≤ zlibBufferSize)⟩
  parseInsitu := blankText

theorem not_contained_of_compressed (h : PacketIn buffers received packet) (hplace : packet.place = .zlib)
    (hcompressed : packet.Compressed buffers) : ¬packet.TerminatorContained buffers := by
  intro hcontained
  have hword := h.word
  have hinside : packet.PayloadInside := (BilibiliPacket.payloadInside_iff hword).mpr h.header
  have hin := h.le_length
  have hheader := h.header
  rw [hplace, Buffers.buf] at hin
  rw [packetHeaderSize] at hheader
  cases hzlib : buffers.zlib with
  | nil =>
      rw [hzlib, List.length_nil] at hin
      omega
  | cons byte rest =>
      have hcall : Parser.handlePacketCall (otherByte buffers.zlib) buffers packet =
          { buffers := { buffers with zlib := (byte + 1) :: rest }
            control := .running ⟨.zlib, 1, 0, 1⟩ [], passed := [packet], delivered := [] } := by
        rw [Parser.handlePacketCall, handlePacket_of_compressed hcompressed hinside, hzlib]
        rfl
      have hkept := hcontained.kept (otherByte buffers.zlib) 1 (.returned 1 0) (by simp) (by rw [hcall]; rfl) 0
        (Or.inl (by rw [BilibiliPacket.payloadStart, packetHeaderSize]; omega))
      rw [hcall, hplace] at hkept
      have hbyte : some (byte + 1) = some byte := by
        rw [Buffers.buf, Buffers.buf, hzlib] at hkept
        exact hkept
      have hne : byte + 1 ≠ byte := by
        intro he
        have hnat := congrArg UInt8.toNat he
        have hlt := byte.toNat_lt
        rw [UInt8.toNat_add, UInt8.toNat_one] at hnat
        omega
      exact hne (Option.some.inj hbyte)

-- The NUL is always inside what a connection has allocated for its reads; in the
-- zlib buffer it is unless the packet ends with the buffer.
theorem terminatorContained_iff (h : PacketIn buffers received packet) :
    packet.TerminatorContained buffers ↔ packet.FitsPlace buffers := by
  constructor
  · intro hcontained hplace
    refine ⟨fun hcompressed => not_contained_of_compressed h hplace hcompressed hcontained, fun hterminated => ?_⟩
    have hlast := hcontained.inside hterminated
    rw [h.payload, h.lt_length_iff] at hlast
    exact hlast hplace
  · intro hfits
    constructor
    · intro hterminated
      rw [h.payload, h.lt_length_iff]
      exact fun hplace => (hfits hplace).2 hterminated
    · intro libraries n _ _ _ i hi
      have hspared : packet.place = .zlib → packet.Compressed buffers →
          (libraries.uncompress buffers packet).output = [] := fun hplace hcompressed =>
        absurd hcompressed (hfits hplace).1
      exact (Parser.keptOutside_handlePacketCall h hspared n).getElem?_eq hi

-- The text {"a":1} in a message that the websocket has received.
def shortText : Bytes := [0, 0, 0, 23, 0, 16, 0, 0, 0, 0, 0, 5, 0, 0, 0, 1] ++ [123, 34, 97, 34, 58, 49, 125]

theorem terminatorContained_shortText :
    BilibiliPacket.TerminatorContained ⟨.read, 0, 23⟩ ⟨shortText ++ [0], []⟩ :=
  (@terminatorContained_iff ⟨shortText ++ [0], []⟩ ⟨.read, 0, 23⟩ 23
    ⟨.websocket 23 (by decide), by decide, by decide, by decide⟩).mpr fun hplace => by cases hplace

-- A payload that inflates to 256 KiB, which are one packet with a text.
def fullText : Bytes := [0, 4, 0, 0, 0, 16, 0, 0, 0, 0, 0, 5, 0, 0, 0, 1] ++ List.replicate 262128 32

theorem terminatorContained_refuted : ¬∀ buffers received packet, PacketIn buffers received packet →
    packet.TerminatorContained buffers := by
  intro h
  have hlength : fullText.length = zlibBufferSize := by
    rw [fullText, List.length_append, List.length_replicate]
    rfl
  have hpacket : PacketIn ⟨[], fullText⟩ zlibBufferSize ⟨.zlib, 0, 262144⟩ :=
    ⟨.zlib zlibBufferSize hlength (Nat.le_refl _), rfl, by decide, by decide⟩
  have hlast := (h _ _ _ hpacket).inside ⟨rfl, by decide, rfl⟩
  rw [hpacket.payload, Buffers.buf, hlength] at hlast
  exact absurd hlast (by decide)

end Exactness

end LiveReceptor.Worker

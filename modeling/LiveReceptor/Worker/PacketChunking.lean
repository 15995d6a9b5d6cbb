import LiveReceptor.Worker.PacketParser
import LiveReceptor.Worker.PacketStream

namespace LiveReceptor.Worker

open SimpleWorkerProto Memory StackMachine SkippingDecoder

section HandlePacket

variable {libraries : PacketLibraries} {buffers : Buffers} {packet : BilibiliPacket}

-- From there on the memory is as it was.
structure KeptFrom (last : Nat) (buf buf' : Bytes) : Prop where
  length : buf'.length = buf.length
  behind : buf'.drop last = buf.drop last

theorem KeptFrom.refl (last : Nat) (buf : Bytes) : KeptFrom last buf buf := ⟨rfl, rfl⟩

-- The byte behind the text is written twice, the second time with what it was.
theorem keptFrom_store {buf text : Bytes} {start last : Nat} (hlast : start + text.length = last)
    (hin : last ≤ buf.length) :
    KeptFrom last buf ((store (buf.set last 0) start text).set last (buf[last]?.getD 0)) := by
  have hset : (buf.set last 0).length = buf.length := List.length_set
  have hlength : (store (buf.set last 0) start text).length = buf.length := by
    rw [length_store _ _ _ (by omega), hset]
  have hstore : (store (buf.set last 0) start text).drop last = (buf.drop last).set 0 0 := by
    have hfrom := @drop_store _ (buf.set last 0) text start (by omega)
    rw [List.take_of_length_le (by omega)] at hfrom
    calc (store (buf.set last 0) start text).drop last
        = ((store (buf.set last 0) start text).drop start).drop text.length := by
          rw [List.drop_drop, hlast]
      _ = (buf.set last 0).drop last := by rw [hfrom, List.drop_left, hlast]
      _ = (buf.drop last).set 0 0 := by rw [List.drop_set, if_neg (Nat.lt_irrefl _), Nat.sub_self]
  refine ⟨by rw [List.length_set, hlength], ?_⟩
  rw [List.drop_set, if_neg (Nat.lt_irrefl _), Nat.sub_self, hstore, List.set_set]
  cases hbehind : buf.drop last with
  | nil => rfl
  | cons byte rest =>
      have hbyte : buf[last]? = some byte := by
        rw [← Nat.add_zero last, ← List.getElem?_drop, hbehind]
        rfl
      rw [hbyte]
      rfl

theorem payloadSize_of_sound (hheader : packetHeaderSize ≤ packet.length) (hword : packet.length < 4294967296) :
    packet.payloadStart + packet.payloadSize = packet.start + packet.length := by
  rw [packetHeaderSize] at hheader
  rw [BilibiliPacket.payloadStart, BilibiliPacket.payloadSize, packetHeaderSize]
  omega

-- A packet in the read buffer is handled within its own bytes.
theorem keptFrom_handlePacket (hplace : packet.place = .read) (hheader : packetHeaderSize ≤ packet.length)
    (hword : packet.length < 4294967296) (hin : packet.start + packet.length ≤ buffers.read.length) :
    KeptFrom (packet.start + packet.length) buffers.read (handlePacket libraries buffers packet).buffers.read := by
  have hpayload := payloadSize_of_sound hheader hword
  have hserialize : KeptFrom (packet.start + packet.length) buffers.read
      (serializeInPlace libraries buffers packet).read := by
    have hlength : (packet.payload buffers).length = packet.payloadSize := by
      rw [BilibiliPacket.payload, hplace]
      exact Framing.slice_length (by rw [hpayload]; exact hin)
    have htext : (libraries.parseInsitu (packet.payload buffers)).1.length = packet.payloadSize :=
      (libraries.parseInsitu (packet.payload buffers)).2.trans hlength
    have hstore := @keptFrom_store buffers.read (libraries.parseInsitu (packet.payload buffers)).1
      packet.payloadStart (packet.start + packet.length) (by rw [htext, hpayload]) hin
    unfold serializeInPlace
    rw [hpayload, hplace]
    exact hstore
  unfold handlePacket
  dsimp only
  split
  · exact .refl _ _
  split
  · split
    · exact .refl _ _
    · split
      · rename_i after heq
        have hread : buffers.read = after.read := congrArg (fun result => result.2.read) heq
        exact hread ▸ .refl _ _
      · rename_i after heq
        have hread : buffers.read = after.read := congrArg (fun result => result.2.read) heq
        exact hread ▸ .refl _ _
  split
  · split
    · exact .refl _ _
    · exact hserialize
  split
  · split <;> exact .refl _ _
  · exact .refl _ _

-- One in the zlib buffer leaves the read buffer alone.
theorem read_handlePacket_of_zlib (hplace : packet.place = .zlib) :
    (handlePacket libraries buffers packet).buffers.read = buffers.read := by
  unfold handlePacket
  dsimp only
  split
  · rfl
  split
  · split
    · rfl
    · split
      · rename_i after heq
        have hread : buffers.read = after.read := congrArg (fun result => result.2.read) heq
        exact hread.symm
      · rename_i after heq
        have hread : buffers.read = after.read := congrArg (fun result => result.2.read) heq
        exact hread.symm
  split
  · split
    · rfl
    · rw [serializeInPlace, hplace]
      rfl
  split
  · split <;> rfl
  · rfl

end HandlePacket

def BilibiliPacket.content (packet : BilibiliPacket) (buffers : Buffers) : Bytes :=
  slice (buffers.buf packet.place) packet.start packet.length

namespace Parser

-- The packet that the call for the read is about to hand to handle_packet.
def handedNow (parser : Parser) : List Bytes :=
  match parser.control with
  | .running frame [] =>
      match turn parser.buffers frame with
      | .packet packet => [packet.content parser.buffers]
      | _ => []
  | _ => []

-- What it hands over in so many steps.
def handed (libraries : PacketLibraries) : Nat → Parser → List Bytes
  | 0, _ => []
  | n + 1, parser => parser.handedNow ++ handed libraries n (step libraries parser)

-- Each call of handle_packet with a packet that is long enough for its header
-- comes back to the loop.
def CallsReturn (libraries : PacketLibraries) (parser : Parser) : Prop :=
  ∀ m frame packet, (after (step libraries) m parser).control = .running frame [] →
    turn (after (step libraries) m parser).buffers frame = .packet packet → packetHeaderSize ≤ packet.length →
      ∃ n, (after (step libraries) (m + (n + 1)) parser).control = .running (advance frame packet) []

variable {libraries : PacketLibraries} {parser : Parser} {frame outer : Frame} {callers : List Frame}
  {packet : BilibiliPacket} {read : Bytes}

theorem handed_add (m n : Nat) (parser : Parser) : handed libraries (m + n) parser =
    handed libraries m parser ++ handed libraries n (after (step libraries) m parser) := by
  induction m generalizing parser with
  | zero => rw [Nat.zero_add, handed, after, List.nil_append]
  | succ m ih => rw [Nat.succ_add, handed, handed, after, ih, List.append_assoc]

theorem CallsReturn.after (h : CallsReturn libraries parser) (m : Nat) :
    CallsReturn libraries (after (step libraries) m parser) := by
  intro k frame packet hcontrol hturn hlength
  rw [← after_add] at hcontrol hturn
  obtain ⟨n, hreturn⟩ := h (m + k) frame packet hcontrol hturn hlength
  refine ⟨n, ?_⟩
  rw [← after_add, ← Nat.add_assoc]
  exact hreturn

-- Below it the call of handle_packet is under way, in the zlib buffer, or has
-- thrown.
inductive Called (outer : Frame) (read : Bytes) (parser : Parser) : Prop
  | within (frame : Frame) (callers : List Frame) (control : parser.control = .running frame (callers ++ [outer]))
      (zlib : ∀ other ∈ frame :: callers, other.place = .zlib) (kept : parser.buffers.read = read)
  | ended (outcome : Outcome) (control : parser.control = .ended outcome)

-- The call has come back to the loop, with this in the read buffer.
structure Back (outer : Frame) (read : Bytes) (parser : Parser) : Prop where
  control : parser.control = .running outer []
  kept : parser.buffers.read = read

theorem read_of_turn {buffers after : Buffers} {offset skipping : Nat} (hplace : frame.place = .zlib)
    (h : turn buffers frame = .returned after offset skipping) : after.read = buffers.read := by
  have hmoved : ∀ buf, (buffers.set buf frame.place).read = buffers.read := by
    intro buf
    rw [hplace]
    rfl
  unfold turn at h
  dsimp only at h
  split at h
  · cases h
    rfl
  split at h
  · cases h
    exact hmoved _
  split at h
  · cases h
  split at h
  · cases h
    rfl
  split at h
  · cases h
    exact hmoved _
  · cases h

theorem handedNow_of_called (h : Called outer read parser) : parser.handedNow = [] := by
  cases h with
  | within frame callers control zlib kept =>
      rw [handedNow, control]
      cases callers <;> rfl
  | ended outcome control => rw [handedNow, control]

theorem called_step (h : Called outer read parser) :
    Called outer read (step libraries parser) ∨ Back outer read (step libraries parser) := by
  cases h with
  | ended outcome control =>
      left
      refine .ended outcome ?_
      rw [step, control]
      exact control
  | within frame callers control zlib kept =>
      obtain ⟨hplace, hcallers⟩ := List.forall_mem_cons.mp zlib
      rw [step, control]
      dsimp only
      cases hturn : turn parser.buffers frame with
      | returned buffers offset skipping =>
          have hread : buffers.read = read := (read_of_turn hplace hturn).trans kept
          cases callers with
          | nil => exact Or.inr ⟨rfl, hread⟩
          | cons caller rest => exact Or.inl (.within caller rest rfl hcallers hread)
      | malformed => exact Or.inl (.ended .malformed rfl)
      | packet packet =>
          have hpacket : packet.place = .zlib := by
            rw [(turn_packet hturn).1]
            exact hplace
          have hread := (@read_handlePacket_of_zlib libraries _ _ hpacket).trans kept
          have hadvance : ∀ other ∈ advance frame packet :: callers, other.place = .zlib :=
            List.forall_mem_cons.mpr ⟨hplace, hcallers⟩
          left
          dsimp only
          generalize hnext : (handlePacket libraries parser.buffers packet).next = next
          cases next with
          | returns => exact .within _ callers rfl hadvance hread
          | malformed => exact .ended .malformed rfl
          | undefined => exact .ended .undefined rfl
          | nested outSize =>
              exact .within _ (advance frame packet :: callers) rfl
                (List.forall_mem_cons.mpr ⟨rfl, hadvance⟩) hread

-- Until the call comes back nothing else is handed over.
theorem after_called (h : Called outer read parser ∨ Back outer read parser) (n : Nat) :
    Called outer read (after (step libraries) n parser) ∨
      ∃ k, Back outer read (after (step libraries) k parser) ∧ handed libraries k parser = [] := by
  induction n generalizing parser with
  | zero =>
      rcases h with hcalled | hback
      · exact Or.inl hcalled
      · exact Or.inr ⟨0, hback, rfl⟩
  | succ n ih =>
      rcases h with hcalled | hback
      · rcases ih (called_step hcalled) with hlater | ⟨k, hback, hnothing⟩
        · exact Or.inl hlater
        · refine Or.inr ⟨k + 1, hback, ?_⟩
          rw [handed, handedNow_of_called hcalled, hnothing]
          rfl
      · exact Or.inr ⟨0, hback, rfl⟩

-- A call of handle_packet, from the loop back to it.
theorem call_returns (hcalls : CallsReturn libraries parser) (hcontrol : parser.control = .running frame [])
    (hturn : turn parser.buffers frame = .packet packet) (hlength : packetHeaderSize ≤ packet.length) :
    ∃ k, Back (advance frame packet) (handlePacket libraries parser.buffers packet).buffers.read
        (after (step libraries) k parser) ∧
      handed libraries k parser = [packet.content parser.buffers] := by
  have hnow : parser.handedNow = [packet.content parser.buffers] := by
    rw [handedNow, hcontrol]
    dsimp only
    rw [hturn]
  have hfirst : Called (advance frame packet) (handlePacket libraries parser.buffers packet).buffers.read
        (step libraries parser) ∨
      Back (advance frame packet) (handlePacket libraries parser.buffers packet).buffers.read
        (step libraries parser) := by
    rw [step, hcontrol]
    dsimp only
    rw [hturn]
    dsimp only
    generalize hnext : (handlePacket libraries parser.buffers packet).next = next
    cases next with
    | returns => exact Or.inr ⟨rfl, rfl⟩
    | malformed => exact Or.inl (.ended .malformed rfl)
    | undefined => exact Or.inl (.ended .undefined rfl)
    | nested outSize => exact Or.inl (.within _ [] rfl (List.forall_mem_singleton.mpr rfl) rfl)
  obtain ⟨n, hreturn⟩ := hcalls 0 frame packet hcontrol hturn hlength
  rw [Nat.zero_add, after] at hreturn
  rcases @after_called libraries _ _ _ hfirst n with hcalled | ⟨k, hback, hnothing⟩
  · cases hcalled with
    | within other callers control zlib kept =>
        rw [control] at hreturn
        injection hreturn with _ hcallers
        exact absurd hcallers (List.append_ne_nil_of_right_ne_nil _ (List.cons_ne_nil _ _))
    | ended outcome control =>
        rw [control] at hreturn
        cases hreturn
  · exact ⟨k + 1, hback, by rw [handed, hnow, hnothing]; rfl⟩

-- What handle_buffer leaves of a beginning without a whole packet.
def Leaves (bufferSize : Nat) (rest read : Bytes) (offset skipping : Nat) : Prop :=
  match (packetDecoder bufferSize).skips rest with
  | none => offset = rest.length ∧ skipping = 0 ∧ read.take rest.length = rest
  | some n => offset = 0 ∧ skipping = n

theorem leaves_of_kept {bufferSize : Nat} {rest read : Bytes} (h : ¬TooLong bufferSize rest)
    (hread : read.take rest.length = rest) : Leaves bufferSize rest read rest.length 0 := by
  rw [Leaves, packetDecoder_skips, if_neg h]
  exact ⟨rfl, rfl, hread⟩

section Loop

variable {buffers : Buffers} {bufferSize : Nat} {data : Bytes}

theorem length_memmove {buf : Bytes} {start length : Nat} (h : start + length ≤ buf.length) :
    (memmove buf start length).length = buf.length := by
  rw [memmove, List.length_append, Framing.slice_length h, List.length_drop]
  omega

theorem turn_of_complete (hplace : frame.place = .read) (hsize : frame.bufferSize = bufferSize)
    (hdata : slice buffers.read frame.start frame.remaining = data)
    (hin : frame.start + frame.remaining ≤ buffers.read.length) (h : Complete bufferSize data) :
    turn buffers frame = .packet ⟨.read, frame.start, (headerAt data 0).length⟩ := by
  obtain ⟨hheader, hgood, hholds, hwhole⟩ := h
  have hlength : data.length = frame.remaining := hdata ▸ Framing.slice_length hin
  rw [hlength] at hheader hwhole
  have hat : headerAt data 0 = headerAt buffers.read frame.start := hdata ▸ headerAt_slice hheader hin
  rw [Malformed, hlength, hat, not_and, not_or, not_not, not_lt] at hgood
  obtain ⟨hsixteen, hlong⟩ := hgood hheader
  have hbuf : buffers.buf frame.place = buffers.read := by
    rw [hplace]
    rfl
  rw [hat] at hholds hwhole ⊢
  unfold turn
  simp only [hbuf]
  rw [packetHeaderSize] at hheader
  rw [if_neg (by omega), if_neg (by rw [packetHeaderSize]; omega), if_neg (not_not_intro hsixteen),
    if_neg (by omega), if_neg (by omega), hplace]

theorem turn_of_not_complete (hplace : frame.place = .read) (hsize : frame.bufferSize = bufferSize)
    (hdata : slice buffers.read frame.start frame.remaining = data)
    (hin : frame.start + frame.remaining ≤ buffers.read.length) (h : ¬Complete bufferSize data)
    (hgood : ¬Malformed data) :
    ∃ buffers' offset skipping, turn buffers frame = .returned buffers' offset skipping ∧
      buffers'.read.length = buffers.read.length ∧ Leaves bufferSize data buffers'.read offset skipping := by
  have hlength : data.length = frame.remaining := hdata ▸ Framing.slice_length hin
  have hbuf : buffers.buf frame.place = buffers.read := by
    rw [hplace]
    rfl
  have hset : ∀ buf, (buffers.set buf frame.place).read = buf := fun buf => by
    rw [hplace]
    rfl
  -- what is moved to the front
  have hmoved : ¬TooLong bufferSize data → ∃ buffers' offset skipping,
      Turn.returned (buffers.set (memmove buffers.read frame.start frame.remaining) frame.place)
        frame.remaining 0 = .returned buffers' offset skipping ∧
      buffers'.read.length = buffers.read.length ∧ Leaves bufferSize data buffers'.read offset skipping := by
    intro hkept
    refine ⟨_, _, _, rfl, ?_, ?_⟩
    · rw [hset, length_memmove hin]
    · rw [hset, ← hlength]
      apply leaves_of_kept hkept
      rw [hlength, Framing.take_memmove hin, hdata]
  have hat : packetHeaderSize ≤ frame.remaining → headerAt data 0 = headerAt buffers.read frame.start :=
    fun hheader => hdata ▸ headerAt_slice hheader hin
  unfold turn
  simp only [hbuf]
  split
  · rename_i hzero
    have hnil : data = [] := List.eq_nil_of_length_eq_zero (hlength.trans hzero)
    refine ⟨_, _, _, rfl, rfl, ?_⟩
    rw [hnil]
    exact leaves_of_kept (fun hlong => absurd hlong.1 (by decide)) rfl
  split
  · rename_i hshort
    exact hmoved fun hlong => absurd (hlength ▸ hlong.1) (Nat.not_le.mpr hshort)
  rename_i hheader
  rw [Nat.not_lt] at hheader
  have hsame := hat hheader
  have hsound : (headerAt data 0).headerLength = packetHeaderSize := by
    by_contra hbad
    exact hgood ⟨hlength ▸ hheader, Or.inl hbad⟩
  rw [← hsame]
  split
  · rename_i hbad
    exact absurd hsound hbad
  split
  · rename_i hover
    refine ⟨_, _, _, rfl, rfl, ?_⟩
    rw [Leaves, packetDecoder_skips, if_pos ⟨hlength ▸ hheader, hgood, hsize ▸ hover⟩, hlength]
    exact ⟨rfl, rfl⟩
  split
  · rename_i hholds hpart
    exact hmoved fun hlong => absurd (hsize ▸ hlong.2.2) hholds
  · rename_i hholds hwhole
    refine absurd ⟨hlength ▸ hheader, hgood, ?_, ?_⟩ h
    · rw [← hsize]
      omega
    · omega

-- With no whole packet in the buffer, the loop returns at once.
theorem returns_of_not_complete (hcontrol : parser.control = .running frame []) (hplace : frame.place = .read)
    (hsize : frame.bufferSize = bufferSize)
    (hdata : slice parser.buffers.read frame.start frame.remaining = data)
    (hin : frame.start + frame.remaining ≤ parser.buffers.read.length) (hpart : ¬Complete bufferSize data)
    (hgood : ¬Malformed data) :
    ∃ offset skipping, (after (step libraries) 1 parser).control = .ended (.returned offset skipping) ∧
      handed libraries 1 parser = [] ∧
      (after (step libraries) 1 parser).buffers.read.length = parser.buffers.read.length ∧
      Leaves bufferSize data (after (step libraries) 1 parser).buffers.read offset skipping := by
  obtain ⟨buffers', offset, skipping, hturn, hlength, hleaves⟩ :=
    turn_of_not_complete hplace hsize hdata hin hpart hgood
  have hstep : step libraries parser =
      { parser with buffers := buffers', control := .ended (.returned offset skipping) } := by
    rw [step, hcontrol]
    dsimp only
    rw [hturn]
    rfl
  have hnow : parser.handedNow = [] := by
    rw [handedNow, hcontrol]
    dsimp only
    rw [hturn]
  refine ⟨offset, skipping, ?_, ?_, ?_, ?_⟩
  · rw [after, hstep]
    rfl
  · rw [handed, hnow]
    rfl
  · rw [after, hstep]
    exact hlength
  · rw [after, hstep]
    exact hleaves

-- A whole packet is handed over, and the loop goes on behind it.
theorem goes_on_of_next {content rest : Bytes} (hcontrol : parser.control = .running frame [])
    (hplace : frame.place = .read) (hsize : frame.bufferSize = bufferSize)
    (hdata : slice parser.buffers.read frame.start frame.remaining = data)
    (hin : frame.start + frame.remaining ≤ parser.buffers.read.length) (hcalls : CallsReturn libraries parser)
    (hnext : (packetDecoder bufferSize).next data = some (content, rest)) :
    ∃ k frame', (after (step libraries) k parser).control = .running frame' [] ∧ frame'.place = .read ∧
      frame'.bufferSize = bufferSize ∧ handed libraries k parser = [content] ∧
      (after (step libraries) k parser).buffers.read.length = parser.buffers.read.length ∧
      slice (after (step libraries) k parser).buffers.read frame'.start frame'.remaining = rest ∧
      frame'.start + frame'.remaining ≤ parser.buffers.read.length := by
  have hcomplete : Complete bufferSize data := by
    by_contra hpart
    rw [packetDecoder_next, if_neg hpart] at hnext
    cases hnext
  have hlength : data.length = frame.remaining := hdata ▸ Framing.slice_length hin
  have hturn := turn_of_complete hplace hsize hdata hin hcomplete
  have hlong := hcomplete.header_le
  have hwhole := hcomplete.2.2.2
  have hwords : (headerAt data 0).length < 4294967296 := UInt32.toNat_lt _
  generalize hl : (headerAt data 0).length = length at hturn hlong hwhole hwords
  rw [packetDecoder_next, if_pos hcomplete, hl, Option.some.injEq, Prod.mk.injEq] at hnext
  obtain ⟨hcontent, hrest⟩ := hnext
  rw [hlength] at hwhole
  have hpacket : frame.start + length ≤ parser.buffers.read.length := by omega
  have hkept : KeptFrom (frame.start + length) parser.buffers.read
      (handlePacket libraries parser.buffers ⟨.read, frame.start, length⟩).buffers.read :=
    @keptFrom_handlePacket libraries parser.buffers ⟨.read, frame.start, length⟩ rfl hlong hwords hpacket
  obtain ⟨k, hback, hhanded⟩ := call_returns hcalls hcontrol hturn hlong
  have hread := hback.kept
  have hfirst : BilibiliPacket.content ⟨.read, frame.start, length⟩ parser.buffers = content := by
    rw [← hcontent, ← hdata, BilibiliPacket.content, slice, slice, List.take_take, Nat.min_eq_left hwhole]
    rfl
  refine ⟨k, advance frame ⟨.read, frame.start, length⟩, hback.control, hplace, hsize, ?_, ?_, ?_, ?_⟩
  · rw [hhanded, hfirst]
  · rw [hread, hkept.length]
  · rw [hread, slice, advance, hkept.behind, ← hrest, ← hdata, Framing.drop_slice, slice]
  · show frame.start + length + (frame.remaining - length) ≤ _
    omega

-- The call of handle_buffer for a read decodes what it is given, and returns.
theorem loop_returns (hcontrol : parser.control = .running frame []) (hplace : frame.place = .read)
    (hsize : frame.bufferSize = bufferSize)
    (hdata : slice parser.buffers.read frame.start frame.remaining = data)
    (hin : frame.start + frame.remaining ≤ parser.buffers.read.length) (hcalls : CallsReturn libraries parser)
    (hgood : ¬Malformed ((packetDecoder bufferSize).drain data).2) :
    ∃ n offset skipping, (after (step libraries) n parser).control = .ended (.returned offset skipping) ∧
      handed libraries n parser = ((packetDecoder bufferSize).drain data).1 ∧
      (after (step libraries) n parser).buffers.read.length = parser.buffers.read.length ∧
      Leaves bufferSize ((packetDecoder bufferSize).drain data).2
        (after (step libraries) n parser).buffers.read offset skipping := by
  induction data using (packetDecoder bufferSize).drain_induction generalizing parser frame with
  | none data hnext =>
      rw [FrameDecoder.drain_of_none hnext] at hgood ⊢
      have hpart : ¬Complete bufferSize data := by
        intro hcomplete
        rw [packetDecoder_next, if_pos hcomplete] at hnext
        cases hnext
      exact ⟨1, returns_of_not_complete hcontrol hplace hsize hdata hin hpart hgood⟩
  | some data content rest hnext ih =>
      rw [FrameDecoder.drain_of_some hnext] at hgood ⊢
      obtain ⟨k, frame', hcontrol', hplace', hsize', hfirst, hkept, hlater, hinside⟩ :=
        goes_on_of_next hcontrol hplace hsize hdata hin hcalls hnext
      obtain ⟨n, offset, skipping, hended, hothers, hsame, hleaves⟩ :=
        ih hcontrol' hplace' hsize' hlater (hkept.symm ▸ hinside) (hcalls.after k) hgood
      refine ⟨k + n, offset, skipping, ?_, ?_, ?_, ?_⟩
      · rw [after_add]
        exact hended
      · rw [handed_add, hfirst, hothers]
        rfl
      · rw [after_add, hsame, hkept]
      · rw [after_add]
        exact hleaves

end Loop

end Parser

end LiveReceptor.Worker

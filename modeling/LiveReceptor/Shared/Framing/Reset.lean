import LiveReceptor.Library.SkippingDecoder
import LiveReceptor.Shared.Framing.Chunking

namespace LiveReceptor.Framing

open SimpleWorkerProto SimpleWorkerProtoHandler SkippingDecoder

-- The decoder together with what becomes of a frame that the buffer cannot hold.
def skippingDecoder (bufferSize : Nat) : SkippingDecoder UInt8 Bytes where
  toFrameDecoder := decoder bufferSize
  skips data :=
    if Oversized bufferSize data then some (skipAfterTooBig (announced data) data.length) else none
  skips_nil := if_neg fun h => absurd h.1 (by decide)

theorem next_eq (bufferSize : Nat) (data : Bytes) :
    (skippingDecoder bufferSize).next data = (decoder bufferSize).next data := rfl

theorem skips_eq (bufferSize : Nat) (data : Bytes) : (skippingDecoder bufferSize).skips data =
    if Oversized bufferSize data then some (skipAfterTooBig (announced data) data.length) else none := rfl

-- What may happen to a reader, on one connection or on several.
inductive ReaderEvent
  | received (read : Bytes)
  | failed (ec : ErrorCode)
  | reset

def handle (event : ReaderEvent) (reader : SimpleWorkerProtoHandler) : SimpleWorkerProtoHandler :=
  match event with
  | .received read => reader.onReceive read
  | .failed ec => (reader.onReceiveError ec).1
  | .reset => reader.reset

-- The reader is at this position in its stream.
structure Stands {bufferSize : Nat} (reader : SimpleWorkerProtoHandler)
    (position : (skippingDecoder bufferSize).Position) : Prop where
  size : reader.readBufferSize = bufferSize
  offset : reader.offset = position.tail.length
  front : reader.buf.take position.tail.length = position.tail
  skipping : reader.skipping = position.skip

section Refinement

variable {bufferSize : Nat} {reader : SimpleWorkerProtoHandler}
  {position : (skippingDecoder bufferSize).Position}

theorem stands_fresh (memory : Bytes) :
    Stands (fresh memory) (Position.start (skippingDecoder memory.length)) := ⟨rfl, rfl, rfl, rfl⟩

theorem Stands.slice_received (h : Stands reader position) (read : Bytes) :
    slice (reader.received read) position.skip
      (position.tail.length + read.length - position.skip) = position.pending read := by
  have hwhole : slice (reader.received read) 0 (position.tail.length + read.length) =
      position.tail ++ read := by
    rw [slice, List.drop_zero, received, h.offset, h.front, ← List.length_append, List.take_left]
  rw [Position.pending, ← hwhole, drop_slice, Nat.zero_add]

-- What the loop leaves is where the decoder settles.
theorem stands_of_settled {result : MessageResult} {rest : Bytes}
    {undecoded : (skippingDecoder bufferSize).next rest = none} (h : Settled bufferSize rest result)
    (hsize : reader.readBufferSize = bufferSize) :
    Stands { reader with buf := result.buf, offset := result.offset, skipping := result.skipping }
      (Position.settle rest undecoded) := by
  by_cases hbig : Oversized bufferSize rest
  · rw [Settled, if_pos hbig] at h
    have hskips : (skippingDecoder bufferSize).skips rest =
        some (skipAfterTooBig (announced rest) rest.length) := if_pos hbig
    rw [Position.settle_of_some hskips]
    exact ⟨hsize, h.2.1, rfl, h.2.2⟩
  · rw [Settled, if_neg hbig] at h
    have hskips : (skippingDecoder bufferSize).skips rest = none := if_neg hbig
    rw [Position.settle_of_none hskips]
    exact ⟨hsize, h.2.1, h.2.2.1, h.2.2.2⟩

-- One read of the reader is one read of the decoder.
theorem Stands.receive (h : Stands reader position) (read : Bytes) :
    reader.payloads read = position.decoded read ∧ Stands (reader.onReceive read) (position.advance read) := by
  unfold payloads onReceive Position.decoded Position.advance
  by_cases hskip : position.skip > read.length
  · have hresult : reader.result read =
        { buf := reader.received read, offset := 0, skipping := position.skip - read.length } := by
      rw [result, handleSimpleMessage, h.skipping, if_pos hskip]
    rw [hresult, if_pos hskip, if_pos hskip]
    exact ⟨rfl, h.size, rfl, rfl, rfl⟩
  · have hlast : position.tail.length + read.length - position.skip =
        read.length - position.skip + reader.offset := by
      rw [h.offset]
      omega
    have hresult : reader.result read = messageLoop (reader.received read) read.length bufferSize
        (read.length + reader.offset) position.skip
        (position.tail.length + read.length - position.skip) := by
      rw [result, handleSimpleMessage, h.skipping, if_neg hskip, h.size, hlast]
    have hlength : position.skip + (position.tail.length + read.length - position.skip) ≤
        (reader.received read).length := by
      rw [received, h.offset, h.front]
      simp only [List.length_append]
      omega
    have hdrain := messageLoop_drain (reader.received read) read.length bufferSize
      (read.length + reader.offset) position.skip _ hlength
    rw [h.slice_received, ← hresult] at hdrain
    rw [if_neg hskip, if_neg hskip]
    exact ⟨hdrain.1, stands_of_settled hdrain.2 h.size⟩

theorem Stands.receiveAll (h : Stands reader position) (reads : List Bytes) :
    (reader.receiveAll reads).2 = position.decodeAll reads := by
  induction reads generalizing reader position with
  | nil => rfl
  | cons read rest ih =>
      obtain ⟨hdelivered, hnext⟩ := h.receive read
      rw [SimpleWorkerProtoHandler.receiveAll, Position.decodeAll]
      dsimp only
      rw [hdelivered, ih hnext]

-- Errors and resets leave a reader where it is.
theorem Stands.handle (h : Stands reader position) (event : ReaderEvent) :
    ∃ next : (skippingDecoder bufferSize).Position, Stands (handle event reader) next := by
  cases event with
  | received read => exact ⟨_, (h.receive read).2⟩
  | failed ec => exact ⟨position, h.size, h.offset, h.front, h.skipping⟩
  | reset => exact ⟨position, h.size, h.offset, h.front, h.skipping⟩

theorem run_stands (memory : Bytes) (events : List ReaderEvent) :
    ∃ position : (skippingDecoder memory.length).Position,
      Stands (Runs.run Framing.handle (fresh memory) events) position :=
  @Runs.run_invariant _ _ Framing.handle
    (fun reader => ∃ position : (skippingDecoder memory.length).Position, Stands reader position)
    (fun event _ ⟨_, h⟩ => h.handle event) _ ⟨_, stands_fresh memory⟩ events

end Refinement

section Distinguishing

variable {bufferSize : Nat} {position : (skippingDecoder bufferSize).Position} {data : Bytes}

theorem next_of_short (h : data.length < 4) : (skippingDecoder bufferSize).next data = none :=
  if_pos (Or.inl h)

theorem skips_of_short (h : data.length < 4) : (skippingDecoder bufferSize).skips data = none :=
  if_neg fun hbig => absurd hbig.1 (Nat.not_le.mpr h)

theorem decodeAll_of_small (h : bufferSize < 4) (reads : List Bytes) : position.decodeAll reads = [] := by
  induction reads generalizing position with
  | nil => rfl
  | cons read rest ih =>
      rw [Position.decodeAll, ih, Position.decoded]
      split
      · rfl
      · have hnext : (decoder bufferSize).next (position.pending read) = none :=
          if_pos (Or.inr (Or.inl (by omega)))
        rw [show (skippingDecoder bufferSize).drain _ = _ from FrameDecoder.drain_of_none hnext]
        rfl

-- A header that the reader keeps announces more than there is of it, and no
-- more than the buffer holds.
theorem announced_tail (h : 4 ≤ position.tail.length) :
    position.tail.length < announced position.tail + 4 ∧ announced position.tail + 4 ≤ bufferSize := by
  have hkept : ¬Oversized bufferSize position.tail := by
    intro hbig
    have hkept := position.kept
    rw [skips_eq, if_pos hbig] at hkept
    cases hkept
  have hundecoded := position.undecoded
  rw [next_eq, decoder_next] at hundecoded
  split at hundecoded
  · rename_i hnext
    rw [Oversized, simpleMessageHeaderLength] at hkept
    omega
  · cases hundecoded

theorem length_tail_lt (h : 4 ≤ bufferSize) (position : (skippingDecoder bufferSize).Position) :
    position.tail.length < bufferSize := by
  by_cases hshort : position.tail.length < 4
  · omega
  · have hannounced := announced_tail (Nat.le_of_not_lt hshort)
    omega

-- The header of an empty frame.
theorem drain_zeros (h : 4 ≤ bufferSize) : (decoder bufferSize).drain [0, 0, 0, 0] = ([[]], []) := by
  have hempty : (0 : Nat) < UInt32.size := by decide
  have hframe : Message.frame ⟨[], hempty⟩ = [0, 0, 0, 0] := by
    show hostToNetworkLong 0 ++ [] = [0, 0, 0, 0]
    decide
  have hnext := decoder_next_frame ⟨[], hempty⟩ [] h
  rw [hframe, List.append_nil] at hnext
  have hrest : (decoder bufferSize).next [] = none := next_of_short (by decide)
  rw [FrameDecoder.drain_of_some hnext, FrameDecoder.drain_of_none hrest]

-- A read behind what the reader keeps, with which no frame gets complete.
theorem advance_of_next_none {read : Bytes} (hskip : position.skip = 0)
    (hnext : (skippingDecoder bufferSize).next (position.tail ++ read) = none) :
    position.decoded read = [] ∧ position.advance read = Position.settle (position.tail ++ read) hnext := by
  have hpending := @Position.pending_skipping_zero _ _ _ position read hskip
  have hadvance := @Position.advance_of_none _ _ _ position read (by omega) (by rw [hpending]; exact hnext)
  simpa only [hpending] using hadvance

-- Together they are too short for a header.
theorem advance_of_short {read : Bytes} (hskip : position.skip = 0) (h : (position.tail ++ read).length < 4) :
    position.decoded read = [] ∧ (position.advance read).tail = position.tail ++ read ∧
      (position.advance read).skip = 0 := by
  obtain ⟨hdecoded, hadvance⟩ := advance_of_next_none hskip (next_of_short h)
  rw [hadvance, Position.settle_of_none (skips_of_short h)]
  exact ⟨hdecoded, rfl, rfl⟩

-- The next frame to end, of the next n bytes, is not an empty one.
def Behind (position : (skippingDecoder bufferSize).Position) (n : Nat) : Prop :=
  n ≤ position.skip ∨ 4 ≤ position.tail.length ∨ ∃ byte ∈ position.tail, byte ≠ 0

theorem announced_padded {a b c : UInt8} (h : ∃ byte ∈ [a, b, c], byte ≠ 0) :
    256 ≤ announced [a, b, c, 0] := by
  have hnonzero : a.toNat ≠ 0 ∨ b.toNat ≠ 0 ∨ c.toNat ≠ 0 := by
    by_contra hzero
    simp only [not_or, not_not, ← UInt8.toNat_zero, UInt8.toNat_inj] at hzero
    obtain ⟨byte, hbyte, hne⟩ := h
    simp [hzero] at hbyte
    exact hne hbyte
  have ha := a.toNat_lt
  have hb := b.toNat_lt
  have hc := c.toNat_lt
  simp only [announced, networkToHostLong, UInt32.toNat_ofNat', UInt8.toNat_zero]
  omega

section Step

variable {n : Nat}

theorem Behind.skipped (hn : n + 1 ≤ position.skip) :
    position.decoded [0] = [] ∧ Behind (position.advance [0]) n := by
  by_cases hmore : position.skip > 1
  · rw [Position.decoded, Position.advance, List.length_singleton, if_pos hmore, if_pos hmore]
    refine ⟨rfl, Or.inl ?_⟩
    show n ≤ position.skip - 1
    omega
  · have hnothing : position.pending [0] = [] := by
      rw [Position.pending, position.apart.resolve_left (by omega)]
      exact List.drop_of_length_le (by simp; omega)
    have hadvance := @Position.advance_of_none _ _ _ position [0] (by simp; omega)
        (by rw [hnothing]; exact next_nil)
    refine ⟨hadvance.1, Or.inl ?_⟩
    omega

-- The frame that the reader keeps is not empty, or goes on.
theorem Behind.kept (h : 4 ≤ position.tail.length) :
    (∃ frame, frame ≠ [] ∧ (position.decoded [0]).head? = some frame) ∨
      position.decoded [0] = [] ∧ Behind (position.advance [0]) n := by
  obtain ⟨hmore, hholds⟩ := announced_tail h
  have hskip : position.skip = 0 := position.apart.resolve_right fun htail => by simp [htail] at h
  have hsame : announced (position.tail ++ [0]) = announced position.tail := by
    rw [announced, networkToHostLong_append _ h, announced]
  cases hnext : (skippingDecoder bufferSize).next (position.tail ++ [0]) with
  | some pair =>
      left
      obtain ⟨frame, rest⟩ := pair
      have hframe := hnext
      rw [next_eq, decoder_next, hsame] at hframe
      split at hframe
      · cases hframe
      · refine ⟨frame, ?_, ?_⟩
        · obtain ⟨rfl, -⟩ := Prod.mk.inj (Option.some.inj hframe)
          apply List.ne_nil_of_length_pos
          rw [slice_length (by omega)]
          omega
        · rw [Position.decoded, if_neg (by omega), Position.pending_skipping_zero hskip,
            FrameDecoder.drain_of_some hnext]
          rfl
  | none =>
      right
      obtain ⟨hdecoded, hadvance⟩ := advance_of_next_none hskip hnext
      have hskips : (skippingDecoder bufferSize).skips (position.tail ++ [0]) = none := by
        refine if_neg fun hbig => ?_
        have hover := hbig.2
        rw [hsame, simpleMessageHeaderLength] at hover
        omega
      refine ⟨hdecoded, Or.inr (Or.inl ?_)⟩
      rw [hadvance, Position.settle_of_none hskips]
      show 4 ≤ (position.tail ++ [0]).length
      rw [List.length_append]
      omega

theorem Behind.header (hn : n + 1 ≤ 4) (hshort : position.tail.length < 4)
    (h : ∃ byte ∈ position.tail, byte ≠ 0) :
    position.decoded [0] = [] ∧ Behind (position.advance [0]) n := by
  have hskip : position.skip = 0 := position.apart.resolve_right fun htail => by simp [htail] at h
  by_cases hpart : position.tail.length < 3
  · have hlength : (position.tail ++ [0]).length < 4 := by
      rw [List.length_append, List.length_singleton]
      omega
    obtain ⟨hdecoded, htail, -⟩ := advance_of_short hskip hlength
    obtain ⟨byte, hbyte, hne⟩ := h
    refine ⟨hdecoded, Or.inr (Or.inr ⟨byte, ?_, hne⟩)⟩
    rw [htail]
    exact List.mem_append_left _ hbyte
  · obtain ⟨a, b, c, htail⟩ := List.length_eq_three.mp (show position.tail.length = 3 by omega)
    rw [htail] at h
    have hbig := announced_padded h
    have hheader : position.tail ++ [0] = [a, b, c, 0] := by rw [htail]; rfl
    have hnext : (skippingDecoder bufferSize).next (position.tail ++ [0]) = none := by
      rw [hheader]
      exact if_pos (Or.inr (Or.inr (by simp; omega)))
    obtain ⟨hdecoded, hadvance⟩ := advance_of_next_none hskip hnext
    refine ⟨hdecoded, ?_⟩
    rw [hadvance]
    cases hskips : (skippingDecoder bufferSize).skips (position.tail ++ [0]) with
    | none =>
        right
        left
        rw [Position.settle_of_none hskips]
        show 4 ≤ (position.tail ++ [0]).length
        rw [hheader]
        exact Nat.le_refl 4
    | some count =>
        left
        rw [Position.settle_of_some hskips]
        show n ≤ count
        rw [hheader, skips_eq] at hskips
        split at hskips
        · have hcount := Option.some.inj hskips
          have hlt : announced [a, b, c, 0] < UInt32.size := UInt32.toNat_lt _
          simp only [skipAfterTooBig, UInt64.size, UInt32.size, List.length_cons, List.length_nil] at hcount hlt
          omega
        · cases hskips

end Step

theorem head_decodeAll_of_behind {n : Nat} (hn : n ≤ 4) (h : Behind position n) :
    (position.decodeAll (List.replicate n [0])).head? ≠ some [] := by
  induction n generalizing position with
  | zero =>
      intro h
      cases h
  | succ n ih =>
      rw [List.replicate_succ, Position.decodeAll]
      have hquiet : position.decoded [0] = [] ∧ Behind (position.advance [0]) n →
          (position.decoded [0] ++ (position.advance [0]).decodeAll (List.replicate n [0])).head? ≠
            some [] := by
        rintro ⟨hdecoded, hbehind⟩
        rw [hdecoded, List.nil_append]
        exact ih (by omega) hbehind
      by_cases hskip : n + 1 ≤ position.skip
      · exact hquiet (Behind.skipped hskip)
      by_cases hlong : 4 ≤ position.tail.length
      · rcases Behind.kept hlong with ⟨frame, hframe, hhead⟩ | hkept
        · rw [List.head?_append, hhead]
          exact fun heq => hframe (Option.some.inj heq)
        · exact hquiet hkept
      · have hbyte := (h.resolve_left hskip).resolve_left hlong
        exact hquiet (Behind.header hn (by omega) hbyte)

-- Four zero bytes, one by one, are an empty frame to a reader that has just started.
theorem start_zeros (h : 4 ≤ bufferSize) :
    ((Position.start (skippingDecoder bufferSize)).decodeAll (List.replicate 4 [0])).head? = some [] := by
  obtain ⟨hfirst, htail, hskip⟩ :=
    @advance_of_short _ (Position.start (skippingDecoder bufferSize)) [0] rfl (show 1 < 4 by decide)
  rw [show (Position.start (skippingDecoder bufferSize)).tail = [] from rfl, List.nil_append] at htail
  obtain ⟨hsecond, htail', hskip'⟩ := @advance_of_short _ _ [0] hskip (by rw [htail]; decide)
  rw [htail] at htail'
  obtain ⟨hthird, htail'', hskip''⟩ := @advance_of_short _ _ [0] hskip' (by rw [htail']; decide)
  rw [htail'] at htail''
  have hzeros : [0] ++ [0] ++ [0] ++ [(0 : UInt8)] = [0, 0, 0, 0] := rfl
  simp only [List.replicate, Position.decodeAll, hfirst, hsecond, hthird, List.nil_append]
  rw [Position.decoded, if_neg (by omega), Position.pending_skipping_zero hskip'', htail'', hzeros,
    show (skippingDecoder bufferSize).drain _ = _ from drain_zeros h]
  rfl

theorem fits_zeros (h : 4 ≤ bufferSize) (position : (skippingDecoder bufferSize).Position) (n : Nat) :
    Position.Fits bufferSize position (List.replicate n [0]) := by
  induction n generalizing position with
  | zero => trivial
  | succ n ih => exact ⟨length_tail_lt h position, ih _⟩

-- Some reads tell the reader from one that has just started.
def Distinguishable (position : (skippingDecoder bufferSize).Position) : Prop :=
  ∃ reads, Position.Fits bufferSize position reads ∧
    Position.Fits bufferSize (Position.start (skippingDecoder bufferSize)) reads ∧
    position.decodeAll reads ≠ (Position.start (skippingDecoder bufferSize)).decodeAll reads

-- The rest of the header makes an empty frame of the zeros that the reader keeps.
theorem distinguishable_of_zeros (h : 4 ≤ bufferSize) (hskip : position.skip = 0)
    (htail : position.tail ≠ []) (hshort : position.tail.length < 4)
    (hzero : ∀ byte ∈ position.tail, byte = 0) : Distinguishable position := by
  have hstart : (Position.start (skippingDecoder bufferSize)).tail = [] := rfl
  have hpositive := List.length_pos_of_ne_nil htail
  have hheader : position.tail ++ List.replicate (4 - position.tail.length) 0 = [0, 0, 0, 0] := by
    rw [List.eq_replicate_of_mem hzero, List.length_replicate, ← List.replicate_add]
    exact congrArg (List.replicate · (0 : UInt8))
      (show position.tail.length + (4 - position.tail.length) = 4 by omega)
  refine ⟨[List.replicate (4 - position.tail.length) 0], ⟨?_, trivial⟩, ⟨?_, trivial⟩, ?_⟩
  · rw [List.length_replicate]
    omega
  · rw [hstart, List.length_nil, List.length_replicate]
    omega
  · have hnothing := (@advance_of_short _ (Position.start (skippingDecoder bufferSize))
      (List.replicate (4 - position.tail.length) 0) rfl (by
        rw [hstart, List.nil_append, List.length_replicate]
        omega)).1
    rw [Position.decodeAll, Position.decodeAll, Position.decodeAll, Position.decodeAll, hnothing,
      Position.decoded, if_neg (by omega), Position.pending_skipping_zero hskip, hheader,
      show (skippingDecoder bufferSize).drain _ = _ from drain_zeros h]
    intro heq
    cases heq

theorem distinguishable_of_behind (h : 4 ≤ bufferSize) (hbehind : Behind position 4) :
    Distinguishable position := by
  refine ⟨_, fits_zeros h position 4, fits_zeros h _ 4, fun heq => ?_⟩
  exact head_decodeAll_of_behind (Nat.le_refl 4) hbehind (heq ▸ start_zeros h)

-- What the reader skips is a frame to the other one.
theorem distinguishable_of_skipping (h : 4 ≤ bufferSize) (hskip : position.skip ≠ 0) :
    Distinguishable position := by
  have hstart : (Position.start (skippingDecoder bufferSize)).tail = [] := rfl
  have htail : position.tail = [] := position.apart.resolve_left hskip
  have hnothing : position.decoded [0, 0, 0, 0] = [] := by
    rw [Position.decoded]
    split
    · rfl
    · have hshort : (position.pending [0, 0, 0, 0]).length < 4 := by
        rw [Position.pending, htail, List.nil_append, List.length_drop]
        simp only [List.length_cons, List.length_nil]
        omega
      rw [FrameDecoder.drain_of_none (next_of_short hshort)]
  have hframe : (Position.start (skippingDecoder bufferSize)).decoded [0, 0, 0, 0] = [[]] := by
    rw [Position.decoded, if_neg (by exact Nat.not_lt_zero _), Position.pending_skipping_zero rfl,
      hstart, List.nil_append, show (skippingDecoder bufferSize).drain _ = _ from drain_zeros h]
  refine ⟨[[0, 0, 0, 0]], ⟨?_, trivial⟩, ⟨?_, trivial⟩, ?_⟩
  · rw [htail]
    exact h
  · exact h
  · rw [Position.decodeAll, Position.decodeAll, Position.decodeAll, Position.decodeAll, hnothing, hframe]
    intro heq
    cases heq

theorem distinguishable_of_ne (h : 4 ≤ bufferSize)
    (hne : position ≠ Position.start (skippingDecoder bufferSize)) : Distinguishable position := by
  by_cases hskip : position.skip = 0
  · have htail : position.tail ≠ [] := fun htail => hne (Position.ext htail hskip)
    by_cases hlong : 4 ≤ position.tail.length
    · exact distinguishable_of_behind h (Or.inr (Or.inl hlong))
    · by_cases hzero : ∀ byte ∈ position.tail, byte = 0
      · exact distinguishable_of_zeros h hskip htail (Nat.not_le.mp hlong) hzero
      · obtain ⟨byte, hbyte⟩ := not_forall.mp hzero
        exact distinguishable_of_behind h (Or.inr (Or.inr ⟨byte, Classical.not_imp.mp hbyte⟩))
  · exact distinguishable_of_skipping h hskip

end Distinguishing

-- The reader with its reads: whether one is under way on its socket, and how many on
-- the sockets before. A reset cancels these, so that they come back with an error.
structure Reading where
  reader : SimpleWorkerProtoHandler
  underWay : Bool := true
  cancelled : Nat := 0

-- `received` and `failed` are the completion of the read on the socket of the reader,
-- `aborted` that of a cancelled one. `released` is the end of that socket, of which
-- the reader has a weak pointer.
inductive ReadingEvent
  | received (read : Bytes)
  | failed (ec : ErrorCode)
  | aborted
  | released
  | reset

namespace Reading

-- A new handler, once it is started.
def start (memory : Bytes) : Reading := { reader := fresh memory }

def reset (s : Reading) : Reading where
  reader := s.reader.reset
  cancelled := if s.underWay then s.cancelled + 1 else s.cancelled

-- on_receive starts another read if there is a socket.
def step (event : ReadingEvent) (s : Reading) : Reading :=
  match event with
  | .received read =>
      if s.underWay then { s with reader := s.reader.onReceive read, underWay := s.reader.socket } else s
  | .failed ec =>
      if s.underWay then { s with reader := (s.reader.onReceiveError ec).1, underWay := false } else s
  | .aborted =>
      if s.cancelled = 0 then s
      else
        { s with
          reader := (s.reader.onReceiveError .operationAborted).1
          cancelled := s.cancelled - 1 }
  | .released => { s with reader := { s.reader with socket := false } }
  | .reset => s.reset

-- What the buffer handler is given. Bytes that arrive while there is no read stay in
-- the socket.
def delivered (event : ReadingEvent) (s : Reading) : List Bytes :=
  match event with
  | .received read => if s.underWay then s.reader.payloads read else []
  | _ => []

-- What is read fits in the free part of the buffer.
def Possible (event : ReadingEvent) (s : Reading) : Prop :=
  match event with
  | .received read => s.underWay = true → read.length ≤ s.reader.free
  | _ => True

-- After a reset the reader delivers what a new one delivers, of whatever happens on
-- the new connection and whenever the reads on the old ones come back.
def ResetsClean (s : Reading) : Prop :=
  ∀ memory events, memory.length = s.reader.readBufferSize → (∀ event ∈ events, event ≠ .reset) →
    Runs.EveryStep step Possible s.reset events → Runs.EveryStep step Possible (start memory) events →
    Runs.collect step delivered s.reset events = Runs.collect step delivered (start memory) events

section Clean

variable {bufferSize : Nat} {s t : Reading} {position : (skippingDecoder bufferSize).Position}

theorem stands_step (h : Stands s.reader position) (event : ReadingEvent) :
    ∃ next : (skippingDecoder bufferSize).Position, Stands (step event s).reader next := by
  have hsame : ∀ socket, Stands { s.reader with socket := socket } position := fun _ =>
    ⟨h.size, h.offset, h.front, h.skipping⟩
  cases event with
  | received read =>
      rw [step]
      split
      · exact ⟨_, (h.receive read).2⟩
      · exact ⟨_, h⟩
  | failed ec =>
      rw [step]
      split
      · exact ⟨_, hsame false⟩
      · exact ⟨_, h⟩
  | aborted =>
      rw [step]
      split
      · exact ⟨_, h⟩
      · exact ⟨_, hsame false⟩
  | released => exact ⟨_, hsame false⟩
  | reset => exact ⟨_, hsame true⟩

theorem run_stands (memory : Bytes) (events : List ReadingEvent) :
    ∃ position : (skippingDecoder memory.length).Position,
      Stands (Runs.run step (start memory) events).reader position :=
  @Runs.run_invariant _ _ step
    (fun s => ∃ position : (skippingDecoder memory.length).Position, Stands s.reader position)
    (fun event _ ⟨_, h⟩ => stands_step h event) _ ⟨_, stands_fresh memory⟩ events

theorem delivered_of_small (h : Stands s.reader position) (hsmall : bufferSize < 4) (event : ReadingEvent) :
    delivered event s = [] := by
  cases event with
  | received read =>
      have hnothing := @decodeAll_of_small _ position hsmall [read]
      rw [Position.decodeAll, Position.decodeAll, List.append_nil] at hnothing
      rw [delivered, (h.receive read).1, hnothing, ite_self]
  | failed | aborted | released | reset => rfl

-- No header fits in the buffer.
theorem collect_of_small (h : Stands s.reader position) (hsmall : bufferSize < 4)
    (events : List ReadingEvent) : Runs.collect step delivered s events = [] := by
  induction events generalizing s position with
  | nil => rfl
  | cons event rest ih =>
      obtain ⟨next, hnext⟩ := stands_step h event
      rw [Runs.collect, delivered_of_small h hsmall, ih hnext, List.append_nil]

-- Two readers at one position, of which no read on an earlier socket is left.
structure Alike (position : (skippingDecoder bufferSize).Position) (s t : Reading) : Prop where
  left : Stands s.reader position
  right : Stands t.reader position
  underWay : s.underWay = t.underWay
  socket : s.reader.socket = t.reader.socket
  cancelled : s.cancelled = 0 ∧ t.cancelled = 0

theorem Alike.delivered (h : Alike position s t) (event : ReadingEvent) :
    delivered event s = delivered event t := by
  cases event with
  | received read =>
      rw [Reading.delivered, Reading.delivered, h.underWay, (h.left.receive read).1, (h.right.receive read).1]
  | failed | aborted | released | reset => rfl

theorem Alike.step (h : Alike position s t) {event : ReadingEvent} (hevent : event ≠ .reset) :
    ∃ next : (skippingDecoder bufferSize).Position, Alike next (step event s) (step event t) := by
  have hsame : ∀ {reader : SimpleWorkerProtoHandler} socket, Stands reader position →
      Stands { reader with socket := socket } position := fun _ h => ⟨h.size, h.offset, h.front, h.skipping⟩
  have hway := h.underWay
  cases event with
  | received read =>
      rw [Reading.step, Reading.step, hway]
      split
      · exact ⟨_, (h.left.receive read).2, (h.right.receive read).2, h.socket, h.socket, h.cancelled⟩
      · exact ⟨_, h⟩
  | failed ec =>
      rw [Reading.step, Reading.step, hway]
      split
      · exact ⟨_, hsame false h.left, hsame false h.right, rfl, rfl, h.cancelled⟩
      · exact ⟨_, h⟩
  | aborted =>
      rw [Reading.step, Reading.step, if_pos h.cancelled.1, if_pos h.cancelled.2]
      exact ⟨_, h⟩
  | released => exact ⟨_, hsame false h.left, hsame false h.right, hway, rfl, h.cancelled⟩
  | reset => exact absurd rfl hevent

theorem Alike.collect (h : Alike position s t) {events : List ReadingEvent}
    (hevents : ∀ event ∈ events, event ≠ .reset) :
    Runs.collect Reading.step Reading.delivered s events =
      Runs.collect Reading.step Reading.delivered t events := by
  induction events generalizing s t position with
  | nil => rfl
  | cons event rest ih =>
      obtain ⟨hevent, hrest⟩ := List.forall_mem_cons.mp hevents
      obtain ⟨next, hnext⟩ := h.step hevent
      rw [Runs.collect, Runs.collect, h.delivered, ih hnext hrest]

-- A reader with a read under way on a socket that stays.
structure Attached (position : (skippingDecoder bufferSize).Position) (s : Reading) : Prop where
  stands : Stands s.reader position
  underWay : s.underWay = true
  socket : s.reader.socket = true

theorem attached_start {memory : Bytes} (h : memory.length = bufferSize) :
    Attached (Position.start (skippingDecoder bufferSize)) (start memory) := by
  subst h
  exact ⟨stands_fresh memory, rfl, rfl⟩

theorem attached_reset (h : Stands s.reader position) : Attached position s.reset :=
  ⟨⟨h.size, h.offset, h.front, h.skipping⟩, rfl, rfl⟩

theorem Attached.received (h : Attached position s) (read : Bytes) :
    Attached (position.advance read) (step (.received read) s) := by
  rw [step, if_pos h.underWay]
  exact ⟨(h.stands.receive read).2, h.socket, h.socket⟩

theorem Attached.delivered (h : Attached position s) (read : Bytes) :
    delivered (.received read) s = position.decoded read := by
  rw [Reading.delivered, if_pos h.underWay, (h.stands.receive read).1]

theorem Attached.collect (h : Attached position s) (reads : List Bytes) :
    Runs.collect step Reading.delivered s (reads.map .received) = position.decodeAll reads := by
  induction reads generalizing s position with
  | nil => rfl
  | cons read rest ih =>
      rw [List.map_cons, Runs.collect, Position.decodeAll, h.delivered, ih (h.received read)]

theorem Attached.possible (h : Attached position s) {reads : List Bytes}
    (hfits : Position.Fits bufferSize position reads) :
    Runs.EveryStep step Possible s (reads.map .received) := by
  induction reads generalizing s position with
  | nil => trivial
  | cons read rest ih =>
      have hread := hfits.1
      refine ⟨fun _ => ?_, ih (h.received read) hfits.2⟩
      rw [free, h.stands.size, h.stands.offset]
      omega

-- Without a read under way nothing is delivered.
theorem collect_of_stopped (h : s.underWay = false) (reads : List Bytes) :
    Runs.collect step delivered s (reads.map .received) = [] ∧
      Runs.EveryStep step Possible s (reads.map .received) := by
  have hstep : ∀ read, step (.received read) s = s := fun read => by rw [step, h, if_neg Bool.false_ne_true]
  have hdelivered : ∀ read, delivered (.received read) s = [] := fun read => by
    rw [delivered, h, if_neg Bool.false_ne_true]
  induction reads with
  | nil => exact ⟨rfl, trivial⟩
  | cons read rest ih =>
      rw [List.map_cons, Runs.collect, Runs.EveryStep, hstep, hdelivered]
      exact ⟨ih.1, fun hway => absurd (h.symm.trans hway) Bool.false_ne_true, ih.2⟩

theorem not_reset_mem_received (reads : List Bytes) :
    ∀ event ∈ reads.map ReadingEvent.received, event ≠ .reset := by
  intro event hevent
  obtain ⟨read, -, rfl⟩ := List.mem_map.mp hevent
  exact fun h => by cases h

-- A cancelled read that comes back takes the new socket away, so that the reader
-- goes on for one read only.
theorem collect_aborted (h : Attached position s) (hcancelled : s.cancelled ≠ 0) (read : Bytes)
    (reads : List Bytes) (hfits : position.tail.length + read.length ≤ bufferSize) :
    Runs.collect step delivered s (.aborted :: (read :: reads).map .received) = position.decoded read ∧
      Runs.EveryStep step Possible s (.aborted :: (read :: reads).map .received) := by
  have haborted : step .aborted s = { s with
      reader := { s.reader with socket := false }
      cancelled := s.cancelled - 1 } := if_neg hcancelled
  have hstands : Stands (step .aborted s).reader position := by
    rw [haborted]
    exact ⟨h.stands.size, h.stands.offset, h.stands.front, h.stands.skipping⟩
  have hway : (step .aborted s).underWay = true := by
    rw [haborted]
    exact h.underWay
  have hstopped : (step (.received read) (step .aborted s)).underWay = false := by
    rw [step, if_pos hway, haborted]
  obtain ⟨hnothing, hpossible⟩ := collect_of_stopped hstopped reads
  have hfirst : delivered (.received read) (step .aborted s) = position.decoded read := by
    rw [delivered, if_pos hway, (hstands.receive read).1]
  constructor
  · rw [Runs.collect, List.map_cons, Runs.collect, hnothing, hfirst, List.append_nil]
    rfl
  · refine ⟨trivial, fun _ => ?_, hpossible⟩
    rw [free, hstands.size, hstands.offset]
    omega

theorem not_resetsClean_of_cancelled (h : Stands s.reader position) (hsize : 4 ≤ bufferSize)
    (hcancelled : s.reset.cancelled ≠ 0) : ¬ResetsClean s := by
  intro hclean
  have hmemory : (List.replicate bufferSize (0 : UInt8)).length = s.reader.readBufferSize :=
    List.length_replicate.trans h.size.symm
  have hnew := attached_start (@List.length_replicate _ bufferSize (0 : UInt8))
  have hone : position.tail.length + [(0 : UInt8)].length ≤ bufferSize := length_tail_lt hsize position
  have hsame : ∀ n, position.decoded [0] =
      (Position.start (skippingDecoder bufferSize)).decodeAll (List.replicate (n + 1) [0]) := by
    intro n
    obtain ⟨hcollect, hpossible⟩ := collect_aborted (attached_reset h) hcancelled [0] (List.replicate n [0]) hone
    rw [← List.replicate_succ] at hcollect hpossible
    have hevents : ∀ event ∈ ReadingEvent.aborted :: (List.replicate (n + 1) [0]).map .received,
        event ≠ .reset :=
      List.forall_mem_cons.mpr ⟨ReadingEvent.noConfusion, not_reset_mem_received _⟩
    have hequal := hclean _ _ hmemory hevents hpossible
      ⟨trivial, hnew.possible (fits_zeros hsize _ (n + 1))⟩
    rw [hcollect] at hequal
    exact hequal.trans (hnew.collect _)
  have hfirst : (Position.start (skippingDecoder bufferSize)).decodeAll (List.replicate 1 [0]) = [] := by
    have hdecoded := (@advance_of_short _ (Position.start (skippingDecoder bufferSize)) [0] rfl
      (show 1 < 4 by decide)).1
    rw [List.replicate_one, Position.decodeAll, Position.decodeAll, hdecoded, List.append_nil]
  have hfourth := start_zeros hsize
  rw [← hsame 3, hsame 0, hfirst] at hfourth
  cases hfourth

theorem not_resetsClean_of_ne (h : Stands s.reader position) (hsize : 4 ≤ bufferSize)
    (hne : position ≠ Position.start (skippingDecoder bufferSize)) : ¬ResetsClean s := by
  intro hclean
  have hmemory : (List.replicate bufferSize (0 : UInt8)).length = s.reader.readBufferSize :=
    List.length_replicate.trans h.size.symm
  have hnew := attached_start (@List.length_replicate _ bufferSize (0 : UInt8))
  obtain ⟨reads, hfits, hfits', hdiffers⟩ := distinguishable_of_ne hsize hne
  have hequal := hclean _ _ hmemory (not_reset_mem_received reads) ((attached_reset h).possible hfits)
    (hnew.possible hfits')
  rw [(attached_reset h).collect, hnew.collect] at hequal
  exact hdiffers hequal

theorem resetsClean_iff (h : Stands s.reader position) : ResetsClean s ↔ s.reader.readBufferSize < 4 ∨
    s.underWay = false ∧ s.cancelled = 0 ∧ s.reader.offset = 0 ∧ s.reader.skipping = 0 := by
  rw [h.size, h.offset, h.skipping]
  constructor
  · intro hclean
    by_cases hsize : bufferSize < 4
    · exact Or.inl hsize
    · rw [Nat.not_lt] at hsize
      have hnone : s.reset.cancelled = 0 := by
        by_contra hcancelled
        exact not_resetsClean_of_cancelled h hsize hcancelled hclean
      have hstart : position = Position.start (skippingDecoder bufferSize) := by
        by_contra hne
        exact not_resetsClean_of_ne h hsize hne hclean
      right
      rw [reset] at hnone
      dsimp only at hnone
      split at hnone
      · cases hnone
      · rename_i hway
        exact ⟨Bool.not_eq_true _ ▸ hway, hnone, by rw [hstart]; exact ⟨rfl, rfl⟩⟩
  · rintro (hsmall | ⟨hway, hcancelled, htail, hskip⟩) memory events hmemory hevents _ _
    · have hnew := attached_start (hmemory.trans h.size)
      rw [collect_of_small (attached_reset h).stands hsmall, collect_of_small hnew.stands hsmall]
    · have hstart : position = Position.start (skippingDecoder bufferSize) :=
        Position.ext (List.eq_nil_of_length_eq_zero htail) hskip
      have hnew := attached_start (hmemory.trans h.size)
      have hnone : s.reset.cancelled = 0 := by
        rw [reset]
        dsimp only
        rw [hway, if_neg Bool.false_ne_true, hcancelled]
      subst hstart
      have halike : Alike (Position.start (skippingDecoder bufferSize)) s.reset (start memory) :=
        ⟨(attached_reset h).stands, hnew.stands, rfl, rfl, hnone, rfl⟩
      exact halike.collect hevents

end Clean

end Reading

section Reset

open Reading

-- A reset leaves a clean reader exactly where the old connections have left nothing
-- behind, neither of their streams nor of their reads.
theorem reset_clean_iff (memory : Bytes) (events : List ReadingEvent) :
    ResetsClean (Runs.run step (start memory) events) ↔
      (Runs.run step (start memory) events).reader.readBufferSize < 4 ∨
        (Runs.run step (start memory) events).underWay = false ∧
        (Runs.run step (start memory) events).cancelled = 0 ∧
        (Runs.run step (start memory) events).reader.offset = 0 ∧
        (Runs.run step (start memory) events).reader.skipping = 0 := by
  obtain ⟨position, hstands⟩ := Reading.run_stands memory events
  exact resetsClean_iff hstands

-- The old connection ends after two bytes of a header, and the new one begins with
-- two of the same.
theorem reset_clean_refuted : ¬∀ memory events,
    Runs.EveryStep step Possible (start memory) events → ResetsClean (Runs.run step (start memory) events) := by
  intro hall
  have hclean := hall (List.replicate 8 0) [.received [0, 0], .failed .other]
    ⟨fun _ => show 2 ≤ 8 by decide, trivial, trivial⟩
  have hstart := attached_start (@rfl _ (List.replicate 8 (0 : UInt8)).length)
  obtain ⟨hnothing, htail, hskip⟩ := @advance_of_short _
    (Position.start (skippingDecoder (List.replicate 8 (0 : UInt8)).length)) [0, 0] rfl (by decide)
  have hold : Stands (Runs.run step (start (List.replicate 8 0)) [.received [0, 0], .failed .other]).reader
      ((Position.start (skippingDecoder (List.replicate 8 (0 : UInt8)).length)).advance [0, 0]) := by
    have hread := (hstart.received [0, 0]).stands
    exact ⟨hread.size, hread.offset, hread.front, hread.skipping⟩
  generalize (Position.start (skippingDecoder (List.replicate 8 (0 : UInt8)).length)).advance [0, 0] =
    position at htail hskip hold
  have hfits : Position.Fits (List.replicate 8 (0 : UInt8)).length position [[0, 0]] := by
    refine ⟨?_, trivial⟩
    rw [htail]
    decide
  have hequal := hclean (List.replicate 8 0) [.received [0, 0]] hold.size.symm
    (not_reset_mem_received [[0, 0]]) ((attached_reset hold).possible hfits)
    ⟨fun _ => show 2 ≤ 8 by decide, trivial⟩
  have hdelivered := (attached_reset hold).collect [[0, 0]]
  have hfresh := hstart.collect [[0, 0]]
  have hheader : position.tail ++ [0, 0] = [0, 0, 0, 0] := by rw [htail]; rfl
  have hempty : position.decoded [0, 0] = [[]] := by
    rw [Position.decoded, if_neg (by omega), Position.pending_skipping_zero hskip, hheader,
      show (skippingDecoder _).drain _ = _ from drain_zeros (by decide)]
  rw [Position.decodeAll, Position.decodeAll, hempty] at hdelivered
  rw [Position.decodeAll, Position.decodeAll, hnothing] at hfresh
  exact absurd (hdelivered.symm.trans (hequal.trans hfresh)) (by decide)

end Reset

end LiveReceptor.Framing

import LiveReceptor.Shared.Framing.Reset

namespace LiveReceptor.Framing

open SimpleWorkerProto SimpleWorkerProtoHandler

-- A turn of the while loop: where `begin` is, and how many bytes remain from
-- there.
structure LoopTurn where
  start : Nat
  remaining : Nat
  deriving DecidableEq, Repr

-- The turns that the loop of handle_simple_message takes.
def loopTurns (buf : Bytes) (bufferSize start remaining : Nat) : List LoopTurn :=
  if remaining = 0 then []
  else if remaining < simpleMessageHeaderLength then [⟨start, remaining⟩]
  else
    let lengthWithHeader := (networkToHostLong (buf.drop start)).toNat + simpleMessageHeaderLength
    if bufferSize < lengthWithHeader ∨ remaining < lengthWithHeader then [⟨start, remaining⟩]
    else
      ⟨start, remaining⟩ ::
        loopTurns buf bufferSize (start + lengthWithHeader) (remaining - lengthWithHeader)
termination_by remaining
decreasing_by simp only [simpleMessageHeaderLength]; omega

section Turns

variable {buf : Bytes} {transferred bufferSize limit start remaining : Nat} {turn : LoopTurn}

theorem loopTurns_zero : loopTurns buf bufferSize start 0 = [] := by
  rw [loopTurns, if_pos rfl]

-- The loop stops at a packet that is too big or not complete.
theorem loopTurns_last (hpos : remaining ≠ 0) (h : remaining < 4 ∨
    bufferSize < (networkToHostLong (buf.drop start)).toNat + 4 ∨
      remaining < (networkToHostLong (buf.drop start)).toNat + 4) :
    loopTurns buf bufferSize start remaining = [⟨start, remaining⟩] := by
  rw [loopTurns, if_neg hpos]
  split
  · rfl
  · rename_i hheader
    exact if_pos (h.resolve_left hheader)

theorem loopTurns_frame {length : Nat} (h4 : 4 ≤ remaining)
    (hl : (networkToHostLong (buf.drop start)).toNat = length)
    (hbig : length + 4 ≤ bufferSize) (hwhole : length + 4 ≤ remaining) :
    loopTurns buf bufferSize start remaining =
      ⟨start, remaining⟩ :: loopTurns buf bufferSize (start + (length + 4)) (remaining - (length + 4)) := by
  subst hl
  rw [loopTurns, if_neg (by omega)]
  simp only [simpleMessageHeaderLength]
  rw [if_neg (by omega), if_neg (by omega)]

-- A property of the loop, by what it does with the bytes from `start` on.
theorem loop_induction {P : Nat → Nat → Prop} (hdone : ∀ start, P start 0)
    (htooBig : ∀ start remaining, 4 ≤ remaining →
      bufferSize < (networkToHostLong (buf.drop start)).toNat + 4 → P start remaining)
    (hincomplete : ∀ start remaining, remaining ≠ 0 →
      remaining < 4 ∨ remaining < (networkToHostLong (buf.drop start)).toNat + 4 →
      (4 ≤ remaining → (networkToHostLong (buf.drop start)).toNat + 4 ≤ bufferSize) → P start remaining)
    (hframe : ∀ start remaining length, 4 ≤ remaining →
      (networkToHostLong (buf.drop start)).toNat = length → length + 4 ≤ bufferSize →
      length + 4 ≤ remaining → P (start + (length + 4)) (remaining - (length + 4)) → P start remaining)
    (start remaining : Nat) : P start remaining := by
  induction remaining using Nat.strong_induction_on generalizing start with
  | _ remaining ih =>
      by_cases hzero : remaining = 0
      · subst hzero
        exact hdone start
      by_cases hbig : 4 ≤ remaining ∧ bufferSize < (networkToHostLong (buf.drop start)).toNat + 4
      · exact htooBig start remaining hbig.1 hbig.2
      by_cases hpart : remaining < 4 ∨ remaining < (networkToHostLong (buf.drop start)).toNat + 4
      · exact hincomplete start remaining hzero hpart (by omega)
      · exact hframe start remaining _ (by omega) rfl (by omega) (by omega) (ih _ (by omega) _)

-- The loop asserts the same in each of its turns, and once more where it gives
-- up a packet.
theorem assertions_messageLoop (start remaining : Nat) :
    (messageLoop buf transferred bufferSize limit start remaining).assertions =
      ((loopTurns buf bufferSize start remaining).all
          (fun turn => decide (turn.remaining ≤ bufferSize ∧ turn.remaining ≤ limit)) &&
        (messageLoop buf transferred bufferSize limit start remaining).tooBig.all
          fun big => decide (transferred < big.length)) := by
  induction start, remaining using loop_induction with
  | hdone start =>
      rw [messageLoop_zero, loopTurns_zero]
      rfl
  | htooBig start remaining h4 hbig =>
      rw [messageLoop_tooBig h4 hbig, loopTurns_last (by omega) (Or.inr (Or.inl hbig)), List.all_cons,
        List.all_nil, Bool.and_true, Option.all_some]
  | hincomplete start remaining hpos hpart hsmall =>
      rw [messageLoop_incomplete hpos hpart hsmall, loopTurns_last hpos (by omega), List.all_cons,
        List.all_nil, Bool.and_true, Option.all_none, Bool.and_true]
  | hframe start remaining length h4 hl hbig hwhole ih =>
      rw [messageLoop_frame h4 hl hbig hwhole, loopTurns_frame h4 hl hbig hwhole]
      dsimp only
      rw [ih, List.all_cons, Bool.and_assoc]

-- Whatever turn it is, it goes up to the end of what has been received.
theorem of_mem_loopTurns (start remaining : Nat) :
    ∀ turn ∈ loopTurns buf bufferSize start remaining,
      start ≤ turn.start ∧ turn.start + turn.remaining = start + remaining := by
  have hlast : ∀ start remaining, ∀ turn ∈ [(⟨start, remaining⟩ : LoopTurn)],
      start ≤ turn.start ∧ turn.start + turn.remaining = start + remaining := by
    intro start remaining turn hturn
    rw [List.mem_singleton.mp hturn]
    exact ⟨Nat.le_refl start, rfl⟩
  induction start, remaining using loop_induction with
  | hdone start =>
      rw [loopTurns_zero]
      exact fun turn hturn => absurd hturn List.not_mem_nil
  | htooBig start remaining h4 hbig =>
      rw [loopTurns_last (by omega) (Or.inr (Or.inl hbig))]
      exact hlast start remaining
  | hincomplete start remaining hpos hpart hsmall =>
      rw [loopTurns_last hpos (by omega)]
      exact hlast start remaining
  | hframe start remaining length h4 hl hbig hwhole ih =>
      rw [loopTurns_frame h4 hl hbig hwhole]
      refine List.forall_mem_cons.mpr ⟨⟨Nat.le_refl start, rfl⟩, fun turn hturn => ?_⟩
      have hlater := ih turn hturn
      omega

theorem call_inside (start remaining : Nat) :
    ∀ call ∈ (messageLoop buf transferred bufferSize limit start remaining).calls,
      start < call.position ∧ call.position + call.length ≤ start + remaining := by
  induction start, remaining using loop_induction with
  | hdone start =>
      rw [messageLoop_zero]
      exact fun call hcall => absurd hcall List.not_mem_nil
  | htooBig start remaining h4 hbig =>
      rw [messageLoop_tooBig h4 hbig]
      exact fun call hcall => absurd hcall List.not_mem_nil
  | hincomplete start remaining hpos hpart hsmall =>
      rw [messageLoop_incomplete hpos hpart hsmall]
      exact fun call hcall => absurd hcall List.not_mem_nil
  | hframe start remaining length h4 hl hbig hwhole ih =>
      rw [messageLoop_frame h4 hl hbig hwhole]
      have hfirst : start < start + 4 ∧ start + 4 + length ≤ start + remaining := by omega
      refine List.forall_mem_cons.mpr ⟨hfirst, fun call hcall => ?_⟩
      have hlater := ih call hcall
      omega

-- A payload ends before the header of the next packet.
theorem calls_ordered (start remaining : Nat) :
    (messageLoop buf transferred bufferSize limit start remaining).calls.Pairwise
      fun call next => call.position + call.length < next.position := by
  induction start, remaining using loop_induction with
  | hdone start =>
      rw [messageLoop_zero]
      exact .nil
  | htooBig start remaining h4 hbig =>
      rw [messageLoop_tooBig h4 hbig]
      exact .nil
  | hincomplete start remaining hpos hpart hsmall =>
      rw [messageLoop_incomplete hpos hpart hsmall]
      exact .nil
  | hframe start remaining length h4 hl hbig hwhole ih =>
      rw [messageLoop_frame h4 hl hbig hwhole]
      refine List.pairwise_cons.mpr ⟨fun next hnext => ?_, ih⟩
      have hlater := (call_inside _ _ next hnext).1
      show start + 4 + length < next.position
      omega

end Turns

-- The turns of the loop that on_receive runs.
def readTurns (reader : SimpleWorkerProtoHandler) (read : Bytes) : List LoopTurn :=
  if reader.skipping > read.length then []
  else
    loopTurns (reader.received read) reader.readBufferSize reader.skipping
      (read.length - reader.skipping + reader.offset)

-- The next read has room behind what is kept, and nothing is kept of a packet
-- that is skipped.
structure WithinBuffer (reader : SimpleWorkerProtoHandler) : Prop where
  room : reader.offset < reader.readBufferSize
  apart : reader.skipping ≠ 0 → reader.offset = 0

-- What the loop does with a read: its assertion holds in every turn, and the
-- payloads lie in what has been received, one behind the other.
structure Orderly (reader : SimpleWorkerProtoHandler) (read : Bytes) : Prop where
  asserted : ∀ turn ∈ readTurns reader read, turn.remaining ≤ reader.readBufferSize
  inside : ∀ call ∈ (reader.result read).calls, call.position + call.length ≤ reader.offset + read.length
  ordered : (reader.result read).calls.Pairwise fun call next => call.position + call.length < next.position

section Reads

variable {reader : SimpleWorkerProtoHandler} {read : Bytes}

theorem Stands.withinBuffer {bufferSize : Nat} {position : (skippingDecoder bufferSize).Position}
    (h : Stands reader position) (hsize : 4 ≤ bufferSize) : WithinBuffer reader where
  room := by
    rw [h.offset, h.size]
    exact length_tail_lt hsize position
  apart hskip := by
    rw [h.skipping] at hskip
    rw [h.offset, position.apart.resolve_left hskip]
    rfl

theorem WithinBuffer.orderly (h : WithinBuffer reader) (hread : read.length ≤ reader.free) :
    Orderly reader read := by
  have hroom := h.room
  have hend : reader.skipping ≤ read.length →
      reader.skipping + (read.length - reader.skipping + reader.offset) = reader.offset + read.length := by
    omega
  rw [free] at hread
  by_cases hskip : reader.skipping > read.length
  · have hturns : readTurns reader read = [] := if_pos hskip
    have hcalls : (reader.result read).calls = [] := by
      rw [result, handleSimpleMessage, if_pos hskip]
    refine ⟨?_, ?_, ?_⟩
    · rw [hturns]
      exact fun turn hturn => absurd hturn List.not_mem_nil
    · rw [hcalls]
      exact fun call hcall => absurd hcall List.not_mem_nil
    · rw [hcalls]
      exact .nil
  · have hturns : readTurns reader read = _ := if_neg hskip
    have hcalls : reader.result read = _ := if_neg hskip
    refine ⟨fun turn hturn => ?_, fun call hcall => ?_, ?_⟩
    · rw [hturns] at hturn
      have hwhole := (of_mem_loopTurns _ _ turn hturn).2
      omega
    · rw [hcalls] at hcall
      have hwhole := (call_inside _ _ call hcall).2
      omega
    · rw [hcalls]
      exact calls_ordered _ _

end Reads

theorem run_withinBuffer (memory : Bytes) (events : List ReaderEvent) (hsize : 4 ≤ memory.length) :
    WithinBuffer (Runs.run handle (fresh memory) events) := by
  obtain ⟨position, hstands⟩ := run_stands memory events
  exact hstands.withinBuffer hsize

-- Whatever is received, in whatever pieces, over however many connections.
theorem run_orderly (memory : Bytes) (events : List ReaderEvent) (read : Bytes) (hsize : 4 ≤ memory.length)
    (hread : read.length ≤ (Runs.run handle (fresh memory) events).free) :
    WithinBuffer (Runs.run handle (fresh memory) events) ∧
      Orderly (Runs.run handle (fresh memory) events) read :=
  ⟨run_withinBuffer memory events hsize, (run_withinBuffer memory events hsize).orderly hread⟩

-- A part of a header is kept behind what there is of it.
theorem onReceive_of_short {reader : SimpleWorkerProtoHandler} {read : Bytes} (hskip : reader.skipping = 0)
    (hread : read ≠ []) (hshort : read.length + reader.offset < 4) : reader.onReceive read = { reader with
      buf := memmove (reader.received read) 0 (read.length + reader.offset)
      offset := read.length + reader.offset } := by
  have hpos := List.length_pos_of_ne_nil hread
  have hresult : reader.result read = _ := if_neg (by omega)
  rw [hskip, Nat.sub_zero, messageLoop_incomplete (by omega) (Or.inl hshort) (by omega)] at hresult
  rw [onReceive, hresult, hskip]

-- A header that comes in two reads, with a reset between them, and then more.
theorem run_orderly_header :
    WithinBuffer (Runs.run handle (fresh (List.replicate 8 255)) [.received [0, 0], .reset, .received [0]]) ∧
      Orderly (Runs.run handle (fresh (List.replicate 8 255)) [.received [0, 0], .reset, .received [0]])
        [3, 7, 8, 9, 0] :=
  run_orderly (List.replicate 8 255) [.received [0, 0], .reset, .received [0]] [3, 7, 8, 9, 0] (by decide) (by
    rw [Runs.run_cons, handle, onReceive_of_short rfl (by decide) (by decide), Runs.run_cons, Runs.run_cons,
      handle, handle, onReceive_of_short rfl (by decide) (by decide)]
    decide)

end LiveReceptor.Framing

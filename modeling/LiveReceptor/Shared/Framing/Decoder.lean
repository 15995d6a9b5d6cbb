import LiveReceptor.Shared.SimpleWorkerProtoHandler
import LiveReceptor.Library.FrameDecoder

namespace LiveReceptor.Framing

open SimpleWorkerProto

theorem networkToHostLong_append {data : Bytes} (more : Bytes) (h : 4 ≤ data.length) :
    networkToHostLong (data ++ more) = networkToHostLong data := by
  match data, h with
  | _ :: _ :: _ :: _ :: _, _ => rfl

theorem networkToHostLong_take {data : Bytes} {n : Nat} (hn : 4 ≤ n) (h : 4 ≤ data.length) :
    networkToHostLong (data.take n) = networkToHostLong data := by
  conv_rhs => rw [← List.take_append_drop n data]
  exact (networkToHostLong_append _ (by simp; omega)).symm

def announced (data : Bytes) : Nat := (networkToHostLong data).toNat

-- A header in front of `data` announces a frame that the buffer cannot hold.
def Oversized (bufferSize : Nat) (data : Bytes) : Prop :=
  simpleMessageHeaderLength ≤ data.length ∧
    bufferSize < announced data + simpleMessageHeaderLength

instance (bufferSize : Nat) (data : Bytes) : Decidable (Oversized bufferSize data) :=
  inferInstanceAs (Decidable (_ ∧ _))

-- The framing as a decoder of byte streams, without any buffer.
def decoder (bufferSize : Nat) : FrameDecoder UInt8 Bytes where
  next data :=
    if data.length < 4 ∨ bufferSize < announced data + 4 ∨ data.length < announced data + 4 then none
    else some (slice data 4 (announced data), data.drop (announced data + 4))
  shrinks h := by
    split at h
    · cases h
    · cases h
      rw [List.length_drop]
      omega
  stable {data frame rest} more h := by
    split at h
    · cases h
    · rename_i hn
      have ha : announced (data ++ more) = announced data := by
        rw [announced, networkToHostLong_append more (by omega), announced]
      cases h
      rw [ha, if_neg (by rw [List.length_append]; omega)]
      have hlen : announced data ≤ (data.drop 4).length := by rw [List.length_drop]; omega
      rw [slice, slice, List.drop_append_of_le_length (by omega),
        List.drop_append_of_le_length (by omega), List.take_append_of_le_length hlen]

theorem decoder_next (bufferSize : Nat) (data : Bytes) :
    (decoder bufferSize).next data =
      if data.length < 4 ∨ bufferSize < announced data + 4 ∨ data.length < announced data + 4 then none
      else some (slice data 4 (announced data), data.drop (announced data + 4)) := rfl

-- What the loop returns once only `rest` is left: it throws an oversized frame
-- away, and otherwise keeps what it could not decode at the front.
def Settled (bufferSize : Nat) (rest : Bytes) (result : MessageResult) : Prop :=
  if Oversized bufferSize rest then
    result.tooBig = some ⟨announced rest, rest.length⟩ ∧ result.offset = 0 ∧
      result.skipping = skipAfterTooBig (announced rest) rest.length
  else
    result.tooBig = none ∧ result.offset = rest.length ∧ result.buf.take rest.length = rest ∧
      result.skipping = 0

theorem slice_length {buf : Bytes} {start length : Nat} (h : start + length ≤ buf.length) :
    (slice buf start length).length = length := by
  simp only [slice, List.length_take, List.length_drop]
  omega

theorem take_memmove {buf : Bytes} {start length : Nat} (h : start + length ≤ buf.length) :
    (memmove buf start length).take length = slice buf start length := by
  rw [memmove, List.take_append_of_le_length (slice_length h).ge,
    List.take_of_length_le (slice_length h).le]

theorem drop_slice (buf : Bytes) (start length n : Nat) :
    (slice buf start length).drop n = slice buf (start + n) (length - n) := by
  rw [slice, slice, List.drop_take, List.drop_drop]

theorem slice_slice (buf : Bytes) (start length n m : Nat) (h : n + m ≤ length) :
    slice (slice buf start length) n m = slice buf (start + n) m := by
  rw [slice, drop_slice, slice, slice, List.take_take, min_eq_left (by omega)]

theorem announced_slice {buf : Bytes} {start length : Nat} (h4 : 4 ≤ length)
    (h : start + length ≤ buf.length) :
    announced (slice buf start length) = (networkToHostLong (buf.drop start)).toNat := by
  rw [announced, slice, networkToHostLong_take h4 (by rw [List.length_drop]; omega)]

section Loop

variable {buf : Bytes} {transferred bufferSize limit start remaining : Nat}

theorem messageLoop_zero :
    messageLoop buf transferred bufferSize limit start 0 = { buf, offset := 0, skipping := 0 } := by
  rw [messageLoop, if_pos rfl]

-- Too few bytes for a header, or for the frame that the header announces.
theorem messageLoop_incomplete (hpos : remaining ≠ 0)
    (h : remaining < 4 ∨ remaining < (networkToHostLong (buf.drop start)).toNat + 4)
    (hbig : 4 ≤ remaining → (networkToHostLong (buf.drop start)).toNat + 4 ≤ bufferSize) :
    messageLoop buf transferred bufferSize limit start remaining =
      { buf := memmove buf start remaining, offset := remaining, skipping := 0,
        assertions := decide (remaining ≤ bufferSize ∧ remaining ≤ limit) } := by
  rw [messageLoop, if_neg hpos]
  dsimp only
  split
  · rfl
  · rename_i hshort
    simp only [simpleMessageHeaderLength] at hshort ⊢
    rw [if_neg (by omega), if_pos (by omega)]

theorem messageLoop_tooBig (h4 : 4 ≤ remaining)
    (hbig : bufferSize < (networkToHostLong (buf.drop start)).toNat + 4) :
    messageLoop buf transferred bufferSize limit start remaining =
      { buf, offset := 0
        skipping := skipAfterTooBig (networkToHostLong (buf.drop start)).toNat remaining
        tooBig := some { length := (networkToHostLong (buf.drop start)).toNat, remaining }
        assertions := decide (remaining ≤ bufferSize ∧ remaining ≤ limit) &&
          decide (transferred < (networkToHostLong (buf.drop start)).toNat) } := by
  rw [messageLoop, if_neg (by omega)]
  simp only [simpleMessageHeaderLength]
  rw [if_neg (by omega), if_pos hbig]

theorem messageLoop_frame {length : Nat} (h4 : 4 ≤ remaining)
    (hl : (networkToHostLong (buf.drop start)).toNat = length)
    (hbig : length + 4 ≤ bufferSize) (hwhole : length + 4 ≤ remaining) :
    messageLoop buf transferred bufferSize limit start remaining =
      let rest := messageLoop buf transferred bufferSize limit (start + (length + 4))
        (remaining - (length + 4))
      { rest with
        calls := ⟨start + 4, length⟩ :: rest.calls
        assertions := decide (remaining ≤ bufferSize ∧ remaining ≤ limit) && rest.assertions } := by
  subst hl
  rw [messageLoop, if_neg (by omega)]
  simp only [simpleMessageHeaderLength]
  rw [if_neg (by omega), if_neg (by omega), if_neg (by omega)]

end Loop

-- The loop over the buffer decodes the bytes it is given, frame by frame.
theorem messageLoop_drain (buf : Bytes) (transferred bufferSize limit start remaining : Nat)
    (h : start + remaining ≤ buf.length) :
    (messageLoop buf transferred bufferSize limit start remaining).calls.map
        (fun call => slice buf call.position call.length) =
      ((decoder bufferSize).drain (slice buf start remaining)).1 ∧
    Settled bufferSize ((decoder bufferSize).drain (slice buf start remaining)).2
      (messageLoop buf transferred bufferSize limit start remaining) := by
  induction remaining using Nat.strong_induction_on generalizing start with
  | _ remaining ih =>
      have hlen := slice_length h
      have hnext := decoder_next bufferSize (slice buf start remaining)
      by_cases hzero : remaining = 0
      · subst hzero
        rw [if_pos (by omega)] at hnext
        rw [FrameDecoder.drain_of_none hnext, messageLoop_zero]
        simp [Settled, Oversized, slice]
      by_cases hshort : remaining < 4
      · rw [if_pos (by omega)] at hnext
        rw [FrameDecoder.drain_of_none hnext,
          messageLoop_incomplete hzero (Or.inl hshort) (fun _ => by omega)]
        have ho : ¬Oversized bufferSize (slice buf start remaining) := fun ho => by
          have := ho.1
          simp only [simpleMessageHeaderLength] at this
          omega
        simp only [Settled, ho, ite_false, hlen, List.map_nil, true_and, and_true]
        exact take_memmove h
      have ha := announced_slice (by omega) h
      generalize hl : announced (slice buf start remaining) = length at ha hnext
      by_cases hbig : bufferSize < length + 4
      · rw [if_pos (by omega)] at hnext
        rw [FrameDecoder.drain_of_none hnext, messageLoop_tooBig (by omega) (by omega)]
        have ho : Oversized bufferSize (slice buf start remaining) :=
          ⟨by simp only [simpleMessageHeaderLength]; omega,
            by simp only [simpleMessageHeaderLength]; omega⟩
        simp only [Settled, ho, ite_true, hlen, List.map_nil, ← ha, hl, and_self]
      by_cases hpart : remaining < length + 4
      · rw [if_pos (by omega)] at hnext
        rw [FrameDecoder.drain_of_none hnext,
          messageLoop_incomplete hzero (Or.inr (by omega)) (fun _ => by omega)]
        have ho : ¬Oversized bufferSize (slice buf start remaining) := fun ho => by
          have := ho.2
          simp only [simpleMessageHeaderLength] at this
          omega
        simp only [Settled, ho, ite_false, hlen, List.map_nil, true_and, and_true]
        exact take_memmove h
      · rw [if_neg (by omega), slice_slice _ _ _ _ _ (by omega), drop_slice] at hnext
        obtain ⟨hcalls, hsettled⟩ := ih (remaining - (length + 4)) (by omega) (start + (length + 4))
          (by omega)
        rw [FrameDecoder.drain_of_some hnext, messageLoop_frame (by omega) ha.symm (by omega) (by omega)]
        exact ⟨by rw [List.map_cons, hcalls], hsettled⟩

end LiveReceptor.Framing

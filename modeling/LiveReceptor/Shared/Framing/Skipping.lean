import LiveReceptor.Shared.Framing.Decoder

namespace LiveReceptor.Framing

open SimpleWorkerProto SimpleWorkerProtoHandler

-- How many bytes of the reads to come are thrown away before the next byte is
-- taken for a header; `none` while the reads do not get that far.
def discarded : SimpleWorkerProtoHandler → List Bytes → Option Nat
  | _, [] => none
  | reader, read :: rest =>
      if reader.skipping > read.length then
        (discarded (reader.onReceive read) rest).map (read.length + ·)
      else some reader.skipping

theorem onReceive_skipping {reader : SimpleWorkerProtoHandler} {read : Bytes}
    (h : reader.skipping > read.length) :
    (reader.onReceive read).skipping = reader.skipping - read.length := by
  rw [onReceive, result, handleSimpleMessage, if_pos h]

-- The skip count is consumed byte by byte, however the reads are cut.
theorem discarded_eq_skipping {reader : SimpleWorkerProtoHandler} {reads : List Bytes} {count : Nat}
    (h : discarded reader reads = some count) : count = reader.skipping := by
  induction reads generalizing reader count with
  | nil => cases h
  | cons read rest ih =>
      rw [discarded] at h
      split at h
      · rename_i hskip
        obtain ⟨later, hlater, rfl⟩ := Option.map_eq_some_iff.mp h
        rw [ih hlater, onReceive_skipping hskip]
        omega
      · exact (Option.some.inj h).symm

-- What it means to find the next frame again after a header that announces too
-- much: `remaining` bytes from that header on lie in the buffer and are dropped
-- with this read, and the rest of the frame must go with the next ones.
structure Resynchronises (reader : SimpleWorkerProtoHandler) (read : Bytes) (big : TooBig) :
    Prop where
  frame_discarded : ∀ reads count, discarded (reader.onReceive read) reads = some count →
    big.remaining + count = big.length + simpleMessageHeaderLength
  no_wrap : ((reader.onReceive read).skipping : Int) =
    (big.length + simpleMessageHeaderLength : Nat) - (big.remaining : Int)
  assertions : (reader.result read).assertions = true

theorem messageLoop_skipping {buf : Bytes} {transferred bufferSize limit start remaining : Nat}
    {big : TooBig}
    (h : (messageLoop buf transferred bufferSize limit start remaining).tooBig = some big) :
    (messageLoop buf transferred bufferSize limit start remaining).skipping =
      skipAfterTooBig big.length big.remaining := by
  induction remaining using Nat.strong_induction_on generalizing start with
  | _ remaining ih =>
      by_cases hzero : remaining = 0
      · subst hzero
        rw [messageLoop_zero] at h
        cases h
      by_cases hbig : 4 ≤ remaining ∧ bufferSize < (networkToHostLong (buf.drop start)).toNat + 4
      · rw [messageLoop_tooBig hbig.1 hbig.2] at h ⊢
        cases h
        rfl
      by_cases hpart : remaining < 4 ∨ remaining < (networkToHostLong (buf.drop start)).toNat + 4
      · rw [messageLoop_incomplete hzero hpart (by omega)] at h
        cases h
      · rw [messageLoop_frame (by omega) rfl (by omega) (by omega)] at h ⊢
        exact ih _ (by omega) h

theorem onReceive_tooBig {reader : SimpleWorkerProtoHandler} {read : Bytes} {big : TooBig}
    (h : (reader.result read).tooBig = some big) :
    (reader.onReceive read).skipping = skipAfterTooBig big.length big.remaining := by
  rw [onReceive]
  rw [result, handleSimpleMessage] at h ⊢
  split at h
  · cases h
  · rename_i hskip
    rw [if_neg hskip]
    exact messageLoop_skipping h

-- The skip count is always the length of a header short of the frame, up to
-- the wrap of size_t when the payload is shorter than what has arrived.
theorem skipAfterTooBig_add (length remaining : Nat) :
    ((remaining : Int) + (skipAfterTooBig length remaining : Nat)) % UInt64.size = length % UInt64.size := by
  rw [skipAfterTooBig, Int.toNat_of_nonneg (Int.emod_nonneg _ (by decide)), Int.add_emod_emod]
  congr 1
  omega

theorem discarded_ne_frame {reader : SimpleWorkerProtoHandler} {read : Bytes} {big : TooBig}
    (h : (reader.result read).tooBig = some big) {reads : List Bytes} {count : Nat}
    (hcount : discarded (reader.onReceive read) reads = some count) :
    big.remaining + count ≠ big.length + simpleMessageHeaderLength := by
  have hshort := skipAfterTooBig_add big.length big.remaining
  simp only [UInt64.size] at hshort
  rw [discarded_eq_skipping hcount, onReceive_tooBig h]
  simp only [simpleMessageHeaderLength]
  omega

-- No oversized frame is ever skipped to its end: whatever is read afterwards,
-- the next header is not the one behind the frame.
theorem not_resynchronises (reader : SimpleWorkerProtoHandler) (read : Bytes) (big : TooBig)
    (h : (reader.result read).tooBig = some big) :
    (∀ reads count, discarded (reader.onReceive read) reads = some count →
      big.remaining + count ≠ big.length + simpleMessageHeaderLength) ∧
    ¬Resynchronises reader read big := by
  refine ⟨fun reads count hcount => discarded_ne_frame h hcount, fun hres => ?_⟩
  have hskip := hres.no_wrap
  have hshort := skipAfterTooBig_add big.length big.remaining
  simp only [UInt64.size] at hshort
  rw [onReceive_tooBig h] at hskip
  simp only [simpleMessageHeaderLength] at hskip
  omega

section Example

-- Eight bytes of buffer, and a frame of nine whose first five bytes arrive.
def shortReader : SimpleWorkerProtoHandler := fresh (List.replicate 8 0)

theorem shortReader_result :
    shortReader.result [0, 0, 0, 5, 1] =
      { buf := [0, 0, 0, 5, 1, 0, 0, 0], offset := 0, skipping := 0,
        tooBig := some ⟨5, 5⟩, assertions := false } := by
  have hbuf : shortReader.received [0, 0, 0, 5, 1] = [0, 0, 0, 5, 1, 0, 0, 0] := by decide
  rw [result, hbuf, handleSimpleMessage, if_neg (by decide),
    messageLoop_tooBig (by decide) (by decide)]
  decide

theorem not_resynchronises_short :
    (∀ reads count, discarded (shortReader.onReceive [0, 0, 0, 5, 1]) reads = some count →
      5 + count ≠ 5 + simpleMessageHeaderLength) ∧
    ¬Resynchronises shortReader [0, 0, 0, 5, 1] ⟨5, 5⟩ :=
  not_resynchronises shortReader [0, 0, 0, 5, 1] ⟨5, 5⟩ (by rw [shortReader_result])

-- Nothing is left to skip although four bytes of the frame have not arrived:
-- the second payload byte is the next one read as a header.
theorem resynchronises_refuted :
    ¬∀ reader read big, (result reader read).tooBig = some big → Resynchronises reader read big := by
  intro hall
  have hres := hall shortReader [0, 0, 0, 5, 1] ⟨5, 5⟩ (by rw [shortReader_result])
  have hskip := hres.no_wrap
  rw [onReceive, shortReader_result] at hskip
  cases hskip

end Example

end LiveReceptor.Framing

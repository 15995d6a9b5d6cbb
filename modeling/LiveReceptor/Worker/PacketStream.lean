import LiveReceptor.Library.SkippingDecoder
import LiveReceptor.Shared.Framing.Decoder
import LiveReceptor.Worker.BiliPacket

namespace LiveReceptor.Worker

open SimpleWorkerProto SkippingDecoder
open Framing (networkToHostLong_append)

section Header

variable {buf data more : Bytes} {start : Nat}

theorem networkToHostShort_append (more : Bytes) (h : 2 ≤ data.length) :
    networkToHostShort (data ++ more) = networkToHostShort data := by
  match data, h with
  | _ :: _ :: _, _ => rfl

-- Sixteen bytes are enough for the header.
theorem headerAt_append (more : Bytes) (h : packetHeaderSize ≤ data.length) :
    headerAt (data ++ more) 0 = headerAt data 0 := by
  rw [packetHeaderSize] at h
  have hdrop : ∀ n, n ≤ 8 → (data ++ more).drop n = data.drop n ++ more := fun n hn =>
    List.drop_append_of_le_length (by omega)
  have hleft : ∀ n, n ≤ 8 → 8 ≤ (data.drop n).length := fun n hn => by
    rw [List.length_drop]
    omega
  simp only [headerAt, Nat.zero_add]
  rw [hdrop 0 (by omega), hdrop 4 (by omega), hdrop 6 (by omega), hdrop 8 (by omega),
    networkToHostLong_append more (by have := hleft 0 (by omega); omega),
    networkToHostShort_append more (by have := hleft 4 (by omega); omega),
    networkToHostShort_append more (by have := hleft 6 (by omega); omega),
    networkToHostLong_append more (by have := hleft 8 (by omega); omega)]

theorem headerAt_drop (buf : Bytes) (start : Nat) : headerAt (buf.drop start) 0 = headerAt buf start := by
  simp only [headerAt, List.drop_drop, Nat.zero_add, Nat.add_zero]

theorem headerAt_slice {length : Nat} (h : packetHeaderSize ≤ length) (hin : start + length ≤ buf.length) :
    headerAt (slice buf start length) 0 = headerAt buf start := by
  have hlength : packetHeaderSize ≤ (slice buf start length).length := by
    rw [slice, List.length_take, List.length_drop]
    omega
  rw [← headerAt_drop buf start, ← headerAt_append ((buf.drop start).drop length) hlength, slice,
    List.take_append_drop]

end Header

section Decoder

-- The loop leaves, with its first bytes, what it would throw for or hand over
-- with a payload that is not there.
def Malformed (data : Bytes) : Prop :=
  packetHeaderSize ≤ data.length ∧
    ((headerAt data 0).headerLength ≠ packetHeaderSize ∨ (headerAt data 0).length < packetHeaderSize)

instance (data : Bytes) : Decidable (Malformed data) := inferInstanceAs (Decidable (_ ∧ _))

-- A header in front announces a packet that the buffer cannot hold.
def TooLong (bufferSize : Nat) (data : Bytes) : Prop :=
  packetHeaderSize ≤ data.length ∧ ¬Malformed data ∧ bufferSize < (headerAt data 0).length

instance (bufferSize : Nat) (data : Bytes) : Decidable (TooLong bufferSize data) :=
  inferInstanceAs (Decidable (_ ∧ _))

-- A whole packet is in front.
def Complete (bufferSize : Nat) (data : Bytes) : Prop :=
  packetHeaderSize ≤ data.length ∧ ¬Malformed data ∧ (headerAt data 0).length ≤ bufferSize ∧
    (headerAt data 0).length ≤ data.length

instance (bufferSize : Nat) (data : Bytes) : Decidable (Complete bufferSize data) :=
  inferInstanceAs (Decidable (_ ∧ _))

variable {bufferSize : Nat} {data more : Bytes}

theorem malformed_append (more : Bytes) (h : packetHeaderSize ≤ data.length) :
    Malformed (data ++ more) ↔ Malformed data := by
  rw [Malformed, Malformed, headerAt_append more h, List.length_append]
  exact ⟨fun hm => ⟨h, hm.2⟩, fun hm => ⟨Nat.le_add_right_of_le h, hm.2⟩⟩

theorem Complete.append (h : Complete bufferSize data) (more : Bytes) : Complete bufferSize (data ++ more) := by
  obtain ⟨hheader, hgood, hholds, hwhole⟩ := h
  refine ⟨?_, ?_, ?_, ?_⟩
  · rw [List.length_append]
    omega
  · rw [malformed_append more hheader]
    exact hgood
  · rw [headerAt_append more hheader]
    exact hholds
  · rw [headerAt_append more hheader, List.length_append]
    omega

theorem Complete.header_le (h : Complete bufferSize data) : packetHeaderSize ≤ (headerAt data 0).length := by
  obtain ⟨hheader, hgood, -, -⟩ := h
  rw [Malformed, not_and, not_or, not_lt] at hgood
  exact (hgood hheader).2

-- What handle_buffer makes of a stream, without any buffer.
def packetDecoder (bufferSize : Nat) : SkippingDecoder UInt8 Bytes where
  next data :=
    if Complete bufferSize data then
      some (data.take (headerAt data 0).length, data.drop (headerAt data 0).length)
    else none
  shrinks h := by
    split at h
    · rename_i hcomplete
      have hlength := hcomplete.header_le
      have hdata := hcomplete.1
      cases h
      rw [packetHeaderSize] at hlength hdata
      rw [List.length_drop]
      omega
    · cases h
  stable {data frame rest} more h := by
    split at h
    · rename_i hcomplete
      cases h
      rw [if_pos (hcomplete.append more), headerAt_append more hcomplete.1,
        List.take_append_of_le_length hcomplete.2.2.2, List.drop_append_of_le_length hcomplete.2.2.2]
    · cases h
  skips data :=
    if TooLong bufferSize data then some (skipAfterTooBig (headerAt data 0).length data.length) else none
  skips_nil := if_neg fun h => absurd h.1 (by decide)

theorem packetDecoder_next (bufferSize : Nat) (data : Bytes) : (packetDecoder bufferSize).next data =
    if Complete bufferSize data then
      some (data.take (headerAt data 0).length, data.drop (headerAt data 0).length)
    else none := rfl

theorem packetDecoder_skips (bufferSize : Nat) (data : Bytes) : (packetDecoder bufferSize).skips data =
    if TooLong bufferSize data then some (skipAfterTooBig (headerAt data 0).length data.length)
    else none := rfl

-- A packet with its own length in its header.
structure WellFormed (packet : Bytes) : Prop where
  header : packetHeaderSize ≤ packet.length
  headerLength : (headerAt packet 0).headerLength = packetHeaderSize
  length : (headerAt packet 0).length = packet.length

theorem WellFormed.not_malformed {packet : Bytes} (h : WellFormed packet) : ¬Malformed packet := by
  rintro ⟨-, hbad | hbad⟩
  · exact hbad h.headerLength
  · rw [h.length] at hbad
    exact absurd h.header (Nat.not_le.mpr hbad)

-- What is handed over of a packet.
def handedOver (bufferSize : Nat) (packet : Bytes) : Option Bytes :=
  if packet.length ≤ bufferSize then some packet else none

theorem encodes_of_wellFormed {packet : Bytes} (h : WellFormed packet) :
    (packetDecoder bufferSize).Encodes bufferSize packet (handedOver bufferSize packet) := by
  have hbeginning : ∀ data more, data ++ more = packet → packetHeaderSize ≤ data.length →
      headerAt data 0 = headerAt packet 0 := fun data more hpacket hdata => by
    rw [← hpacket, headerAt_append more hdata]
  rw [handedOver]
  split
  · rename_i hholds
    refine .decoded packet (fun more => ?_) fun data more hpacket hmore => if_neg fun hlong => ?_
    · have hcomplete : Complete bufferSize packet :=
        ⟨h.header, h.not_malformed, h.length ▸ hholds, Nat.le_of_eq h.length⟩
      rw [packetDecoder_next, if_pos (hcomplete.append more), headerAt_append more h.header, h.length,
        List.take_left, List.drop_left]
    · have hover := hlong.2.2
      rw [hbeginning data more hpacket hlong.1, h.length] at hover
      omega
  · rename_i hlong
    refine .skipped (Nat.lt_of_not_le hlong) fun data more hpacket hdata => ⟨if_neg fun hcomplete => ?_, ?_⟩
    · have hholds := hcomplete.2.2.1
      rw [hbeginning data more hpacket hcomplete.1, h.length] at hholds
      omega
    · rw [packetDecoder_skips]
      split
      · rename_i hskips
        right
        have hlength := congrArg List.length hpacket
        have hword : (headerAt packet 0).length < UInt32.size := UInt32.toNat_lt _
        rw [hbeginning data more hpacket hskips.1, h.length, skipAfterTooBig]
        rw [h.length] at hword
        rw [List.length_append] at hlength
        simp only [UInt64.size, UInt32.size] at hword ⊢
        congr 1
        omega
      · exact Or.inl rfl

end Decoder

end LiveReceptor.Worker

import LiveReceptor.Library.FrameDecoder

namespace LiveReceptor

-- A decoder that gives up on some frames before they are complete. `skips` says
-- so of the beginning of a frame, and how many of the next elements belong to it.
structure SkippingDecoder (α β : Type*) extends FrameDecoder α β where
  skips : List α → Option Nat
  skips_nil : skips [] = none

namespace SkippingDecoder

variable {α β : Type*}

-- Where a reader is in the stream: the elements that it keeps until more have
-- arrived, or how many of the next ones it skips.
@[ext]
structure Position (decoder : SkippingDecoder α β) where
  tail : List α
  skip : Nat
  undecoded : decoder.next tail = none
  kept : decoder.skips tail = none
  apart : skip = 0 ∨ tail = []

variable {decoder : SkippingDecoder α β}

theorem next_nil : decoder.next [] = none := by
  cases h : decoder.next [] with
  | none => rfl
  | some pair => exact absurd (decoder.shrinks h) (Nat.not_lt_zero _)

namespace Position

def skipping (decoder : SkippingDecoder α β) (n : Nat) : decoder.Position where
  tail := []
  skip := n
  undecoded := next_nil
  kept := decoder.skips_nil
  apart := Or.inr rfl

def start (decoder : SkippingDecoder α β) : decoder.Position := skipping decoder 0

-- What the reader makes of a beginning without a complete frame.
def settle (data : List α) (undecoded : decoder.next data = none) : decoder.Position :=
  match kept : decoder.skips data with
  | none => { tail := data, skip := 0, undecoded, kept, apart := Or.inl rfl }
  | some n => skipping decoder n

-- The elements that are looked at after a read, unless all of it is skipped.
def pending (position : decoder.Position) (read : List α) : List α :=
  (position.tail ++ read).drop position.skip

def decoded (position : decoder.Position) (read : List α) : List β :=
  if position.skip > read.length then [] else (decoder.drain (position.pending read)).1

def advance (position : decoder.Position) (read : List α) : decoder.Position :=
  if position.skip > read.length then skipping decoder (position.skip - read.length)
  else settle (decoder.drain (position.pending read)).2 (FrameDecoder.next_drain _)

def decodeAll : decoder.Position → List (List α) → List β
  | _, [] => []
  | position, read :: rest => position.decoded read ++ decodeAll (position.advance read) rest

-- Each read goes behind what is kept, in a buffer of this size.
def Fits (size : Nat) : decoder.Position → List (List α) → Prop
  | _, [] => True
  | position, read :: rest => position.tail.length + read.length ≤ size ∧ Fits size (position.advance read) rest

variable {position : decoder.Position} {data read : List α} {n size : Nat}

theorem settle_of_none {undecoded : decoder.next data = none} (h : decoder.skips data = none) :
    settle data undecoded = { tail := data, skip := 0, undecoded, kept := h, apart := Or.inl rfl } := by
  unfold settle
  split
  · rfl
  · rename_i he
    rw [h] at he
    cases he

theorem settle_of_some {undecoded : decoder.next data = none} (h : decoder.skips data = some n) :
    settle data undecoded = skipping decoder n := by
  unfold settle
  split
  · rename_i he
    rw [h] at he
    cases he
  · rename_i m he
    rw [h] at he
    rw [Option.some.inj he]

theorem pending_skipping_zero (h : position.skip = 0) : position.pending read = position.tail ++ read := by
  rw [pending, h, List.drop_zero]

theorem length_pending_le (h : position.tail.length + read.length ≤ size) :
    (position.pending read).length ≤ size := by
  rw [pending, List.length_drop, List.length_append]
  omega

theorem advance_of_none (hread : position.skip ≤ read.length)
    (hnext : decoder.next (position.pending read) = none) :
    position.decoded read = [] ∧ position.advance read = settle (position.pending read) hnext := by
  have hdrain := FrameDecoder.drain_of_none hnext
  constructor
  · rw [decoded, if_neg (by omega), hdrain]
  · rw [advance, if_neg (by omega)]
    congr 1
    exact congrArg Prod.snd hdrain

end Position

section Stream

-- What a packet of the stream is decoded to, given that only so many elements of
-- it are ever looked at together. `none` stands for a packet that is skipped.
inductive Encodes (decoder : SkippingDecoder α β) (size : Nat) (packet : List α) : Option β → Prop
  | decoded (frame : β) (whole : ∀ more, decoder.next (packet ++ more) = some (frame, more))
      (kept : ∀ data more, data ++ more = packet → more ≠ [] → decoder.skips data = none) :
      Encodes decoder size packet (some frame)
  | skipped (long : size < packet.length)
      (beginning : ∀ data more, data ++ more = packet → data.length ≤ size →
        decoder.next data = none ∧ (decoder.skips data = none ∨ decoder.skips data = some more.length)) :
      Encodes decoder size packet none

-- The reader stands before these packets, of which it may hold the beginning of
-- the first one, or behind which it is not yet done with one that it skips.
structure Before (size : Nat) (position : decoder.Position) (more : List α) (packets : List (List α)) :
    Prop where
  fits : position.tail.length ≤ size
  rest : ∃ skipped : List α, skipped.length = position.skip ∧
    position.tail ++ more = skipped ++ packets.flatten

variable {decode : List α → Option β} {size : Nat} {packets : List (List α)} {data more packet : List α}

-- A packet whose first elements have arrived: it is kept, or the rest is skipped.
theorem before_of_beginning (hencodes : ∀ packet ∈ packets, Encodes decoder size packet (decode packet))
    (hsize : data.length ≤ size) (h : data ++ more = packets.flatten) (undecoded : decoder.next data = none) :
    ∃ others, others <:+ packets ∧ packets.filterMap decode = others.filterMap decode ∧
      Before size (Position.settle data undecoded) more others := by
  have hkeeps : decoder.skips data = none → Before size (Position.settle data undecoded) more packets := by
    intro hkept
    rw [Position.settle_of_none hkept]
    exact ⟨hsize, [], rfl, h⟩
  cases packets with
  | nil =>
      have hdata : data = [] := (List.append_eq_nil_iff.mp h).1
      subst hdata
      exact ⟨[], List.suffix_rfl, rfl, hkeeps decoder.skips_nil⟩
  | cons packet packets =>
      obtain ⟨hpacket, hpackets⟩ := List.forall_mem_cons.mp hencodes
      rw [List.flatten_cons] at h
      generalize hframe : decode packet = frame at hpacket
      cases hpacket with
      | decoded frame whole kept =>
          rcases List.append_eq_append_iff.mp h with ⟨rest, hrest, hmore⟩ | ⟨rest, hrest, hmore⟩
          · by_cases hnil : rest = []
            · have hwhole := whole []
              rw [hrest, hnil, List.append_nil, List.append_nil, undecoded] at hwhole
              cases hwhole
            · exact ⟨packet :: packets, List.suffix_rfl, rfl, hkeeps (kept data rest hrest.symm hnil)⟩
          · have hwhole := whole rest
            rw [← hrest, undecoded] at hwhole
            cases hwhole
      | skipped long beginning =>
          rcases List.append_eq_append_iff.mp h with ⟨rest, hrest, hmore⟩ | ⟨rest, hrest, -⟩
          · rcases (beginning data rest hrest.symm hsize).2 with hkept | hskip
            · exact ⟨packet :: packets, List.suffix_rfl, rfl, hkeeps hkept⟩
            · refine ⟨packets, List.suffix_cons packet packets, List.filterMap_cons_none hframe, ?_⟩
              rw [Position.settle_of_some hskip]
              exact ⟨Nat.zero_le _, rest, rfl, hmore⟩
          · rw [hrest, List.length_append] at hsize
            omega

-- Whatever part of the packets has arrived decodes to the first ones.
theorem drain_of_packets (hencodes : ∀ packet ∈ packets, Encodes decoder size packet (decode packet))
    (hsize : data.length ≤ size) (h : data ++ more = packets.flatten) :
    ∃ others, others <:+ packets ∧
      packets.filterMap decode = (decoder.drain data).1 ++ others.filterMap decode ∧
      ∀ undecoded : decoder.next (decoder.drain data).2 = none,
        Before size (Position.settle (decoder.drain data).2 undecoded) more others := by
  induction data using decoder.drain_induction generalizing packets with
  | none data hnext =>
      obtain ⟨others, hothers, hframes, hbefore⟩ := before_of_beginning hencodes hsize h hnext
      rw [FrameDecoder.drain_of_none hnext]
      exact ⟨others, hothers, hframes, fun _ => hbefore⟩
  | some data frame rest hnext ih =>
      cases packets with
      | nil =>
          rw [(List.append_eq_nil_iff.mp h).1, next_nil] at hnext
          cases hnext
      | cons packet packets =>
          obtain ⟨hpacket, hpackets⟩ := List.forall_mem_cons.mp hencodes
          have hstable := decoder.stable more hnext
          rw [h, List.flatten_cons] at hstable
          generalize hframe : decode packet = decoded at hpacket
          cases hpacket with
          | decoded frame' whole kept =>
              rw [whole, Option.some.injEq, Prod.mk.injEq] at hstable
              obtain ⟨rfl, hrest⟩ := hstable
              have hshorter := decoder.shrinks hnext
              obtain ⟨others, hothers, hframes, hbefore⟩ := ih hpackets (by omega) hrest.symm
              rw [FrameDecoder.drain_of_some hnext]
              refine ⟨others, hothers.trans (List.suffix_cons packet packets), ?_, hbefore⟩
              rw [List.filterMap_cons_some hframe, hframes, List.cons_append]
          | skipped long beginning =>
              rcases List.append_eq_append_iff.mp h with ⟨later, hlater, -⟩ | ⟨later, hlater, -⟩
              · rw [(beginning data later hlater.symm hsize).1] at hnext
                cases hnext
              · rw [hlater, List.length_append] at hsize
                omega

-- One read brings the reader to the packets that it has not yet decoded.
theorem Before.advance {position : decoder.Position} {read : List α}
    (hencodes : ∀ packet ∈ packets, Encodes decoder size packet (decode packet))
    (hsize : position.tail.length + read.length ≤ size) (h : Before size position (read ++ more) packets) :
    ∃ others, others <:+ packets ∧
      packets.filterMap decode = position.decoded read ++ others.filterMap decode ∧
      Before size (position.advance read) more others := by
  obtain ⟨skipped, hskipped, hrest⟩ := h.rest
  rw [← List.append_assoc] at hrest
  unfold Position.decoded Position.advance
  split
  · rename_i hskip
    have htail : position.tail = [] := position.apart.resolve_left (by omega)
    rw [htail, List.nil_append] at hrest
    refine ⟨packets, List.suffix_rfl, rfl, Nat.zero_le _, skipped.drop read.length, ?_, ?_⟩
    · rw [List.length_drop, hskipped]
      rfl
    · have hdrop := congrArg (List.drop read.length) hrest
      rw [List.drop_left, List.drop_append_of_le_length (by omega)] at hdrop
      exact hdrop
  · have hdata : position.pending read ++ more = packets.flatten := by
      have hdrop := congrArg (List.drop position.skip) hrest
      rw [← hskipped, List.drop_left, hskipped, List.drop_append_of_le_length] at hdrop
      · exact hdrop
      · rw [List.length_append]
        omega
    obtain ⟨others, hothers, hframes, hbefore⟩ :=
      drain_of_packets hencodes (Position.length_pending_le hsize) hdata
    exact ⟨others, hothers, hframes, hbefore _⟩

-- With nothing to come, the reader holds nothing and skips nothing.
theorem Before.done {position : decoder.Position}
    (hencodes : ∀ packet ∈ packets, Encodes decoder size packet (decode packet))
    (h : Before size position [] packets) : packets = [] ∧ position = Position.start decoder := by
  obtain ⟨skipped, hskipped, hrest⟩ := h.rest
  rw [List.append_nil] at hrest
  have hnone : skipped = [] := by
    rcases position.apart with hskip | htail
    · exact List.eq_nil_of_length_eq_zero (hskipped.trans hskip)
    · exact (List.append_eq_nil_iff.mp (hrest.symm.trans htail)).1
  rw [hnone, List.nil_append] at hrest
  have hpackets : packets = [] := by
    cases packets with
    | nil => rfl
    | cons packet packets =>
        have hpacket := hencodes packet List.mem_cons_self
        rw [List.flatten_cons] at hrest
        generalize decode packet = frame at hpacket
        cases hpacket with
        | decoded frame whole kept =>
            have hundecoded := position.undecoded
            rw [hrest, whole] at hundecoded
            cases hundecoded
        | skipped long beginning =>
            have hlength := congrArg List.length hrest
            have hfits := h.fits
            rw [List.length_append] at hlength
            omega
  rw [hpackets] at hrest
  exact ⟨hpackets, Position.ext hrest (by rw [← hskipped, hnone]; rfl)⟩

end Stream

end SkippingDecoder

end LiveReceptor

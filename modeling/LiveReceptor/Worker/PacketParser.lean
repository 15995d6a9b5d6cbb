import LiveReceptor.Library.StackMachine
import LiveReceptor.Worker.BiliPacket

namespace LiveReceptor.Worker

open SimpleWorkerProto StackMachine

namespace BilibiliPacket

variable {packet : BilibiliPacket} {buffers : Buffers}

-- A length that moves the loop on, and that counts the header where the payload
-- is looked at.
def Sound (packet : BilibiliPacket) (buffers : Buffers) : Prop :=
  packet.length ≠ 0 ∧ (packet.length < packetHeaderSize →
    (packet.header buffers).protocolVersion ≠ zlibCompressed ∧
      (packet.header buffers).opCode ≠ jsonMessage)

-- The subtraction wraps around for a length below that of the header.
theorem payloadInside_iff (h : packet.length < 4294967296) :
    packet.PayloadInside ↔ packetHeaderSize ≤ packet.length := by
  rw [PayloadInside, payloadStart, payloadSize]
  omega

theorem payloadInside_of_payloadSize (h : packet.length < 4294967296) (hsize : packet.payloadSize = 4) :
    packet.PayloadInside := by
  rw [payloadInside_iff h]
  simp only [payloadSize, packetHeaderSize] at hsize ⊢
  omega

end BilibiliPacket

section HandlePacket

variable {libraries : PacketLibraries} {buffers : Buffers} {packet : BilibiliPacket}

-- What is passed on lies inside a sound packet.
theorem handlePacket_of_sound (h : packet.length < 4294967296) (hsound : packet.Sound buffers) :
    (handlePacket libraries buffers packet).next ≠ .undefined ∧
      ∀ passed ∈ (handlePacket libraries buffers packet).passed, passed.PayloadInside := by
  have hinside : (packet.header buffers).protocolVersion = zlibCompressed ∨
      (packet.header buffers).opCode = jsonMessage → packet.PayloadInside := by
    intro hreads
    rw [BilibiliPacket.payloadInside_iff h]
    by_contra hshort
    have hneither := hsound.2 (Nat.lt_of_not_le hshort)
    exact hreads.elim hneither.1 hneither.2
  have hone : packet.PayloadInside → ∀ passed ∈ [packet], passed.PayloadInside := by
    intro hpayload passed hpassed
    rw [List.mem_singleton.mp hpassed]
    exact hpayload
  unfold handlePacket
  dsimp only
  split
  · exact ⟨Next.noConfusion, fun _ hpassed => absurd hpassed List.not_mem_nil⟩
  · split
    · rename_i hcompressed
      have hpayload := hinside (Or.inl hcompressed)
      rw [if_neg (not_not_intro hpayload)]
      split
      · exact ⟨Next.noConfusion, hone hpayload⟩
      · exact ⟨Next.noConfusion, hone hpayload⟩
    · split
      · rename_i hjson
        have hpayload := hinside (Or.inr hjson)
        rw [if_neg (not_not_intro hpayload)]
        exact ⟨Next.noConfusion, hone hpayload⟩
      · split
        · split
          · exact ⟨Next.noConfusion, fun _ hpassed => absurd hpassed List.not_mem_nil⟩
          · rename_i hsize
            exact ⟨Next.noConfusion, hone (BilibiliPacket.payloadInside_of_payloadSize h (not_not.mp hsize))⟩
        · exact ⟨Next.noConfusion, fun _ hpassed => absurd hpassed List.not_mem_nil⟩

-- An unsound one passes on what is not its own, or changes nothing and leaves
-- the loop where it is.
theorem handlePacket_of_not_sound (h : packet.length < 4294967296)
    (hheader : (packet.header buffers).headerLength = packetHeaderSize)
    (hunsound : ¬packet.Sound buffers) :
    (packet ∈ (handlePacket libraries buffers packet).passed ∧ ¬packet.PayloadInside) ∨
      packet.length = 0 ∧ handlePacket libraries buffers packet = { buffers } := by
  have hshort : packet.length < packetHeaderSize := by
    by_contra hlong
    refine hunsound ⟨fun hzero => ?_, fun hlt => absurd hlt hlong⟩
    rw [hzero] at hlong
    exact hlong (by decide)
  have houtside : ¬packet.PayloadInside := by
    rw [BilibiliPacket.payloadInside_iff h]
    exact Nat.not_le_of_lt hshort
  unfold handlePacket
  dsimp only
  rw [if_neg (not_not_intro hheader)]
  by_cases hcompressed : (packet.header buffers).protocolVersion = zlibCompressed
  · rw [if_pos hcompressed, if_pos houtside]
    exact Or.inl ⟨List.mem_singleton_self packet, houtside⟩
  · rw [if_neg hcompressed]
    by_cases hjson : (packet.header buffers).opCode = jsonMessage
    · rw [if_pos hjson, if_pos houtside]
      exact Or.inl ⟨List.mem_singleton_self packet, houtside⟩
    · have hzero : packet.length = 0 := by
        by_contra hpositive
        exact hunsound ⟨hpositive, fun _ => ⟨hcompressed, hjson⟩⟩
      have hsize : packet.payloadSize ≠ 4 := by
        intro hfour
        exact houtside (BilibiliPacket.payloadInside_of_payloadSize h hfour)
      rw [if_neg hjson, if_pos hsize, ite_self]
      exact Or.inr ⟨hzero, rfl⟩

end HandlePacket

namespace Parser

variable {libraries : PacketLibraries} {parser : Parser} {frame : Frame} {callers : List Frame}
  {packet : BilibiliPacket}

-- The packet that the loop has before it, if it has one.
def SoundHead (parser : Parser) : Prop :=
  ∀ frame callers packet, parser.control = .running frame callers →
    turn parser.buffers frame = .packet packet → packet.Sound parser.buffers

-- handle_buffer throws or returns, and has passed on no range outside a packet.
structure Robust (libraries : PacketLibraries) (parser : Parser) : Prop where
  ends : ∃ n, (after (step libraries) n parser).control = .ended .malformed ∨
    ∃ offset skipping, (after (step libraries) n parser).control = .ended (.returned offset skipping)
  inside : ∀ n, ∀ packet ∈ (after (step libraries) n parser).passed, packet.PayloadInside

theorem turn_packet {buffers : Buffers} (h : turn buffers frame = .packet packet) :
    packet = ⟨frame.place, frame.start, packet.length⟩ ∧ packet.length < 4294967296 ∧
      (packet.header buffers).headerLength = packetHeaderSize ∧ 0 < frame.remaining := by
  unfold turn at h
  dsimp only at h
  split at h
  · cases h
  · rename_i hremaining
    split at h
    · cases h
    · split at h
      · cases h
      · rename_i hheader
        split at h
        · cases h
        · split at h
          · cases h
          · injection h with h
            subst h
            exact ⟨rfl, UInt32.toNat_lt _, not_not.mp hheader, Nat.pos_of_ne_zero hremaining⟩

theorem frames_eq_cons : parser.frames = frame :: callers ↔ parser.control = .running frame callers := by
  rw [frames]
  cases parser.control with
  | running other others => simp
  | ended outcome => simp

theorem frames_eq_nil : parser.frames = [] ↔ ∃ outcome, parser.control = .ended outcome := by
  rw [frames]
  cases parser.control with
  | running frame callers => simp
  | ended outcome => simp

theorem step_of_ended (h : parser.frames = []) : step libraries parser = parser := by
  obtain ⟨outcome, hcontrol⟩ := frames_eq_nil.mp h
  rw [step, hcontrol]

-- What one step can do to the calls.
theorem frames_step (hcontrol : parser.control = .running frame callers) :
    (step libraries parser).frames = [] ∨ (step libraries parser).frames = callers ∨
      ∃ packet, turn parser.buffers frame = .packet packet ∧
        ((step libraries parser).frames = advance frame packet :: callers ∨
          ∃ called, (step libraries parser).frames = called :: advance frame packet :: callers) := by
  rw [step, hcontrol]
  dsimp only
  cases hturn : turn parser.buffers frame with
  | returned buffers offset skipping =>
      refine Or.inr (Or.inl ?_)
      cases callers <;> rfl
  | malformed => exact Or.inl rfl
  | packet packet =>
      dsimp only
      cases (handlePacket libraries parser.buffers packet).next with
      | returns => exact Or.inr (Or.inr ⟨packet, rfl, Or.inl rfl⟩)
      | malformed => exact Or.inl rfl
      | undefined => exact Or.inl rfl
      | nested outSize => exact Or.inr (Or.inr ⟨packet, rfl, Or.inr ⟨_, rfl⟩⟩)

theorem progress_of_soundHead (h : parser.SoundHead) :
    Progress (step libraries) frames Frame.remaining parser := by
  intro frame callers hframes
  have hcontrol := frames_eq_cons.mp hframes
  rcases @frames_step libraries _ _ _ hcontrol with hended | hreturned | ⟨packet, hturn, hstep⟩
  · exact Or.inl hended
  · exact Or.inr (Or.inl hreturned)
  · have hlength := (h frame callers packet hcontrol hturn).1
    have hremaining := (turn_packet hturn).2.2.2
    refine Or.inr (Or.inr ⟨advance frame packet, ?_, hstep⟩)
    show frame.remaining - packet.length < frame.remaining
    omega

theorem length_frames_step (parser : Parser) :
    (step libraries parser).frames.length ≤ parser.frames.length + 1 := by
  cases hframes : parser.frames with
  | nil =>
      rw [step_of_ended hframes, hframes]
      exact Nat.zero_le _
  | cons frame callers =>
      rcases @frames_step libraries _ _ _ (frames_eq_cons.mp hframes) with
        hended | hreturned | ⟨packet, -, hsame | ⟨called, hcalled⟩⟩
      · rw [hended]
        exact Nat.zero_le _
      · rw [hreturned, List.length_cons]
        omega
      · rw [hsame, List.length_cons, List.length_cons]
        omega
      · exact Nat.le_of_eq (by simp only [hcalled, List.length_cons])

-- Nothing undefined has happened, and nothing outside a packet was passed on.
structure Clean (parser : Parser) : Prop where
  defined : parser.control ≠ .ended .undefined
  inside : ∀ packet ∈ parser.passed, packet.PayloadInside

theorem step_clean (hsound : parser.SoundHead) (h : parser.Clean) : (step libraries parser).Clean := by
  cases hcontrol : parser.control with
  | ended outcome =>
      rw [step_of_ended (frames_eq_nil.mpr ⟨outcome, hcontrol⟩)]
      exact h
  | running frame callers =>
      rw [step, hcontrol]
      dsimp only
      cases hturn : turn parser.buffers frame with
      | returned buffers offset skipping =>
          refine ⟨?_, h.inside⟩
          cases callers <;> simp [returnTo]
      | malformed => exact ⟨by simp, h.inside⟩
      | packet packet =>
          obtain ⟨-, hlength, -, -⟩ := turn_packet hturn
          obtain ⟨hdefined, hinside⟩ := @handlePacket_of_sound libraries _ _ hlength
            (hsound frame callers packet hcontrol hturn)
          refine ⟨?_, ?_⟩
          · dsimp only
            cases hnext : (handlePacket libraries parser.buffers packet).next with
            | undefined => exact absurd hnext hdefined
            | _ => simp [resume]
          · intro passed hpassed
            exact (List.mem_append.mp hpassed).elim (h.inside passed) (hinside passed)

-- A head that is not sound: the parser reads outside the packet, or stays where
-- it is for ever.
theorem step_of_not_soundHead (h : ¬parser.SoundHead) :
    parser.frames ≠ [] ∧ ((∃ packet ∈ (step libraries parser).passed, ¬packet.PayloadInside) ∨
      step libraries parser = parser) := by
  simp only [SoundHead, not_forall] at h
  obtain ⟨frame, callers, packet, hcontrol, hturn, hunsound⟩ := h
  obtain ⟨hplace, hlength, hheader, -⟩ := turn_packet hturn
  refine ⟨fun hframes => ?_, ?_⟩
  · rw [frames_eq_cons.mpr hcontrol] at hframes
    cases hframes
  · have hstep : step libraries parser =
        { buffers := (handlePacket libraries parser.buffers packet).buffers
          control := resume (advance frame packet) callers
            (handlePacket libraries parser.buffers packet).next
          passed := parser.passed ++ (handlePacket libraries parser.buffers packet).passed
          delivered := parser.delivered ++ (handlePacket libraries parser.buffers packet).delivered } := by
      rw [step, hcontrol]
      dsimp only
      rw [hturn]
    rcases @handlePacket_of_not_sound libraries _ _ hlength hheader hunsound with
      ⟨hpassed, houtside⟩ | ⟨hzero, hhandled⟩
    · left
      refine ⟨packet, ?_, houtside⟩
      rw [hstep]
      exact List.mem_append_right _ hpassed
    · right
      have hadvance : advance frame packet = frame := by
        rw [advance, hzero, Nat.add_zero, Nat.sub_zero]
      rw [hstep, hhandled, hadvance, List.append_nil, List.append_nil, resume, ← hcontrol]

theorem after_clean (hsound : ∀ n, (after (step libraries) n parser).SoundHead) (h : parser.Clean) (n : Nat) :
    (after (step libraries) n parser).Clean := by
  induction n with
  | zero => exact h
  | succ n ih =>
      rw [after_succ]
      exact step_clean (hsound n) ih

theorem robust_iff_of_clean (hclean : parser.Clean) : Robust libraries parser ↔
    (∀ n, (after (step libraries) n parser).SoundHead) ∧
      ∃ depth, ∀ n, (after (step libraries) n parser).frames.length ≤ depth := by
  constructor
  · intro h
    obtain ⟨n, hends⟩ := h.ends
    have hhalts : (after (step libraries) n parser).frames = [] := by
      rw [frames_eq_nil]
      rcases hends with hmalformed | ⟨offset, skipping, hreturned⟩
      · exact ⟨_, hmalformed⟩
      · exact ⟨_, hreturned⟩
    refine ⟨fun m => ?_, ⟨_, bounded_of_halts length_frames_step (fun s hs => ?_) hhalts⟩⟩
    · by_contra hunsound
      obtain ⟨hrunning, ⟨packet, hpassed, houtside⟩ | hfixed⟩ := step_of_not_soundHead hunsound
      · have hlater : packet ∈ (after (step libraries) (m + 1) parser).passed := by
          rw [after_succ]
          exact hpassed
        exact houtside (h.inside (m + 1) packet hlater)
      · have hfixed' := @step_of_ended libraries _ hhalts
        rcases Nat.le_total m n with hle | hle
        · rw [← Nat.add_sub_of_le hle, after_add, after_of_fixed hfixed] at hhalts
          exact hrunning hhalts
        · rw [← Nat.add_sub_of_le hle, after_add, after_of_fixed hfixed'] at hrunning
          exact hrunning hhalts
    · rw [step_of_ended hs, hs]
  · rintro ⟨hsound, depth, hdepth⟩
    have hall := after_clean hsound hclean
    obtain ⟨n, hhalts⟩ := halts (fun n => progress_of_soundHead (hsound n)) hdepth
    obtain ⟨outcome, houtcome⟩ := frames_eq_nil.mp hhalts
    refine ⟨⟨n, ?_⟩, fun n => (hall n).inside⟩
    cases outcome with
    | malformed => exact Or.inl houtcome
    | returned offset skipping => exact Or.inr ⟨offset, skipping, houtcome⟩
    | undefined => exact absurd houtcome (hall n).defined

theorem handleBuffer_clean (buffers : Buffers) (transferred bufferSize lastRemaining skipping : Nat) :
    (handleBuffer buffers transferred bufferSize lastRemaining skipping).Clean := by
  rw [handleBuffer]
  split
  · exact ⟨by simp, fun packet hpacket => absurd hpacket List.not_mem_nil⟩
  · exact ⟨by simp, fun packet hpacket => absurd hpacket List.not_mem_nil⟩

-- The parser is robust exactly where no loop finds a packet of length 0, or one
-- shorter than a header that is compressed or JSON, and compressed packets are
-- not nested for ever.
theorem handleBuffer_robust_iff (libraries : PacketLibraries) (buffers : Buffers)
    (transferred bufferSize lastRemaining skipping : Nat) :
    Robust libraries (handleBuffer buffers transferred bufferSize lastRemaining skipping) ↔
      (∀ n, (after (step libraries) n
        (handleBuffer buffers transferred bufferSize lastRemaining skipping)).SoundHead) ∧
      ∃ depth, ∀ n, (after (step libraries) n
        (handleBuffer buffers transferred bufferSize lastRemaining skipping)).frames.length ≤ depth :=
  robust_iff_of_clean (handleBuffer_clean buffers transferred bufferSize lastRemaining skipping)

-- A header of the length 16 that gives the packet the length 0.
def emptyPacket : Bytes := [0, 0, 0, 0, 0, 16, 0, 0, 0, 0, 0, 8, 0, 0, 0, 1]

theorem handleBuffer_robust_refuted : ¬∀ (libraries : PacketLibraries) (buffers : Buffers)
    (transferred bufferSize lastRemaining skipping : Nat), buffers.read.length = bufferSize →
    transferred + lastRemaining ≤ bufferSize →
    Robust libraries (handleBuffer buffers transferred bufferSize lastRemaining skipping) := by
  intro hall
  have hrobust := hall ⟨fun _ _ => ⟨false, [], Nat.zero_le _⟩, fun text => ⟨text, rfl⟩⟩
    ⟨emptyPacket, []⟩ 16 16 0 0 rfl (by decide)
  obtain ⟨n, hends⟩ := hrobust.ends
  rw [after_of_fixed (by rfl)] at hends
  rcases hends with hmalformed | ⟨offset, skipping, hreturned⟩
  · cases hmalformed
  · cases hreturned

end Parser

end LiveReceptor.Worker

import LiveReceptor.Shared.Framing.Decoder

namespace LiveReceptor.Framing

open SimpleWorkerProto SimpleWorkerProtoHandler

-- A payload whose length a header can announce.
structure Message where
  payload : Bytes
  short : payload.length < UInt32.size

def Message.frame (message : Message) : Bytes :=
  hostToNetworkLong (.ofNat message.payload.length) ++ message.payload

def frames (messages : List Message) : Bytes := (messages.map Message.frame).flatten

theorem Message.length_frame (message : Message) :
    message.frame.length = message.payload.length + 4 := by
  rw [Message.frame, List.length_append, length_hostToNetworkLong, Nat.add_comm]

theorem Message.announced_frame (message : Message) (rest : Bytes) :
    announced (message.frame ++ rest) = message.payload.length := by
  rw [announced, Message.frame, List.append_assoc, networkToHostLong_hostToNetworkLong,
    UInt32.toNat_ofNat', Nat.mod_eq_of_lt message.short]

theorem frames_cons (message : Message) (messages : List Message) :
    frames (message :: messages) = message.frame ++ frames messages := rfl

def Holds (bufferSize : Nat) (messages : List Message) : Prop :=
  ∀ message ∈ messages, message.payload.length + 4 ≤ bufferSize

theorem decoder_next_frame {bufferSize : Nat} (message : Message) (rest : Bytes)
    (h : message.payload.length + 4 ≤ bufferSize) :
    (decoder bufferSize).next (message.frame ++ rest) = some (message.payload, rest) := by
  have hl := message.length_frame
  rw [decoder_next, message.announced_frame, if_neg (by rw [List.length_append]; omega)]
  have h4 : (message.frame ++ rest).drop 4 = message.payload ++ rest := rfl
  have hrest : (message.frame ++ rest).drop (message.payload.length + 4) = rest := by
    rw [← hl, List.drop_left]
  rw [slice, h4, List.take_left, hrest]

section Stream

variable {bufferSize : Nat}

theorem announced_of_append {tail more : Bytes} {message : Message} {rest : Bytes}
    (h4 : 4 ≤ tail.length) (h : tail ++ more = message.frame ++ rest) :
    announced tail = message.payload.length := by
  rw [← message.announced_frame rest, ← h, announced, announced, networkToHostLong_append _ h4]

-- Whatever part of a valid stream has arrived decodes to the first messages,
-- and what is left of it continues to the frames of the others.
theorem drain_of_frames (data more : Bytes) (messages : List Message)
    (hholds : Holds bufferSize messages) (h : data ++ more = frames messages) :
    ∃ others, messages.map Message.payload =
        ((decoder bufferSize).drain data).1 ++ others.map Message.payload ∧
      ((decoder bufferSize).drain data).2 ++ more = frames others ∧ Holds bufferSize others := by
  induction data using (decoder bufferSize).drain_induction generalizing messages with
  | none data hn =>
      rw [FrameDecoder.drain_of_none hn]
      exact ⟨messages, rfl, h, hholds⟩
  | some data frame rest hs ih =>
      rw [FrameDecoder.drain_of_some hs]
      cases messages with
      | nil =>
          have hd : data = [] := (List.append_eq_nil_iff.mp h).1
          rw [hd, decoder_next, if_pos (Or.inl (by simp))] at hs
          cases hs
      | cons message messages =>
          have hs' := (decoder bufferSize).stable more hs
          rw [h, frames_cons, decoder_next_frame message _ (hholds message List.mem_cons_self)] at hs'
          obtain ⟨rfl, hrest⟩ : message.payload = frame ∧ frames messages = rest ++ more := by
            simpa using hs'
          obtain ⟨others, hp, ho, hh⟩ := ih messages
            (fun m hm => hholds m (List.mem_cons_of_mem _ hm)) hrest.symm
          exact ⟨others, by rw [List.map_cons, hp]; rfl, ho, hh⟩

theorem not_oversized_of_frames {tail more : Bytes} {messages : List Message}
    (hholds : Holds bufferSize messages) (h : tail ++ more = frames messages) :
    ¬Oversized bufferSize tail := by
  rintro ⟨h4, hbig⟩
  cases messages with
  | nil =>
      have ht : tail = [] := (List.append_eq_nil_iff.mp h).1
      rw [ht] at h4
      simp at h4
  | cons message messages =>
      have := hholds message List.mem_cons_self
      rw [announced_of_append h4 h] at hbig
      simp only [simpleMessageHeaderLength] at hbig
      omega

theorem frames_eq_nil_of_next {messages : List Message} (hholds : Holds bufferSize messages)
    (h : (decoder bufferSize).next (frames messages) = none) : messages = [] := by
  cases messages with
  | nil => rfl
  | cons message messages =>
      rw [frames_cons, decoder_next_frame message _ (hholds message List.mem_cons_self)] at h
      cases h

end Stream

-- The reader holds exactly these undecoded bytes at the front of its buffer.
structure Carries (reader : SimpleWorkerProtoHandler) (tail : Bytes) : Prop where
  offset : reader.offset = tail.length
  front : reader.buf.take tail.length = tail
  skipping : reader.skipping = 0

theorem carries_fresh (memory : Bytes) : Carries (fresh memory) [] := ⟨rfl, rfl, rfl⟩

section Reader

variable {reader : SimpleWorkerProtoHandler} {tail : Bytes}

theorem Carries.slice_received (h : Carries reader tail) (read : Bytes) :
    slice (reader.received read) 0 (tail.length + read.length) = tail ++ read := by
  rw [slice, List.drop_zero, received, h.offset, h.front, ← List.length_append, List.take_left]

-- One read decodes the carried bytes and the new ones together.
theorem Carries.receive (h : Carries reader tail) (read : Bytes) :
    reader.payloads read = ((decoder reader.readBufferSize).drain (tail ++ read)).1 ∧
      Settled reader.readBufferSize ((decoder reader.readBufferSize).drain (tail ++ read)).2
        (reader.result read) := by
  have hresult : reader.result read = messageLoop (reader.received read) read.length
      reader.readBufferSize (read.length + tail.length) 0 (tail.length + read.length) := by
    rw [result, handleSimpleMessage, h.skipping, if_neg (by omega), h.offset, Nat.sub_zero,
      Nat.add_comm read.length]
  have hlength : 0 + (tail.length + read.length) ≤ (reader.received read).length := by
    rw [received, h.offset, h.front]
    simp only [List.length_append]
    omega
  have hdrain := messageLoop_drain (reader.received read) read.length reader.readBufferSize
    (read.length + tail.length) 0 (tail.length + read.length) hlength
  rwa [h.slice_received, ← hresult] at hdrain

theorem Carries.onReceive {read : Bytes} (h : Carries reader tail)
    (hfits : ¬Oversized reader.readBufferSize
      ((decoder reader.readBufferSize).drain (tail ++ read)).2) :
    Carries (reader.onReceive read) ((decoder reader.readBufferSize).drain (tail ++ read)).2 := by
  have hsettled := (h.receive read).2
  rw [Settled, if_neg hfits] at hsettled
  exact ⟨hsettled.2.1, hsettled.2.2.1, hsettled.2.2.2⟩

end Reader

-- The invariant over the reads: the reader carries what draining the bytes of
-- the reads so far has left.
theorem receiveAll_drain (reader : SimpleWorkerProtoHandler) (tail : Bytes) (reads : List Bytes)
    (hcarries : Carries reader tail) (hnext : (decoder reader.readBufferSize).next tail = none)
    (hfits : ∀ before, before <+: reads → ¬Oversized reader.readBufferSize
      ((decoder reader.readBufferSize).drain (tail ++ before.flatten)).2) :
    (reader.receiveAll reads).2 =
        ((decoder reader.readBufferSize).drain (tail ++ reads.flatten)).1 ∧
      Carries (reader.receiveAll reads).1
        ((decoder reader.readBufferSize).drain (tail ++ reads.flatten)).2 := by
  induction reads generalizing reader tail with
  | nil =>
      rw [List.flatten_nil, List.append_nil, FrameDecoder.drain_of_none hnext]
      exact ⟨rfl, hcarries⟩
  | cons read rest ih =>
      have hfirst := hfits [read] ⟨rest, rfl⟩
      rw [List.flatten_singleton] at hfirst
      obtain ⟨hdelivered, hlast⟩ := ih (reader.onReceive read) _ (hcarries.onReceive hfirst)
        (FrameDecoder.next_drain _) fun before hbefore => by
          have hboth := hfits (read :: before) (List.cons_prefix_cons.mpr ⟨rfl, hbefore⟩)
          rwa [List.flatten_cons, ← List.append_assoc, FrameDecoder.drain_append] at hboth
      rw [List.flatten_cons, ← List.append_assoc, FrameDecoder.drain_append]
      refine ⟨?_, hlast⟩
      rw [← (hcarries.receive read).1]
      exact congrArg (reader.payloads read ++ ·) hdelivered

theorem receiveAll_frames (memory : Bytes) (reads : List Bytes) (messages : List Message)
    (hholds : Holds memory.length messages) (h : reads.flatten = frames messages) :
    ((fresh memory).receiveAll reads).2 = messages.map Message.payload ∧
      Carries ((fresh memory).receiveAll reads).1 [] := by
  have hnext : (decoder memory.length).next [] = none := by
    rw [decoder_next, if_pos (Or.inl (by simp))]
  have hfits : ∀ before, before <+: reads →
      ¬Oversized memory.length ((decoder memory.length).drain before.flatten).2 := by
    rintro before ⟨after, rfl⟩
    rw [List.flatten_append] at h
    obtain ⟨others, -, hrest, hothers⟩ := drain_of_frames before.flatten after.flatten messages hholds h
    exact not_oversized_of_frames hothers hrest
  obtain ⟨hdelivered, hlast⟩ := receiveAll_drain (fresh memory) [] reads (carries_fresh memory) hnext hfits
  obtain ⟨others, hpayloads, hrest, hothers⟩ := drain_of_frames reads.flatten [] messages hholds
    ((List.append_nil _).trans h)
  rw [List.append_nil] at hrest
  have hnone : others = [] := by
    apply frames_eq_nil_of_next hothers
    rw [← hrest]
    exact FrameDecoder.next_drain _
  subst hnone
  rw [hpayloads, List.map_nil, List.append_nil]
  refine ⟨hdelivered, ?_⟩
  have hcarries : Carries ((fresh memory).receiveAll reads).1
      ((decoder memory.length).drain reads.flatten).2 := hlast
  rwa [hrest] at hcarries

-- However the frames are cut into reads, the handler is given exactly the
-- payloads, and the reader ends where it began.
theorem receiveAll_chunking_independent (memory : Bytes) (messages : List Message)
    (hholds : ∀ message ∈ messages, message.payload.length + 4 ≤ memory.length)
    (reads : List Bytes) (hcut : reads.flatten = (messages.map Message.frame).flatten) :
    ((fresh memory).receiveAll reads).2 = messages.map Message.payload ∧
      ((fresh memory).receiveAll reads).1.offset = 0 ∧
      ((fresh memory).receiveAll reads).1.skipping = 0 := by
  obtain ⟨hdelivered, hlast⟩ := receiveAll_frames memory reads messages hholds hcut
  exact ⟨hdelivered, hlast.offset, hlast.skipping⟩

-- Two messages, the second one empty, cut inside both headers and inside the first
-- payload.
theorem receiveAll_chunking_independent_two :
    let reads : List Bytes := [[0, 0], [0, 3, 7], [8, 9, 0], [0, 0, 0]]
    ((fresh (List.replicate 8 255)).receiveAll reads).2 = [[7, 8, 9], []] ∧
      ((fresh (List.replicate 8 255)).receiveAll reads).1.offset = 0 ∧
      ((fresh (List.replicate 8 255)).receiveAll reads).1.skipping = 0 :=
  receiveAll_chunking_independent (List.replicate 8 255) [⟨[7, 8, 9], by decide⟩, ⟨[], by decide⟩]
    (by decide) [[0, 0], [0, 3, 7], [8, 9, 0], [0, 0, 0]] (by decide)

end LiveReceptor.Framing

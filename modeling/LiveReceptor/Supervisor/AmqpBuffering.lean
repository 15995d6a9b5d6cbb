import LiveReceptor.Supervisor.AmqpClient
import LiveReceptor.Shared.Framing.Decoder

namespace LiveReceptor.Supervisor

open SimpleWorkerProto (slice memmove)
open Framing (take_memmove drop_slice)

-- Called again and again, parse consumes all of the bytes, and none of its
-- callbacks closes the socket.
inductive Swallows {σ : Type*} (parser : AmqpConnection σ) : σ → Bytes → Prop
  | last {state : σ} {data : Bytes} (hall : (parser.parse state data).consumed = data.length)
      (hopen : (parser.parse state data).closes = false) : Swallows parser state data
  | more {state : σ} {data : Bytes} (hpos : 0 < (parser.parse state data).consumed)
      (hpart : (parser.parse state data).consumed < data.length)
      (hopen : (parser.parse state data).closes = false)
      (hrest : Swallows parser (parser.parse state data).state
        (data.drop (parser.parse state data).consumed)) : Swallows parser state data

section Swallows

variable {σ : Type*} {parser : AmqpConnection σ} {state : σ} {data : Bytes}

theorem swallows_of_part (hpos : 0 < (parser.parse state data).consumed)
    (hpart : (parser.parse state data).consumed < data.length) : Swallows parser state data ↔
      Swallows parser (parser.parse state data).state (data.drop (parser.parse state data).consumed) ∧
        (parser.parse state data).closes = false := by
  constructor
  · intro hall
    cases hall with
    | last hall hopen => exact absurd hall (Nat.ne_of_lt hpart)
    | more hpos hpart hopen hrest => exact ⟨hrest, hopen⟩
  · rintro ⟨hrest, hopen⟩
    exact .more hpos hpart hopen hrest

theorem swallows_of_not_part (h : ¬(0 < (parser.parse state data).consumed ∧
    (parser.parse state data).consumed < data.length)) : Swallows parser state data ↔
      (parser.parse state data).consumed = data.length ∧ (parser.parse state data).closes = false := by
  constructor
  · intro hall
    cases hall with
    | last hall hopen => exact ⟨hall, hopen⟩
    | more hpos hpart hopen hrest => exact absurd ⟨hpos, hpart⟩ h
  · rintro ⟨hall, hopen⟩
    exact .last hall hopen

end Swallows

namespace AmqpAsioConnection

variable {σ : Type*} {parser : AmqpConnection σ} {s : AmqpAsioConnection σ} {state : σ} {read : Bytes}
  {offset : Nat}

-- The bytes kept at the front of the read buffer.
def kept (s : AmqpAsioConnection σ) : Bytes := s.readBuffer.take s.bufferLastRemaining

-- Nothing that has come over the connection is lost or repeated.
def Lossless (s : AmqpAsioConnection σ) : Prop := s.consumed ++ s.kept = s.received

-- The read is one that on_received handles, with its bytes at this place.
def Handles (read : Bytes) (offset : Nat) (state : σ) (s : AmqpAsioConnection σ) : Prop :=
  s.connection = some state ∧ s.read = some offset ∧ offset + read.length ≤ readBufferLen

def KeepsStream (parser : AmqpConnection σ) (event : AmqpEvent σ) (s : AmqpAsioConnection σ) : Prop :=
  ∀ read offset state, event = .received read → s.Handles read offset state →
    Lossless (step parser event s)

-- The bytes of the read are behind the ones that are counted. Where close_socket has
-- set the count back since the read was started, they are not, and the first read of
-- a connection must happen to repeat what is in front of it.
def Follows (read : Bytes) (offset : Nat) (s : AmqpAsioConnection σ) : Prop :=
  s.bufferLastRemaining = offset ∨
    s.received = [] ∧ (s.readBuffer.take offset ++ read).take read.length = read

-- Bytes are kept only from earlier reads on the same connection, and parse does
-- not consume all of them together with the read.
def CarriesRightly (parser : AmqpConnection σ) (event : AmqpEvent σ) (s : AmqpAsioConnection σ) : Prop :=
  ∀ read offset state, event = .received read → s.Handles read offset state → s.Follows read offset ∧
    (0 < s.bufferLastRemaining → s.received ≠ [] ∧ ¬Swallows parser state (s.kept ++ read))

section Loop

theorem slice_append (buf : Bytes) (start n m : Nat) :
    slice buf start n ++ slice buf (start + n) m = slice buf start (n + m) := by
  rw [slice, slice, slice, List.take_add, List.drop_drop]

theorem parseLoop_spec (parser : AmqpConnection σ) (buf : Bytes) (state : σ) (ptr remaining : Nat)
    (h : ptr + remaining ≤ buf.length) :
    let result := parseLoop parser buf state ptr remaining
    result.consumed ++ slice buf result.ptr result.remaining = slice buf ptr remaining ∧
      result.ptr + result.remaining = ptr + remaining ∧
      (result.remaining = 0 ∧ result.closes = false ↔ Swallows parser state (slice buf ptr remaining)) := by
  induction remaining using Nat.strong_induction_on generalizing state ptr with
  | _ remaining ih =>
      have hlength : (slice buf ptr remaining).length = remaining := Framing.slice_length h
      have hle := parser.parse_le state (slice buf ptr remaining)
      have hpart := @swallows_of_part _ parser state (slice buf ptr remaining)
      have hlast := @swallows_of_not_part _ parser state (slice buf ptr remaining)
      rw [parseLoop]
      generalize parser.parse state (slice buf ptr remaining) = outcome at hle hpart hlast ⊢
      have hcut : slice buf ptr outcome.consumed ++
          slice buf (ptr + outcome.consumed) (remaining - outcome.consumed) = slice buf ptr remaining := by
        rw [slice_append, Nat.add_sub_cancel' (by omega)]
      dsimp only
      split
      · rename_i hmore
        obtain ⟨hstream, hend, hswallows⟩ := ih (remaining - outcome.consumed) (by omega) outcome.state
          (ptr + outcome.consumed) (by omega)
        have hdrop : (slice buf ptr remaining).drop outcome.consumed =
            slice buf (ptr + outcome.consumed) (remaining - outcome.consumed) := drop_slice ..
        refine ⟨?_, by dsimp only; omega, ?_⟩
        · dsimp only
          rw [List.append_assoc, hstream, hcut]
        · dsimp only
          rw [Bool.or_eq_false_iff, ← and_assoc, and_right_comm, hswallows, hpart hmore.1 (by omega), hdrop]
      · rename_i hdone
        refine ⟨hcut, by dsimp only; omega, ?_⟩
        dsimp only
        rw [hlast (by omega)]
        exact and_congr_left fun _ => by omega

end Loop

section Received

-- What is kept is in the buffer, and before the first read nothing is consumed. A
-- read under way goes behind what was kept when it was started, and a socket that
-- is closed meanwhile sets the count back.
structure Tidy (s : AmqpAsioConnection σ) : Prop where
  bounded : s.bufferLastRemaining ≤ s.readBuffer.length
  fresh : s.received = [] → s.consumed = []
  offered : ∀ offset, s.read = some offset → offset ≤ s.readBuffer.length
  counted : ∀ offset, s.read = some offset → s.bufferLastRemaining = if s.socket then offset else 0
  lossless : ∀ offset, s.read = some offset → s.received ≠ [] →
    s.consumed ++ s.readBuffer.take offset = s.received

-- What the loop is shown.
def shown (s : AmqpAsioConnection σ) (offset : Nat) (read : Bytes) : Bytes :=
  (s.receivedBuffer offset read).take (read.length + s.bufferLastRemaining)

theorem length_receivedBuffer (h : offset ≤ s.readBuffer.length) (read : Bytes) :
    offset + read.length ≤ (s.receivedBuffer offset read).length := by
  rw [receivedBuffer, List.length_append, List.length_append, List.length_take, min_eq_left h]
  exact Nat.le_add_right _ _

theorem shown_of_counted (h : offset ≤ s.readBuffer.length) (hcount : s.bufferLastRemaining = offset)
    (read : Bytes) : s.shown offset read = s.kept ++ read := by
  subst hcount
  have hlength : (s.kept ++ read).length = read.length + s.bufferLastRemaining := by
    rw [List.length_append, kept, List.length_take, min_eq_left h, Nat.add_comm]
  rw [shown, ← hlength]
  exact List.take_left

theorem take_receivedBuffer (h : s.bufferLastRemaining ≤ s.readBuffer.length) (read : Bytes) :
    (s.receivedBuffer s.bufferLastRemaining read).take s.bufferLastRemaining = s.kept := by
  have hlength : s.kept.length = s.bufferLastRemaining := by rw [kept, List.length_take, min_eq_left h]
  show (s.kept ++ read ++ _).take s.bufferLastRemaining = s.kept
  rw [List.append_assoc, ← hlength, List.take_left]

theorem shown_of_set_back (hcount : s.bufferLastRemaining = 0) (offset : Nat) (read : Bytes) :
    s.shown offset read = (s.readBuffer.take offset ++ read).take read.length := by
  rw [shown, hcount, receivedBuffer, List.take_append_of_le_length]
  · rfl
  · rw [List.length_append]
    exact Nat.le_add_left _ _

@[simp] theorem startAsyncRead_kept : s.startAsyncRead.kept = s.kept := by
  unfold startAsyncRead
  split <;> rfl

@[simp] theorem startAsyncRead_consumed : s.startAsyncRead.consumed = s.consumed := by
  unfold startAsyncRead
  split <;> rfl

@[simp] theorem startAsyncRead_received : s.startAsyncRead.received = s.received := by
  unfold startAsyncRead
  split <;> rfl

@[simp] theorem startAsyncRead_bufferLastRemaining :
    s.startAsyncRead.bufferLastRemaining = s.bufferLastRemaining := by
  unfold startAsyncRead
  split <;> rfl

@[simp] theorem startAsyncRead_readBuffer : s.startAsyncRead.readBuffer = s.readBuffer := by
  unfold startAsyncRead
  split <;> rfl

theorem startAsyncRead_read (h : s.read = none) :
    s.startAsyncRead.read = none ∨
      s.startAsyncRead.socket = true ∧ s.startAsyncRead.read = some s.bufferLastRemaining := by
  unfold startAsyncRead
  split
  · rename_i hsocket
    exact Or.inr ⟨hsocket, rfl⟩
  · exact Or.inl h

theorem received_handleReceived :
    (s.handleReceived parser offset read state).received = s.received ++ read := by
  unfold handleReceived
  dsimp only
  rw [startAsyncRead_received]
  split <;> split <;> rfl

theorem read_handleReceived :
    (s.handleReceived parser offset read state).read = none ∨
      (s.handleReceived parser offset read state).socket = true ∧
        (s.handleReceived parser offset read state).read =
          some (s.handleReceived parser offset read state).bufferLastRemaining := by
  unfold handleReceived
  dsimp only
  rw [startAsyncRead_bufferLastRemaining]
  refine startAsyncRead_read ?_
  split <;> split <;> rfl

-- Where the loop leaves nothing over, the count of the bytes kept stays as it
-- was, and the same bytes are kept again.
theorem consumed_kept_handleReceived (parser : AmqpConnection σ) (state : σ)
    (hbounded : read.length + s.bufferLastRemaining ≤ (s.receivedBuffer offset read).length)
    (hclosed : s.socket = false → s.bufferLastRemaining = 0) :
    (s.handleReceived parser offset read state).bufferLastRemaining ≤
        (s.handleReceived parser offset read state).readBuffer.length ∧
      (¬Swallows parser state (s.shown offset read) →
        (s.handleReceived parser offset read state).consumed ++
          (s.handleReceived parser offset read state).kept = s.consumed ++ s.shown offset read) ∧
      (Swallows parser state (s.shown offset read) →
        (s.handleReceived parser offset read state).consumed ++
          (s.handleReceived parser offset read state).kept =
            s.consumed ++ s.shown offset read ++
              (s.receivedBuffer offset read).take s.bufferLastRemaining) := by
  have hfront : slice (s.receivedBuffer offset read) 0 (read.length + s.bufferLastRemaining) =
      s.shown offset read := by rw [slice, List.drop_zero, shown]
  obtain ⟨hstream, hend, hswallows⟩ := parseLoop_spec parser (s.receivedBuffer offset read) state 0
    (read.length + s.bufferLastRemaining) (by omega)
  rw [hfront] at hstream hswallows
  unfold handleReceived
  dsimp only
  rw [startAsyncRead_bufferLastRemaining, startAsyncRead_readBuffer, startAsyncRead_consumed,
    startAsyncRead_kept]
  generalize parseLoop parser (s.receivedBuffer offset read) state 0
    (read.length + s.bufferLastRemaining) = result at hstream hend hswallows ⊢
  by_cases hover : 0 < result.remaining
  · have hmoved : (memmove (s.receivedBuffer offset read) result.ptr result.remaining).take
        result.remaining = slice (s.receivedBuffer offset read) result.ptr result.remaining :=
      take_memmove (by omega)
    have hnot : ¬Swallows parser state (s.shown offset read) := fun hall => by
      have := (hswallows.mpr hall).1
      omega
    have hlength : result.remaining ≤
        (memmove (s.receivedBuffer offset read) result.ptr result.remaining).length := by
      rw [memmove, List.length_append, Framing.slice_length (by omega)]
      omega
    simp only [if_pos hover]
    refine ⟨hlength, fun _ => ?_, fun hall => absurd hall hnot⟩
    rw [kept]
    dsimp only
    rw [hmoved, ← hstream]
    split <;> exact List.append_assoc ..
  · have hnone : result.remaining = 0 := by omega
    rw [hnone, slice, List.take_zero, List.append_nil] at hstream
    simp only [if_neg hover]
    cases hcloses : result.closes with
    | true =>
        have hnot : ¬Swallows parser state (s.shown offset read) := fun hall => by
          rw [(hswallows.mpr hall).2] at hcloses
          cases hcloses
        cases hsocket : s.socket with
        | true =>
            refine ⟨Nat.zero_le _, fun _ => ?_, fun hall => absurd hall hnot⟩
            simp [closeSocket, kept, hstream]
        | false =>
            have hzero := hclosed hsocket
            refine ⟨by simp [hzero], fun _ => ?_, fun hall => absurd hall hnot⟩
            simp [kept, hstream, hzero]
    | false =>
        have hall := hswallows.mp ⟨hnone, hcloses⟩
        refine ⟨?_, fun hnot => absurd hall hnot, fun _ => ?_⟩
        · simp only [Bool.false_and, Bool.false_eq_true, if_false]
          omega
        · simp [kept, hstream]

theorem step_received (hread : s.Handles read offset state) :
    step parser (.received read) s = s.handleReceived parser offset read state := by
  obtain ⟨hconnection, hpending, hfits⟩ := hread
  show s.onReceived parser read = _
  unfold onReceived
  rw [hpending]
  dsimp only
  rw [if_pos hfits, hconnection]

theorem step_received_of_not_handles (hread : ∀ offset state, ¬s.Handles read offset state) :
    step parser (.received read) s = s ∨ step parser (.received read) s = { s with read := none } := by
  show s.onReceived parser read = s ∨ s.onReceived parser read = _
  unfold onReceived
  split
  · exact Or.inl rfl
  · rename_i offset hpending
    split
    · rename_i hfits
      right
      split
      · rfl
      · rename_i state hconnection
        exact absurd ⟨hconnection, hpending, hfits⟩ (hread offset state)
    · exact Or.inl rfl

theorem append_eq_right_iff {front back : Bytes} : front ++ back = back ↔ front = [] := by
  constructor
  · intro h
    have hlength := congrArg List.length h
    rw [List.length_append] at hlength
    exact List.length_eq_zero_iff.mp (by omega)
  · rintro rfl
    rfl

theorem Tidy.closed (h : Tidy s) (hread : s.read = some offset) (hsocket : s.socket = false) :
    s.bufferLastRemaining = 0 := by
  rw [h.counted offset hread, hsocket]
  rfl

theorem Tidy.fits (h : Tidy s) (hread : s.read = some offset) (read : Bytes) :
    read.length + s.bufferLastRemaining ≤ (s.receivedBuffer offset read).length := by
  have hlength := length_receivedBuffer (h.offered offset hread) read
  have hcount := h.counted offset hread
  split at hcount <;> omega

-- Where the bytes follow the ones kept, the stream is whole exactly if what was
-- kept before belongs to it and is not kept a second time.
theorem lossless_of_counted_iff (h : Tidy s) (hread : s.read = some offset)
    (hcount : s.bufferLastRemaining = offset) :
    Lossless (s.handleReceived parser offset read state) ↔
      (0 < s.bufferLastRemaining → s.received ≠ [] ∧ ¬Swallows parser state (s.kept ++ read)) := by
  obtain ⟨-, hrest, hall⟩ := consumed_kept_handleReceived parser state (h.fits hread read) (h.closed hread)
  have hagain : (s.receivedBuffer offset read).take s.bufferLastRemaining = s.kept := by
    subst hcount
    exact take_receivedBuffer h.bounded read
  rw [shown_of_counted (h.offered offset hread) hcount] at hrest hall
  rw [hagain] at hall
  have hkept : s.kept = [] ↔ ¬0 < s.bufferLastRemaining := by
    rw [← List.length_eq_zero_iff, kept, List.length_take, min_eq_left h.bounded]
    omega
  rw [Lossless, received_handleReceived]
  by_cases hfresh : s.received = []
  · rw [hfresh, List.nil_append]
    constructor
    · intro hlossless hpos
      refine absurd hpos (hkept.mp ?_)
      by_cases hswallows : Swallows parser state (s.kept ++ read)
      · rw [hall hswallows, h.fresh hfresh, List.nil_append] at hlossless
        have hlength := congrArg List.length hlossless
        simp only [List.length_append] at hlength
        exact List.length_eq_zero_iff.mp (by omega)
      · rw [hrest hswallows, h.fresh hfresh, List.nil_append] at hlossless
        exact append_eq_right_iff.mp hlossless
    · intro hright
      have hnone : s.kept = [] := hkept.mpr fun hpos => (hright hpos).1 rfl
      by_cases hswallows : Swallows parser state (s.kept ++ read)
      · rw [hall hswallows, hnone, h.fresh hfresh, List.append_nil, List.nil_append, List.nil_append]
      · rw [hrest hswallows, hnone, h.fresh hfresh, List.nil_append, List.nil_append]
  · have hbefore : s.consumed ++ s.kept = s.received := by
      rw [kept, hcount]
      exact h.lossless offset hread hfresh
    by_cases hswallows : Swallows parser state (s.kept ++ read)
    · rw [hall hswallows, ← List.append_assoc, hbefore, List.append_right_eq_self, hkept]
      exact ⟨fun hnone hpos => absurd hpos hnone, fun hright hpos => (hright hpos).2 hswallows⟩
    · rw [hrest hswallows, ← List.append_assoc, hbefore]
      exact iff_of_true rfl fun _ => ⟨hfresh, hswallows⟩

-- Where a socket that was closed meanwhile has set the count back, on_received
-- looks at the bytes in front of the read.
theorem lossless_of_set_back_iff (h : Tidy s) (hread : s.read = some offset)
    (hcount : s.bufferLastRemaining ≠ offset) :
    Lossless (s.handleReceived parser offset read state) ↔
      s.received = [] ∧ (s.readBuffer.take offset ++ read).take read.length = read := by
  have hzero : s.bufferLastRemaining = 0 := by
    have hcounted := h.counted offset hread
    split at hcounted
    · exact absurd hcounted hcount
    · exact hcounted
  obtain ⟨-, hrest, hall⟩ := consumed_kept_handleReceived parser state (h.fits hread read) (h.closed hread)
  rw [shown_of_set_back hzero] at hrest hall
  rw [hzero, List.take_zero, List.append_nil] at hall
  have hboth : (s.handleReceived parser offset read state).consumed ++
      (s.handleReceived parser offset read state).kept =
        s.consumed ++ (s.readBuffer.take offset ++ read).take read.length := by
    by_cases hswallows : Swallows parser state ((s.readBuffer.take offset ++ read).take read.length)
    · exact hall hswallows
    · exact hrest hswallows
  rw [Lossless, received_handleReceived, hboth]
  by_cases hfresh : s.received = []
  · rw [hfresh, h.fresh hfresh, List.nil_append, List.nil_append, and_iff_right rfl]
  · have hbefore := h.lossless offset hread hfresh
    refine iff_of_false (fun hlossless => ?_) fun hboth => hfresh hboth.1
    have hoffered := h.offered offset hread
    have hlength := congrArg List.length hlossless
    have hlength' := congrArg List.length hbefore
    simp only [List.length_append, List.length_take] at hlength hlength'
    omega

theorem lossless_handleReceived_iff (h : Tidy s) (hread : s.read = some offset) :
    Lossless (s.handleReceived parser offset read state) ↔
      s.Follows read offset ∧
        (0 < s.bufferLastRemaining → s.received ≠ [] ∧ ¬Swallows parser state (s.kept ++ read)) := by
  by_cases hcount : s.bufferLastRemaining = offset
  · rw [lossless_of_counted_iff h hread hcount]
    exact (and_iff_right (Or.inl hcount)).symm
  · rw [lossless_of_set_back_iff h hread hcount, Follows, or_iff_right hcount]
    have hcounted := h.counted offset hread
    refine (and_iff_left fun hpos => ?_).symm
    split at hcounted
    · exact absurd hcounted hcount
    · exact absurd hcounted (Nat.ne_of_gt hpos)

theorem keepsStream_iff (h : Tidy s) (event : AmqpEvent σ) :
    KeepsStream parser event s ↔ CarriesRightly parser event s := by
  refine forall_congr' fun read => forall_congr' fun offset => forall_congr' fun state => ?_
  refine forall_congr' fun hevent => forall_congr' fun hread => ?_
  subst hevent
  rw [step_received hread]
  exact lossless_handleReceived_iff h hread.2.1

theorem Tidy.closeSocket (h : Tidy s) : Tidy s.closeSocket where
  bounded := Nat.zero_le _
  fresh := h.fresh
  offered := h.offered
  counted := fun _ _ => rfl
  lossless := h.lossless

theorem Tidy.idle (h : Tidy s) : Tidy { s with read := none } where
  bounded := h.bounded
  fresh := h.fresh
  offered := fun _ hread => absurd hread (by simp)
  counted := fun _ hread => absurd hread (by simp)
  lossless := fun _ hread => absurd hread (by simp)

-- A read is started on a connection that has lost nothing, or received nothing.
theorem tidy_of_started (hbounded : s.bufferLastRemaining ≤ s.readBuffer.length)
    (hfresh : s.received = [] → s.consumed = [])
    (hread : s.read = none ∨ s.socket = true ∧ s.read = some s.bufferLastRemaining)
    (hlossless : s.received ≠ [] → Lossless s) : Tidy s := by
  rcases hread with hread | ⟨hsocket, hread⟩
  · exact ⟨hbounded, hfresh, by simp [hread], by simp [hread], by simp [hread]⟩
  · have hoffset : ∀ offset, s.read = some offset → s.bufferLastRemaining = offset := fun offset h =>
      Option.some.inj (hread.symm.trans h)
    refine ⟨hbounded, hfresh, fun offset h => ?_, fun offset h => ?_, fun offset h hreceived => ?_⟩
    · exact hoffset offset h ▸ hbounded
    · rw [if_pos hsocket, hoffset offset h]
    · exact hoffset offset h ▸ hlossless hreceived

theorem tidy_reconnect (h : Tidy s) (outcome : ReconnectOutcome σ) : Tidy (s.reconnect outcome) := by
  have hbounded : (if s.socket then s.closeSocket else s).bufferLastRemaining ≤
      (if s.socket then s.closeSocket else s).readBuffer.length := by
    split
    · exact Nat.zero_le _
    · exact h.bounded
  unfold reconnect
  generalize (if s.socket then s.closeSocket else s) = t at hbounded ⊢
  cases outcome with
  | unresolved => exact tidy_of_started hbounded (fun _ => rfl) (Or.inl rfl) fun hne => absurd rfl hne
  | unconnected => exact tidy_of_started hbounded (fun _ => rfl) (Or.inl rfl) fun hne => absurd rfl hne
  | connected state sends =>
      cases sends with
      | true => exact tidy_of_started hbounded (fun _ => rfl) (Or.inr ⟨rfl, rfl⟩) fun hne => absurd rfl hne
      | false =>
          exact tidy_of_started (Nat.zero_le _) (fun _ => rfl) (Or.inl rfl) fun hne => absurd rfl hne

theorem Tidy.step (h : Tidy s) {event : AmqpEvent σ} (hkeeps : KeepsStream parser event s) :
    Tidy (step parser event s) := by
  cases event with
  | received read =>
      by_cases hread : ∃ offset state, s.Handles read offset state
      · obtain ⟨offset, state, hread⟩ := hread
        have hlossless := hkeeps read offset state rfl hread
        have hbounded := (consumed_kept_handleReceived parser state (h.fits hread.2.1 read)
          (h.closed hread.2.1)).1
        rw [step_received hread] at hlossless ⊢
        refine tidy_of_started hbounded (fun hfresh => ?_) read_handleReceived fun _ => hlossless
        rw [Lossless, hfresh] at hlossless
        exact (List.append_eq_nil_iff.mp hlossless).1
      · rcases @step_received_of_not_handles _ parser s read
          fun offset state hstate => hread ⟨offset, state, hstate⟩ with hsame | hidle
        · rw [hsame]
          exact h
        · rw [hidle]
          exact h.idle
  | receiveFailed =>
      show Tidy (if s.read.isSome then { s with read := none }.closeSocket else s)
      split
      · exact h.idle.closeSocket
      · exact h
  | earlierFailed => exact h.closeSocket
  | sendFailed =>
      show Tidy (if s.connection.isSome && s.socket then s.closeSocket else s)
      split
      · exact h.closeSocket
      · exact h
  | reconnect outcome => exact tidy_reconnect h outcome

theorem tidy_initial (memory : Bytes) : Tidy (initial memory : AmqpAsioConnection σ) where
  bounded := Nat.zero_le _
  fresh := fun _ => rfl
  offered := fun _ hread => absurd hread (by simp [initial])
  counted := fun _ hread => absurd hread (by simp [initial])
  lossless := fun _ hread => absurd hread (by simp [initial])

-- Over all connections, what the parser has consumed and what is kept for it
-- make up the stream exactly if no read finds bytes of an earlier connection in
-- the buffer, none completes the kept bytes to what is consumed as a whole, and
-- none is handled after the socket was closed that had bytes kept in front of it.
theorem run_keepsStream_iff (parser : AmqpConnection σ) (memory : Bytes) (events : List (AmqpEvent σ)) :
    Runs.EveryStep (step parser) (KeepsStream parser) (initial memory) events ↔
      Runs.EveryStep (step parser) (CarriesRightly parser) (initial memory) events := by
  have hstep : ∀ event s, Tidy s → KeepsStream parser event s → Tidy (step parser event s) :=
    fun _ _ h hkeeps => h.step hkeeps
  exact Runs.everyStep_iff hstep (fun event _ h => keepsStream_iff h event) (tidy_initial memory) events

-- Frames of seven bytes, whose last four are the length of the rest, a payload
-- and an end byte. Nothing is consumed before the whole frame is there.
def frameParser : AmqpConnection Unit where
  parse _ data :=
    let length := (SimpleWorkerProto.networkToHostLong (data.drop 3)).toNat + 8
    { consumed := if 7 ≤ data.length ∧ length ≤ data.length then length else 0, state := () }
  parse_le _ data := by
    dsimp only
    split
    · rename_i h
      exact h.2
    · exact Nat.zero_le _

def firstPart (memory : Bytes) : AmqpAsioConnection Unit where
  connection := some ()
  socket := true
  readBuffer := [8, 0, 0] ++ memory.drop 3
  bufferLastRemaining := 3
  read := some 3
  received := [8, 0, 0]

-- A heartbeat frame that comes in two reads.
theorem run_keepsStream_refuted : ¬∀ (σ : Type) (parser : AmqpConnection σ) (memory : Bytes)
    (events : List (AmqpEvent σ)),
    Runs.EveryStep (step parser) (KeepsStream parser) (initial memory) events := by
  intro h
  have hrun := h Unit frameParser (List.replicate readBufferLen 0)
    [.reconnect (.connected () true), .received [8, 0, 0], .received [0, 0, 0, 0, 206]]
  generalize List.replicate readBufferLen (0 : UInt8) = memory at hrun
  have hfirst : step frameParser (.received [8, 0, 0])
      (step frameParser (.reconnect (.connected () true)) (initial memory)) = firstPart memory := by
    have hpart : Handles [8, 0, 0] 0 () (step frameParser (.reconnect (.connected () true)) (initial memory)) :=
      ⟨rfl, rfl, of_decide_eq_true rfl⟩
    rw [step_received hpart, handleReceived, parseLoop]
    rfl
  have hlossless := hrun.2.2.1
  rw [hfirst] at hlossless
  have htidy : Tidy (firstPart memory) := by
    refine tidy_of_started ?_ (fun _ => rfl) (Or.inr ⟨rfl, rfl⟩) fun _ => rfl
    simp only [firstPart, List.length_append, List.length_cons, List.length_nil]
    omega
  have hcarries := (keepsStream_iff htidy (.received [0, 0, 0, 0, 206])).mp hlossless
  have hwhole : Handles [0, 0, 0, 0, 206] 3 () (firstPart memory) := ⟨rfl, rfl, of_decide_eq_true rfl⟩
  have hswallows : Swallows frameParser () ((firstPart memory).kept ++ [0, 0, 0, 0, 206]) := .last rfl rfl
  exact ((hcarries [0, 0, 0, 0, 206] 3 () rfl hwhole).2 (Nat.succ_pos 2)).2 hswallows

end Received

end AmqpAsioConnection

end LiveReceptor.Supervisor

import Mathlib.Data.List.Perm.Basic
import Mathlib.Data.List.ReduceOption
import LiveReceptor.Shared.SimpleWorkerProto
import LiveReceptor.Library.Runs

namespace LiveReceptor

open SimpleWorkerProto

-- A deadline_timer. A wait that has been cancelled completes all the same: with
-- operation_aborted, or without an error when it had expired before.
structure WaitTimer where
  waiting : Bool := false
  cancelled : Nat := 0
  deriving DecidableEq, Repr

def WaitTimer.cancel (timer : WaitTimer) : WaitTimer :=
  if timer.waiting then { waiting := false, cancelled := timer.cancelled + 1 } else timer

def WaitTimer.start (timer : WaitTimer) : WaitTimer := { timer.cancel with waiting := true }

inductive WaitEnd
  | expired
  | cancelled (aborted : Bool)
  deriving DecidableEq, Repr

-- What is left of the timer when a wait has completed, if there was such a wait.
def WaitTimer.finish (timer : WaitTimer) : WaitEnd → Option WaitTimer
  | .expired => if timer.waiting then some { timer with waiting := false } else none
  | .cancelled _ => if 0 < timer.cancelled then some { timer with cancelled := timer.cancelled - 1 } else none

def WaitEnd.aborted : WaitEnd → Bool
  | .expired => false
  | .cancelled aborted => aborted

-- What a call of write() hands over. The number tells the calls apart.
structure WriteBuffer where
  call : Nat
  bytes : Bytes
  deriving DecidableEq, Repr

inductive WriteResult
  | success
  | operationAborted
  | other
  deriving DecidableEq, Repr

-- An async_write. A buffer that is only default-constructed is `none`;
-- `bufferCount` is the argument that is bound to on_written.
structure AsyncWrite where
  buffers : List (Option WriteBuffer)
  bufferCount : Int
  transferred : Nat := 0
  deriving DecidableEq, Repr

def AsyncWrite.inFlight (write : AsyncWrite) : List WriteBuffer := write.buffers.reduceOption

def AsyncWrite.bytes (write : AsyncWrite) : Bytes := write.inFlight.flatMap WriteBuffer.bytes

-- static_cast<int> of a size.
def intOfSize (n : Nat) : Int := (Int32.ofNat n).toInt

-- The writer of one connection. `posted` are the closures that write() has
-- given to the executor and `outstanding` the writes that have not completed.
-- The rest is no part of the program: what has gone onto the wire, the buffers
-- in the order in which their closures ran, those of the completed writes, those
-- that were given to their deleters, and the calls of the close handler.
structure AsioSocketWriteHelper where
  socket : Bool := true
  writeQueue : List WriteBuffer := []
  posted : List WriteBuffer := []
  outstanding : List AsyncWrite := []
  calls : Nat := 0
  wire : Bytes := []
  ran : List WriteBuffer := []
  written : List WriteBuffer := []
  deleted : List WriteBuffer := []
  closeCalls : Nat := 0

namespace AsioSocketWriteHelper

def asyncWrite (buffers : List (Option WriteBuffer)) (bufferCount : Int) (s : AsioSocketWriteHelper) :
    AsioSocketWriteHelper := { s with outstanding := s.outstanding ++ [{ buffers, bufferCount }] }

-- The vector of a batch begins with `count` empty buffers, which emplace_back
-- leaves in front. The other branch is also that of a count that wraps.
def startAsyncWrite (s : AsioSocketWriteHelper) : AsioSocketWriteHelper :=
  if s.socket then
    let count := intOfSize s.writeQueue.length
    if 1 < count then
      s.asyncWrite (List.replicate count.toNat none ++ (s.writeQueue.take count.toNat).map some) count
    else s.asyncWrite ((s.writeQueue.take 1).map some) 1
  else s

def deleteFirstNBuffers (n : Int) (s : AsioSocketWriteHelper) : AsioSocketWriteHelper :=
  let n := min n (intOfSize s.writeQueue.length)
  { s with
    deleted := s.deleted ++ s.writeQueue.take n.toNat
    writeQueue := s.writeQueue.drop n.toNat }

def onWritten (ec : WriteResult) (bufferCount : Int) (s : AsioSocketWriteHelper) : AsioSocketWriteHelper :=
  let s := s.deleteFirstNBuffers bufferCount
  if ec = .operationAborted then s
  else
    let s := if ec = .other then { s with closeCalls := s.closeCalls + 1 } else s
    if s.writeQueue.isEmpty then s else s.startAsyncWrite

def write (bytes : Bytes) (s : AsioSocketWriteHelper) : AsioSocketWriteHelper :=
  let buffer := ⟨s.calls, bytes⟩
  let s := { s with calls := s.calls + 1 }
  if s.socket then { s with posted := s.posted ++ [buffer] }
  else { s with deleted := s.deleted ++ [buffer] }

-- The closure of write(). It holds the socket, which is therefore never null.
def append (buffer : WriteBuffer) (s : AsioSocketWriteHelper) : AsioSocketWriteHelper :=
  let writeInProcess := !s.writeQueue.isEmpty
  let s := { s with writeQueue := s.writeQueue ++ [buffer], ran := s.ran ++ [buffer] }
  if writeInProcess then s else s.startAsyncWrite

-- The executor takes one of the closures.
def runPosted (n : Nat) (s : AsioSocketWriteHelper) : AsioSocketWriteHelper :=
  match s.posted[n]? with
  | none => s
  | some buffer => { s with posted := s.posted.eraseIdx n }.append buffer

-- The socket takes some more bytes of a write.
def transfer (n length : Nat) (s : AsioSocketWriteHelper) : AsioSocketWriteHelper :=
  match s.outstanding[n]? with
  | none => s
  | some write =>
      let sent := (write.bytes.drop write.transferred).take length
      { s with
        wire := s.wire ++ sent
        outstanding := s.outstanding.set n { write with transferred := write.transferred + sent.length } }

def finish (n : Nat) (write : AsyncWrite) (s : AsioSocketWriteHelper) : AsioSocketWriteHelper :=
  { s with
    outstanding := s.outstanding.eraseIdx n
    written := s.written ++ write.inFlight }

-- A write completes without an error once all its bytes are sent.
def complete (n : Nat) (s : AsioSocketWriteHelper) : AsioSocketWriteHelper :=
  match s.outstanding[n]? with
  | none => s
  | some write =>
      if write.transferred = write.bytes.length then
        (s.finish n write).onWritten .success write.bufferCount
      else s

end AsioSocketWriteHelper

inductive WriteEvent
  | write (bytes : Bytes)
  | runPosted (n : Nat)
  | transfer (n length : Nat)
  | complete (n : Nat)
  deriving DecidableEq, Repr

namespace AsioSocketWriteHelper

def step (event : WriteEvent) (s : AsioSocketWriteHelper) : AsioSocketWriteHelper :=
  match event with
  | .write bytes => s.write bytes
  | .runPosted n => s.runPosted n
  | .transfer n length => s.transfer n length
  | .complete n => s.complete n

def run (events : List WriteEvent) : AsioSocketWriteHelper := Runs.run step {} events

-- The buffers go onto the wire in the order in which their closures ran, and
-- are deleted once they are written.
structure InOrder (s : AsioSocketWriteHelper) : Prop where
  single : s.outstanding.length ≤ 1
  inFlight : ∀ write ∈ s.outstanding, write.inFlight <+: s.writeQueue
  busy : s.writeQueue ≠ [] → s.outstanding ≠ []
  wire : s.wire = s.written.flatMap WriteBuffer.bytes ++
    s.outstanding.flatMap fun write => write.bytes.take write.transferred
  deleted : s.deleted = s.written
  queued : s.deleted ++ s.writeQueue = s.ran
  once : ((s.ran ++ s.posted).map WriteBuffer.call).Perm (List.range s.calls)

-- A write completes while the queue, its size read as an int, is not shorter
-- than the batch.
def CountHolds (event : WriteEvent) (s : AsioSocketWriteHelper) : Prop :=
  ∀ n write, event = .complete n → s.outstanding[n]? = some write →
    write.transferred = write.bytes.length → write.bufferCount ≤ intOfSize s.writeQueue.length

variable {s : AsioSocketWriteHelper} {event : WriteEvent} {request : AsyncWrite} {buffer : WriteBuffer}
  {n : Nat}

theorem intOfSize_le (n : Nat) : intOfSize n ≤ n := by
  unfold intOfSize
  rw [Int32.toInt_ofNat', Int32.size, Int.bmod_def]
  omega

theorem intOfSize_of_lt {n : Nat} (h : n < 2147483648) : intOfSize n = n := by
  unfold intOfSize
  rw [Int32.toInt_ofNat', Int32.size, Int.bmod_def]
  omega

-- What startAsyncWrite starts: the front of the queue, and as many buffers of it
-- as it will say on completion.
structure Batch (queue : List WriteBuffer) (write : AsyncWrite) : Prop where
  inFlight : write.inFlight <+: queue
  counted : write.bufferCount = write.inFlight.length
  nonempty : write.inFlight ≠ []
  within : write.transferred ≤ write.bytes.length

theorem inFlight_batch (count : Nat) (bufferCount : Int) (queue : List WriteBuffer) :
    AsyncWrite.inFlight { buffers := List.replicate count none ++ queue.map some, bufferCount } = queue := by
  have hqueue : (queue.map some).reduceOption = queue := by
    induction queue with
    | nil => exact List.reduceOption_nil
    | cons buffer rest ih => rw [List.map_cons, List.reduceOption_cons_of_some, ih]
  rw [AsyncWrite.inFlight, List.reduceOption_append, List.reduceOption_replicate_none, hqueue, List.nil_append]

theorem startAsyncWrite_batch (hsocket : s.socket = true) (hqueue : s.writeQueue ≠ [])
    (hidle : s.outstanding = []) : ∃ write, s.startAsyncWrite = { s with outstanding := [write] } ∧
      Batch s.writeQueue write ∧ write.transferred = 0 := by
  have hlength : 0 < s.writeQueue.length := List.length_pos_iff.mpr hqueue
  unfold startAsyncWrite asyncWrite
  rw [if_pos hsocket, hidle]
  dsimp only
  have hsize := intOfSize_le s.writeQueue.length
  split
  · rename_i hcount
    have hsent := inFlight_batch (intOfSize s.writeQueue.length).toNat
      (intOfSize s.writeQueue.length) (s.writeQueue.take (intOfSize s.writeQueue.length).toNat)
    have hlen : (s.writeQueue.take (intOfSize s.writeQueue.length).toNat).length =
        (intOfSize s.writeQueue.length).toNat := by
      rw [List.length_take]
      omega
    refine ⟨_, rfl, ⟨?_, ?_, ?_, Nat.zero_le _⟩, rfl⟩
    · rw [hsent]
      exact List.take_prefix _ _
    · rw [hsent, hlen]
      dsimp only
      omega
    · rw [hsent]
      apply List.ne_nil_of_length_pos
      omega
  · have hsent := inFlight_batch 0 1 (s.writeQueue.take 1)
    rw [List.replicate_zero, List.nil_append] at hsent
    have hlen : (s.writeQueue.take 1).length = 1 := by
      rw [List.length_take]
      omega
    refine ⟨_, rfl, ⟨?_, ?_, ?_, Nat.zero_le _⟩, rfl⟩
    · rw [hsent]
      exact List.take_prefix _ _
    · rw [hsent, hlen]
      rfl
    · rw [hsent]
      apply List.ne_nil_of_length_pos
      omega

-- The invariant of the runs in which no count is lost.
structure Writing (s : AsioSocketWriteHelper) : Prop extends InOrder s where
  socket : s.socket = true
  batch : ∀ write ∈ s.outstanding, Batch s.writeQueue write

theorem writing_initial : Writing {} where
  single := Nat.zero_le 1
  inFlight _ hwrite := absurd hwrite List.not_mem_nil
  busy h := absurd rfl h
  wire := rfl
  deleted := rfl
  queued := rfl
  once := List.Perm.refl _
  socket := rfl
  batch _ hwrite := absurd hwrite List.not_mem_nil

-- With nothing outstanding, the next write starts where the wire has got to.
theorem Writing.start (hsocket : s.socket = true) (hidle : s.outstanding = [])
    (hwire : s.wire = s.written.flatMap WriteBuffer.bytes) (hdeleted : s.deleted = s.written)
    (hqueued : s.deleted ++ s.writeQueue = s.ran)
    (honce : ((s.ran ++ s.posted).map WriteBuffer.call).Perm (List.range s.calls)) :
    Writing (if s.writeQueue.isEmpty then s else s.startAsyncWrite) := by
  split
  · rename_i hempty
    have hnone : ∀ write, write ∉ s.outstanding := fun _ => hidle ▸ List.not_mem_nil
    refine ⟨⟨?_, ?_, ?_, ?_, hdeleted, hqueued, honce⟩, hsocket, ?_⟩
    · simp [hidle]
    · exact fun write hwrite => absurd hwrite (hnone write)
    · exact fun hqueue => absurd (List.isEmpty_iff.mp hempty) hqueue
    · simp [hidle, hwire]
    · exact fun write hwrite => absurd hwrite (hnone write)
  · rename_i hempty
    have hqueue : s.writeQueue ≠ [] := fun h => hempty (List.isEmpty_iff.mpr h)
    obtain ⟨write, hstart, hbatch, hzero⟩ := startAsyncWrite_batch hsocket hqueue hidle
    rw [hstart]
    refine ⟨⟨Nat.le_refl 1, ?_, ?_, ?_, hdeleted, hqueued, honce⟩, hsocket, ?_⟩
    · intro other hother
      rw [List.mem_singleton.mp hother]
      exact hbatch.inFlight
    · exact fun _ => List.cons_ne_nil _ _
    · dsimp only
      simp [hwire, hzero]
    · intro other hother
      rw [List.mem_singleton.mp hother]
      exact hbatch

-- Either nothing is queued, or one write is outstanding.
theorem Writing.cases (h : Writing s) : s.outstanding = [] ∧ s.writeQueue = [] ∨
    ∃ write, s.outstanding = [write] ∧ Batch s.writeQueue write := by
  cases houtstanding : s.outstanding with
  | nil =>
      refine Or.inl ⟨rfl, ?_⟩
      by_contra hqueue
      exact h.busy hqueue houtstanding
  | cons write rest =>
      have hsingle := h.single
      rw [houtstanding, List.length_cons] at hsingle
      obtain rfl := List.eq_nil_of_length_eq_zero (by omega : rest.length = 0)
      exact Or.inr ⟨write, rfl, h.batch write (houtstanding ▸ List.mem_cons_self)⟩

theorem Writing.outstanding_eq (h : Writing s) (hwrite : s.outstanding[n]? = some request) :
    n = 0 ∧ s.outstanding = [request] ∧ Batch s.writeQueue request := by
  rcases h.cases with ⟨hidle, -⟩ | ⟨other, hbusy, hbatch⟩
  · rw [hidle] at hwrite
    cases hwrite
  · rw [hbusy] at hwrite
    obtain ⟨hn, hsame⟩ := List.getElem?_eq_some_iff.mp hwrite
    obtain rfl : n = 0 := Nat.lt_one_iff.mp hn
    obtain rfl : other = request := hsame
    exact ⟨rfl, hbusy, hbatch⟩

theorem Writing.write (h : Writing s) (bytes : Bytes) : Writing (s.write bytes) := by
  rw [AsioSocketWriteHelper.write, if_pos h.socket]
  refine ⟨⟨h.single, h.inFlight, h.busy, h.wire, h.deleted, h.queued, ?_⟩, h.socket, h.batch⟩
  dsimp only
  rw [← List.append_assoc, List.map_append, List.range_succ]
  exact h.once.append_right _

theorem Writing.append {rest : List WriteBuffer} (h : Writing s) (hmoved : (buffer :: rest).Perm s.posted) :
    Writing ({ s with posted := rest }.append buffer) := by
  unfold AsioSocketWriteHelper.append
  have hqueued : s.deleted ++ (s.writeQueue ++ [buffer]) = s.ran ++ [buffer] := by
    rw [← List.append_assoc, h.queued]
  have honce : ((s.ran ++ [buffer] ++ rest).map WriteBuffer.call).Perm (List.range s.calls) := by
    rw [List.append_assoc]
    exact ((hmoved.append_left s.ran).map _).trans h.once
  rcases h.cases with ⟨hidle, hempty⟩ | ⟨write, hbusy, hbatch⟩
  · have hwire : s.wire = s.written.flatMap WriteBuffer.bytes := by
      rw [h.wire, hidle, List.flatMap_nil, List.append_nil]
    have hstart := @Writing.start
      { s with posted := rest, writeQueue := s.writeQueue ++ [buffer], ran := s.ran ++ [buffer] }
      h.socket hidle hwire h.deleted hqueued honce
    simpa [hempty] using hstart
  · have hqueue : s.writeQueue ≠ [] := fun hnil => hbatch.nonempty (List.prefix_nil.mp (hnil ▸ hbatch.inFlight))
    have hprocess : (!s.writeQueue.isEmpty) = true := by simpa using hqueue
    have hfront : ∀ write ∈ s.outstanding, write.inFlight <+: s.writeQueue ++ [buffer] :=
      fun write hwrite => (h.inFlight write hwrite).trans (List.prefix_append _ _)
    rw [if_pos hprocess]
    refine ⟨⟨h.single, hfront, ?_, h.wire, h.deleted, hqueued, honce⟩, h.socket, ?_⟩
    · exact fun _ => h.busy hqueue
    · intro write hwrite
      obtain ⟨-, hcounted, hnonempty, hwithin⟩ := h.batch write hwrite
      exact ⟨hfront write hwrite, hcounted, hnonempty, hwithin⟩

theorem Writing.runPosted (h : Writing s) (n : Nat) : Writing (s.runPosted n) := by
  unfold AsioSocketWriteHelper.runPosted
  split
  · exact h
  · rename_i buffer hbuffer
    obtain ⟨hn, rfl⟩ := List.getElem?_eq_some_iff.mp hbuffer
    exact h.append (List.getElem_cons_eraseIdx_perm hn)

theorem Writing.transfer (h : Writing s) (n length : Nat) : Writing (s.transfer n length) := by
  unfold AsioSocketWriteHelper.transfer
  split
  · exact h
  · rename_i request hrequest
    obtain ⟨rfl, hbusy, hinFlight, hcounted, hnonempty, hwithin⟩ := h.outstanding_eq hrequest
    have hsent : ((request.bytes.drop request.transferred).take length).length ≤
        request.bytes.length - request.transferred := by
      rw [← List.length_drop]
      exact List.length_take_le' _ _
    have hwire := h.wire
    rw [hbusy, List.flatMap_singleton] at hwire
    rw [hbusy]
    have hqueue : s.writeQueue ≠ [] := fun hnil => hnonempty (List.prefix_nil.mp (hnil ▸ hinFlight))
    refine ⟨⟨Nat.le_refl 1, ?_, ?_, ?_, h.deleted, h.queued, h.once⟩, h.socket, ?_⟩
    · intro other hother
      rw [List.mem_singleton.mp hother]
      exact hinFlight
    · exact fun _ => List.cons_ne_nil _ _
    · dsimp only [List.set_cons_zero]
      rw [hwire, List.flatMap_singleton, List.append_assoc, List.take_add, List.length_take]
      congr 2
      exact List.take_eq_take_min
    · intro other hother
      rw [List.mem_singleton.mp hother]
      refine ⟨hinFlight, hcounted, hnonempty, ?_⟩
      dsimp only
      change _ ≤ request.bytes.length
      omega

theorem onWritten_success (n : Int) : s.onWritten .success n =
    if (s.deleteFirstNBuffers n).writeQueue.isEmpty then s.deleteFirstNBuffers n
    else (s.deleteFirstNBuffers n).startAsyncWrite := rfl

-- What deleteFirstNBuffers takes away after a write whose count has kept its value.
theorem deleteFirstNBuffers_batch (hbatch : Batch s.writeQueue request)
    (hcount : request.bufferCount ≤ intOfSize s.writeQueue.length) :
    s.deleteFirstNBuffers request.bufferCount = { s with
      deleted := s.deleted ++ request.inFlight
      writeQueue := s.writeQueue.drop request.inFlight.length } := by
  have hfront := List.prefix_iff_eq_take.mp hbatch.inFlight
  have hlength : (min request.bufferCount (intOfSize s.writeQueue.length)).toNat = request.inFlight.length := by
    rw [Int.min_eq_left hcount, hbatch.counted, Int.toNat_natCast]
  unfold deleteFirstNBuffers
  dsimp only
  rw [hlength, ← hfront]

theorem Writing.complete (h : Writing s) (n : Nat) (hcount : CountHolds (.complete n) s) :
    Writing (s.complete n) := by
  unfold AsioSocketWriteHelper.complete
  split
  · exact h
  · rename_i request hrequest
    split
    · rename_i hsent
      obtain ⟨rfl, hbusy, hbatch⟩ := h.outstanding_eq hrequest
      have hwire := h.wire
      rw [hbusy, List.flatMap_singleton, hsent, List.take_length] at hwire
      obtain ⟨rest, hrest⟩ := hbatch.inFlight
      rw [onWritten_success, @deleteFirstNBuffers_batch (s.finish 0 request) _ hbatch
        (hcount _ _ rfl hrequest hsent)]
      apply Writing.start
      · exact h.socket
      · show s.outstanding.eraseIdx 0 = []
        rw [hbusy, List.eraseIdx_zero, List.tail_cons]
      · show s.wire = (s.written ++ request.inFlight).flatMap WriteBuffer.bytes
        rw [List.flatMap_append]
        exact hwire
      · show s.deleted ++ request.inFlight = s.written ++ request.inFlight
        rw [h.deleted]
      · show s.deleted ++ request.inFlight ++ s.writeQueue.drop request.inFlight.length = s.ran
        rw [← h.queued, ← hrest, List.drop_left, List.append_assoc]
      · exact h.once
    · exact h

theorem startAsyncWrite_records :
    s.startAsyncWrite.deleted = s.deleted ∧ s.startAsyncWrite.written = s.written := by
  unfold startAsyncWrite
  dsimp only
  split
  · split <;> exact ⟨rfl, rfl⟩
  · exact ⟨rfl, rfl⟩

theorem onWritten_records (n : Int) :
    (s.onWritten .success n).deleted = (s.deleteFirstNBuffers n).deleted ∧
      (s.onWritten .success n).written = s.written := by
  rw [onWritten_success]
  split
  · exact ⟨rfl, rfl⟩
  · exact startAsyncWrite_records

-- A write that completes when its count does not hold leaves buffers of its own
-- in the queue.
theorem Writing.not_inOrder (h : Writing s) (hevent : ¬CountHolds event s) : ¬InOrder (step event s) := by
  intro horder
  apply hevent
  rintro n request rfl hrequest hsent
  obtain ⟨rfl, -, hbatch⟩ := h.outstanding_eq hrequest
  have hstep : step (.complete 0) s = (s.finish 0 request).onWritten .success request.bufferCount := by
    rw [step, AsioSocketWriteHelper.complete, hrequest]
    exact if_pos hsent
  obtain ⟨hdeleted, hwritten⟩ := @onWritten_records (s.finish 0 request) request.bufferCount
  have hsame := horder.deleted
  rw [hstep, hdeleted, hwritten] at hsame
  change s.deleted ++ s.writeQueue.take (min request.bufferCount (intOfSize s.writeQueue.length)).toNat =
    s.written ++ request.inFlight at hsame
  rw [h.deleted] at hsame
  have hlength := congrArg List.length (List.append_cancel_left hsame)
  rw [List.length_take] at hlength
  have hcounted := hbatch.counted
  have hpos := List.length_pos_iff.mpr hbatch.nonempty
  by_contra hlost
  rw [Int.min_eq_right (by omega)] at hlength
  omega

theorem Writing.step (h : Writing s) (hevent : CountHolds event s) : Writing (step event s) := by
  cases event with
  | write bytes => exact h.write bytes
  | runPosted n => exact h.runPosted n
  | transfer n length => exact h.transfer n length
  | complete n => exact h.complete n hevent

theorem Writing.countHolds (h : Writing s) (hlength : s.writeQueue.length < 2147483648) :
    CountHolds event s := by
  rintro n request rfl hrequest -
  obtain ⟨-, -, hbatch⟩ := h.outstanding_eq hrequest
  rw [hbatch.counted, intOfSize_of_lt hlength]
  exact_mod_cast hbatch.inFlight.length_le

-- Every count holds as long as the queue is shorter than 2147483648.
theorem run_writing {events : List WriteEvent}
    (h : Runs.EveryStep step (fun _ s => s.writeQueue.length < 2147483648) {} events) :
    Writing (run events) :=
  Runs.run_invariant_of (fun _ _ hwriting hlength => hwriting.step (hwriting.countHolds hlength))
    writing_initial h

-- The order is kept exactly in the runs in which every count holds.
theorem run_inOrder_iff (events : List WriteEvent) :
    Runs.EveryState step InOrder {} events ↔ Runs.EveryStep step CountHolds {} events := by
  have hexact : ∀ event s, Writing s → (CountHolds event s ↔ InOrder (AsioSocketWriteHelper.step event s)) := by
    intro event s h
    constructor
    · exact fun hevent => (h.step hevent).toInOrder
    · intro horder
      by_contra hevent
      exact h.not_inOrder hevent horder
  rw [Runs.everyState_iff_next, Runs.everyStep_iff (fun _ _ h hevent => Writing.step h hevent) hexact
    writing_initial]
  exact and_iff_right writing_initial.toInOrder

-- The writer has been given one buffer more than n, of one byte each, and its
-- first write has not gone out.
structure Flooded (n : Nat) (s : AsioSocketWriteHelper) : Prop where
  writing : Writing s
  posted : s.posted = []
  queue : s.writeQueue.length = n + 1
  outstanding : s.outstanding = [{ buffers := [some ⟨0, [0]⟩], bufferCount := 1 }]

def flood : Nat → List WriteEvent
  | 0 => [.write [0], .runPosted 0]
  | n + 1 => flood n ++ [.write [0], .runPosted 0]

theorem Flooded.step (h : Flooded n s) : Flooded (n + 1) ((s.write [0]).runPosted 0) := by
  have hrun : (s.write [0]).runPosted 0 = { s with
      calls := s.calls + 1
      writeQueue := s.writeQueue ++ [⟨s.calls, [0]⟩]
      ran := s.ran ++ [⟨s.calls, [0]⟩] } := by
    have hwrite : s.write [0] = { s with calls := s.calls + 1, posted := [⟨s.calls, [0]⟩] } := by
      rw [AsioSocketWriteHelper.write, if_pos h.writing.socket, h.posted]
      rfl
    have hqueue : s.writeQueue ≠ [] := List.ne_nil_of_length_eq_add_one h.queue
    rw [hwrite]
    unfold AsioSocketWriteHelper.runPosted append
    simp [hqueue, h.posted]
  have hwriting := (h.writing.write [0]).runPosted 0
  rw [hrun] at hwriting ⊢
  refine ⟨hwriting, h.posted, ?_, h.outstanding⟩
  rw [List.length_append, h.queue, List.length_singleton]

theorem flooded (n : Nat) : Flooded n (run (flood n)) := by
  induction n with
  | zero => exact ⟨(writing_initial.write [0]).runPosted 0, rfl, rfl, rfl⟩
  | succ n ih =>
      rw [run, flood, Runs.run_append]
      exact ih.step

-- 2147483648 buffers are queued when the first write completes: its buffer stays
-- in the queue and goes onto the wire once more.
theorem run_inOrder_refuted : ¬∀ events, Runs.EveryState step InOrder {} events := by
  intro h
  obtain ⟨n, hn⟩ : ∃ n, n + 1 = 2147483648 := ⟨2147483647, rfl⟩
  have hflood := flooded n
  have hevery := h (flood n ++ [.transfer 0 1, .complete 0])
  rw [Runs.everyState_iff_prefix] at hevery
  have horder := hevery _ [] (List.append_nil _).symm
  rw [Runs.run_append] at horder
  change InOrder (step (.complete 0) ((run (flood n)).transfer 0 1)) at horder
  have htransfer : (run (flood n)).transfer 0 1 = { run (flood n) with
      wire := (run (flood n)).wire ++ [0]
      outstanding := [{ buffers := [some ⟨0, [0]⟩], bufferCount := 1, transferred := 1 }] } := by
    rw [transfer, hflood.outstanding]
    rfl
  refine (hflood.writing.transfer 0 1).not_inOrder ?_ horder
  intro hholds
  rw [htransfer] at hholds
  have hcount := hholds 0 _ rfl rfl rfl
  dsimp only at hcount
  rw [hflood.queue, hn] at hcount
  revert hcount
  decide

end AsioSocketWriteHelper

end LiveReceptor

import LiveReceptor.Worker.ConnectionHandlers

namespace LiveReceptor.Worker

-- The reads, the writes and the heartbeat timer.
def Operation.transfers : Operation → Bool
  | .read | .writeJoinRoom | .waitHeartbeat | .writeHeartbeat => true
  | _ => false

-- The operations whose handlers tell the manager without a close().
def Operation.early : Operation → Bool
  | .fetchConfig | .resolve => true
  | _ => false

-- What a closed connection must not do.
def Deed.loud : Deed → Bool
  | .start operation => operation.transfers
  | .parse | .dereference => true
  | _ => false

namespace ConnectionObject

def Quiet (c : ConnectionObject) : Prop :=
  Justified (fun before deed => Deed.close ∈ before → deed.loud = false) c.life

def ReportsOnce (c : ConnectionObject) : Prop :=
  c.life.count .roomFailed ≤ 1 ∧ (.close ∈ c.life → c.life.count .roomClosed = 1)

end ConnectionObject

namespace ConnectionClass

-- The completions that a handler answers with nothing loud, when the connection
-- is closed as `closed` says.
def MayComplete (kind : ConnectionClass) (closed : Bool) (operation : Operation) (code : CompletionCode) :
    Prop :=
  match operation with
  | .fetchConfig | .resolve | .sslHandshake | .writeHeartbeat => True
  | .connect => kind = .plainTcp → code = .success → closed = false
  | .handshake | .waitHeartbeat => code = .success → closed = false
  | .writeJoinRoom => code = .success ∧ closed = false ∨ kind.ignored code = true
  | .read => code = .success ∧ closed = false ∨ kind.ignoredReceiving code = true

end ConnectionClass

namespace ConnectionObject

def Undisturbed (kind : ConnectionClass) (callback : ConnectionCallback) (c : ConnectionObject) : Prop :=
  match callback with
  | .complete n code _ => ∀ operation ∈ c.pending[n]?, kind.MayComplete c.closed operation code
  | .close => True

variable {kind : ConnectionClass} {c : ConnectionObject} {operation : Operation} {deed : Deed}

section Fields

@[simp] theorem life_did : (c.did deed).life = c.life ++ [deed] := rfl
@[simp] theorem closed_did : (c.did deed).closed = c.closed := rfl
@[simp] theorem socket_did : (c.did deed).socket = c.socket := rfl
@[simp] theorem pending_did : (c.did deed).pending = c.pending := rfl
@[simp] theorem life_start : (c.start operation).life = c.life ++ [.start operation] := rfl
@[simp] theorem closed_start : (c.start operation).closed = c.closed := rfl
@[simp] theorem socket_start : (c.start operation).socket = c.socket := rfl
@[simp] theorem pending_start : (c.start operation).pending = c.pending ++ [operation] := rfl

@[simp] theorem closed_startOnSocket : (c.startOnSocket operation).closed = c.closed := by
  unfold startOnSocket
  split <;> rfl

theorem close_of_closed (h : c.closed = true) (failed : Bool) : c.close kind failed = c := by
  simp [close, h]

theorem closed_close (failed : Bool) : (c.close kind failed).closed = true := by
  unfold close
  split
  · assumption
  · dsimp only
    split
    · rfl
    · cases failed <;> rfl

@[simp] theorem pending_close (failed : Bool) : (c.close kind failed).pending = c.pending := by
  unfold close
  split
  · rfl
  · dsimp only
    split
    · rfl
    · cases failed <;> rfl

theorem socket_close (h : c.closed = false) (hsocket : c.socket = true) (failed : Bool) :
    (c.close kind failed).socket = !kind.releasesSocket := by
  cases failed <;> simp [close, h, hsocket]

-- A close() that finds the connection open and with its socket.
theorem life_close (h : c.closed = false) (hsocket : c.socket = true) (failed : Bool) :
    (c.close kind failed).life =
      c.life ++ .close :: ((if failed then [.roomFailed] else []) ++ [.roomClosed]) := by
  cases failed <;> simp [close, h, hsocket]

end Fields

section Record

-- What the fields say of the life.
structure Recorded (kind : ConnectionClass) (c : ConnectionObject) : Prop where
  close : .close ∈ c.life ↔ c.closed = true
  socket : c.socket = !(kind.releasesSocket && c.closed)
  roomClosed : c.life.count .roomClosed = c.closed.toNat

namespace Recorded

theorem did (h : Recorded kind c) (hclose : deed ≠ .close) (hroomClosed : deed ≠ .roomClosed) :
    Recorded kind (c.did deed) where
  close := by simpa [Ne.symm hclose] using h.close
  socket := h.socket
  roomClosed := by simpa [List.count_append, List.count_singleton, hroomClosed] using h.roomClosed

theorem start (h : Recorded kind c) (operation : Operation) : Recorded kind (c.start operation) where
  close := by simpa using h.close
  socket := h.socket
  roomClosed := by simpa [List.count_append] using h.roomClosed

theorem startOnSocket (h : Recorded kind c) (operation : Operation) :
    Recorded kind (c.startOnSocket operation) := by
  unfold ConnectionObject.startOnSocket
  split
  · exact h.start operation
  · exact h.did (by simp) (by simp)

theorem socket_of_open (h : Recorded kind c) (hopen : c.closed = false) : c.socket = true := by
  simpa [hopen] using h.socket

theorem ended (h : Recorded kind c) (n : Nat) :
    Recorded kind { c with pending := c.pending.eraseIdx n } := ⟨h.close, h.socket, h.roomClosed⟩

theorem closing (h : Recorded kind c) (failed : Bool) : Recorded kind (c.close kind failed) := by
  cases hclosed : c.closed with
  | true => rwa [close_of_closed hclosed]
  | false =>
      have hsocket := h.socket_of_open hclosed
      have hnone : c.life.count .roomClosed = 0 := by simpa [hclosed] using h.roomClosed
      refine ⟨?_, ?_, ?_⟩
      · simp [life_close hclosed hsocket, closed_close]
      · simp [socket_close hclosed hsocket, closed_close]
      · rw [life_close hclosed hsocket, closed_close, List.count_append, hnone]
        cases failed <;> rfl

end Recorded

end Record

-- A property that the deeds of the late handlers keep, each on its own.
structure KeptByDeeds (kind : ConnectionClass) (P : ConnectionObject → Prop) : Prop where
  parse : ∀ c, P c → P (c.did .parse)
  dereference : ∀ c, P c → P (c.did .dereference)
  start : ∀ operation c, operation.early = false → P c → P (c.start operation)
  close : ∀ c, P c → P (c.close kind true)

namespace KeptByDeeds

variable {P : ConnectionObject → Prop}

theorem startOnSocket (hkept : KeptByDeeds kind P) (hearly : operation.early = false) (h : P c) :
    P (c.startOnSocket operation) := by
  unfold ConnectionObject.startOnSocket
  split
  · exact hkept.start operation c hearly h
  · exact hkept.dereference c h

theorem joinRoom (hkept : KeptByDeeds kind P) (h : P c) : P c.joinRoom :=
  hkept.startOnSocket rfl (hkept.startOnSocket rfl h)

theorem proceed (hkept : KeptByDeeds kind P) {next : ConnectionObject → ConnectionObject}
    (hnext : P (next c)) (h : P c) (code : CompletionCode) : P (c.proceed kind next code) := by
  unfold ConnectionObject.proceed
  split
  · exact hnext
  · split
    · exact h
    · exact hkept.close c h

theorem handleReceived (hkept : KeptByDeeds kind P) (h : P c) (malformed : Bool) :
    P (c.handleReceived kind malformed) := by
  have hparsed := hkept.parse c h
  unfold ConnectionObject.handleReceived
  cases malformed with
  | true => exact hkept.close _ hparsed
  | false => exact hkept.startOnSocket rfl hparsed

theorem handle (hkept : KeptByDeeds kind P) (h : P c) (hearly : operation.early = false)
    (code : CompletionCode) (malformed : Bool) : P (c.handle kind operation code malformed) := by
  cases operation with
  | fetchConfig => cases hearly
  | resolve => cases hearly
  | connect =>
      cases kind with
      | websocket => exact hkept.proceed (hkept.start .sslHandshake c rfl h) h code
      | plainTcp => exact hkept.proceed (hkept.joinRoom h) h code
  | sslHandshake => exact hkept.proceed (hkept.start .handshake c rfl h) h code
  | handshake => exact hkept.proceed (hkept.joinRoom h) h code
  | read =>
      rw [ConnectionObject.handle, onReceive]
      split
      · split
        · exact h
        · exact hkept.handleReceived (hkept.close c h) malformed
      · exact hkept.handleReceived h malformed
  | writeJoinRoom =>
      rw [ConnectionObject.handle, onJoinRoomSent]
      split
      · split
        · exact h
        · exact hkept.start .waitHeartbeat _ rfl (hkept.close c h)
      · exact hkept.start .waitHeartbeat c rfl h
  | waitHeartbeat =>
      rw [ConnectionObject.handle, onHeartbeatTick]
      split
      · exact h
      · exact hkept.start .waitHeartbeat _ rfl (hkept.startOnSocket rfl h)
  | writeHeartbeat =>
      rw [ConnectionObject.handle, onHeartbeatSent]
      split
      · split
        · exact h
        · exact hkept.close c h
      · exact h

end KeptByDeeds

theorem recorded_kept : KeptByDeeds kind (Recorded kind) where
  parse _ h := h.did (by simp) (by simp)
  dereference _ h := h.did (by simp) (by simp)
  start operation _ _ h := h.start operation
  close _ h := h.closing true

section Quiet

theorem quiet_of_open (h : Recorded kind c) (hopen : c.closed = false) : Quiet c := by
  intro before deed hbefore hclose
  have hmem := hbefore.subset (List.mem_append_left _ hclose)
  simp [h.close.mp hmem] at hopen

theorem quiet_did_iff (h : Recorded kind c) :
    Quiet (c.did deed) ↔ Quiet c ∧ (c.closed = true → deed.loud = false) := by
  rw [Quiet, life_did, Justified.concat_iff, h.close]
  rfl

theorem quiet_start_iff (h : Recorded kind c) : Quiet (c.start operation) ↔
    Quiet c ∧ (c.closed = true → operation.transfers = false) := quiet_did_iff h

theorem quiet_startOnSocket_iff (h : Recorded kind c) (htransfers : operation.transfers = true) :
    Quiet (c.startOnSocket operation) ↔ Quiet c ∧ c.closed = false := by
  unfold startOnSocket
  split
  · rw [quiet_start_iff h, htransfers]
    simp
  · rw [quiet_did_iff h]
    simp [Deed.loud]

theorem quiet_close_iff (h : Recorded kind c) (failed : Bool) : Quiet (c.close kind failed) ↔ Quiet c := by
  cases hclosed : c.closed with
  | true => rw [close_of_closed hclosed]
  | false =>
      have hcalm : ∀ deeds : List Deed, (∀ deed ∈ deeds, deed.loud = false) →
          ((c.close kind failed).life = c.life ++ deeds → (Quiet (c.close kind failed) ↔ Quiet c)) := by
        intro deeds hdeeds hlife
        rw [Quiet, hlife]
        constructor
        · exact fun hquiet before deed hbefore => hquiet before deed (hbefore.trans (List.prefix_append _ _))
        · exact fun hquiet => hquiet.append fun deed hdeed _ _ => hdeeds deed hdeed
      refine hcalm _ ?_ (life_close hclosed (h.socket_of_open hclosed) failed)
      cases failed <;> decide

theorem quiet_joinRoom_iff (h : Recorded kind c) : Quiet c.joinRoom ↔ Quiet c ∧ c.closed = false := by
  rw [joinRoom, startRead, quiet_startOnSocket_iff (h.startOnSocket .read) rfl,
    quiet_startOnSocket_iff h rfl, closed_startOnSocket, and_assoc, and_self]

theorem quiet_proceed_iff (h : Recorded kind c) {next : ConnectionObject → ConnectionObject} {P : Prop}
    (hnext : Quiet (next c) ↔ Quiet c ∧ P) (code : CompletionCode) :
    Quiet (c.proceed kind next code) ↔ Quiet c ∧ (code = .success → P) := by
  unfold proceed
  by_cases hcode : code = .success
  · rw [if_pos hcode, hnext]
    simp [hcode]
  · rw [if_neg hcode]
    split
    · simp [hcode]
    · rw [quiet_close_iff h]
      simp [hcode]

-- Parsing on an open connection is the only quiet way.
theorem quiet_handleReceived_iff (h : Recorded kind c) (malformed : Bool) :
    Quiet (c.handleReceived kind malformed) ↔ Quiet c ∧ c.closed = false := by
  have hparsed : Recorded kind (c.did .parse) := h.did (by simp) (by simp)
  have hquiet : Quiet (c.did .parse) ↔ Quiet c ∧ c.closed = false := by
    rw [quiet_did_iff h]
    simp [Deed.loud]
  unfold handleReceived
  cases malformed with
  | true => exact (quiet_close_iff hparsed true).trans hquiet
  | false =>
      have hread := @quiet_startOnSocket_iff _ _ .read hparsed rfl
      rw [hquiet, closed_did, and_assoc, and_self] at hread
      exact hread

theorem quiet_onReceive_iff (h : Recorded kind c) (code : CompletionCode) (malformed : Bool) :
    Quiet (c.onReceive kind code malformed) ↔ Quiet c ∧ kind.MayComplete c.closed .read code := by
  have hignored : kind.ignoredReceiving .success = false := by cases kind <;> rfl
  unfold onReceive ConnectionClass.MayComplete
  by_cases hcode : code = .success
  · rw [if_neg (not_not_intro hcode), quiet_handleReceived_iff h]
    simp [hcode, hignored]
  · rw [if_pos hcode]
    split
    · next hignore => simp [hignore]
    · next hignore =>
        rw [quiet_handleReceived_iff (h.closing true), closed_close]
        simp [hcode, hignore]

-- Neither is there one to start the timer behind a close(true).
theorem quiet_onJoinRoomSent_iff (h : Recorded kind c) (code : CompletionCode) :
    Quiet (c.onJoinRoomSent kind code) ↔ Quiet c ∧ kind.MayComplete c.closed .writeJoinRoom code := by
  have hignored : kind.ignored .success = false := by cases kind <;> rfl
  unfold onJoinRoomSent ConnectionClass.MayComplete
  by_cases hcode : code = .success
  · rw [if_neg (not_not_intro hcode), rescheduleTimer, quiet_start_iff h]
    simp [hcode, hignored, Operation.transfers]
  · rw [if_pos hcode]
    split
    · next hignore => simp [hignore]
    · next hignore =>
        rw [rescheduleTimer, quiet_start_iff (h.closing true), closed_close]
        simp [hcode, hignore, Operation.transfers]

theorem quiet_onHeartbeatTick_iff (h : Recorded kind c) (code : CompletionCode) :
    Quiet (c.onHeartbeatTick code) ↔ Quiet c ∧ (code = .success → c.closed = false) := by
  unfold onHeartbeatTick
  by_cases hcode : code = .success
  · rw [if_neg (not_not_intro hcode), rescheduleTimer, quiet_start_iff (h.startOnSocket .writeHeartbeat),
      quiet_startOnSocket_iff h rfl, closed_startOnSocket]
    simp [hcode, Operation.transfers]
  · rw [if_pos hcode]
    simp [hcode]

theorem quiet_onHeartbeatSent_iff (h : Recorded kind c) (code : CompletionCode) :
    Quiet (c.onHeartbeatSent kind code) ↔ Quiet c := by
  unfold onHeartbeatSent
  split
  · split
    · rfl
    · exact quiet_close_iff h true
  · rfl

theorem quiet_onConnected_iff (h : Recorded kind c) (code : CompletionCode) :
    Quiet (c.onConnected kind code) ↔ Quiet c ∧ kind.MayComplete c.closed .connect code := by
  cases kind with
  | websocket =>
      have hstart := @quiet_start_iff _ _ .sslHandshake h
      rw [onConnected, quiet_proceed_iff h hstart]
      simp [ConnectionClass.MayComplete, Operation.transfers]
  | plainTcp =>
      rw [onConnected, quiet_proceed_iff h (quiet_joinRoom_iff h)]
      simp [ConnectionClass.MayComplete]

theorem quiet_onResolved_iff (h : Recorded kind c) (code : CompletionCode) :
    Quiet (c.onResolved code) ↔ Quiet c := by
  unfold onResolved
  split
  · simp [quiet_start_iff h, Operation.transfers]
  · split
    · rfl
    · simp [quiet_did_iff h, Deed.loud]

-- What each handler does to a closed connection.
theorem quiet_handle_iff (h : Recorded kind c) (operation : Operation) (code : CompletionCode)
    (malformed : Bool) : Quiet (c.handle kind operation code malformed) ↔
      Quiet c ∧ kind.MayComplete c.closed operation code := by
  cases operation with
  | fetchConfig =>
      rw [handle]
      split
      · simp [onConfigFetched, quiet_start_iff h, Operation.transfers, ConnectionClass.MayComplete]
      · simp [onFetchFailed, quiet_did_iff h, Deed.loud, ConnectionClass.MayComplete]
  | resolve => simpa [handle, ConnectionClass.MayComplete] using quiet_onResolved_iff h code
  | connect => exact quiet_onConnected_iff h code
  | sslHandshake =>
      have hstart := @quiet_start_iff _ _ .handshake h
      rw [handle, onSslHandshake, quiet_proceed_iff h hstart]
      simp [ConnectionClass.MayComplete, Operation.transfers]
  | handshake => exact quiet_proceed_iff h (quiet_joinRoom_iff h) code
  | read => exact quiet_onReceive_iff h code malformed
  | writeJoinRoom => exact quiet_onJoinRoomSent_iff h code
  | waitHeartbeat => exact quiet_onHeartbeatTick_iff h code
  | writeHeartbeat => simpa [handle, ConnectionClass.MayComplete] using quiet_onHeartbeatSent_iff h code

end Quiet

section Reports

-- init() and the handlers that report directly: one operation at a time, and
-- nothing reported before it ends.
def Starting (c : ConnectionObject) : Prop :=
  (∃ operation, operation.early = true ∧ c.pending = [operation]) ∧ .roomFailed ∉ c.life

-- From then on a failure closes.
structure Established (c : ConnectionObject) : Prop where
  late : ∀ operation ∈ c.pending, operation.early = false
  failed : .roomFailed ∈ c.life → c.closed = true
  once : c.life.count .roomFailed ≤ 1

-- It ended before that.
def Abandoned (c : ConnectionObject) : Prop := c.pending = [] ∧ c.life.count .roomFailed ≤ 1

def Reporting (c : ConnectionObject) : Prop := c.Starting ∨ c.Established ∨ c.Abandoned

theorem Reporting.once (h : c.Reporting) : c.life.count .roomFailed ≤ 1 := by
  rcases h with h | h | h
  · rw [List.count_eq_zero.mpr h.2]
    omega
  · exact h.once
  · exact h.2

theorem Established.did (h : c.Established) (hdeed : deed ≠ .roomFailed) : (c.did deed).Established where
  late := h.late
  failed hmem := h.failed (by simpa [Ne.symm hdeed] using hmem)
  once := by
    have := h.once
    simpa [List.count_append, List.count_singleton, hdeed] using this

theorem Established.start (h : c.Established) (hearly : operation.early = false) :
    (c.start operation).Established where
  late other hmem := by
    rcases List.mem_append.mp hmem with hmem | hmem
    · exact h.late other hmem
    · rwa [List.mem_singleton.mp hmem]
  failed hmem := h.failed (by simpa using hmem)
  once := by
    have := h.once
    simpa [List.count_append] using this

theorem Established.close (h : c.Established) (hrecorded : Recorded kind c) (failed : Bool) :
    (c.close kind failed).Established := by
  cases hclosed : c.closed with
  | true => rwa [close_of_closed hclosed]
  | false =>
      have hfresh : .roomFailed ∉ c.life := fun hmem => by simp [h.failed hmem] at hclosed
      refine ⟨?_, fun _ => closed_close failed, ?_⟩
      · rw [pending_close]
        exact h.late
      · rw [life_close hclosed (hrecorded.socket_of_open hclosed), List.count_append,
          List.count_eq_zero.mpr hfresh]
        cases failed <;> decide

theorem established_kept : KeptByDeeds kind fun c => Recorded kind c ∧ c.Established where
  parse c h := ⟨recorded_kept.parse c h.1, h.2.did (by simp)⟩
  dereference c h := ⟨recorded_kept.dereference c h.1, h.2.did (by simp)⟩
  start operation c hearly h := ⟨h.1.start operation, h.2.start hearly⟩
  close _ h := ⟨h.1.closing true, h.2.close h.1 true⟩

-- close(false) reports nothing.
theorem Reporting.close (h : c.Reporting) (hrecorded : Recorded kind c) :
    (c.close kind false).Reporting := by
  cases hclosed : c.closed with
  | true => rwa [close_of_closed hclosed]
  | false =>
      have hlife := @life_close kind c hclosed (hrecorded.socket_of_open hclosed) false
      have hcount : (c.close kind false).life.count .roomFailed = c.life.count .roomFailed := by
        rw [hlife, List.count_append]
        rfl
      rcases h with ⟨hpending, hnone⟩ | h | ⟨hpending, honce⟩
      · refine Or.inl ⟨by rwa [pending_close], ?_⟩
        rw [← List.count_eq_zero, hcount]
        exact List.count_eq_zero.mpr hnone
      · exact Or.inr (Or.inl (h.close hrecorded false))
      · exact Or.inr (Or.inr ⟨by rwa [pending_close], by rwa [hcount]⟩)

-- The two that may report without closing find nothing else under way.
theorem reporting_handle_early (hpending : c.pending = []) (hnone : .roomFailed ∉ c.life)
    (hearly : operation.early = true) (code : CompletionCode) (malformed : Bool) :
    (c.handle kind operation code malformed).Reporting := by
  have hcount : c.life.count .roomFailed = 0 := List.count_eq_zero.mpr hnone
  have hfailed : (c.did .roomFailed).Abandoned := ⟨hpending, by simp [hcount]⟩
  cases operation with
  | fetchConfig =>
      rw [handle]
      split
      · exact Or.inl ⟨⟨.resolve, rfl, by simp [onConfigFetched, hpending]⟩, by simpa [onConfigFetched] using hnone⟩
      · exact Or.inr (Or.inr hfailed)
  | resolve =>
      rw [handle, onResolved]
      split
      · refine Or.inr (Or.inl ⟨?_, ?_, ?_⟩)
        · simp [hpending, Operation.early]
        · simp [hnone]
        · simp [List.count_append, hcount]
      · split
        · exact Or.inr (Or.inr ⟨hpending, by omega⟩)
        · exact Or.inr (Or.inr hfailed)
  | connect | sslHandshake | handshake | read | writeJoinRoom | waitHeartbeat | writeHeartbeat => cases hearly

theorem reporting_complete (h : c.Reporting) (hrecorded : Recorded kind c) (n : Nat) (code : CompletionCode)
    (malformed : Bool) : (c.complete kind n code malformed).Reporting := by
  unfold complete
  split
  · exact h
  · next operation hn =>
    have hmem := List.mem_of_getElem? hn
    rcases h with ⟨⟨early, hearly, hpending⟩, hnone⟩ | h | ⟨hpending, -⟩
    · obtain rfl : operation = early := by simpa [hpending] using hmem
      obtain rfl : n = 0 := by
        rw [hpending] at hn
        simpa using (List.getElem?_eq_some_iff.mp hn).1
      have hdone : ({ c with pending := c.pending.eraseIdx 0 } : ConnectionObject).pending = [] := by
        simp [hpending]
      exact reporting_handle_early hdone hnone hearly code malformed
    · have hrest : Recorded kind { c with pending := c.pending.eraseIdx n } ∧
          Established { c with pending := c.pending.eraseIdx n } :=
        ⟨hrecorded.ended n, fun other hother => h.late other (List.mem_of_mem_eraseIdx hother), h.failed, h.once⟩
      exact Or.inr (Or.inl (established_kept.handle hrest (h.late operation hmem) code malformed).2)
    · simp [hpending] at hmem

end Reports

section Runs

theorem recorded_handle (h : Recorded kind c) (operation : Operation) (code : CompletionCode)
    (malformed : Bool) : Recorded kind (c.handle kind operation code malformed) := by
  have hfailed : Recorded kind (c.did .roomFailed) := h.did (by simp) (by simp)
  cases hearly : operation.early with
  | false => exact recorded_kept.handle h hearly code malformed
  | true =>
      cases operation with
      | fetchConfig =>
          rw [handle]
          split
          · exact h.start .resolve
          · exact hfailed
      | resolve =>
          rw [handle, onResolved]
          split
          · exact h.start .connect
          · split
            · exact h
            · exact hfailed
      | connect | sslHandshake | handshake | read | writeJoinRoom | waitHeartbeat | writeHeartbeat =>
          cases hearly

theorem recorded_step (callback : ConnectionCallback) (h : Recorded kind c) :
    Recorded kind (step kind callback c) := by
  cases callback with
  | complete n code malformed =>
      rw [step, complete]
      split
      · exact h
      · exact recorded_handle (h.ended n) _ code malformed
  | close => exact h.closing false

theorem reporting_step (callback : ConnectionCallback) (h : c.Reporting) (hrecorded : Recorded kind c) :
    (step kind callback c).Reporting := by
  cases callback with
  | complete n code malformed => exact reporting_complete h hrecorded n code malformed
  | close => exact h.close hrecorded

theorem recorded_new : Recorded kind {} := ⟨by simp, by simp, rfl⟩

theorem recorded_initial (kind : ConnectionClass) (parsed : Bool) : Recorded kind (initial kind parsed) := by
  cases kind <;> cases parsed <;> exact ⟨by decide, rfl, rfl⟩

theorem reporting_initial (kind : ConnectionClass) (parsed : Bool) : (initial kind parsed).Reporting := by
  cases kind with
  | websocket =>
      cases parsed with
      | true => exact Or.inl ⟨⟨.fetchConfig, rfl, rfl⟩, by decide⟩
      | false => exact Or.inr (Or.inr ⟨rfl, by decide⟩)
  | plainTcp => exact Or.inr (Or.inl ⟨by cases parsed <;> decide, by cases parsed <;> decide, by cases parsed <;> decide⟩)

theorem run_recorded (kind : ConnectionClass) (parsed : Bool) (callbacks : List ConnectionCallback) :
    Recorded kind (run kind parsed callbacks) :=
  Runs.run_invariant (fun callback _ => recorded_step callback) (recorded_initial kind parsed) callbacks

-- Reporting the room more than once is beyond every order of the completions.
theorem run_reportsOnce (kind : ConnectionClass) (parsed : Bool) (callbacks : List ConnectionCallback) :
    (run kind parsed callbacks).ReportsOnce := by
  have hrecorded := run_recorded kind parsed callbacks
  have hrun := @Runs.run_invariant _ _ (step kind) (fun c => c.Reporting ∧ Recorded kind c)
    (fun callback c h => ⟨reporting_step callback h.1 h.2, recorded_step callback h.2⟩) _
    ⟨reporting_initial kind parsed, recorded_initial kind parsed⟩ callbacks
  refine ⟨hrun.1.once, fun hclose => ?_⟩
  have hclosed : (run kind parsed callbacks).closed = true := hrecorded.close.mp hclose
  rw [hrecorded.roomClosed, hclosed]
  rfl

theorem quiet_step_iff (callback : ConnectionCallback) (h : Recorded kind c) :
    Quiet (step kind callback c) ↔ Quiet c ∧ Undisturbed kind callback c := by
  cases callback with
  | complete n code malformed =>
      rw [step, complete, Undisturbed]
      cases hn : c.pending[n]? with
      | none => simp
      | some operation =>
          simp only [Option.mem_some_iff, forall_eq']
          exact quiet_handle_iff (h.ended n) operation code malformed
  | close => exact (quiet_close_iff h false).trans (and_iff_left trivial).symm

-- A connection stays quiet once it is closed exactly when no handler is run that
-- goes on: one that succeeds although the connection is closed, or one of the
-- two that fall through behind close(true).
theorem run_quiet_iff (kind : ConnectionClass) (parsed : Bool) (callbacks : List ConnectionCallback) :
    Quiet (run kind parsed callbacks) ∧ (run kind parsed callbacks).ReportsOnce ↔
      Runs.EveryStep (step kind) (Undisturbed kind) (initial kind parsed) callbacks := by
  have hinitial : Quiet (initial kind parsed) := by
    have hopen : (initial kind parsed).closed = false := by cases kind <;> cases parsed <;> rfl
    exact quiet_of_open (recorded_initial kind parsed) hopen
  have hrun := @Runs.run_iff_everyStep _ _ (step kind) (Recorded kind) Quiet (Undisturbed kind)
    (fun callback _ => recorded_step callback) (fun callback _ => quiet_step_iff callback) _
    (recorded_initial kind parsed) callbacks
  rw [and_iff_left (run_reportsOnce kind parsed callbacks), run, hrun, and_iff_right hinitial]

-- The room's entry goes, and the timer of the closed connection is started.
theorem run_quiet_refuted :
    let callbacks : List ConnectionCallback := [.complete 0 .success false, .complete 0 .success false,
      .complete 0 .success false, .complete 0 .success false, .complete 0 .success false,
      .complete 1 .other false]
    ¬(Quiet (run .websocket true callbacks) ∧ (run .websocket true callbacks).ReportsOnce) := by
  intro callbacks h
  have hlife : (run .websocket true callbacks).life =
      [.start .fetchConfig, .start .resolve, .start .connect, .start .sslHandshake, .start .handshake,
        .start .read, .start .writeJoinRoom, .close, .roomFailed, .roomClosed] ++
        [.start .waitHeartbeat] := by decide
  have htimer := h.1
  rw [Quiet, hlife, Justified.concat_iff] at htimer
  exact absurd (htimer.2 (by decide)) (by decide)

end Runs

end ConnectionObject

end LiveReceptor.Worker

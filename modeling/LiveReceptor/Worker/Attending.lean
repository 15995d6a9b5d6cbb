import LiveReceptor.Worker.QuietConnections
import Mathlib.Data.List.Perm.Basic

-- What a connection to a room has under way.
namespace LiveReceptor.Worker

namespace Operation

-- The operations that lead to the next message, and those that lead to the next
-- heartbeat.
def leads : Operation → Bool
  | .writeJoinRoom | .waitHeartbeat | .writeHeartbeat => false
  | _ => true

def beats : Operation → Bool
  | .read | .writeHeartbeat => false
  | _ => true

-- What comes behind an operation that ends well.
def followers (kind : ConnectionClass) : Operation → List Operation
  | .fetchConfig => [.resolve]
  | .resolve => [.connect]
  | .connect =>
      match kind with
      | .websocket => [.sslHandshake]
      | .plainTcp => [.read, .writeJoinRoom]
  | .sslHandshake => [.handshake]
  | .handshake => [.read, .writeJoinRoom]
  | .read => [.read]
  | .writeJoinRoom => [.waitHeartbeat]
  | .waitHeartbeat => [.writeHeartbeat, .waitHeartbeat]
  | .writeHeartbeat => []

theorem countP_leads_followers (kind : ConnectionClass) (operation : Operation) :
    (operation.followers kind).countP leads = operation.leads.toNat := by
  cases operation <;> cases kind <;> rfl

theorem countP_beats_followers_le (kind : ConnectionClass) (operation : Operation) :
    (operation.followers kind).countP beats ≤ operation.beats.toNat := by
  cases operation <;> cases kind <;> decide

end Operation

-- The codes with which the handler returns without a close() and without going on.
def ConnectionClass.GivesUp (kind : ConnectionClass) (operation : Operation) (code : CompletionCode) : Prop :=
  match operation with
  | .fetchConfig | .resolve => code ≠ .success
  | .connect | .sslHandshake | .handshake => code = .operationAborted
  | .read => kind.ignoredReceiving code = true
  | _ => False

namespace ConnectionObject

-- An open connection has an operation under way that leads to the next message.
def Attends (c : ConnectionObject) : Prop :=
  c.closed = false → ∃ operation ∈ c.pending, operation.leads = true

-- The operation that leads to the next message ends, and nothing comes of it.
def Forsakes (kind : ConnectionClass) (callback : ConnectionCallback) (c : ConnectionObject) : Prop :=
  match callback with
  | .complete n code _ =>
      c.closed = false ∧ ∃ operation ∈ c.pending[n]?, operation.leads = true ∧ kind.GivesUp operation code
  | .close => False

-- No two operations of a kind are under way at once: two reads would write to the
-- same buffer. The write of a heartbeat is none of them, since the timer for the next
-- one is started with it.
structure SingleFile (c : ConnectionObject) : Prop where
  leads : c.pending.countP Operation.leads ≤ 1
  beats : c.pending.countP Operation.beats ≤ 1

variable {kind : ConnectionClass} {c : ConnectionObject} {operation : Operation} {code : CompletionCode}
  {malformed : Bool}

section Started

theorem pending_startOnSocket :
    (c.startOnSocket operation).pending = c.pending ++ if c.socket then [operation] else [] := by
  unfold startOnSocket
  split
  · rfl
  · exact (List.append_nil _).symm

theorem socket_startOnSocket : (c.startOnSocket operation).socket = c.socket := by
  unfold startOnSocket
  split <;> rfl

theorem pending_joinRoom :
    c.joinRoom.pending = c.pending ++ if c.socket then [.read, .writeJoinRoom] else [] := by
  rw [joinRoom, startRead, pending_startOnSocket, pending_startOnSocket, socket_startOnSocket, List.append_assoc]
  split <;> rfl

theorem pending_proceed (next : ConnectionObject → ConnectionObject) :
    (c.proceed kind next code).pending = if code = .success then (next c).pending else c.pending := by
  unfold proceed
  split
  · rfl
  · split
    · rfl
    · exact pending_close true

theorem pending_handleReceived : ∃ started, started.Sublist [.read] ∧
    (c.handleReceived kind malformed).pending = c.pending ++ started := by
  unfold handleReceived
  split
  · exact ⟨[], List.nil_sublist _, by simp⟩
  · refine ⟨if c.socket then [.read] else [], ?_, ?_⟩
    · split
      · exact List.Sublist.refl _
      · exact List.nil_sublist _
    · rw [startRead, pending_startOnSocket]
      rfl

-- Whatever a handler starts is what comes behind its operation.
theorem pending_handle (kind : ConnectionClass) (operation : Operation) (code : CompletionCode)
    (malformed : Bool) (c : ConnectionObject) : ∃ started, started.Sublist (operation.followers kind) ∧
      (c.handle kind operation code malformed).pending = c.pending ++ started := by
  have hnone : ∀ c' : ConnectionObject, c'.pending = c.pending →
      ∃ started, started.Sublist (operation.followers kind) ∧ c'.pending = c.pending ++ started :=
    fun c' h => ⟨[], List.nil_sublist _, by rw [h, List.append_nil]⟩
  have hall : ∀ c' : ConnectionObject, c'.pending = c.pending ++ operation.followers kind →
      ∃ started, started.Sublist (operation.followers kind) ∧ c'.pending = c.pending ++ started :=
    fun c' h => ⟨_, List.Sublist.refl _, h⟩
  have hjoin : ∀ c' : ConnectionObject,
      c'.pending = (if code = .success then c.joinRoom.pending else c.pending) →
      operation.followers kind = [.read, .writeJoinRoom] →
      ∃ started, started.Sublist (operation.followers kind) ∧ c'.pending = c.pending ++ started := by
    intro c' h hfollowers
    rw [pending_joinRoom] at h
    split at h
    · split at h
      · exact hall c' (hfollowers ▸ h)
      · exact hnone c' (h.trans (List.append_nil _))
    · exact hnone c' h
  cases operation with
  | fetchConfig =>
      rw [handle]
      split
      · exact hall _ rfl
      · exact hnone _ rfl
  | resolve =>
      rw [handle, onResolved]
      split
      · exact hall _ rfl
      · split <;> exact hnone _ rfl
  | connect =>
      cases kind with
      | websocket =>
          have hproceed := @pending_proceed .websocket c code (start .sslHandshake)
          by_cases hcode : code = .success
          · exact hall _ (hproceed.trans (if_pos hcode))
          · exact hnone _ (hproceed.trans (if_neg hcode))
      | plainTcp => exact hjoin _ (pending_proceed joinRoom) rfl
  | sslHandshake =>
      have hproceed := @pending_proceed kind c code (start .handshake)
      by_cases hcode : code = .success
      · exact hall _ (hproceed.trans (if_pos hcode))
      · exact hnone _ (hproceed.trans (if_neg hcode))
  | handshake => exact hjoin _ (pending_proceed joinRoom) rfl
  | read =>
      rw [handle, onReceive]
      split
      · split
        · exact hnone c rfl
        · obtain ⟨started, hstarted, hpending⟩ := @pending_handleReceived kind (c.close kind true) malformed
          exact ⟨started, hstarted, by rw [hpending, pending_close]⟩
      · exact pending_handleReceived
  | writeJoinRoom =>
      rw [handle, onJoinRoomSent]
      split
      · split
        · exact hnone c rfl
        · exact hall _ (congrArg (· ++ _) (pending_close true))
      · exact hall _ rfl
  | waitHeartbeat =>
      rw [handle, onHeartbeatTick]
      split
      · exact hnone c rfl
      · refine ⟨(if c.socket then [.writeHeartbeat] else []) ++ [.waitHeartbeat], ?_, ?_⟩
        · split
          · exact List.Sublist.refl _
          · exact List.sublist_cons_self _ _
        · rw [rescheduleTimer, pending_start, pending_startOnSocket, List.append_assoc]
  | writeHeartbeat =>
      rw [handle, onHeartbeatSent]
      split
      · split
        · exact hnone c rfl
        · exact hnone _ (pending_close true)
      · exact hnone c rfl

end Started

section Leading

theorem proceed_of_open {next : ConnectionObject → ConnectionObject} (hgoes : code ≠ .operationAborted)
    (hopen : (c.proceed kind next code).closed = false) : c.proceed kind next code = next c := by
  unfold proceed at hopen ⊢
  by_cases hcode : code = .success
  · rw [if_pos hcode]
  · rw [if_neg hcode, if_neg hgoes, closed_close] at hopen
    cases hopen

theorem proceed_of_aborted {next : ConnectionObject → ConnectionObject} (h : code = .operationAborted) :
    c.proceed kind next code = c := by
  subst h
  rfl

theorem handleReceived_of_open (hopen : (c.handleReceived kind malformed).closed = false) :
    c.closed = false ∧ (c.handleReceived kind malformed).pending = c.pending ++ if c.socket then [.read] else [] := by
  unfold handleReceived at hopen ⊢
  split at hopen
  · rw [closed_close] at hopen
    cases hopen
  · rename_i hgood
    rw [startRead, closed_startOnSocket] at hopen
    rw [if_neg hgood]
    exact ⟨hopen, pending_startOnSocket⟩

-- A handler that neither gives up nor closes the connection goes on.
theorem pending_handle_of_open (hleads : operation.leads = true) (hsocket : c.socket = true)
    (hgoes : ¬kind.GivesUp operation code)
    (hopen : (c.handle kind operation code malformed).closed = false) :
    (c.handle kind operation code malformed).pending = c.pending ++ operation.followers kind := by
  have hjoin : c.joinRoom.pending = c.pending ++ [.read, .writeJoinRoom] := by
    rw [pending_joinRoom, if_pos hsocket]
  cases operation with
  | fetchConfig =>
      have hcode : code = .success := not_not.mp hgoes
      rw [handle, if_pos hcode]
      rfl
  | resolve =>
      have hcode : code = .success := not_not.mp hgoes
      rw [handle, onResolved, if_pos hcode]
      rfl
  | connect =>
      cases kind with
      | websocket => exact congrArg pending (proceed_of_open hgoes hopen)
      | plainTcp => exact (congrArg pending (proceed_of_open hgoes hopen)).trans hjoin
  | sslHandshake => exact congrArg pending (proceed_of_open hgoes hopen)
  | handshake => exact (congrArg pending (proceed_of_open hgoes hopen)).trans hjoin
  | read =>
      rw [handle, onReceive] at hopen ⊢
      rw [if_neg (show ¬kind.ignoredReceiving code = true from hgoes)] at hopen
      split at hopen
      · have hclosed := (handleReceived_of_open hopen).1
        rw [closed_close] at hclosed
        cases hclosed
      · rename_i hcode
        rw [if_neg hcode, (handleReceived_of_open hopen).2, if_pos hsocket]
        rfl
  | writeJoinRoom => cases hleads
  | waitHeartbeat => cases hleads
  | writeHeartbeat => cases hleads

theorem handle_of_givesUp (h : kind.GivesUp operation code) :
    (c.handle kind operation code malformed).pending = c.pending ∧
      (c.handle kind operation code malformed).closed = c.closed := by
  cases operation with
  | fetchConfig =>
      have hcode : code ≠ .success := h
      rw [handle, if_neg hcode]
      exact ⟨rfl, rfl⟩
  | resolve =>
      have hcode : code ≠ .success := h
      rw [handle, onResolved, if_neg hcode]
      split <;> exact ⟨rfl, rfl⟩
  | connect =>
      cases kind with
      | websocket => exact ⟨congrArg pending (proceed_of_aborted h), congrArg closed (proceed_of_aborted h)⟩
      | plainTcp => exact ⟨congrArg pending (proceed_of_aborted h), congrArg closed (proceed_of_aborted h)⟩
  | sslHandshake => exact ⟨congrArg pending (proceed_of_aborted h), congrArg closed (proceed_of_aborted h)⟩
  | handshake => exact ⟨congrArg pending (proceed_of_aborted h), congrArg closed (proceed_of_aborted h)⟩
  | read =>
      have hignored : kind.ignoredReceiving code = true := h
      have hcode : code ≠ .success := by
        rintro rfl
        cases kind <;> cases hignored
      rw [handle, onReceive, if_pos hcode, if_pos hignored]
      exact ⟨rfl, rfl⟩
  | writeJoinRoom => exact h.elim
  | waitHeartbeat => exact h.elim
  | writeHeartbeat => exact h.elim

end Leading

section Step

theorem exists_leads_iff : (∃ operation ∈ c.pending, operation.leads = true) ↔
    0 < c.pending.countP Operation.leads := List.countP_pos_iff.symm

-- What is left under way while a handler runs.
theorem countP_pending (p : Operation → Bool) {n : Nat} (hn : c.pending[n]? = some operation) :
    c.pending.countP p = (p operation).toNat + (c.pending.eraseIdx n).countP p := by
  obtain ⟨hlt, hget⟩ := List.getElem?_eq_some_iff.mp hn
  have hperm := List.getElem_cons_eraseIdx_perm hlt
  rw [hget] at hperm
  rw [← hperm.countP_eq, List.countP_cons, Nat.add_comm]
  cases p operation <;> rfl

-- The count of a kind of operations that come one behind the other.
theorem countP_complete_le (p : Operation → Bool) {n : Nat} (hn : c.pending[n]? = some operation)
    (hp : (operation.followers kind).countP p ≤ (p operation).toNat) (code : CompletionCode) (malformed : Bool) :
    (c.complete kind n code malformed).pending.countP p ≤ c.pending.countP p := by
  obtain ⟨started, hstarted, hpending⟩ :=
    pending_handle kind operation code malformed { c with pending := c.pending.eraseIdx n }
  have hle : started.countP p ≤ (operation.followers kind).countP p := hstarted.countP_le
  rw [complete, hn]
  dsimp only
  rw [hpending, List.countP_append, countP_pending p hn]
  dsimp only
  omega

theorem SingleFile.step (h : SingleFile c) (callback : ConnectionCallback) :
    SingleFile (step kind callback c) := by
  cases callback with
  | complete n code malformed =>
      cases hn : c.pending[n]? with
      | none =>
          rw [ConnectionObject.step, complete, hn]
          exact h
      | some operation =>
          have hleads := countP_complete_le Operation.leads hn
            (Nat.le_of_eq (operation.countP_leads_followers kind)) code malformed
          have hbeats := countP_complete_le Operation.beats hn
            (operation.countP_beats_followers_le kind) code malformed
          exact ⟨Nat.le_trans hleads h.leads, Nat.le_trans hbeats h.beats⟩
  | close =>
      have hpending : (ConnectionObject.step kind .close c).pending = c.pending := pending_close false
      exact ⟨hpending ▸ h.leads, hpending ▸ h.beats⟩

theorem attends_of_closed (h : c.closed = true) : Attends c := fun hopen => by
  rw [h] at hopen
  cases hopen

theorem closed_kept : KeptByDeeds kind fun c => c.closed = true where
  parse _ h := h
  dereference _ h := h
  start _ _ _ h := h
  close _ _ := closed_close true

theorem closed_handle (h : c.closed = true) : (c.handle kind operation code malformed).closed = true := by
  cases hearly : operation.early with
  | false => exact closed_kept.handle h hearly code malformed
  | true =>
      cases operation with
      | fetchConfig =>
          rw [handle]
          split <;> exact h
      | resolve =>
          rw [handle, onResolved]
          split
          · exact h
          · split <;> exact h
      | connect | sslHandshake | handshake | read | writeJoinRoom | waitHeartbeat | writeHeartbeat =>
          cases hearly

-- Of an operation that ends while the connection is in this state.
theorem attends_handle_iff (hrecorded : Recorded kind c)
    (hsingle : operation.leads.toNat + c.pending.countP Operation.leads ≤ 1)
    (h : c.closed = false → 0 < operation.leads.toNat + c.pending.countP Operation.leads) :
    Attends (c.handle kind operation code malformed) ↔
      ¬(c.closed = false ∧ operation.leads = true ∧ kind.GivesUp operation code) := by
  cases hclosed : c.closed with
  | true => exact iff_of_true (attends_of_closed (closed_handle hclosed)) (by simp)
  | false =>
      have hsome := h hclosed
      cases hleads : operation.leads with
      | false =>
          -- another operation leads, and stays under way
          refine iff_of_true (fun _ => ?_) (by simp)
          obtain ⟨started, -, hpending⟩ := pending_handle kind operation code malformed c
          rw [hleads, Bool.toNat_false, Nat.zero_add] at hsome
          rw [exists_leads_iff, hpending, List.countP_append]
          exact Nat.add_pos_left hsome _
      | true =>
          rw [hleads, Bool.toNat_true] at hsingle
          by_cases hgives : kind.GivesUp operation code
          · refine iff_of_false (fun hattends => ?_) (by simp [hgives])
            obtain ⟨hpending, hopen⟩ := @handle_of_givesUp kind c operation code malformed hgives
            have hlead := exists_leads_iff.mp (hattends (hopen.trans hclosed))
            rw [hpending] at hlead
            omega
          · refine iff_of_true (fun hopen => ?_) (by simp [hgives])
            rw [exists_leads_iff, pending_handle_of_open hleads (hrecorded.socket_of_open hclosed) hgives hopen,
              List.countP_append, operation.countP_leads_followers, hleads]
            exact Nat.add_pos_right _ (by decide)

-- One step loses what leads to the next message exactly when its end is ignored.
theorem attends_step_iff (hrecorded : Recorded kind c) (hsingle : SingleFile c) (h : Attends c)
    (callback : ConnectionCallback) : Attends (step kind callback c) ↔ ¬Forsakes kind callback c := by
  cases callback with
  | close => exact iff_of_true (attends_of_closed (closed_close false)) id
  | complete n code malformed =>
      cases hn : c.pending[n]? with
      | none =>
          rw [step, complete, hn, Forsakes, hn]
          simpa using h
      | some operation =>
          have hforsakes : Forsakes kind (.complete n code malformed) c ↔
              c.closed = false ∧ operation.leads = true ∧ kind.GivesUp operation code := by
            rw [Forsakes, hn]
            simp
          have hcount := countP_pending Operation.leads hn
          rw [step, complete, hn, hforsakes]
          refine attends_handle_iff (hrecorded.ended n) (hcount ▸ hsingle.leads) fun hopen => ?_
          rw [← hcount, ← exists_leads_iff]
          exact h hopen

end Step

section Runs

theorem singleFile_initial (kind : ConnectionClass) (parsed : Bool) : SingleFile (initial kind parsed) := by
  cases kind <;> cases parsed <;> exact ⟨by decide, by decide⟩

theorem attends_initial_iff (kind : ConnectionClass) (parsed : Bool) :
    Attends (initial kind parsed) ↔ (kind = .websocket → parsed = true) := by
  cases kind <;> cases parsed <;> simp [Attends, initial, init, startOnSocket, start, did, Operation.leads]

-- A connection that is open has one operation under way that leads to the next
-- message, exactly in the runs in which no such operation ends with a code that its
-- handler ignores, and the config could be asked for.
theorem run_attends_iff (kind : ConnectionClass) (parsed : Bool) (callbacks : List ConnectionCallback) :
    Runs.EveryState (step kind) Attends (initial kind parsed) callbacks ↔
      (kind = .websocket → parsed = true) ∧
        Runs.EveryStep (step kind) (fun callback c => ¬Forsakes kind callback c) (initial kind parsed)
          callbacks := by
  rw [← attends_initial_iff]
  by_cases hinitial : Attends (initial kind parsed)
  · rw [and_iff_right hinitial]
    exact @Runs.everyState_iff_everyStep _ _ (step kind) (fun c => Recorded kind c ∧ SingleFile c) Attends
      (fun callback c => ¬Forsakes kind callback c)
      (fun callback _ h => ⟨recorded_step callback h.1, h.2.step callback⟩)
      (fun callback _ h hattends => attends_step_iff h.1 h.2 hattends callback) _
      ⟨recorded_initial kind parsed, singleFile_initial kind parsed⟩ hinitial callbacks
  · exact iff_of_false (fun h => hinitial h.head) fun h => hinitial h.1

theorem run_singleFile (kind : ConnectionClass) (parsed : Bool) (callbacks : List ConnectionCallback) :
    Runs.EveryState (step kind) SingleFile (initial kind parsed) callbacks :=
  Runs.everyState_of (fun callback _ h _ => h.step callback) (fun _ h => h) (singleFile_initial kind parsed)
    (Runs.everyStep_of_forall (fun _ _ => trivial) _ callbacks)

end Runs

end ConnectionObject

end LiveReceptor.Worker

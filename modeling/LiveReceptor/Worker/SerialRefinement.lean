import LiveReceptor.Worker.CloseAllConnections
import LiveReceptor.Worker.Orphans

namespace LiveReceptor.Worker

namespace BilibiliConnectionManager

variable {m m' : BilibiliConnectionManager} {n : Nat} {object : BilibiliConnection} {roomId : RoomId}
  {deeds : List Deed}

theorem run_registered {events : List ConnectionEvent} (h : Valid m ∧ Registered m)
    (hharmless : Runs.EveryStep step Harmless m events) :
    Valid (Runs.run step m events) ∧ Registered (Runs.run step m events) := by
  have hstep : ∀ event m, Valid m ∧ Registered m → Harmless event m →
      Valid (step event m) ∧ Registered (step event m) := by
    rintro event m ⟨hvalid, hregistered⟩ hharmless
    exact ⟨hvalid.step event, (registered_step_iff hvalid hregistered event).mpr hharmless⟩
  exact @Runs.run_invariant_of _ _ _ (fun m => Valid m ∧ Registered m) _ hstep _ h _ hharmless

-- What a handler of an object leaves, once the calls it makes have returned.
structure Follows (m m' : BilibiliConnectionManager) (n : Nat) (roomId : RoomId) (deeds : List Deed) :
    Prop where
  objects : m'.objects = if .roomClosed ∈ deeds then (m.setClosed n).objects else m.objects
  connections : m'.connections = if .roomClosed ∈ deeds then m.connections.erase roomId else m.connections
  closing : m'.closing = m.closing
  failures : m'.failures = m.failures ++ List.replicate (deeds.count .roomFailed) roomId

theorem beginClose_of_live (hobject : m.objects[n]? = some object) (hlive : object.live = true)
    (failed : Bool) : m.beginClose n failed = { m.setClosed n with
      closing := m.closing ++ [{ roomId := object.roomId, connection := n, unreported := failed }] } := by
  simp [beginClose, hobject, hlive]

-- close(failed), with nothing in between.
def closeEvents (n : Nat) (failed : Bool) : List ConnectionEvent :=
  .beginClose n failed :: (if failed then [.reportFailure 0] else []) ++ [.endClose 0]

theorem run_closeEvents (hclosing : m.closing = []) (hobject : m.objects[n]? = some object)
    (hlive : object.live = true) (failed : Bool) :
    Runs.run step m (closeEvents n failed) = { (m.setClosed n).onRoomClosed object.roomId with
      failures := m.failures ++ if failed then [object.roomId] else [] } := by
  have hbegun := beginClose_of_live hobject hlive
  cases failed <;>
    simp [closeEvents, step, hbegun, hclosing, reportFailure, endClose, onRoomFailed, onRoomClosed, setClosed]

-- The connection was the only live one of its room.
theorem closeEvents_harmless (h : m.Registered) (hclosing : m.closing = [])
    (hobject : m.objects[n]? = some object) (hlive : object.live = true) (failed : Bool) :
    Runs.EveryStep step Harmless m (closeEvents n failed) := by
  have hnone : (m.setClosed n).hasLive object.roomId = false := by
    have hafter := @hasLive_beginClose _ _ object.roomId _ h ⟨object, hobject, hlive, rfl⟩ failed
    rw [beginClose_of_live hobject hlive] at hafter
    simpa [hasLive] using hafter
  cases failed with
  | false =>
      refine ⟨trivial, ?_, trivial⟩
      rw [step, beginClose_of_live hobject hlive, hclosing]
      simpa [Harmless, hasLive] using hnone
  | true =>
      refine ⟨trivial, trivial, ?_, trivial⟩
      rw [step, step, beginClose_of_live hobject hlive, hclosing]
      simpa [Harmless, hasLive, reportFailure, onRoomFailed] using hnone

theorem Follows.getElem? (h : Follows m m' n roomId deeds) (d : Nat) : m'.objects[d]? =
    m.objects[d]?.map fun object =>
      { object with closed := object.closed || (n = d && deeds.contains .roomClosed) } := by
  rw [h.objects]
  by_cases hclosed : .roomClosed ∈ deeds
  · rw [if_pos hclosed, objects_setClosed]
    by_cases hd : n = d <;> simp [hclosed, hd]
  · simp [hclosed]

-- A handler that tells the manager nothing.
theorem Follows.of_quiet (hclosed : .roomClosed ∉ deeds) (hfailed : .roomFailed ∉ deeds) :
    Follows m m n roomId deeds where
  objects := (if_neg hclosed).symm
  connections := (if_neg hclosed).symm
  closing := rfl
  failures := by simp [List.count_eq_zero_of_not_mem hfailed]

theorem follows_close (hobject : m.objects[n]? = some object) (hopen : object.closed = false) :
    Follows m (m.close n) n object.roomId [.close, .roomClosed] := by
  rw [close_of_open hobject hopen]
  exact ⟨rfl, rfl, rfl, (List.append_nil _).symm⟩

theorem follows_failInit (hobject : m.objects[n]? = some object) (hinit : object.initialized = true) :
    Follows m (m.failInit n) n object.roomId [.roomFailed] := by
  have hfailed : m.failInit n = m.onRoomFailed object.roomId := by simp [failInit, hobject, hinit]
  rw [hfailed]
  exact ⟨rfl, rfl, rfl, rfl⟩

-- Whatever else the handler does, it closes the object and tells the manager so.
theorem follows_closeEvents (hclosing : m.closing = [])
    (hobject : m.objects[n]? = some object) (hlive : object.live = true) (hclosed : .roomClosed ∈ deeds)
    (hfailed : deeds.count .roomFailed ≤ 1) :
    Follows m (Runs.run step m (closeEvents n (deeds.contains .roomFailed))) n object.roomId deeds := by
  rw [run_closeEvents hclosing hobject hlive]
  refine ⟨(if_pos hclosed).symm, (if_pos hclosed).symm, rfl, ?_⟩
  by_cases hreported : .roomFailed ∈ deeds
  · have hone : deeds.count .roomFailed = 1 := by
      have := List.count_pos_iff.mpr hreported
      omega
    simp [hreported, hone]
  · simp [hreported, List.count_eq_zero_of_not_mem]

end BilibiliConnectionManager

-- An object as the pool threads see it: only one that was init()ed has handlers.
structure RoomConnection.Refines (object : RoomConnection) (other : BilibiliConnection) : Prop where
  roomId : other.roomId = object.roomId
  closed : other.closed = object.connection.closed
  idle : other.initialized = false → object.connection.pending = []

theorem RoomConnection.Refines.initialized {object : RoomConnection} {other : BilibiliConnection}
    (h : object.Refines other) (hpending : object.connection.pending ≠ []) : other.initialized = true := by
  by_contra hnone
  exact hpending (h.idle (by simpa using hnone))

def ManagerCall.failure : ManagerCall → Option RoomId
  | .openConnection _ => none
  | .roomFailed roomId => some roomId

namespace SerialConnectionManager

open ConnectionObject

structure Refines (m : SerialConnectionManager) (pooled : BilibiliConnectionManager) : Prop where
  length : pooled.objects.length = m.objects.length
  objects : ∀ (n : Nat) (object : RoomConnection), m.objects[n]? = some object →
    ∃ other, pooled.objects[n]? = some other ∧ object.Refines other
  connections : pooled.connections = m.connections
  closing : pooled.closing = []
  failures : pooled.failures = m.log.filterMap ManagerCall.failure

-- The pool threads have steps that lead to the same, and do no harm if P holds.
def Matched (P : Prop) (pooled : BilibiliConnectionManager) (m : SerialConnectionManager) : Prop :=
  ∃ inputs, (P → Runs.EveryStep BilibiliConnectionManager.step BilibiliConnectionManager.Harmless pooled inputs) ∧
    Refines m (Runs.run BilibiliConnectionManager.step pooled inputs)

variable {m m' : SerialConnectionManager} {pooled pooled' : BilibiliConnectionManager} {n : Nat}
  {object : RoomConnection} {handler : ConnectionObject → ConnectionObject} {deeds : List Deed}
  {beginning : Beginning} {P Q : Prop}

section Matched

theorem Refines.matched (h : Refines m pooled) : Matched P pooled m := ⟨[], fun _ => trivial, h⟩

theorem Matched.of_step (event : ConnectionEvent) (hharmless : P → BilibiliConnectionManager.Harmless event pooled)
    (h : Refines m (BilibiliConnectionManager.step event pooled)) : Matched P pooled m :=
  ⟨[event], fun hP => ⟨hharmless hP, trivial⟩, h⟩

theorem Matched.cons (event : ConnectionEvent) (hharmless : P → BilibiliConnectionManager.Harmless event pooled)
    (h : Matched P (BilibiliConnectionManager.step event pooled) m) : Matched P pooled m := by
  obtain ⟨inputs, hrest, hrefines⟩ := h
  exact ⟨event :: inputs, fun hP => ⟨hharmless hP, hrest hP⟩, hrefines⟩

theorem Matched.mono (h : Matched P pooled m) (hP : Q → P) : Matched Q pooled m := by
  obtain ⟨inputs, hharmless, hrefines⟩ := h
  exact ⟨inputs, fun hQ => hharmless (hP hQ), hrefines⟩

end Matched

-- A handler that is run here, and its calls there.
theorem Refines.runHandler (h : Refines m pooled) (hobject : m.objects[n]? = some object)
    (hrecorded : Recorded .websocket object.connection)
    (hrecorded' : Recorded .websocket (handler object.connection))
    (hlife : (handler object.connection).life = object.connection.life ++ deeds)
    (hidle : object.connection.pending = [] → (handler object.connection).pending = [])
    (hfollows : pooled.Follows pooled' n object.roomId deeds) : Refines (m.runHandler n handler) pooled' := by
  have hclosed := hrecorded.closed_append hrecorded' hlife
  constructor
  · rw [objects_runHandler hobject hlife, List.length_set, ← h.length, hfollows.objects]
    split <;> simp [BilibiliConnectionManager.setClosed]
  · intro d found hfound
    rw [objects_runHandler hobject hlife] at hfound
    have hother := hfollows.getElem? d
    by_cases hd : n = d
    · subst hd
      obtain ⟨other, hn, hrefines⟩ := h.objects n object hobject
      rw [List.getElem?_set_self (List.getElem?_eq_some_iff.mp hobject).1] at hfound
      obtain rfl := Option.some.inj hfound
      rw [hn] at hother
      refine ⟨_, hother, hrefines.roomId, ?_, fun hinit => hidle (hrefines.idle hinit)⟩
      by_cases hmem : .roomClosed ∈ deeds
      · rw [if_pos hmem] at hclosed
        simp [hmem, hclosed.2.1]
      · rw [if_neg hmem] at hclosed
        simp [hmem, hclosed, hrefines.closed]
    · rw [List.getElem?_set_ne hd] at hfound
      obtain ⟨other, hd', hrefines⟩ := h.objects d found hfound
      refine ⟨other, ?_, hrefines⟩
      simpa [hd, hd'] using hother
  · rw [hfollows.connections, connections_runHandler hobject hlife, h.connections]
  · rw [hfollows.closing, h.closing]
  · have hfailure : ManagerCall.failure (.roomFailed object.roomId) = some object.roomId := rfl
    rw [hfollows.failures, log_runHandler hobject hlife, h.failures, List.filterMap_append,
      List.filterMap_replicate_of_some hfailure]

theorem Refines.runHandler_of_same (h : Refines m pooled) (hobject : m.objects[n]? = some object)
    (hrecorded : Recorded .websocket object.connection)
    (hsame : handler object.connection = object.connection) : Refines (m.runHandler n handler) pooled := by
  apply h.runHandler hobject hrecorded
  · rwa [hsame]
  · rw [hsame, List.append_nil]
  · rw [hsame]
    exact id
  · exact .of_quiet List.not_mem_nil List.not_mem_nil

theorem Refines.close (h : Refines m pooled) (htabled : m.Tabled) (n : Nat) :
    Refines (m.close n) (pooled.close n) := by
  cases hobject : m.objects[n]? with
  | none =>
      have hnone : pooled.objects[n]? = none := by
        rw [List.getElem?_eq_none_iff] at hobject ⊢
        rwa [h.length]
      rw [close_of_none hobject]
      simpa [BilibiliConnectionManager.close, hnone] using h
  | some object =>
      obtain ⟨other, hother, hrefines⟩ := h.objects n object hobject
      have hrecorded := htabled.recorded object (List.mem_of_getElem? hobject)
      cases hclosed : object.connection.closed with
      | true =>
          have hsame : pooled.close n = pooled :=
            BilibiliConnectionManager.close_of_closed hother (hrefines.closed.trans hclosed)
          rw [hsame]
          exact h.runHandler_of_same hobject hrecorded (close_of_closed hclosed false)
      | false =>
          have hidle : object.connection.pending = [] →
              (object.connection.close .websocket false).pending = [] := by simp
          have hfollows := BilibiliConnectionManager.follows_close hother (hrefines.closed.trans hclosed)
          rw [hrefines.roomId] at hfollows
          have hlife := @life_close .websocket _ hclosed (hrecorded.socket_of_open hclosed) false
          exact h.runHandler hobject hrecorded (hrecorded.closing false) hlife hidle hfollows

theorem Refines.addObject (h : Refines m pooled) {other : BilibiliConnection} (hrefines : object.Refines other) :
    Refines (m.addObject object) (pooled.addObject other) where
  length := by simp [SerialConnectionManager.addObject, BilibiliConnectionManager.addObject, h.length]
  objects d found hfound := by
    simp only [SerialConnectionManager.addObject, BilibiliConnectionManager.addObject] at hfound ⊢
    rcases Nat.lt_or_ge d m.objects.length with hd | hd
    · rw [List.getElem?_append_left hd] at hfound
      obtain ⟨old, hold, hsame⟩ := h.objects d found hfound
      have hd' : d < pooled.objects.length := by rwa [h.length]
      exact ⟨old, (List.getElem?_append_left hd').trans hold, hsame⟩
    · rw [List.getElem?_append_right hd] at hfound
      rw [List.getElem?_append_right (by rwa [h.length]), h.length]
      cases hlast : d - m.objects.length with
      | zero =>
          obtain rfl : object = found := by simpa [hlast] using hfound
          exact ⟨other, rfl, hrefines⟩
      | succ k => simp [hlast] at hfound
  connections := h.connections
  closing := h.closing
  failures := h.failures

theorem Refines.called (h : Refines m pooled) (roomId : RoomId) :
    Refines (m.called (.openConnection roomId)) pooled where
  length := h.length
  objects := h.objects
  connections := h.connections
  closing := h.closing
  failures := by simp [SerialConnectionManager.called, ManagerCall.failure, h.failures]

-- No entry is closed on either side, so that there is nothing to make room for.
theorem Refines.dropClosed_eq (h : Refines m pooled) (htabled : m.Tabled) (roomId : RoomId) :
    pooled.dropClosed roomId = pooled := by
  unfold BilibiliConnectionManager.dropClosed
  rw [h.connections]
  cases hfind : m.connections.find? roomId with
  | none => rfl
  | some entry =>
      obtain ⟨object, hobject, -, hopen⟩ := htabled.entries entry (Keyed.find?_eq_some.mp hfind).1
      obtain ⟨other, hother, hrefines⟩ := h.objects _ _ hobject
      simp [hother, hrefines.closed, hopen]

theorem Refines.openConnection (h : Refines m pooled) (htabled : m.Tabled) (roomId : RoomId)
    (parsed : Bool) : Refines (m.openConnection roomId parsed) (pooled.openConnection roomId) := by
  have hcalled := h.called roomId
  simp only [BilibiliConnectionManager.openConnection, h.dropClosed_eq htabled, h.connections, h.length]
  by_cases hkey : m.connections.HasKey roomId
  · rw [openConnection_of_hasKey htabled hkey, if_pos hkey]
    have hbuilt := @Tabled.addObject _ ⟨roomId, {}⟩ (htabled.called (.openConnection roomId)) recorded_new
    exact (hcalled.addObject ⟨rfl, rfl, fun _ => rfl⟩).close hbuilt _
  · rw [openConnection_of_not_hasKey htabled hkey, if_neg hkey]
    have hadded := @Refines.addObject _ _ ⟨roomId, .initial .websocket parsed⟩ hcalled
      { roomId, initialized := true } ⟨rfl, by cases parsed <;> rfl, by simp⟩
    exact ⟨hadded.length, hadded.objects, rfl, hadded.closing, hadded.failures⟩

theorem Refines.closeConnection (h : Refines m pooled) (htabled : m.Tabled) (roomId : RoomId) :
    Refines (m.closeConnection roomId) (pooled.closeConnection roomId) := by
  unfold SerialConnectionManager.closeConnection BilibiliConnectionManager.closeConnection
  rw [h.connections]
  cases m.connections.find? roomId with
  | none => exact h
  | some entry => exact h.close htabled entry.connection

theorem closeConnection_of_mem {entry : ConnectionEntry} (hentry : entry ∈ m.connections) :
    m.closeConnection entry.roomId = m.close entry.connection := by
  have hfind : m.connections.find? entry.roomId = some entry := Keyed.find?_eq_some.mpr ⟨hentry, rfl⟩
  rw [SerialConnectionManager.closeConnection, hfind]

-- Each turn of the loop closes the connection of a room.
theorem Refines.closeAllLoop {fuel : Nat} (h : Refines m pooled) (htabled : m.Tabled)
    (hloop : closeAllLoop beginning fuel m = some m') : Matched P pooled m' := by
  induction fuel generalizing m pooled with
  | zero => cases hloop
  | succ fuel ih =>
      rw [SerialConnectionManager.closeAllLoop] at hloop
      cases hfirst : beginning.first m.connections with
      | none =>
          obtain rfl : m = m' := by simpa [hfirst] using hloop
          exact h.matched
      | some entry =>
          rw [hfirst] at hloop
          have hclosed := h.closeConnection htabled entry.roomId
          rw [closeConnection_of_mem (beginning.mem _ _ hfirst)] at hclosed
          exact .cons (.closeConnection entry.roomId) (fun _ => trivial) (ih hclosed (htabled.close _) hloop)

theorem Refines.destroy (h : Refines m pooled) (htabled : m.Tabled) (connection : Nat) :
    Matched P pooled (m.destroy connection) := by
  unfold SerialConnectionManager.destroy
  split
  · exact h.matched
  · next hidle =>
    have hgone : ¬(pooled.connections.entries.any (·.connection == connection) ∨
        pooled.closing.any (·.connection == connection)) := by
      rw [h.connections, h.closing]
      simpa using fun hentry => hidle (Or.inl hentry)
    apply Matched.of_step (.destroy connection) fun _ => trivial
    rw [BilibiliConnectionManager.step, BilibiliConnectionManager.destroy, if_neg hgone]
    exact h.close htabled connection

-- A handler that tells the manager something closes its object, from one end of
-- close() to the other.
theorem Refines.does (h : Refines m pooled) (hobject : m.objects[n]? = some object)
    (hrecorded : Recorded .websocket object.connection) (hpending : object.connection.pending ≠ [])
    (hdoes : Does .websocket object.connection (handler object.connection) deeds) :
    Matched pooled.Registered pooled (m.runHandler n handler) := by
  obtain ⟨other, hother, hrefines⟩ := h.objects n object hobject
  have honce := hrecorded.closed_append hdoes.recorded hdoes.life
  have hfailed := hdoes.failed
  have hruns := fun pooled' =>
    @Refines.runHandler _ _ pooled' _ _ _ _ h hobject hrecorded hdoes.recorded hdoes.life (absurd · hpending)
  by_cases hclosed : .roomClosed ∈ deeds
  · rw [if_pos hclosed] at honce
    rw [honce.2.2] at hfailed
    have hlive : other.live = true := by
      simp [BilibiliConnection.live, hrefines.initialized hpending, hrefines.closed, honce.1]
    have hfollows :=
      BilibiliConnectionManager.follows_closeEvents h.closing hother hlive hclosed hfailed
    rw [hrefines.roomId] at hfollows
    exact ⟨_, fun hregistered =>
      BilibiliConnectionManager.closeEvents_harmless hregistered h.closing hother hlive _, hruns _ hfollows⟩
  · rw [List.count_eq_zero_of_not_mem hclosed] at hfailed
    have hquiet : .roomFailed ∉ deeds := List.count_eq_zero.mp (Nat.le_zero.mp hfailed)
    exact (hruns _ (.of_quiet hclosed hquiet)).matched

-- A completion may also report a failure directly.
theorem Refines.complete (h : Refines m pooled) (htabled : m.Tabled) (connection n : Nat)
    (code : CompletionCode) (malformed : Bool) :
    Matched pooled.Registered pooled (m.complete connection n code malformed) := by
  rw [SerialConnectionManager.complete]
  cases hobject : m.objects[connection]? with
  | none =>
      rw [runHandler_of_none hobject]
      exact h.matched
  | some object =>
      have hrecorded := htabled.recorded object (List.mem_of_getElem? hobject)
      cases hn : object.connection.pending[n]? with
      | none =>
          have hsame : object.connection.complete .websocket n code malformed = object.connection := by
            simp [ConnectionObject.complete, hn]
          exact (h.runHandler_of_same hobject hrecorded hsame).matched
      | some operation =>
          have hpending : object.connection.pending ≠ [] := by
            intro hnone
            simp [hnone] at hn
          cases hdirectly : reportsDirectly operation code with
          | false =>
              obtain ⟨deeds, hdoes⟩ := @does_complete _ _ n code hrecorded (by simpa [hn] using hdirectly) malformed
              exact h.does hobject hrecorded hpending hdoes
          | true =>
              obtain ⟨other, hother, hrefines⟩ := h.objects connection object hobject
              have hlife : (object.connection.complete .websocket n code malformed).life =
                  object.connection.life ++ [.roomFailed] := by
                rw [complete_of_reportsDirectly hn hdirectly]
                rfl
              have hfollows := BilibiliConnectionManager.follows_failInit hother (hrefines.initialized hpending)
              rw [hrefines.roomId] at hfollows
              have hrecorded' := recorded_step (.complete n code malformed) hrecorded
              apply Matched.of_step (.failInit connection) fun _ => trivial
              exact h.runHandler hobject hrecorded hrecorded' hlife (absurd · hpending) hfollows

-- No room is opened that has an entry.
def OpensOnce (event : ManagerEvent) (m : SerialConnectionManager) : Prop :=
  match event with
  | .openConnection roomId _ => ¬m.connections.HasKey roomId
  | _ => True

variable (beginning)

-- What runs from one end to the other is one of the ways in which the pool threads
-- can run it, and does no harm if no room is opened twice.
theorem Refines.step (h : Refines m pooled) (htabled : m.Tabled) (event : ManagerEvent) :
    Matched (pooled.Registered ∧ OpensOnce event m) pooled (step beginning event m) := by
  cases event with
  | openConnection roomId parsed =>
      refine .of_step (.openConnection roomId) ?_ (h.openConnection htabled roomId parsed)
      rintro ⟨hregistered, hopens⟩
      by_contra hlive
      rw [BilibiliConnectionManager.Harmless, Bool.not_eq_false,
        BilibiliConnectionManager.hasLive_iff] at hlive
      obtain ⟨connection, hlive⟩ := hlive
      have hentry := hregistered roomId connection hlive
      rw [h.connections] at hentry
      exact hopens ⟨_, hentry, rfl⟩
  | closeConnection roomId =>
      exact .of_step (.closeConnection roomId) (fun _ => trivial) (h.closeConnection htabled roomId)
  | closeAllConnections =>
      obtain ⟨m', hloop, -⟩ := closeAllLoop_spec beginning htabled (Nat.lt_succ_self _)
      rw [SerialConnectionManager.step, closeAllConnections, hloop]
      exact h.closeAllLoop htabled hloop
  | complete connection n code malformed =>
      exact (h.complete htabled connection n code malformed).mono And.left
  | destroy connection => exact h.destroy htabled connection

theorem refines_empty : Refines {} {} := ⟨rfl, by simp, rfl, rfl, rfl⟩

theorem run_refines (events : List ManagerEvent) :
    ∃ inputs, Refines (run beginning events) (BilibiliConnectionManager.run inputs) := by
  have hstep : ∀ event (m : SerialConnectionManager) (pooled : BilibiliConnectionManager),
      m.Tabled ∧ Refines m pooled → True → ∃ inputs,
        (SerialConnectionManager.step beginning event m).Tabled ∧
        Refines (SerialConnectionManager.step beginning event m)
          (Runs.run BilibiliConnectionManager.step pooled inputs) := by
    rintro event m pooled ⟨htabled, h⟩ -
    obtain ⟨inputs, -, hrefines⟩ := h.step beginning htabled event
    exact ⟨inputs, htabled.step beginning event, hrefines⟩
  obtain ⟨inputs, -, hrefines⟩ := Runs.exists_run hstep ⟨tabled_empty, refines_empty⟩
    (Runs.everyStep_of_forall (fun _ _ => trivial) _ events)
  exact ⟨inputs, hrefines⟩

-- So if no room is opened twice, an open connection is the entry of its room.
theorem run_entries (events : List ManagerEvent) (h : Runs.EveryStep (step beginning) OpensOnce {} events)
    (hobject : (run beginning events).objects[n]? = some object) (hopen : object.connection.closed = false) :
    ⟨object.roomId, n⟩ ∈ (run beginning events).connections := by
  have hstep : ∀ event (m : SerialConnectionManager) (pooled : BilibiliConnectionManager),
      (m.Tabled ∧ Refines m pooled) ∧ pooled.Valid ∧ pooled.Registered → OpensOnce event m → ∃ inputs,
        ((SerialConnectionManager.step beginning event m).Tabled ∧
          Refines (SerialConnectionManager.step beginning event m)
            (Runs.run BilibiliConnectionManager.step pooled inputs)) ∧
        (Runs.run BilibiliConnectionManager.step pooled inputs).Valid ∧
        (Runs.run BilibiliConnectionManager.step pooled inputs).Registered := by
    rintro event m pooled ⟨⟨htabled, h⟩, hregistered⟩ hopens
    obtain ⟨inputs, hharmless, hrefines⟩ := h.step beginning htabled event
    exact ⟨inputs, ⟨htabled.step beginning event, hrefines⟩,
      BilibiliConnectionManager.run_registered hregistered (hharmless ⟨hregistered.2, hopens⟩)⟩
  obtain ⟨inputs, ⟨-, hrefines⟩, hvalid, hregistered⟩ := Runs.exists_run hstep
    ⟨⟨tabled_empty, refines_empty⟩, BilibiliConnectionManager.valid_initial,
      BilibiliConnectionManager.noOrphans_initial.registered⟩ h
  obtain ⟨other, hother, hsame⟩ := hrefines.objects n object hobject
  have hclosed : other.closed = false := hsame.closed.trans hopen
  have hbuilt := hvalid.built other (List.mem_of_getElem? hother)
  have hlive : other.live = true := by simpa [BilibiliConnection.live, hclosed] using hbuilt
  have hentry := hregistered object.roomId n ⟨other, hother, hlive, hsame.roomId⟩
  rwa [hrefines.connections] at hentry

section Objects

-- Each object has lived as a connection does on its own.
def Lived (m : SerialConnectionManager) : Prop :=
  ∀ object ∈ m.objects, ∃ parsed callbacks, object.connection = ConnectionObject.run .websocket parsed callbacks

theorem Lived.runHandler (h : m.Lived) (n : Nat) (callback : ConnectionCallback) :
    (m.runHandler n (ConnectionObject.step .websocket callback)).Lived := by
  unfold SerialConnectionManager.runHandler
  cases hobject : m.objects[n]? with
  | none => exact h
  | some object =>
      intro other hother
      rw [objects_onDeeds] at hother
      rcases List.mem_or_eq_of_mem_set hother with hother | rfl
      · exact h other hother
      · obtain ⟨parsed, callbacks, hlived⟩ := h object (List.mem_of_getElem? hobject)
        refine ⟨parsed, callbacks ++ [callback], ?_⟩
        simp [ConnectionObject.run, hlived]

theorem Lived.close (h : m.Lived) (n : Nat) : (m.close n).Lived := h.runHandler n .close

theorem Lived.dropClosed (h : m.Lived) (roomId : RoomId) : (m.dropClosed roomId).Lived := by
  unfold SerialConnectionManager.dropClosed
  split
  · exact h
  · split
    · exact h.close _
    · exact h

theorem Lived.addObject (h : m.Lived) (roomId : RoomId) (parsed : Bool) :
    (m.addObject ⟨roomId, .initial .websocket parsed⟩).Lived := by
  intro object hobject
  rcases List.mem_append.mp hobject with hobject | hobject
  · exact h object hobject
  · rw [List.mem_singleton.mp hobject]
    exact ⟨parsed, [], rfl⟩

-- An object that is not init()ed lives as one whose config is never fetched.
theorem Lived.openConnection (h : m.Lived) (roomId : RoomId) (parsed : Bool) :
    (m.openConnection roomId parsed).Lived := by
  have hcalled : (m.called (.openConnection roomId)).Lived := h
  have hdropped := hcalled.dropClosed roomId
  unfold SerialConnectionManager.openConnection
  dsimp only
  split
  · exact (hdropped.addObject roomId false).close _
  · exact hdropped.addObject roomId parsed

theorem Lived.closeAllLoop {fuel : Nat} (h : m.Lived) (hloop : closeAllLoop beginning fuel m = some m') :
    m'.Lived := by
  induction fuel generalizing m with
  | zero => cases hloop
  | succ fuel ih =>
      rw [SerialConnectionManager.closeAllLoop] at hloop
      split at hloop
      · obtain rfl := Option.some.inj hloop
        exact h
      · exact ih (h.close _) hloop

theorem Lived.step (h : m.Lived) (event : ManagerEvent) : (step beginning event m).Lived := by
  cases event with
  | openConnection roomId parsed => exact h.openConnection roomId parsed
  | closeConnection roomId => exact of_closeConnection roomId h h.close
  | closeAllConnections =>
      rw [SerialConnectionManager.step, closeAllConnections]
      cases hloop : SerialConnectionManager.closeAllLoop beginning (m.connections.entries.length + 1) m with
      | none => exact h
      | some m' => exact h.closeAllLoop beginning hloop
  | complete connection n code malformed => exact h.runHandler connection (.complete n code malformed)
  | destroy connection => exact of_destroy connection h h.close

theorem run_lived (events : List ManagerEvent) : (run beginning events).Lived :=
  Runs.run_invariant (fun event _ h => h.step beginning event) (by simp [Lived]) events

-- What holds of a connection on its own holds under the manager.
theorem run_reportsOnce (events : List ManagerEvent) :
    ∀ object ∈ (run beginning events).objects, object.connection.ReportsOnce := by
  intro object hobject
  obtain ⟨parsed, callbacks, hlived⟩ := run_lived beginning events object hobject
  rw [hlived]
  exact ConnectionObject.run_reportsOnce .websocket parsed callbacks

end Objects

end SerialConnectionManager

end LiveReceptor.Worker

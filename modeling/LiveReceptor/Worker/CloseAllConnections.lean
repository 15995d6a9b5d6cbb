import LiveReceptor.Worker.SerialConnectionManager

namespace LiveReceptor.Worker

namespace ConnectionObject

variable {kind : ConnectionClass} {c c' : ConnectionObject} {operation : Operation}

-- What a handler does: `deeds` are added to the life, and with each failure that
-- the manager is told goes a call of on_room_closed.
structure Does (kind : ConnectionClass) (c c' : ConnectionObject) (deeds : List Deed) : Prop where
  recorded : Recorded kind c'
  life : c'.life = c.life ++ deeds
  failed : deeds.count .roomFailed ≤ deeds.count .roomClosed

namespace Does

theorem refl (h : Recorded kind c) : Does kind c c [] := ⟨h, (List.append_nil _).symm, by simp⟩

theorem append {deeds more : List Deed} {c'' : ConnectionObject} (h : Does kind c c' deeds)
    (hrecorded : Recorded kind c'') (hlife : c''.life = c'.life ++ more)
    (hfailed : more.count .roomFailed ≤ more.count .roomClosed) : Does kind c c'' (deeds ++ more) where
  recorded := hrecorded
  life := by rw [hlife, h.life, List.append_assoc]
  failed := by
    rw [List.count_append, List.count_append]
    exact Nat.add_le_add h.failed hfailed

theorem closing {deeds : List Deed} (h : Does kind c c' deeds) (failed : Bool) :
    ∃ more, Does kind c (c'.close kind failed) more := by
  cases hclosed : c'.closed with
  | true =>
      rw [close_of_closed hclosed]
      exact ⟨deeds, h⟩
  | false =>
      have hlife := @life_close kind c' hclosed (h.recorded.socket_of_open hclosed) failed
      exact ⟨_, h.append (h.recorded.closing failed) hlife (by cases failed <;> simp)⟩

end Does

theorem does_kept : KeptByDeeds kind fun c' => ∃ deeds, Does kind c c' deeds where
  parse _ h := h.elim fun _ h => ⟨_, h.append (recorded_kept.parse _ h.recorded) rfl (by simp)⟩
  dereference _ h := h.elim fun _ h => ⟨_, h.append (recorded_kept.dereference _ h.recorded) rfl (by simp)⟩
  start operation _ _ h := h.elim fun _ h => ⟨_, h.append (h.recorded.start operation) rfl (by simp)⟩
  close _ h := h.elim fun _ h => h.closing true

-- The failures that are told without a close().
def reportsDirectly (operation : Operation) (code : CompletionCode) : Bool :=
  match operation with
  | .fetchConfig => code != .success
  | .resolve => code != .success && code != .operationAborted
  | _ => false

theorem handle_of_reportsDirectly {code : CompletionCode} (h : reportsDirectly operation code = true)
    (malformed : Bool) : c.handle kind operation code malformed = c.did .roomFailed := by
  cases operation with
  | fetchConfig =>
      have hcode : code ≠ .success := by simpa [reportsDirectly] using h
      rw [handle, if_neg hcode, onFetchFailed]
  | resolve =>
      have hcode : code ≠ .success ∧ code ≠ .operationAborted := by simpa [reportsDirectly] using h
      rw [handle, onResolved, if_neg hcode.1, if_neg hcode.2]
  | connect | sslHandshake | handshake | read | writeJoinRoom | waitHeartbeat | writeHeartbeat => cases h

theorem does_handle {code : CompletionCode} (hrecorded : Recorded kind c)
    (h : reportsDirectly operation code = false) (malformed : Bool) :
    ∃ deeds, Does kind c (c.handle kind operation code malformed) deeds := by
  have hrefl : Does kind c c [] := .refl hrecorded
  cases hearly : operation.early with
  | false => exact does_kept.handle ⟨[], hrefl⟩ hearly code malformed
  | true =>
      cases operation with
      | fetchConfig =>
          have hcode : code = .success := by simpa [reportsDirectly] using h
          rw [handle, if_pos hcode]
          exact ⟨_, hrefl.append (hrecorded.start .resolve) rfl (by simp)⟩
      | resolve =>
          rw [handle, onResolved]
          split
          · exact ⟨_, hrefl.append (hrecorded.start .connect) rfl (by simp)⟩
          · next hcode =>
            have haborted : code = .operationAborted := by simpa [reportsDirectly, hcode] using h
            rw [if_pos haborted]
            exact ⟨[], hrefl⟩
      | connect | sslHandshake | handshake | read | writeJoinRoom | waitHeartbeat | writeHeartbeat =>
          cases hearly

theorem does_complete {n : Nat} {code : CompletionCode} (hrecorded : Recorded kind c)
    (h : ∀ operation ∈ c.pending[n]?, reportsDirectly operation code = false) (malformed : Bool) :
    ∃ deeds, Does kind c (c.complete kind n code malformed) deeds := by
  unfold complete
  split
  · exact ⟨[], .refl hrecorded⟩
  · next operation hn =>
    obtain ⟨deeds, hdoes⟩ := does_handle (hrecorded.ended n) (h operation hn) malformed
    exact ⟨deeds, hdoes.recorded, hdoes.life, hdoes.failed⟩

theorem complete_of_reportsDirectly {n : Nat} {code : CompletionCode} (hn : c.pending[n]? = some operation)
    (h : reportsDirectly operation code = true) (malformed : Bool) :
    c.complete kind n code malformed =
      ({ c with pending := c.pending.eraseIdx n } : ConnectionObject).did .roomFailed := by
  rw [complete, hn]
  exact handle_of_reportsDirectly h malformed

-- In either case the record goes on.
theorem life_complete (hrecorded : Recorded kind c) (n : Nat) (code : CompletionCode) (malformed : Bool) :
    ∃ deeds, (c.complete kind n code malformed).life = c.life ++ deeds := by
  by_cases h : ∀ operation ∈ c.pending[n]?, reportsDirectly operation code = false
  · obtain ⟨deeds, hdoes⟩ := does_complete hrecorded h malformed
    exact ⟨deeds, hdoes.life⟩
  · push Not at h
    obtain ⟨operation, hn, hdirectly⟩ := h
    rw [complete_of_reportsDirectly hn (by simpa using hdirectly)]
    exact ⟨[.roomFailed], rfl⟩

-- The manager is told of a close() once, by an object that was open.
theorem Recorded.closed_append {deeds : List Deed} (h : Recorded kind c) (h' : Recorded kind c')
    (hlife : c'.life = c.life ++ deeds) :
    if .roomClosed ∈ deeds then c.closed = false ∧ c'.closed = true ∧ deeds.count .roomClosed = 1
    else c'.closed = c.closed := by
  have hcount := h'.roomClosed
  rw [hlife, List.count_append, h.roomClosed] at hcount
  split
  · next hmem =>
    have hpos := List.count_pos_iff.mpr hmem
    cases hbefore : c.closed <;> cases hafter : c'.closed <;> simp [hbefore, hafter] at hcount ⊢ <;> omega
  · next hmem =>
    rw [List.count_eq_zero_of_not_mem hmem] at hcount
    cases hbefore : c.closed <;> cases hafter : c'.closed <;> simp [hbefore, hafter] at hcount ⊢

end ConnectionObject

namespace SerialConnectionManager

open ConnectionObject

variable {m : SerialConnectionManager} {roomId : RoomId} {n : Nat} {deeds : List Deed}

section Deeds

theorem objects_onDeeds : (deeds.foldl (onDeed roomId) m).objects = m.objects := by
  induction deeds generalizing m with
  | nil => rfl
  | cons deed rest ih =>
      rw [List.foldl_cons, ih]
      cases deed <;> rfl

theorem connections_onDeeds : (deeds.foldl (onDeed roomId) m).connections =
    if .roomClosed ∈ deeds then m.connections.erase roomId else m.connections := by
  induction deeds generalizing m with
  | nil => rfl
  | cons deed rest ih =>
      rw [List.foldl_cons, ih]
      cases deed with
      | roomClosed =>
          have htwice : (m.connections.erase roomId).erase roomId = m.connections.erase roomId :=
            Keyed.filter_filter_self _ _
          simp [onDeed, onRoomClosed, htwice]
      | start | parse | dereference | close | roomFailed => simp [onDeed, called]

theorem log_onDeeds : (deeds.foldl (onDeed roomId) m).log =
    m.log ++ List.replicate (deeds.count .roomFailed) (.roomFailed roomId) := by
  induction deeds generalizing m with
  | nil => simp
  | cons deed rest ih =>
      rw [List.foldl_cons, ih]
      cases deed with
      | roomFailed => simp [onDeed, called, List.replicate_succ]
      | start | parse | dereference | close | roomClosed => simp [onDeed, onRoomClosed]

end Deeds

-- The table between handlers: an entry leads to an object of its room which is
-- not closed.
structure Tabled (m : SerialConnectionManager) : Prop where
  recorded : ∀ object ∈ m.objects, Recorded .websocket object.connection
  entries : ∀ entry ∈ m.connections, ∃ object, m.objects[entry.connection]? = some object ∧
    object.roomId = entry.roomId ∧ object.connection.closed = false

section Handler

variable {handler : ConnectionObject → ConnectionObject} {object : RoomConnection}

theorem runHandler_eq (hobject : m.objects[n]? = some object)
    (hlife : (handler object.connection).life = object.connection.life ++ deeds) :
    m.runHandler n handler = deeds.foldl (onDeed object.roomId)
      { m with objects := m.objects.set n { object with connection := handler object.connection } } := by
  simp only [runHandler, hobject, hlife, List.drop_left]

theorem runHandler_of_none (h : m.objects[n]? = none) : m.runHandler n handler = m := by
  simp only [runHandler, h]

theorem objects_runHandler (hobject : m.objects[n]? = some object)
    (hlife : (handler object.connection).life = object.connection.life ++ deeds) :
    (m.runHandler n handler).objects =
      m.objects.set n { object with connection := handler object.connection } := by
  rw [runHandler_eq hobject hlife, objects_onDeeds]

theorem connections_runHandler (hobject : m.objects[n]? = some object)
    (hlife : (handler object.connection).life = object.connection.life ++ deeds) :
    (m.runHandler n handler).connections =
      if .roomClosed ∈ deeds then m.connections.erase object.roomId else m.connections := by
  rw [runHandler_eq hobject hlife, connections_onDeeds]

theorem log_runHandler (hobject : m.objects[n]? = some object)
    (hlife : (handler object.connection).life = object.connection.life ++ deeds) :
    (m.runHandler n handler).log =
      m.log ++ List.replicate (deeds.count .roomFailed) (.roomFailed object.roomId) := by
  rw [runHandler_eq hobject hlife, log_onDeeds]

-- A handler closes its object and takes out the entry of its room in one.
theorem Tabled.runHandler (h : m.Tabled)
    (hhandler : ∀ c, Recorded .websocket c →
      Recorded .websocket (handler c) ∧ ∃ deeds, (handler c).life = c.life ++ deeds) :
    (m.runHandler n handler).Tabled := by
  cases hobject : m.objects[n]? with
  | none => rwa [runHandler_of_none hobject]
  | some object =>
      have hmem := List.mem_of_getElem? hobject
      have hrecorded := h.recorded object hmem
      obtain ⟨hrecorded', deeds, hlife⟩ := hhandler object.connection hrecorded
      constructor
      · rw [objects_runHandler hobject hlife]
        intro other hother
        rcases List.mem_or_eq_of_mem_set hother with hother | rfl
        · exact h.recorded other hother
        · exact hrecorded'
      · intro entry hentry
        rw [connections_runHandler hobject hlife] at hentry
        rw [objects_runHandler hobject hlife]
        have hbefore : entry ∈ m.connections := by
          split at hentry
          · exact (Keyed.mem_erase.mp hentry).1
          · exact hentry
        obtain ⟨found, hfound, hroom, hopen⟩ := h.entries entry hbefore
        by_cases hn : entry.connection = n
        · subst hn
          obtain rfl : object = found := by
            rw [hobject] at hfound
            exact Option.some.inj hfound
          refine ⟨_, List.getElem?_set_self (List.getElem?_eq_some_iff.mp hobject).1, hroom, ?_⟩
          -- Had it been closed, the entry would be gone.
          have hquiet : .roomClosed ∉ deeds := by
            intro hmem
            rw [if_pos hmem] at hentry
            exact (Keyed.mem_erase.mp hentry).2 hroom.symm
          have hclosed := hrecorded.closed_append hrecorded' hlife
          rwa [if_neg hquiet, hopen] at hclosed
        · exact ⟨found, by rwa [List.getElem?_set_ne (Ne.symm hn)], hroom, hopen⟩

end Handler

section Close

variable {object : RoomConnection}

theorem life_close_exists {c : ConnectionObject} (hrecorded : Recorded .websocket c) :
    ∃ deeds, (c.close .websocket false).life = c.life ++ deeds := by
  obtain ⟨deeds, hdoes⟩ := (Does.refl hrecorded).closing false
  exact ⟨deeds, hdoes.life⟩

theorem Tabled.close (h : m.Tabled) (n : Nat) : (m.close n).Tabled :=
  h.runHandler fun _ hrecorded => ⟨hrecorded.closing false, life_close_exists hrecorded⟩

theorem Tabled.complete (h : m.Tabled) (connection n : Nat) (code : CompletionCode) (malformed : Bool) :
    (m.complete connection n code malformed).Tabled :=
  h.runHandler fun _ hrecorded =>
    ⟨recorded_step (.complete n code malformed) hrecorded, life_complete hrecorded n code malformed⟩

-- close(false) by the manager: nothing is reported, and the entry of the room goes
-- unless the object was closed before.
theorem close_spec (h : m.Tabled) (hobject : m.objects[n]? = some object) :
    (m.close n).log = m.log ∧ (m.close n).objects.length = m.objects.length ∧
      (m.close n).connections =
        if object.connection.closed then m.connections else m.connections.erase object.roomId := by
  have hrecorded := h.recorded object (List.mem_of_getElem? hobject)
  cases hclosed : object.connection.closed with
  | true =>
      have hlife : (object.connection.close .websocket false).life = object.connection.life ++ [] := by
        rw [close_of_closed hclosed, List.append_nil]
      rw [SerialConnectionManager.close, log_runHandler hobject hlife, objects_runHandler hobject hlife,
        connections_runHandler hobject hlife]
      simp
  | false =>
      have hlife := @life_close .websocket _ hclosed (hrecorded.socket_of_open hclosed) false
      rw [SerialConnectionManager.close, log_runHandler hobject hlife, objects_runHandler hobject hlife,
        connections_runHandler hobject hlife]
      simp

theorem close_of_none (hobject : m.objects[n]? = none) : m.close n = m := runHandler_of_none hobject

theorem log_close (h : m.Tabled) (n : Nat) : (m.close n).log = m.log := by
  cases hobject : m.objects[n]? with
  | none => rw [close_of_none hobject]
  | some object => exact (close_spec h hobject).1

theorem mem_of_mem_close {entry : ConnectionEntry} (h : m.Tabled) (hentry : entry ∈ (m.close n).connections) :
    entry ∈ m.connections := by
  cases hobject : m.objects[n]? with
  | none => rwa [close_of_none hobject] at hentry
  | some object =>
      rw [(close_spec h hobject).2.2] at hentry
      split at hentry
      · exact hentry
      · exact (Keyed.mem_erase.mp hentry).1

-- An entry of the table is not closed, so that closing it takes it out.
theorem connections_close_entry {entry : ConnectionEntry} (h : m.Tabled) (hentry : entry ∈ m.connections) :
    (m.close entry.connection).connections = m.connections.erase entry.roomId := by
  obtain ⟨object, hobject, hroom, hopen⟩ := h.entries entry hentry
  rw [(close_spec h hobject).2.2, hopen, hroom]
  rfl

end Close

section CloseAll

variable (beginning : Beginning)

-- Every turn of the loop takes one entry out.
theorem closeAllLoop_spec {fuel : Nat} (h : m.Tabled) (hfuel : m.connections.entries.length < fuel) :
    ∃ m', closeAllLoop beginning fuel m = some m' ∧ m'.Tabled ∧ m'.connections = ∅ ∧ m'.log = m.log := by
  induction fuel generalizing m with
  | zero => omega
  | succ fuel ih =>
      rw [closeAllLoop]
      cases hfirst : beginning.first m.connections with
      | none => exact ⟨m, rfl, h, beginning.empty _ hfirst, rfl⟩
      | some entry =>
          have hentry := beginning.mem _ _ hfirst
          have hless : (m.close entry.connection).connections.entries.length <
              m.connections.entries.length := by
            rw [connections_close_entry h hentry]
            exact Keyed.length_erase_lt hentry
          obtain ⟨m', hloop, htabled, hempty, hlog⟩ := ih (h.close entry.connection) (by omega)
          exact ⟨m', hloop, htabled, hempty, hlog.trans (log_close h _)⟩

theorem closeAllConnections_spec (h : m.Tabled) :
    (m.closeAllConnections beginning).Tabled ∧ (m.closeAllConnections beginning).connections = ∅ ∧
      (m.closeAllConnections beginning).log = m.log := by
  obtain ⟨m', hloop, hspec⟩ := closeAllLoop_spec beginning h (Nat.lt_succ_self _)
  rw [closeAllConnections, hloop]
  exact hspec

end CloseAll

section Open

theorem Tabled.called (h : m.Tabled) (call : ManagerCall) : (m.called call).Tabled := ⟨h.recorded, h.entries⟩

theorem Tabled.addObject {object : RoomConnection} (h : m.Tabled)
    (hrecorded : Recorded .websocket object.connection) : (m.addObject object).Tabled := by
  constructor
  · intro other hother
    rcases List.mem_append.mp hother with hother | hother
    · exact h.recorded other hother
    · rwa [List.mem_singleton.mp hother]
  · intro entry hentry
    obtain ⟨found, hfound, hspec⟩ := h.entries entry hentry
    have hlength := (List.getElem?_eq_some_iff.mp hfound).1
    exact ⟨found, (List.getElem?_append_left hlength).trans hfound, hspec⟩

-- So there is never a closed connection to make room for the new one.
theorem dropClosed_eq (h : m.Tabled) (roomId : RoomId) : m.dropClosed roomId = m := by
  unfold dropClosed
  cases hfind : m.connections.find? roomId with
  | none => rfl
  | some entry =>
      obtain ⟨object, hobject, -, hopen⟩ := h.entries entry (Keyed.find?_eq_some.mp hfind).1
      simp [hobject, hopen]

theorem openConnection_of_hasKey (h : m.Tabled) (hkey : m.connections.HasKey roomId) (parsed : Bool) :
    m.openConnection roomId parsed =
      ((m.called (.openConnection roomId)).addObject ⟨roomId, {}⟩).close m.objects.length := by
  simp only [openConnection, dropClosed_eq (h.called _)]
  exact if_pos hkey

theorem openConnection_of_not_hasKey (h : m.Tabled) (hkey : ¬m.connections.HasKey roomId) (parsed : Bool) :
    m.openConnection roomId parsed =
      { (m.called (.openConnection roomId)).addObject ⟨roomId, .initial .websocket parsed⟩ with
        connections := m.connections.insert ⟨roomId, m.objects.length⟩ } := by
  simp only [openConnection, dropClosed_eq (h.called _)]
  exact if_neg hkey

-- The object that is built for nothing takes the room's entry with it.
theorem connections_openConnection_of_hasKey (h : m.Tabled) (hkey : m.connections.HasKey roomId)
    (parsed : Bool) : (m.openConnection roomId parsed).connections = m.connections.erase roomId := by
  have hbuilt : Tabled ((m.called (.openConnection roomId)).addObject ⟨roomId, {}⟩) :=
    (h.called _).addObject recorded_new
  have hobject : ((m.called (.openConnection roomId)).addObject ⟨roomId, {}⟩).objects[m.objects.length]? =
      some ⟨roomId, {}⟩ := List.getElem?_concat_length
  rw [openConnection_of_hasKey h hkey, (close_spec hbuilt hobject).2.2]
  rfl

theorem log_openConnection (h : m.Tabled) (roomId : RoomId) (parsed : Bool) :
    (m.openConnection roomId parsed).log = m.log ++ [.openConnection roomId] := by
  by_cases hkey : m.connections.HasKey roomId
  · have hbuilt : Tabled ((m.called (.openConnection roomId)).addObject ⟨roomId, {}⟩) :=
      (h.called _).addObject recorded_new
    rw [openConnection_of_hasKey h hkey, log_close hbuilt]
    rfl
  · rw [openConnection_of_not_hasKey h hkey]
    rfl

theorem Tabled.openConnection (h : m.Tabled) (roomId : RoomId) (parsed : Bool) :
    (m.openConnection roomId parsed).Tabled := by
  by_cases hkey : m.connections.HasKey roomId
  · rw [openConnection_of_hasKey h hkey]
    exact ((h.called _).addObject recorded_new).close _
  · rw [openConnection_of_not_hasKey h hkey]
    have hbuilt := @Tabled.addObject _ ⟨roomId, .initial .websocket parsed⟩ (h.called (.openConnection roomId))
      (recorded_initial .websocket parsed)
    refine ⟨hbuilt.recorded, fun entry hentry => ?_⟩
    rcases (Keyed.mem_insert hkey).mp hentry with hentry | rfl
    · exact hbuilt.entries entry hentry
    · refine ⟨⟨roomId, .initial .websocket parsed⟩, List.getElem?_concat_length, rfl, ?_⟩
      cases parsed <;> rfl

end Open

section Runs

variable (beginning : Beginning)

-- close_connection and the destructor close one object or none.
theorem of_closeConnection {P : SerialConnectionManager → Prop} (roomId : RoomId) (hsame : P m)
    (hclose : ∀ n, P (m.close n)) : P (m.closeConnection roomId) := by
  unfold SerialConnectionManager.closeConnection
  split
  · exact hsame
  · exact hclose _

theorem of_destroy {P : SerialConnectionManager → Prop} (connection : Nat) (hsame : P m)
    (hclose : ∀ n, P (m.close n)) : P (m.destroy connection) := by
  unfold SerialConnectionManager.destroy
  split
  · exact hsame
  · exact hclose _

theorem Tabled.step (event : ManagerEvent) (h : m.Tabled) : (step beginning event m).Tabled := by
  cases event with
  | openConnection roomId parsed => exact h.openConnection roomId parsed
  | closeConnection roomId => exact of_closeConnection roomId h h.close
  | closeAllConnections => exact (closeAllConnections_spec beginning h).1
  | complete connection n code malformed => exact h.complete connection n code malformed
  | destroy connection => exact of_destroy connection h h.close

theorem tabled_empty : Tabled {} := ⟨by simp, by simp⟩

theorem run_tabled (events : List ManagerEvent) : (run beginning events).Tabled :=
  Runs.run_invariant (fun event _ h => h.step beginning event) tabled_empty events

-- Between handlers no entry is closed; so the loop of close_all_connections ends
-- wherever it is started, with the table empty and nothing reported.
theorem run_closeAll (events : List ManagerEvent) :
    (∀ entry ∈ (run beginning events).connections, ∃ object,
      (run beginning events).objects[entry.connection]? = some object ∧ object.connection.closed = false) ∧
    ∀ fuel, (run beginning events).connections.entries.length < fuel →
      ∃ m', closeAllLoop beginning fuel (run beginning events) = some m' ∧ m'.connections = ∅ ∧
        m'.log = (run beginning events).log := by
  have htabled := run_tabled beginning events
  refine ⟨fun entry hentry => ?_, fun fuel hfuel => ?_⟩
  · obtain ⟨object, hobject, -, hopen⟩ := htabled.entries entry hentry
    exact ⟨object, hobject, hopen⟩
  · obtain ⟨m', hloop, -, hempty, hlog⟩ := closeAllLoop_spec beginning htabled hfuel
    exact ⟨m', hloop, hempty, hlog⟩

end Runs

end SerialConnectionManager

end LiveReceptor.Worker

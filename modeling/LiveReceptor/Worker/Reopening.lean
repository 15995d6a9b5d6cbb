import LiveReceptor.Worker.CloseAllConnections

namespace LiveReceptor.Worker.SerialConnectionManager

open ConnectionObject

-- The room was reported as failed, and has not been opened since.
def Reported (roomId : RoomId) (log : List ManagerCall) : Prop :=
  Since (fun before => ∃ earlier, before = earlier ++ [.roomFailed roomId])
    (fun call => call = .openConnection roomId) log

-- open_connection would build a connection, init() it and enter it.
structure Reopens (roomId : RoomId) (parsed : Bool) (m : SerialConnectionManager) : Prop where
  entry : (m.openConnection roomId parsed).connections.find? roomId = some ⟨roomId, m.objects.length⟩
  fresh : (m.openConnection roomId parsed).objects[m.objects.length]? =
    some ⟨roomId, .initial .websocket parsed⟩
  unclosed : (ConnectionObject.initial .websocket parsed).closed = false

def FailedReopen (m : SerialConnectionManager) : Prop :=
  ∀ roomId, Reported roomId m.log → ∀ parsed, Reopens roomId parsed m

-- A failure that is reported without a close() finds no entry of the room.
def FailureUnlisted (event : ManagerEvent) (m : SerialConnectionManager) : Prop :=
  match event with
  | .complete connection n code _ => ∀ object ∈ m.objects[connection]?,
      (∃ operation ∈ object.connection.pending[n]?, reportsDirectly operation code = true) →
      ¬m.connections.HasKey object.roomId
  | _ => True

variable {m m' : SerialConnectionManager} {roomId : RoomId}

section Log

theorem reported_open_iff {other : RoomId} {log : List ManagerCall} :
    Reported roomId (log ++ [.openConnection other]) ↔ other ≠ roomId ∧ Reported roomId log := by
  rw [Reported, Since.concat_iff]
  constructor
  · rintro (⟨earlier, hearlier⟩ | ⟨h, hother⟩)
    · simpa using (List.append_inj' hearlier rfl).2
    · exact ⟨fun he => hother (he ▸ rfl), h⟩
  · rintro ⟨hother, h⟩
    exact Or.inr ⟨h, fun he => hother (ManagerCall.openConnection.inj he)⟩

theorem reported_failed_iff {other : RoomId} {log : List ManagerCall} :
    Reported roomId (log ++ [.roomFailed other]) ↔ other = roomId ∨ Reported roomId log := by
  rw [Reported, Since.concat_iff]
  constructor
  · rintro (⟨earlier, hearlier⟩ | ⟨h, -⟩)
    · have hlast := (List.append_inj' hearlier rfl).2
      exact Or.inl (by simpa using hlast)
    · exact Or.inr h
  · rintro (rfl | h)
    · exact Or.inl ⟨log, rfl⟩
    · exact Or.inr ⟨h, by simp⟩

theorem reported_failures_iff {other : RoomId} {log : List ManagerCall} {k : Nat} :
    Reported roomId (log ++ List.replicate k (.roomFailed other)) ↔
      0 < k ∧ other = roomId ∨ Reported roomId log := by
  induction k with
  | zero => simp
  | succ k ih =>
      rw [List.replicate_succ', ← List.append_assoc, reported_failed_iff, ih]
      grind

end Log

-- By the invariant of the table, all that matters is whether the room has an entry.
def Freed (m : SerialConnectionManager) : Prop :=
  ∀ roomId, Reported roomId m.log → ¬m.connections.HasKey roomId

theorem reopens_iff (h : m.Tabled) (parsed : Bool) :
    Reopens roomId parsed m ↔ ¬m.connections.HasKey roomId := by
  constructor
  · intro hreopens hkey
    have hentry := Keyed.hasKey_of_find? hreopens.entry
    rw [connections_openConnection_of_hasKey h hkey] at hentry
    exact (Keyed.hasKey_erase.mp hentry).2 rfl
  · intro hkey
    refine ⟨?_, ?_, by cases parsed <;> rfl⟩
    · rw [openConnection_of_not_hasKey h hkey]
      exact Keyed.find?_eq_some.mpr ⟨(Keyed.mem_insert hkey).mpr (Or.inr rfl), rfl⟩
    · rw [openConnection_of_not_hasKey h hkey]
      exact List.getElem?_concat_length

theorem failedReopen_iff (h : m.Tabled) : FailedReopen m ↔ Freed m := by
  constructor
  · exact fun hreopen roomId hreported => (reopens_iff h true).mp (hreopen roomId hreported true)
  · exact fun hfreed roomId hreported parsed => (reopens_iff h parsed).mpr (hfreed roomId hreported)

section Steps

theorem Freed.of_le (h : m.Freed) (hlog : m'.log = m.log)
    (hconnections : ∀ entry ∈ m'.connections, entry ∈ m.connections) : m'.Freed := by
  rintro roomId hreported ⟨entry, hentry, hroom⟩
  rw [hlog] at hreported
  exact h roomId hreported ⟨entry, hconnections entry hentry, hroom⟩

theorem Freed.close (h : m.Freed) (htabled : m.Tabled) (n : Nat) : (m.close n).Freed :=
  h.of_le (log_close htabled n) fun _ hentry => mem_of_mem_close htabled hentry

theorem Freed.openConnection (h : m.Freed) (htabled : m.Tabled) (roomId : RoomId) (parsed : Bool) :
    (m.openConnection roomId parsed).Freed := by
  intro other hreported hkey
  rw [log_openConnection htabled, reported_open_iff] at hreported
  obtain ⟨hother, hreported⟩ := hreported
  by_cases hroom : m.connections.HasKey roomId
  · rw [connections_openConnection_of_hasKey htabled hroom] at hkey
    exact h other hreported (Keyed.hasKey_erase.mp hkey).1
  · rw [openConnection_of_not_hasKey htabled hroom] at hkey
    rcases Keyed.hasKey_insert.mp hkey with hkey | he
    · exact h other hreported hkey
    · exact hother he.symm

-- A handler that closes takes the entry out before the next open_connection.
theorem Freed.complete {connection n : Nat} {code : CompletionCode} {malformed : Bool} {object : RoomConnection}
    {deeds : List Deed} (h : m.Freed) (hobject : m.objects[connection]? = some object)
    (hdoes : Does .websocket object.connection
      (object.connection.complete .websocket n code malformed) deeds) :
    (m.complete connection n code malformed).Freed := by
  intro roomId hreported hkey
  rw [SerialConnectionManager.complete, log_runHandler hobject hdoes.life, reported_failures_iff] at hreported
  rw [SerialConnectionManager.complete, connections_runHandler hobject hdoes.life] at hkey
  rcases hreported with ⟨hfailed, rfl⟩ | hreported
  · have hclosed : .roomClosed ∈ deeds := List.count_pos_iff.mp (Nat.lt_of_lt_of_le hfailed hdoes.failed)
    rw [if_pos hclosed] at hkey
    exact (Keyed.hasKey_erase.mp hkey).2 rfl
  · split at hkey
    · exact h roomId hreported (Keyed.hasKey_erase.mp hkey).1
    · exact h roomId hreported hkey

-- One that reports alone leaves it where it was.
theorem freed_complete_directly_iff {connection n : Nat} {code : CompletionCode} {malformed : Bool}
    {object : RoomConnection} {operation : Operation} (h : m.Freed)
    (hobject : m.objects[connection]? = some object) (hn : object.connection.pending[n]? = some operation)
    (hdirectly : reportsDirectly operation code = true) :
    (m.complete connection n code malformed).Freed ↔ ¬m.connections.HasKey object.roomId := by
  have hlife : (object.connection.complete .websocket n code malformed).life =
      object.connection.life ++ [.roomFailed] := by
    rw [complete_of_reportsDirectly hn hdirectly]
    rfl
  have hlog := log_runHandler hobject hlife
  have hconnections := connections_runHandler hobject hlife
  rw [if_neg (by simp)] at hconnections
  have hlogged : (m.complete connection n code malformed).log = m.log ++ [.roomFailed object.roomId] := hlog
  constructor
  · intro hfreed hkey
    have hreported : Reported object.roomId (m.complete connection n code malformed).log := by
      rw [hlogged, reported_failed_iff]
      exact Or.inl rfl
    exact hfreed object.roomId hreported (hconnections.symm ▸ hkey)
  · intro hkey roomId hreported
    rw [SerialConnectionManager.complete, hconnections]
    rw [hlogged, reported_failed_iff] at hreported
    rcases hreported with rfl | hreported
    · exact hkey
    · exact h roomId hreported

theorem freed_complete_iff {connection n : Nat} {code : CompletionCode} {malformed : Bool} (h : m.Freed)
    (htabled : m.Tabled) : (m.complete connection n code malformed).Freed ↔
      FailureUnlisted (.complete connection n code malformed) m := by
  rw [FailureUnlisted]
  cases hobject : m.objects[connection]? with
  | none =>
      rw [SerialConnectionManager.complete, runHandler_of_none hobject]
      simp [h]
  | some object =>
      have hrecorded := htabled.recorded object (List.mem_of_getElem? hobject)
      simp only [Option.mem_some_iff, forall_eq']
      by_cases hdirectly : ∃ operation ∈ object.connection.pending[n]?, reportsDirectly operation code = true
      · obtain ⟨operation, hn, hreports⟩ := hdirectly
        rw [freed_complete_directly_iff h hobject hn hreports]
        exact ⟨fun hkey _ => hkey, fun hkey => hkey ⟨operation, hn, hreports⟩⟩
      · have hdoes : ∃ deeds, Does .websocket object.connection
            (object.connection.complete .websocket n code malformed) deeds := by
          apply does_complete hrecorded
          intro operation hn
          by_contra hreports
          exact hdirectly ⟨operation, hn, by simpa using hreports⟩
        obtain ⟨deeds, hdoes⟩ := hdoes
        exact ⟨fun _ hsome => absurd hsome hdirectly, fun _ => h.complete hobject hdoes⟩

theorem freed_step_iff (beginning : Beginning) (event : ManagerEvent) (h : m.Freed) (htabled : m.Tabled) :
    (step beginning event m).Freed ↔ FailureUnlisted event m := by
  cases event with
  | openConnection roomId parsed => exact iff_of_true (h.openConnection htabled roomId parsed) trivial
  | closeConnection roomId => exact iff_of_true (of_closeConnection roomId h (h.close htabled)) trivial
  | closeAllConnections =>
      obtain ⟨-, hempty, hlog⟩ := closeAllConnections_spec beginning htabled
      refine iff_of_true (h.of_le hlog fun entry hentry => ?_) trivial
      rw [step, hempty] at hentry
      exact absurd hentry (Keyed.notMem_empty entry)
  | complete connection n code malformed => exact freed_complete_iff h htabled
  | destroy connection => exact iff_of_true (of_destroy connection h (h.close htabled)) trivial

end Steps

-- A failed room can be reopened all through a run exactly when none of its
-- failures is one of those that leave the room its entry.
theorem run_failedReopen_iff (beginning : Beginning) (events : List ManagerEvent) :
    Runs.EveryState (step beginning) FailedReopen {} events ↔
      Runs.EveryStep (step beginning) FailureUnlisted {} events := by
  have hempty : FailedReopen {} := by
    intro roomId hreported
    obtain ⟨before, after, hnil, ⟨earlier, rfl⟩, -⟩ := hreported
    simp at hnil
  refine @Runs.everyState_iff_everyStep _ _ _ Tabled FailedReopen FailureUnlisted
    (fun event _ h => h.step beginning event) ?_ _ tabled_empty hempty events
  intro event m h hreopen
  rw [failedReopen_iff (h.step beginning event)]
  exact freed_step_iff beginning event ((failedReopen_iff h).mp hreopen) h

-- Any order of the table that puts its oldest entry first.
def oldestFirst : Beginning where
  first connections := connections.entries.head?
  mem _ _ h := List.mem_of_head? h
  empty connections h := by
    obtain ⟨entries, nodup⟩ := connections
    obtain rfl : entries = [] := List.head?_eq_none_iff.mp h
    rfl

-- The config of room 1 cannot be fetched, which is reported; the connection stays
-- in the table.
theorem run_failedReopen_refuted :
    ¬Runs.EveryState (step oldestFirst) FailedReopen {}
      [.openConnection 1 true, .complete 0 0 .other false] := by
  intro h
  have hreopens := h.2.2 1 ⟨[.openConnection 1, .roomFailed 1], [], rfl, ⟨[.openConnection 1], rfl⟩, by simp⟩ true
  exact absurd hreopens.entry (by decide)

end LiveReceptor.Worker.SerialConnectionManager

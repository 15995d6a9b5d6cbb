import LiveReceptor.Worker.BilibiliConnectionManager

namespace LiveReceptor.Worker.BilibiliConnectionManager

variable {m : BilibiliConnectionManager} {r r' : RoomId} {c d : Nat}

-- The connection is init()ed and not closed.
def Live (m : BilibiliConnectionManager) (roomId : RoomId) (connection : Nat) : Prop :=
  ∃ object, m.objects[connection]? = some object ∧ object.live = true ∧ object.roomId = roomId

def hasLive (roomId : RoomId) (m : BilibiliConnectionManager) : Bool :=
  m.objects.any fun object => object.live && object.roomId == roomId

theorem hasLive_iff : m.hasLive r = true ↔ ∃ c, m.Live r c := by
  simp only [hasLive, List.any_eq_true, Bool.and_eq_true, beq_iff_eq, Live]
  constructor
  · rintro ⟨object, hmem, hlive, hroom⟩
    obtain ⟨c, hc⟩ := List.mem_iff_getElem?.mp hmem
    exact ⟨c, object, hc, hlive, hroom⟩
  · rintro ⟨c, object, hc, hlive, hroom⟩
    exact ⟨object, List.mem_of_getElem? hc, hlive, hroom⟩

theorem live_room_unique (h : m.Live r c) (h' : m.Live r' c) : r = r' := by
  obtain ⟨object, hc, -, rfl⟩ := h
  obtain ⟨object', hc', -, rfl⟩ := h'
  rw [Option.some.inj (hc.symm.trans hc')]

section Operations

theorem objects_setClosed : (m.setClosed c).objects[d]? =
    m.objects[d]?.map fun object => if c = d then { object with closed := true } else object := by
  rw [setClosed]
  dsimp only
  rw [List.getElem?_modify]
  rfl

@[simp] theorem live_setClosed : (m.setClosed c).Live r d ↔ m.Live r d ∧ d ≠ c := by
  unfold Live
  rw [objects_setClosed]
  constructor
  · rintro ⟨object, hd, hlive, hroom⟩
    obtain ⟨before, hbefore, rfl⟩ := Option.map_eq_some_iff.mp hd
    by_cases hcd : c = d
    · simp [hcd, BilibiliConnection.live] at hlive
    · rw [if_neg hcd] at hlive hroom
      exact ⟨⟨before, hbefore, hlive, hroom⟩, fun hdc => hcd hdc.symm⟩
  · rintro ⟨⟨object, hd, hlive, hroom⟩, hne⟩
    exact ⟨object, by rw [hd, Option.map_some, if_neg fun hcd => hne hcd.symm], hlive, hroom⟩

@[simp] theorem live_onRoomClosed : (m.onRoomClosed r').Live r d ↔ m.Live r d := Iff.rfl

theorem close_of_closed {object : BilibiliConnection} (hc : m.objects[c]? = some object)
    (hclosed : object.closed = true) : m.close c = m := by
  unfold close
  rw [hc]
  exact if_pos hclosed

theorem close_of_open {object : BilibiliConnection} (hc : m.objects[c]? = some object)
    (hopen : object.closed = false) : m.close c = (m.setClosed c).onRoomClosed object.roomId := by
  unfold close
  rw [hc]
  exact if_neg (by simp [hopen])

@[simp] theorem live_close : (m.close c).Live r d ↔ m.Live r d ∧ d ≠ c := by
  unfold close
  split
  · rename_i hnone
    refine ⟨fun h => ⟨h, fun hdc => ?_⟩, fun h => h.1⟩
    obtain ⟨object, hd, -⟩ := h
    rw [hdc, hnone] at hd
    cases hd
  · rename_i object hc
    split
    · rename_i hclosed
      refine ⟨fun h => ⟨h, fun hdc => ?_⟩, fun h => h.1⟩
      obtain ⟨object', hd, hlive, -⟩ := h
      obtain rfl := Option.some.inj (hc.symm.trans (hdc ▸ hd))
      simp [BilibiliConnection.live, hclosed] at hlive
    · rw [live_onRoomClosed, live_setClosed]

theorem live_addObject {object : BilibiliConnection} : (m.addObject object).Live r d ↔
    m.Live r d ∨ (d = m.objects.length ∧ object.live = true ∧ object.roomId = r) := by
  unfold Live addObject
  dsimp only
  constructor
  · rintro ⟨found, hd, hlive, hroom⟩
    rcases Nat.lt_trichotomy d m.objects.length with hlt | rfl | hgt
    · rw [List.getElem?_append_left hlt] at hd
      exact Or.inl ⟨found, hd, hlive, hroom⟩
    · rw [List.getElem?_concat_length] at hd
      obtain rfl := Option.some.inj hd
      exact Or.inr ⟨rfl, hlive, hroom⟩
    · rw [List.getElem?_eq_none (by rw [List.length_append, List.length_singleton]; omega)] at hd
      cases hd
  · rintro (⟨found, hd, hlive, hroom⟩ | ⟨rfl, hlive, hroom⟩)
    · refine ⟨found, ?_, hlive, hroom⟩
      rw [List.getElem?_append_left (List.getElem?_eq_some_iff.mp hd).1]
      exact hd
    · exact ⟨object, List.getElem?_concat_length, hlive, hroom⟩

-- The object that emplace did not take, once its destructor has run.
theorem close_addObject : (m.addObject { roomId := r }).close m.objects.length =
    (m.addObject { roomId := r, closed := true }).onRoomClosed r := by
  have hlast : (m.addObject { roomId := r }).objects[m.objects.length]? =
      some { roomId := r } := List.getElem?_concat_length
  rw [close_of_open hlast rfl]
  unfold setClosed addObject
  congr 1
  simp only [List.modify_eq_set_getElem?, List.getElem?_concat_length]
  simp

end Operations

-- What holds of the objects and the entries whatever the pool threads do.
structure Valid (m : BilibiliConnectionManager) : Prop where
  entries : ∀ entry ∈ m.connections, ∃ object, m.objects[entry.connection]? = some object ∧
    object.roomId = entry.roomId ∧ object.initialized = true
  built : ∀ object ∈ m.objects, object.initialized = true ∨ object.closed = true

section Valid

theorem valid_initial : Valid {} where
  entries := fun entry hentry => absurd hentry (Keyed.notMem_empty entry)
  built := fun _ hobject => absurd hobject List.not_mem_nil

theorem Valid.of_eq {m' : BilibiliConnectionManager} (h : Valid m) (hobjects : m'.objects = m.objects)
    (hconnections : ∀ entry ∈ m'.connections, entry ∈ m.connections) : Valid m' := by
  constructor
  · intro entry hentry
    rw [hobjects]
    exact h.entries entry (hconnections entry hentry)
  · rw [hobjects]
    exact h.built

theorem Valid.onRoomClosed (h : Valid m) (roomId : RoomId) : Valid (m.onRoomClosed roomId) :=
  h.of_eq rfl fun _ hentry => (Keyed.mem_erase.mp hentry).1

theorem Valid.setClosed (h : Valid m) (connection : Nat) : Valid (m.setClosed connection) := by
  constructor
  · intro entry hentry
    obtain ⟨object, hobject, hroom, hinit⟩ := h.entries entry hentry
    rw [objects_setClosed, hobject, Option.map_some]
    split
    · exact ⟨_, rfl, hroom, hinit⟩
    · exact ⟨_, rfl, hroom, hinit⟩
  · intro object hobject
    obtain ⟨d, hd⟩ := List.mem_iff_getElem?.mp hobject
    rw [objects_setClosed] at hd
    obtain ⟨before, hbefore, rfl⟩ := Option.map_eq_some_iff.mp hd
    split
    · exact Or.inr rfl
    · exact h.built before (List.mem_of_getElem? hbefore)

theorem Valid.close (h : Valid m) (connection : Nat) : Valid (m.close connection) := by
  unfold BilibiliConnectionManager.close
  split
  · exact h
  · split
    · exact h
    · exact (h.setClosed connection).onRoomClosed _

theorem Valid.addObject (h : Valid m) {object : BilibiliConnection}
    (hobject : object.initialized = true ∨ object.closed = true) : Valid (m.addObject object) := by
  constructor
  · intro entry hentry
    obtain ⟨found, hfound, hrest⟩ := h.entries entry hentry
    refine ⟨found, ?_, hrest⟩
    exact (List.getElem?_append_left (List.getElem?_eq_some_iff.mp hfound).1).trans hfound
  · intro found hfound
    rcases List.mem_append.mp hfound with hold | hnew
    · exact h.built found hold
    · rw [List.mem_singleton.mp hnew]
      exact hobject

theorem Valid.dropClosed (h : Valid m) (roomId : RoomId) : Valid (m.dropClosed roomId) := by
  unfold BilibiliConnectionManager.dropClosed
  split
  · exact h
  · split
    · exact (h.close _).onRoomClosed roomId
    · exact h

theorem Valid.openConnection (h : Valid m) (roomId : RoomId) : Valid (m.openConnection roomId) := by
  have hdrop := h.dropClosed roomId
  unfold BilibiliConnectionManager.openConnection
  dsimp only
  split
  · rw [close_addObject]
    exact (hdrop.addObject (Or.inr rfl)).onRoomClosed roomId
  · rename_i hkey
    have hadded : Valid ((m.dropClosed roomId).addObject { roomId, initialized := true }) :=
      hdrop.addObject (Or.inl rfl)
    refine ⟨fun entry hentry => ?_, hadded.built⟩
    rcases (Keyed.mem_insert hkey).mp hentry with hold | rfl
    · exact hadded.entries entry hold
    · exact ⟨_, List.getElem?_concat_length, rfl, rfl⟩

theorem Valid.step (h : Valid m) (event : ConnectionEvent) : Valid (step event m) := by
  cases event with
  | openConnection roomId => exact h.openConnection roomId
  | closeConnection roomId =>
      show Valid (m.closeConnection roomId)
      unfold closeConnection
      split
      · exact h
      · exact h.close _
  | beginClose connection failed =>
      show Valid (m.beginClose connection failed)
      unfold beginClose
      split
      · exact h
      · split
        · exact (h.setClosed connection).of_eq rfl fun _ hentry => hentry
        · exact h
  | reportFailure n =>
      show Valid (m.reportFailure n)
      unfold reportFailure
      split
      · exact h
      · split
        · exact h.of_eq rfl fun _ hentry => hentry
        · exact h
  | endClose n =>
      show Valid (m.endClose n)
      unfold endClose
      split
      · exact h
      · split
        · exact h
        · have hended : Valid { m with closing := m.closing.eraseIdx n } :=
            h.of_eq rfl fun _ hentry => hentry
          exact hended.onRoomClosed _
  | destroy connection =>
      show Valid (m.destroy connection)
      unfold destroy
      split
      · exact h
      · exact h.close connection
  | failInit connection =>
      show Valid (m.failInit connection)
      unfold failInit
      split
      · exact h
      · split
        · exact h.of_eq rfl fun _ hentry => hentry
        · exact h

end Valid

-- Every live connection is the entry of its room.
def Registered (m : BilibiliConnectionManager) : Prop :=
  ∀ roomId connection, m.Live roomId connection → ⟨roomId, connection⟩ ∈ m.connections

-- What goes with it: no second live connection for a room, and a call of
-- close_connection that closes the one there is.
structure NoOrphans (m : BilibiliConnectionManager) : Prop where
  registered : m.Registered
  unique : ∀ roomId connection other, m.Live roomId connection → m.Live roomId other →
    connection = other
  reached : ∀ roomId connection, m.Live roomId connection →
    ¬(m.closeConnection roomId).Live roomId connection

theorem Registered.find? (h : Registered m) (hlive : m.Live r c) :
    m.connections.find? r = some ⟨r, c⟩ := Keyed.find?_eq_some.mpr ⟨h r c hlive, rfl⟩

theorem Registered.noOrphans (h : Registered m) : NoOrphans m where
  registered := h
  unique := by
    intro roomId connection other hlive hother
    have heq := (h.find? hlive).symm.trans (h.find? hother)
    simpa using heq
  reached := by
    intro roomId connection hlive hafter
    unfold closeConnection at hafter
    rw [h.find? hlive] at hafter
    exact (live_close.mp hafter).2 rfl

section Step

theorem Registered.of_eq {m' : BilibiliConnectionManager} (h : Registered m)
    (hobjects : m'.objects = m.objects) (hconnections : m'.connections = m.connections) :
    Registered m' := by
  unfold Registered Live
  rw [hobjects, hconnections]
  exact h

theorem Registered.close (h : Registered m) (hvalid : Valid m) {entry : ConnectionEntry}
    (hentry : entry ∈ m.connections) : Registered (m.close entry.connection) := by
  obtain ⟨object, hobject, hroom, hinit⟩ := hvalid.entries entry hentry
  cases hclosed : object.closed with
  | true =>
      rw [close_of_closed hobject hclosed]
      exact h
  | false =>
      intro roomId connection hlive
      obtain ⟨hbefore, hne⟩ := live_close.mp hlive
      have hmem : ⟨roomId, connection⟩ ∈ m.connections := h roomId connection hbefore
      rw [close_of_open hobject hclosed]
      refine Keyed.mem_erase.mpr ⟨hmem, fun hsame => hne ?_⟩
      have heq := Keyed.eq_of_key_eq hmem hentry (hsame.trans hroom)
      exact congrArg ConnectionEntry.connection heq

-- Clearing the entry of a room does no harm exactly when no connection of the
-- room is live.
theorem registered_onRoomClosed (h : Registered m) (roomId : RoomId) :
    Registered (m.onRoomClosed roomId) ↔ m.hasLive roomId = false := by
  rw [Bool.eq_false_iff, Ne, hasLive_iff]
  constructor
  · rintro hafter ⟨connection, hlive⟩
    exact (Keyed.mem_erase.mp (hafter roomId connection hlive)).2 rfl
  · intro hnone other connection hlive
    refine Keyed.mem_erase.mpr ⟨h other connection hlive, fun hsame => hnone ⟨connection, ?_⟩⟩
    have hroom : other = roomId := hsame
    exact hroom ▸ hlive

-- The entry of a room without a live connection is closed.
theorem closed_of_not_hasLive (hvalid : Valid m) {entry : ConnectionEntry}
    (hentry : entry ∈ m.connections) (hnone : m.hasLive entry.roomId = false) :
    ∃ object, m.objects[entry.connection]? = some object ∧ object.closed = true := by
  obtain ⟨object, hobject, hroom, hinit⟩ := hvalid.entries entry hentry
  refine ⟨object, hobject, ?_⟩
  by_contra hopen
  refine Bool.eq_false_iff.mp hnone (hasLive_iff.mpr ⟨entry.connection, object, hobject, ?_, hroom⟩)
  simpa [BilibiliConnection.live, hinit] using hopen

theorem openConnection_of_not_hasLive (hvalid : Valid m) (hnone : m.hasLive r = false) :
    m.openConnection r = { m.addObject { roomId := r, initialized := true } with
      connections := (m.connections.erase r).insert ⟨r, m.objects.length⟩ } := by
  have hdrop : m.dropClosed r = m.onRoomClosed r := by
    unfold dropClosed
    split
    · rename_i hfind
      unfold onRoomClosed
      rw [Keyed.erase_of_not_hasKey (Keyed.find?_eq_none.mp hfind)]
    · rename_i entry hfind
      obtain ⟨hentry, rfl⟩ := Keyed.find?_eq_some.mp hfind
      obtain ⟨object, hobject, hclosed⟩ := closed_of_not_hasLive hvalid hentry hnone
      rw [close_of_closed hobject hclosed, hobject]
      exact if_pos hclosed
  unfold openConnection
  rw [hdrop]
  exact if_neg fun hkey => (Keyed.hasKey_erase.mp hkey).2 rfl

theorem openConnection_of_hasLive (h : Registered m) (hlive : m.Live r c) :
    m.openConnection r = (m.addObject { roomId := r, closed := true }).onRoomClosed r := by
  have hfind := h.find? hlive
  have hdrop : m.dropClosed r = m := by
    obtain ⟨object, hobject, hopen, -⟩ := hlive
    have hclosed : object.closed = false := by
      simp only [BilibiliConnection.live, Bool.and_eq_true, Bool.not_eq_true'] at hopen
      exact hopen.2
    unfold dropClosed
    rw [hfind]
    dsimp only
    rw [hobject]
    exact if_neg (by simp [hclosed])
  unfold openConnection
  rw [hdrop]
  dsimp only
  rw [if_pos (Keyed.hasKey_of_find? hfind), close_addObject]

theorem registered_openConnection (hvalid : Valid m) (h : Registered m) (roomId : RoomId) :
    Registered (m.openConnection roomId) ↔ m.hasLive roomId = false := by
  constructor
  · intro hafter
    rw [Bool.eq_false_iff, Ne, hasLive_iff]
    rintro ⟨connection, hlive⟩
    rw [openConnection_of_hasLive h hlive] at hafter
    have hstill : ((m.addObject { roomId, closed := true }).onRoomClosed roomId).Live roomId
        connection := live_addObject.mpr (Or.inl hlive)
    exact (Keyed.mem_erase.mp (hafter roomId connection hstill)).2 rfl
  · intro hnone
    rw [openConnection_of_not_hasLive hvalid hnone]
    intro other connection hlive
    rcases live_addObject.mp hlive with hold | ⟨rfl, -, rfl⟩
    · have hne : other ≠ roomId := by
        rintro rfl
        exact Bool.eq_false_iff.mp hnone (hasLive_iff.mpr ⟨connection, hold⟩)
      exact Keyed.mem_insert_of_mem (Keyed.mem_erase.mpr ⟨h other connection hold, hne⟩)
    · refine (Keyed.mem_insert ?_).mpr (Or.inr rfl)
      exact fun hkey => (Keyed.hasKey_erase.mp hkey).2 rfl

theorem registered_closeConnection (hvalid : Valid m) (h : Registered m) (roomId : RoomId) :
    Registered (m.closeConnection roomId) := by
  unfold closeConnection
  split
  · exact h
  · rename_i entry hfind
    exact h.close hvalid (Keyed.find?_eq_some.mp hfind).1

theorem registered_beginClose (h : Registered m) (connection : Nat) (failed : Bool) :
    Registered (m.beginClose connection failed) := by
  unfold beginClose
  split
  · exact h
  · split
    · intro roomId other hlive
      exact h roomId other (live_setClosed.mp hlive).1
    · exact h

-- Only closed connections are destroyed: a live one is an entry.
theorem destroy_eq (hvalid : Valid m) (h : Registered m) (connection : Nat) :
    m.destroy connection = m := by
  unfold destroy
  split
  · rfl
  · rename_i hidle
    cases hobject : m.objects[connection]? with
    | none =>
        unfold BilibiliConnectionManager.close
        rw [hobject]
    | some object =>
        apply close_of_closed hobject
        rcases hvalid.built object (List.mem_of_getElem? hobject) with hinit | hclosed
        · by_contra hopen
          have hentry : ⟨object.roomId, connection⟩ ∈ m.connections := by
            refine h object.roomId connection ⟨object, hobject, ?_, rfl⟩
            simpa [BilibiliConnection.live, hinit] using hopen
          exact hidle (Or.inl (List.any_eq_true.mpr ⟨_, hentry, beq_self_eq_true connection⟩))
        · exact hclosed

end Step

section HasLive

-- Closing the live connection of a room leaves the room without one.
theorem hasLive_of_closed {m' : BilibiliConnectionManager} (h : Registered m) (hlive : m.Live r c)
    (hclosed : ∀ roomId connection, m'.Live roomId connection ↔
      m.Live roomId connection ∧ connection ≠ c) :
    m'.hasLive r' = true ↔ m.hasLive r' = true ∧ r' ≠ r := by
  rw [hasLive_iff, hasLive_iff]
  constructor
  · rintro ⟨d, hd⟩
    obtain ⟨hbefore, hne⟩ := (hclosed r' d).mp hd
    refine ⟨⟨d, hbefore⟩, fun hroom => hne ?_⟩
    subst hroom
    exact h.noOrphans.unique r' d c hbefore hlive
  · rintro ⟨⟨d, hd⟩, hroom⟩
    exact ⟨d, (hclosed r' d).mpr ⟨hd, fun hdc => hroom (live_room_unique (hdc ▸ hd) hlive)⟩⟩

theorem hasLive_openConnection (hvalid : Valid m) (hnone : m.hasLive r = false) :
    (m.openConnection r).hasLive r' = true ↔ m.hasLive r' = true ∨ r' = r := by
  rw [openConnection_of_not_hasLive hvalid hnone, hasLive_iff, hasLive_iff]
  constructor
  · rintro ⟨d, hd⟩
    rcases live_addObject.mp hd with hold | ⟨-, -, hroom⟩
    · exact Or.inl ⟨d, hold⟩
    · exact Or.inr hroom.symm
  · rintro (⟨d, hd⟩ | rfl)
    · exact ⟨d, live_addObject.mpr (Or.inl hd)⟩
    · exact ⟨m.objects.length, live_addObject.mpr (Or.inr ⟨rfl, rfl, rfl⟩)⟩

theorem closeConnection_of_not_hasLive (hvalid : Valid m) (hnone : m.hasLive r = false) :
    m.closeConnection r = m := by
  unfold closeConnection
  split
  · rfl
  · rename_i entry hfind
    obtain ⟨hentry, rfl⟩ := Keyed.find?_eq_some.mp hfind
    obtain ⟨object, hobject, hclosed⟩ := closed_of_not_hasLive hvalid hentry hnone
    exact close_of_closed hobject hclosed

-- Opening and closing on demand report nothing and leave no close() under way.
theorem openConnection_silent (hvalid : Valid m) (hnone : m.hasLive r = false) :
    (m.openConnection r).failures = m.failures ∧ (m.openConnection r).closing = m.closing := by
  rw [openConnection_of_not_hasLive hvalid hnone]
  exact ⟨rfl, rfl⟩

theorem closeConnection_silent :
    (m.closeConnection r).failures = m.failures ∧ (m.closeConnection r).closing = m.closing := by
  unfold closeConnection BilibiliConnectionManager.close
  split
  · exact ⟨rfl, rfl⟩
  · split
    · exact ⟨rfl, rfl⟩
    · split
      · exact ⟨rfl, rfl⟩
      · exact ⟨rfl, rfl⟩

theorem hasLive_closeConnection (hvalid : Valid m) (h : Registered m) :
    (m.closeConnection r).hasLive r' = true ↔ m.hasLive r' = true ∧ r' ≠ r := by
  cases hr : m.hasLive r with
  | true =>
      obtain ⟨c, hc⟩ := hasLive_iff.mp hr
      refine hasLive_of_closed h hc fun roomId connection => ?_
      unfold closeConnection
      rw [h.find? hc]
      exact live_close
  | false =>
      rw [closeConnection_of_not_hasLive hvalid hr]
      refine ⟨fun hlive => ⟨hlive, ?_⟩, fun hlive => hlive.1⟩
      rintro rfl
      exact Bool.eq_false_iff.mp hr hlive

theorem hasLive_beginClose (h : Registered m) (hlive : m.Live r c) (failed : Bool) :
    (m.beginClose c failed).hasLive r' = true ↔ m.hasLive r' = true ∧ r' ≠ r := by
  refine hasLive_of_closed h hlive fun roomId connection => ?_
  obtain ⟨object, hobject, hopen, -⟩ := hlive
  unfold beginClose
  rw [hobject]
  dsimp only
  rw [if_pos hopen]
  exact live_setClosed

end HasLive

-- No connection is opened for a room that has a live one, and no close() gets
-- to on_room_closed while its room has one.
def Harmless (event : ConnectionEvent) (m : BilibiliConnectionManager) : Prop :=
  match event with
  | .openConnection roomId => m.hasLive roomId = false
  | .endClose n => m.closing[n]?.all fun task => task.unreported || !m.hasLive task.roomId
  | _ => True

instance (event : ConnectionEvent) (m : BilibiliConnectionManager) : Decidable (Harmless event m) := by
  unfold Harmless
  split <;> infer_instance

theorem registered_step_iff (hvalid : Valid m) (h : Registered m) (event : ConnectionEvent) :
    Registered (step event m) ↔ Harmless event m := by
  cases event with
  | openConnection roomId => exact registered_openConnection hvalid h roomId
  | closeConnection roomId =>
      exact iff_of_true (registered_closeConnection hvalid h roomId) trivial
  | beginClose connection failed =>
      exact iff_of_true (registered_beginClose h connection failed) trivial
  | reportFailure n =>
      refine iff_of_true ?_ trivial
      show Registered (m.reportFailure n)
      unfold reportFailure
      split
      · exact h
      · split
        · exact h.of_eq rfl rfl
        · exact h
  | endClose n =>
      show Registered (m.endClose n) ↔ m.closing[n]?.all (fun task =>
        task.unreported || !m.hasLive task.roomId) = true
      unfold endClose
      cases htask : m.closing[n]? with
      | none => exact iff_of_true h rfl
      | some task =>
          have hended : Registered { m with closing := m.closing.eraseIdx n } := h.of_eq rfl rfl
          have hcleared : Registered ({ m with closing := m.closing.eraseIdx n }.onRoomClosed
              task.roomId) ↔ m.hasLive task.roomId = false := registered_onRoomClosed hended task.roomId
          cases hunreported : task.unreported with
          | true => simpa [hunreported] using h
          | false => simpa [hunreported] using hcleared
  | destroy connection =>
      refine iff_of_true ?_ trivial
      show Registered (m.destroy connection)
      rw [destroy_eq hvalid h]
      exact h
  | failInit connection =>
      refine iff_of_true ?_ trivial
      show Registered (m.failInit connection)
      unfold failInit
      split
      · exact h
      · split
        · exact h.of_eq rfl rfl
        · exact h

theorem noOrphans_initial : NoOrphans {} := by
  refine Registered.noOrphans fun roomId connection hlive => ?_
  obtain ⟨object, hobject, -⟩ := hlive
  cases hobject

-- A run leaves no orphan exactly if each of its steps is harmless.
theorem run_noOrphans_iff (events : List ConnectionEvent) :
    Runs.EveryState step NoOrphans {} events ↔ Runs.EveryStep step Harmless {} events := by
  have hkeeps : ∀ event m, Valid m → NoOrphans m → (NoOrphans (step event m) ↔ Harmless event m) := by
    intro event m hvalid h
    constructor
    · intro hafter
      exact (registered_step_iff hvalid h.registered event).mp hafter.registered
    · intro hharmless
      exact ((registered_step_iff hvalid h.registered event).mpr hharmless).noOrphans
  exact Runs.everyState_iff_everyStep (fun event _ h => h.step event) hkeeps valid_initial
    noOrphans_initial events

-- Opening a room twice: the second object, which the map does not take, removes
-- the entry of the first when it is destroyed.
theorem run_noOrphans_refuted :
    ¬∀ events, Runs.EveryState step NoOrphans {} events := by
  intro h
  have hrun := (h [.openConnection 1, .openConnection 1]).2.2
  have hentry := hrun.registered 1 0 ⟨⟨1, true, false⟩, by decide, rfl, rfl⟩
  exact absurd (Keyed.mem_def.mp hentry) (by decide)

end LiveReceptor.Worker.BilibiliConnectionManager

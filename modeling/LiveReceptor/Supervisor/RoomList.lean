import LiveReceptor.Supervisor.Consistency

namespace LiveReceptor.Supervisor.Scheduler

-- The room is known, with this activity.
def InRoster (s : Scheduler) (roomId : RoomId) (active : Bool) : Prop :=
  ∃ room ∈ s.rooms, room.roomId = roomId ∧ room.active = active

variable {env : Env} {told : Option (List RoomId)} {guard : Guard} {stage : Stage}
  {s s' t : Scheduler} {r : RoomId} {a : Bool}

theorem InRoster.unique {b : Bool} (h : InRoster s r a) (h' : InRoster s r b) : a = b := by
  obtain ⟨room, hr, hi, rfl⟩ := h
  obtain ⟨room', hr', hi', rfl⟩ := h'
  rw [Keyed.eq_of_key_eq hr hr' (hi.trans hi'.symm)]

section Moves

theorem inRoster_of_update {f : RoomStatus → RoomStatus} {hf : ∀ room, (f room).roomId = room.roomId}
    (hrooms : s'.rooms = s.rooms.update f hf) (hactive : ∀ room, (f room).active = room.active) :
    InRoster s' r a ↔ InRoster s r a := by
  rw [InRoster, InRoster, hrooms]
  constructor
  · rintro ⟨_, hr, hi, ha⟩
    obtain ⟨room, hold, rfl⟩ := Keyed.mem_update.mp hr
    exact ⟨room, hold, (hf room).symm.trans hi, (hactive room).symm.trans ha⟩
  · rintro ⟨room, hr, hi, ha⟩
    exact ⟨f room, Keyed.mem_update.mpr ⟨room, hr, rfl⟩, (hf room).trans hi, (hactive room).trans ha⟩

theorem inRoster_of_rooms (hrooms : s'.rooms = s.rooms) : InRoster s' r a ↔ InRoster s r a := by
  rw [InRoster, InRoster, hrooms]

theorem inRoster_quiet (hquiet : Quiet s s') : InRoster s' r a ↔ InRoster s r a := by
  obtain ⟨f, hf, hrooms, hroom⟩ := hquiet.rooms
  exact inRoster_of_update hrooms fun room => (hroom room).1

theorem inRoster_deleteTask {i : Identifier} {roomId : RoomId} {descRank : Bool} :
    InRoster (s.deleteTask env i roomId descRank) r a ↔ InRoster s r a := by
  by_cases h : s.tasks.HasKey (i, roomId)
  · refine inRoster_of_update (rooms_deleteTask_of_hasKey h) fun room => ?_
    split <;> rfl
  · rw [deleteTask_of_not_hasKey h]

-- Rooms are removed in the second part of a pass only.
theorem inRoster_passMove (hstage : stage ≠ .rooms) (hmove : PassMove env guard stage s s') :
    InRoster s' r a ↔ InRoster s r a := by
  cases hmove with
  | quiet hquiet => exact inRoster_quiet hquiet
  | drop descRank htask => exact inRoster_deleteTask.trans (inRoster_of_rooms rooms_sendUnassign)
  | expire hworker => exact inRoster_of_rooms (by simp [deleteAndDisconnectWorker])
  | refresh => exact inRoster_of_update rooms_refreshCounts fun _ => rfl
  | forget hempty => exact absurd rfl hstage
  | assign hworker hroom hlimit hnew hguard =>
      refine inRoster_of_update rooms_addTask fun room => ?_
      split <;> rfl

theorem inRoster_passMoves (hstage : stage ≠ .rooms) (hmoves : PassMoves env guard stage s s') :
    InRoster s' r a ↔ InRoster s r a := by
  induction hmoves with
  | refl => exact Iff.rfl
  | tail _ hmove ih => exact (inRoster_passMove hstage hmove).trans ih

theorem inRoster_foldl_drop (descRank : Bool) (tasks : List RoomTask) :
    InRoster (tasks.foldl (fun s task =>
      (s.sendUnassign task.identifier task.roomId).deleteTask env task.identifier task.roomId
        descRank) s) r a ↔ InRoster s r a := by
  induction tasks generalizing s with
  | nil => exact Iff.rfl
  | cons task rest ih =>
      rw [List.foldl_cons, ih, inRoster_deleteTask]
      exact inRoster_of_rooms rooms_sendUnassign

theorem inRoster_deleteInactiveRoom {roomId : RoomId} :
    InRoster (s.deleteInactiveRoom env roomId) r a ↔ InRoster s r a ∧ r ≠ roomId := by
  constructor
  · rintro ⟨room, hr, hi, ha⟩
    obtain ⟨hdropped, hne⟩ := Keyed.mem_erase.mp hr
    exact ⟨(inRoster_foldl_drop true _).mp ⟨room, hdropped, hi, ha⟩, hi ▸ hne⟩
  · rintro ⟨h, hne⟩
    obtain ⟨room, hr, hi, ha⟩ := (inRoster_foldl_drop true
      (env.tasksByRoom.arrange (s.tasks.entries.filter fun task => task.roomId = roomId))).mpr h
    exact ⟨room, Keyed.mem_erase.mpr ⟨hr, hi ▸ hne⟩, hi, ha⟩

theorem inRoster_foldl_visit (rooms : List RoomStatus) (scan : RoomScan) :
    InRoster (rooms.foldl (RoomScan.visit env) scan).state r a ↔
      InRoster scan.state r a ∧ ∀ room ∈ rooms, room.active = false → r ≠ room.roomId := by
  induction rooms generalizing scan with
  | nil => simp
  | cons room rest ih =>
      rw [List.foldl_cons, ih, List.forall_mem_cons, ← and_assoc]
      refine and_congr_left fun _ => ?_
      rw [RoomScan.visit]
      cases room.active with
      | true => simp
      | false => simpa using inRoster_deleteInactiveRoom

-- What a pass that is not throttled leaves are the active rooms.
theorem inRoster_checkAllStates (hdue : ¬throttled env s) :
    InRoster (s.checkAllStates env) r a ↔ InRoster s r a ∧ a = true := by
  have hassign : InRoster (s.checkAllStates env) r a ↔ InRoster (s.assignStart env).state r a := by
    rw [checkAllStates, if_neg hdue]
    exact inRoster_passMoves (by simp) (processRooms_moves (passMeetsGuard_true s))
  have hrefreshed : PassMoves env Unguarded .interval s (s.refreshed env) := refreshed_moves s
  have hcollected : ∀ b, InRoster (s.collected env) r b ↔ InRoster s r b := fun b =>
    (inRoster_quiet (quiet_collected _ _)).trans (inRoster_passMoves (by simp) hrefreshed)
  rw [hassign, ← hcollected]
  refine (inRoster_foldl_visit _ { state := s.collected env }).trans (and_congr_right fun h => ?_)
  constructor
  · intro hactive
    obtain ⟨room, hroom, hi, ha⟩ := h
    rw [← ha]
    cases hroomActive : room.active with
    | true => rfl
    | false => exact absurd hi.symm (hactive room ((env.rooms.mem_arrange).mpr hroom) hroomActive)
  · rintro rfl room hroom hinactive rfl
    have hknown : InRoster (s.collected env) room.roomId false :=
      ⟨room, (env.rooms.mem_arrange).mp hroom, rfl, hinactive⟩
    exact Bool.false_ne_true (hknown.unique h)

end Moves

section Handlers

-- The handlers know no room by themselves.
theorem inRoster_handlerMove (hmove : HandlerMove env told s s') :
    (InRoster s' r a ↔ InRoster s r a) ∨ ∃ rooms, told = some rooms ∧ s' = s.updateRoomLists rooms := by
  cases hmove with
  | quiet hquiet htrace => exact Or.inl (inRoster_quiet hquiet)
  | accept identifier hfree => exact Or.inl (inRoster_of_rooms (by simp))
  | ignore identifier payload hready hfailed => exact Or.inl Iff.rfl
  | unknown identifier payload hkey => exact Or.inl (inRoster_of_rooms (by simp))
  | ready identifier payload hkey hready hauth => exact Or.inl (inRoster_of_rooms (by simp))
  | reject identifier payload hkey hready => exact Or.inl (inRoster_of_rooms (by simp))
  | fail identifier payload hkey hfailed => exact Or.inl (inRoster_deleteTask.trans Iff.rfl)
  | forward identifier payload htask => exact Or.inl Iff.rfl
  | absent identifier hkey => exact Or.inl Iff.rfl
  | leave identifier hkey => exact Or.inl (inRoster_of_rooms (by simp))
  | list rooms htold => exact Or.inr ⟨rooms, htold, rfl⟩

theorem inRoster_handlerMoves (htold : told = none) (hmoves : HandlerMoves env told s s') :
    InRoster s' r a ↔ InRoster s r a := by
  induction hmoves with
  | refl => exact Iff.rfl
  | tail _ hmove ih =>
      rcases inRoster_handlerMove hmove with h | ⟨rooms, hrooms, -⟩
      · exact h.trans ih
      · rw [htold] at hrooms
        cases hrooms

theorem inRoster_updateRoomLists {rooms : List RoomId} :
    InRoster (s.updateRoomLists rooms) r a ↔
      (∃ b, InRoster s r b ∧ a = (b && decide (r ∈ rooms))) ∨
        (¬s.rooms.HasKey r ∧ r ∈ rooms ∧ a = true) := by
  constructor
  · rintro ⟨room, hr, rfl, rfl⟩
    rcases mem_rooms_updateRoomLists.mp hr with ⟨old, hold, rfl⟩ | ⟨hnew, hlisted, hroom⟩
    · by_cases hlisted : old.roomId ∈ rooms
      · rw [if_pos hlisted]
        exact Or.inl ⟨old.active, ⟨old, hold, rfl, rfl⟩, by simp [hlisted]⟩
      · rw [if_neg hlisted]
        exact Or.inl ⟨old.active, ⟨old, hold, rfl, rfl⟩, by simp [hlisted]⟩
    · exact Or.inr ⟨hnew, hlisted, congrArg RoomStatus.active hroom.symm⟩
  · rintro (⟨b, ⟨old, hold, rfl, rfl⟩, rfl⟩ | ⟨hnew, hlisted, rfl⟩)
    · refine ⟨_, mem_rooms_updateRoomLists.mpr (Or.inl ⟨old, hold, rfl⟩), ?_⟩
      by_cases hlisted : old.roomId ∈ rooms <;> simp [hlisted]
    · exact ⟨{ roomId := r }, mem_rooms_updateRoomLists.mpr (Or.inr ⟨hnew, hlisted, rfl⟩), rfl, rfl⟩

end Handlers

section Steps

theorem told_of_passStart {input : Input} (h : passStart input s = some t) : input.told = none := by
  obtain ⟨env, event⟩ := input
  cases event <;> first | rfl | cases h

theorem inRoster_step_of_not_checked {input : Input} (htold : input.told = none)
    (h : ¬Checked s (step input s)) : InRoster (step input s) r a ↔ InRoster s r a := by
  cases hstart : passStart input s with
  | none => exact inRoster_handlerMoves htold (step_of_none hstart)
  | some t =>
      obtain ⟨hmove, heq⟩ := step_of_some hstart
      have hthrottled : throttled input.env t := by
        by_contra hdue
        exact h (checked_iff.mpr ⟨t, hstart, hdue⟩)
      rw [checkAllStates, if_pos hthrottled] at heq
      have ht : InRoster t r a ↔ InRoster s r a := inRoster_handlerMoves htold (.single hmove)
      rcases heq with heq | heq <;> rw [heq]
      · exact ht
      · exact ht

theorem inRoster_step_of_checked {input : Input} (h : Checked s (step input s)) :
    InRoster (step input s) r a ↔ InRoster s r a ∧ a = true := by
  obtain ⟨t, hstart, hdue⟩ := checked_iff.mp h
  obtain ⟨hmove, heq⟩ := step_of_some hstart
  rw [← inRoster_handlerMoves (told_of_passStart hstart) (.single hmove),
    ← inRoster_checkAllStates hdue]
  rcases heq with heq | heq <;> rw [heq]
  exact inRoster_of_rooms rfl

theorem step_of_told {input : Input} {rooms : List RoomId} (h : input.told = some rooms) :
    step input s = s.updateRoomLists rooms := by
  obtain ⟨env, event⟩ := input
  cases event <;> cases h
  rfl

end Steps

-- The scheduler, and the room list that it was given last.
structure Listed where
  latest : List RoomId := []
  scheduler : Scheduler

def Listed.initial (config : Config) : Listed := { scheduler := Scheduler.initial config }

def Listed.step (input : Input) (s : Listed) : Listed where
  latest := input.told.getD s.latest
  scheduler := Scheduler.step input s.scheduler

-- The known rooms are those in the list, and all of them are active.
def Synced (rooms : List RoomId) (s : Scheduler) : Prop :=
  (∀ roomId, s.rooms.HasKey roomId ↔ roomId ∈ rooms) ∧ ∀ room ∈ s.rooms, room.active = true

instance (rooms : List RoomId) (s : Scheduler) : Decidable (Synced rooms s) :=
  decidable_of_iff ((∀ room ∈ s.rooms.entries, room.roomId ∈ rooms ∧ room.active = true) ∧
      (rooms.all fun roomId => decide (s.rooms.HasKey roomId)) = true) <| by
    simp only [List.all_eq_true, decide_eq_true_eq]
    constructor
    · rintro ⟨hlisted, hknown⟩
      refine ⟨fun roomId => ⟨?_, hknown roomId⟩, fun room hroom => (hlisted room hroom).2⟩
      rintro ⟨room, hroom, rfl⟩
      exact (hlisted room hroom).1
    · rintro ⟨hiff, hactive⟩
      exact ⟨fun room hroom => ⟨(hiff room.roomId).mp ⟨room, hroom, rfl⟩, hactive room hroom⟩,
        fun roomId => (hiff roomId).mpr⟩

-- If the step takes a pass that is not throttled, it leaves the rooms synced.
def PassSyncs (input : Input) (s : Listed) : Prop :=
  Checked s.scheduler (s.step input).scheduler → Synced (s.step input).latest (s.step input).scheduler

instance (input : Input) (s : Listed) : Decidable (PassSyncs input s) :=
  inferInstanceAs (Decidable (Checked s.scheduler (Scheduler.step input s.scheduler) →
    Synced (s.step input).latest (s.step input).scheduler))

-- If the step takes such a pass, no room of the latest list is waiting to be
-- removed, having left an earlier list.
def NoneReturned (input : Input) (s : Listed) : Prop :=
  (∃ t, passStart input s.scheduler = some t ∧ ¬throttled input.env t) →
    ∀ room ∈ s.scheduler.rooms, room.roomId ∈ s.latest → room.active = true

-- Active rooms are listed, and listed rooms are known.
structure Current (s : Listed) : Prop where
  listed : ∀ r, InRoster s.scheduler r true → r ∈ s.latest
  known : ∀ r ∈ s.latest, ∃ a, InRoster s.scheduler r a

section Claim

theorem hasKey_iff_inRoster : s.rooms.HasKey r ↔ ∃ a, InRoster s r a := by
  constructor
  · rintro ⟨room, hr, hi⟩
    exact ⟨room.active, room, hr, hi, rfl⟩
  · rintro ⟨a, room, hr, hi, -⟩
    exact ⟨room, hr, hi⟩

theorem Listed.step_of_none {input : Input} {s : Listed} (htold : input.told = none) :
    s.step input = { latest := s.latest, scheduler := Scheduler.step input s.scheduler } := by
  rw [Listed.step, htold]
  rfl

theorem Current.updateRoomLists (rooms : List RoomId) :
    Current { latest := rooms, scheduler := s.updateRoomLists rooms } where
  listed r h := by
    rcases inRoster_updateRoomLists.mp h with ⟨b, -, hb⟩ | ⟨-, hlisted, -⟩
    · simpa using (Bool.and_eq_true_iff.mp hb.symm).2
    · exact hlisted
  known r hr := by
    by_cases hknown : s.rooms.HasKey r
    · obtain ⟨a, ha⟩ := hasKey_iff_inRoster.mp hknown
      exact ⟨_, inRoster_updateRoomLists.mpr (Or.inl ⟨a, ha, rfl⟩)⟩
    · exact ⟨true, inRoster_updateRoomLists.mpr (Or.inr ⟨hknown, hr, rfl⟩)⟩

-- Where nothing has returned, the listed rooms are active.
theorem Current.inRoster_true {input : Input} {s : Listed} (h : Current s)
    (hnone : NoneReturned input s) (hchecked : Checked s.scheduler (Scheduler.step input s.scheduler))
    (hr : r ∈ s.latest) : InRoster s.scheduler r true := by
  obtain ⟨a, room, hroom, rfl, ha⟩ := h.known r hr
  exact ⟨room, hroom, rfl, hnone (checked_iff.mp hchecked) room hroom hr⟩

theorem step_current (input : Input) (s : Listed) (h : Current s) (hnone : NoneReturned input s) :
    Current (s.step input) := by
  cases htold : input.told with
  | some rooms =>
      rw [Listed.step, htold, step_of_told htold]
      exact .updateRoomLists rooms
  | none =>
      rw [Listed.step_of_none htold]
      by_cases hchecked : Checked s.scheduler (Scheduler.step input s.scheduler)
      · constructor
        · exact fun r hr => h.listed r ((inRoster_step_of_checked hchecked).mp hr).1
        · exact fun r hr => ⟨true, (inRoster_step_of_checked hchecked).mpr
            ⟨h.inRoster_true hnone hchecked hr, rfl⟩⟩
      · constructor
        · exact fun r hr => h.listed r ((inRoster_step_of_not_checked htold hchecked).mp hr)
        · intro r hr
          obtain ⟨a, ha⟩ := h.known r hr
          exact ⟨a, (inRoster_step_of_not_checked htold hchecked).mpr ha⟩

theorem told_of_checked {input : Input} (h : Checked s (step input s)) : input.told = none := by
  obtain ⟨t, hstart, -⟩ := checked_iff.mp h
  exact told_of_passStart hstart

theorem passSyncs_of_noneReturned (input : Input) (s : Listed) (h : Current s)
    (hnone : NoneReturned input s) : PassSyncs input s := by
  intro hchecked
  rw [Listed.step_of_none (told_of_checked hchecked)]
  constructor
  · intro r
    rw [hasKey_iff_inRoster]
    constructor
    · rintro ⟨a, ha⟩
      obtain ⟨hs, rfl⟩ := (inRoster_step_of_checked hchecked).mp ha
      exact h.listed r hs
    · intro hr
      exact ⟨true, (inRoster_step_of_checked hchecked).mpr ⟨h.inRoster_true hnone hchecked hr, rfl⟩⟩
  · intro room hroom
    exact ((inRoster_step_of_checked hchecked).mp ⟨room, hroom, rfl, rfl⟩).2

theorem noneReturned_of_passSyncs (input : Input) (s : Listed) (hsyncs : PassSyncs input s) :
    NoneReturned input s := by
  intro hpass room hroom hlisted
  have hchecked := checked_iff.mpr hpass
  have hsynced := hsyncs hchecked
  rw [Listed.step_of_none (told_of_checked hchecked)] at hsynced
  obtain ⟨a, ha⟩ := hasKey_iff_inRoster.mp ((hsynced.1 room.roomId).mpr hlisted)
  obtain ⟨hs, rfl⟩ := (inRoster_step_of_checked hchecked).mp ha
  exact InRoster.unique ⟨room, hroom, rfl, rfl⟩ hs

theorem initial_current (config : Config) : Current (Listed.initial config) where
  listed r h := by
    obtain ⟨room, hroom, -⟩ := h
    exact absurd hroom (Keyed.notMem_empty room)
  known r hr := absurd hr List.not_mem_nil

-- The rooms are synced after every pass exactly in the runs where no room comes
-- back before it was removed.
theorem run_syncs_iff (config : Config) (inputs : List Input) :
    Runs.EveryStep Listed.step PassSyncs (Listed.initial config) inputs ↔
      Runs.EveryStep Listed.step NoneReturned (Listed.initial config) inputs := by
  constructor
  · exact Runs.everyStep_mono noneReturned_of_passSyncs
  · exact Runs.everyStep_of step_current passSyncs_of_noneReturned (initial_current config)

-- The room leaves and comes back between two passes, and the second pass
-- removes it.
def returningRun : List Input :=
  [{ env := .at 0, event := .updateRoomLists [1] },
    { env := .at 0, event := .updateRoomLists [] },
    { env := .at 0, event := .updateRoomLists [1] },
    { env := .at (seconds 10), event := .tick .expired }]

theorem run_syncs_refuted : ¬∀ config inputs,
    Runs.EveryStep Listed.step PassSyncs (Listed.initial config) inputs := by
  intro h
  have hrun := h plainConfig returningRun
  revert hrun
  decide

end Claim

end LiveReceptor.Supervisor.Scheduler

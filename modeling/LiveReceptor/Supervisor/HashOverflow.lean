import LiveReceptor.Library.RobinHoodOverflow
import LiveReceptor.Supervisor.HashTables

-- With few rooms and workers no insertion throws.
namespace LiveReceptor.Supervisor

open RobinHood (exists_foldlM)
open RobinHood.RawTable (Represents Roomy roomy_erase roomy_sweep)

-- The worker is new to the supervisor.
def Effect.Connects : Effect → Prop
  | .connected _ => True
  | _ => False

namespace Scheduler

-- So few that the info bytes do not run out of room, whatever the keys hash to.
def Few (s : Scheduler) : Prop := s.rooms.entries.length ≤ 126 ∧ s.workers.entries.length ≤ 126

instance (s : Scheduler) : Decidable (Few s) := inferInstanceAs (Decidable (_ ∧ _))

-- The record grows, and nobody connects.
def ConnectsNone (s s' : Scheduler) : Prop :=
  ∃ effects, s'.trace = s.trace ++ effects ∧ ∀ effect ∈ effects, ¬effect.Connects

variable {env : Env} {guard : Guard} {stage : Stage} {s s' t : Scheduler} {identifier : Identifier} {payload : Bytes}

section Connecting

theorem connectsNone_passMove (hmove : PassMove env guard stage s s') : ConnectsNone s s' := by
  cases hmove with
  | quiet hquiet =>
      obtain ⟨effects, htrace, hquiets⟩ := hquiet.trace
      refine ⟨effects, htrace, fun effect he => ?_⟩
      have heffect := hquiets effect he
      cases effect <;> first | exact id | cases heffect
  | drop descRank htask =>
      refine ⟨_, by rw [trace_deleteTask, trace_sendUnassign], fun effect he => ?_⟩
      split at he
      · rw [List.mem_singleton.mp he]
        exact id
      · cases he
  | expire hworker => exact ⟨_, trace_expire (.of_mem hworker), by simp [Effect.Connects]⟩
  | refresh => exact ⟨[], (List.append_nil _).symm, by simp⟩
  | forget hempty => exact ⟨[], (List.append_nil _).symm, by simp⟩
  | assign hworker hroom hlimit hnew hguard =>
      refine ⟨_, trace_addTask, fun effect he => ?_⟩
      split at he
      · rw [List.mem_singleton.mp he]
        exact id
      · cases he

theorem connectsNone_checkAllStates (h : ConnectsNone s t) : ConnectsNone s (t.checkAllStates env) :=
  checkAllStates_invariant (P := ConnectsNone s) (fun _ _ _ h hmove => extends_trans h (connectsNone_passMove hmove))
    h fun _ => passMeetsGuard_true t

theorem connectsNone_handleData : ConnectsNone s (s.handleData env identifier payload) := by
  have hnothing : ConnectsNone s s := ⟨[], (List.append_nil _).symm, by simp⟩
  unfold handleData
  dsimp only
  split
  · exact hnothing
  split
  · split
    · split
      · exact hnothing
      · split
        · exact ⟨_, rfl, by simp [Effect.Connects]⟩
        · exact hnothing
    · exact ⟨_, rfl, by simp [Effect.Connects]⟩
  · exact hnothing

theorem connectsNone_handleBuffer : ConnectsNone s (s.handleBuffer env identifier payload) := by
  by_cases hlen : payload.length < SimpleWorkerProto.roomFailedPayloadLength
  · rw [handleBuffer_malformed hlen]
    exact ⟨_, rfl, by simp [Effect.Connects]⟩
  rw [Nat.not_lt] at hlen
  by_cases hkey : s.workers.HasKey identifier
  · rw [handleBuffer_known hlen hkey]
    dsimp only
    split
    · unfold handleReady
      dsimp only
      split
      · exact connectsNone_checkAllStates ⟨_, trace_ready hkey, by simp [Effect.Connects]⟩
      · exact connectsNone_checkAllStates ⟨_, trace_reject hkey, by simp [Effect.Connects]⟩
    split
    · exact connectsNone_checkAllStates ⟨_, trace_fail, by simp [Effect.Connects]⟩
    split
    · have hreceived : ConnectsNone s ((s.emit (.received identifier payload s.authCode)).touchWorker env identifier) :=
        ⟨_, rfl, by simp [Effect.Connects]⟩
      exact extends_trans hreceived connectsNone_handleData
    · exact ⟨_, rfl, by simp [Effect.Connects]⟩
  · rw [handleBuffer_unknown hlen hkey]
    exact ⟨_, trace_unknown, by simp [Effect.Connects]⟩

-- At most one worker connects in a step, and then none is deleted.
theorem step_connects (input : Input) (s : Scheduler) : ConnectsNone s (step input s) ∨
    ∃ identifier more, (step input s).trace = s.trace ++ .connected identifier :: more ∧
      ∀ effect ∈ more, effect = .reset identifier := by
  have hnothing : ConnectsNone s s := ⟨[], (List.append_nil _).symm, by simp⟩
  obtain ⟨env, event⟩ := input
  cases event with
  | accept result draws =>
      show ConnectsNone s (s.onAccept env result draws) ∨ ∃ identifier more,
        (s.onAccept env result draws).trace = _ ∧ _
      unfold onAccept
      split
      · exact Or.inl hnothing
      · exact Or.inl hnothing
      · exact Or.inl hnothing
      · exact Or.inl hnothing
      · refine Or.inr ⟨_, _, trace_handleNewWorker, fun effect he => ?_⟩
        split at he
        · exact List.mem_singleton.mp he
        · cases he
  | payload identifier payload => exact Or.inl connectsNone_handleBuffer
  | workerDisconnect identifier =>
      left
      show ConnectsNone s (s.handleWorkerDisconnect env identifier)
      unfold handleWorkerDisconnect
      dsimp only
      split
      · rename_i hkey
        exact ⟨_, trace_leave hkey, by simp [Effect.Connects]⟩
      · exact hnothing
  | tick result =>
      left
      cases result with
      | aborted => exact hnothing
      | failed => exact connectsNone_checkAllStates (t := s.endWait) hnothing
      | expired => exact connectsNone_checkAllStates (t := s.endWait) hnothing
  | updateRoomLists rooms => exact Or.inl hnothing
  | configure config => exact Or.inl hnothing
  | loadAuthCode => exact Or.inl hnothing

end Connecting

end Scheduler

section Counting

variable {α κ : Type*} {key : α → κ} {m m' : Keyed key}

theorem length_eq_of_hasKey (h : ∀ k, m.HasKey k ↔ m'.HasKey k) : m.entries.length = m'.entries.length := by
  have hkeys : (m.entries.map key).Perm (m'.entries.map key) :=
    (List.perm_ext_iff_of_nodup m.nodup m'.nodup).mpr fun k => by
      rw [← Keyed.hasKey_iff_mem, ← Keyed.hasKey_iff_mem, h]
  rw [← List.length_map key, hkeys.length_eq, List.length_map]

theorem length_le_insert [DecidableEq κ] (m : Keyed key) (a : α) : m.entries.length ≤ (m.insert a).entries.length := by
  by_cases h : m.HasKey (key a)
  · rw [Keyed.insert_of_hasKey h]
  · rw [Keyed.entries_insert h, List.length_append]
    exact Nat.le_add_right _ _

end Counting

section Rooms

variable {t : RoomsMap} {s : Scheduler}

theorem length_le_foldl_insert (rooms : List RoomId) (m : Keyed RoomStatus.roomId) :
    m.entries.length ≤ (rooms.foldl (fun known roomId => known.insert { roomId }) m).entries.length := by
  induction rooms generalizing m with
  | nil => exact Nat.le_refl _
  | cons roomId rest ih => exact (length_le_insert m { roomId }).trans (ih _)

-- While the rooms are emplaced they are no more than in the end.
theorem exists_updateRoomLists (h : Represents RoomStatus.roomId roomHash s.rooms t) (hroomy : Roomy t)
    (rooms : List RoomId) (hfew : (s.updateRoomLists rooms).rooms.entries.length ≤ 126) :
    ∃ t', t.updateRoomLists rooms = .ok t' ∧ Roomy t' := by
  have hmarked := represents_marked h rooms
  have hlast : (rooms.dedup.mergeSort.foldl (fun known roomId => known.insert { roomId })
      (s.markRooms rooms).rooms).entries.length = (s.updateRoomLists rooms).rooms.entries.length :=
    length_eq_of_hasKey fun roomId => exists_congr fun room => and_congr_left fun _ => mem_emplaced rooms s room
  have hless : ∀ n, ((rooms.dedup.mergeSort.take n).foldl (fun known roomId => known.insert { roomId })
      (s.markRooms rooms).rooms).entries.length ≤ 126 := by
    intro n
    refine (length_le_foldl_insert (rooms.dedup.mergeSort.drop n) _).trans ?_
    rw [← List.foldl_append, List.take_append_drop, hlast]
    exact hfew
  obtain ⟨t', hok, -, hroomy'⟩ := exists_foldlM
    (fun m t => Represents RoomStatus.roomId roomHash m t ∧ Roomy t) (fun m => m.entries.length ≤ 126)
    (fun known roomId => known.insert { roomId }) (fun m t roomId ht hless => ht.1.emplace_roomy ht.2 hless)
    ⟨hmarked, hroomy⟩ rooms.dedup.mergeSort hless
  exact ⟨t', hok, hroomy'⟩

end Rooms

section Workers

variable {t : WorkersMap} {s : Scheduler} {now : Time} {m : Keyed WorkerStatus.identifier} {effects : List Effect}

theorem length_foldl_handled_le (hnone : ∀ effect ∈ effects, ¬effect.Connects) :
    (effects.foldl (handled now) m).entries.length ≤ m.entries.length := by
  induction effects generalizing m with
  | nil => exact Nat.le_refl _
  | cons effect rest ih =>
      obtain ⟨hfirst, hrest⟩ := List.forall_mem_cons.mp hnone
      refine (ih hrest).trans ?_
      cases effect with
      | connected identifier => exact absurd trivial hfirst
      | deleted identifier => exact List.length_filter_le _ _
      | _ => exact Nat.le_refl _

theorem foldl_handled_reset {identifier : Identifier} (h : ∀ effect ∈ effects, effect = .reset identifier) :
    effects.foldl (handled now) m = m := by
  induction effects with
  | nil => rfl
  | cons effect rest ih =>
      obtain ⟨rfl, hrest⟩ := List.forall_mem_cons.mp h
      exact ih hrest

-- Within a step the workers are no more than before it or behind it.
theorem length_foldl_take_handled (input : Input) (hbefore : s.Few) (hafter : (Scheduler.step input s).Few) (n : Nat) :
    ((((Scheduler.step input s).trace.drop s.trace.length).take n).foldl (handled now) s.workers).entries.length ≤
      126 := by
  rcases Scheduler.step_connects input s with ⟨effects, htrace, hnone⟩ | ⟨identifier, more, htrace, hmore⟩
  · rw [htrace, List.drop_left]
    exact (length_foldl_handled_le fun effect he => hnone effect (List.mem_of_mem_take he)).trans hbefore.2
  · obtain ⟨effects, htrace', hknown⟩ := registers_step input s
    obtain rfl := List.append_cancel_left (htrace'.symm.trans htrace)
    have hlast : ((Effect.connected identifier :: more).foldl (handled now) s.workers).entries.length =
        (Scheduler.step input s).workers.entries.length :=
      length_eq_of_hasKey fun other => by rw [← decide_eq_decide, hasKey_foldl_handled, hknown]
    rw [htrace, List.drop_left]
    cases n with
    | zero => exact hbefore.2
    | succ n =>
        rw [List.foldl_cons, foldl_handled_reset hmore] at hlast
        rw [List.take_succ_cons, List.foldl_cons,
          foldl_handled_reset fun effect he => hmore effect (List.mem_of_mem_take he), hlast]
        exact hafter.2

theorem exists_handle (h : Represents WorkerStatus.identifier hashInt m t) (hroomy : Roomy t) (effect : Effect)
    (hfew : (handled now m effect).entries.length ≤ 126) :
    ∃ t', t.handle now effect = .ok t' ∧ Represents WorkerStatus.identifier hashInt (handled now m effect) t' ∧
      Roomy t' := by
  cases effect with
  | connected identifier => exact h.emplace_roomy hroomy hfew
  | deleted identifier => exact ⟨_, rfl, h.erase identifier, roomy_erase hroomy⟩
  | _ => exact ⟨t, rfl, h, hroomy⟩

theorem exists_stepWorkers (h : Represents WorkerStatus.identifier hashInt s.workers t) (hroomy : Roomy t)
    (input : Input) (hbefore : s.Few) (hafter : (Scheduler.step input s).Few) :
    ∃ t', ((Scheduler.step input s).trace.drop s.trace.length).foldlM
      (WorkersMap.handle (input.env.now .newWorker)) t = .ok t' ∧ Roomy t' := by
  obtain ⟨t', hok, -, hroomy'⟩ := exists_foldlM
    (fun m t => Represents WorkerStatus.identifier hashInt m t ∧ Roomy t) (fun m => m.entries.length ≤ 126)
    (handled _) (fun m t effect ht hless => exists_handle ht.1 ht.2 effect hless) ⟨h, hroomy⟩ _
    (length_foldl_take_handled input hbefore hafter)
  exact ⟨t', hok, hroomy'⟩

end Workers

namespace Tables

variable {s : Tables}

theorem exists_step (h : Agree s) (hrooms : Roomy s.rooms) (hworkers : Roomy s.workers) (input : Input)
    (hbefore : s.scheduler.Few) (hafter : (Scheduler.step input s.scheduler).Few) :
    ∃ s', s.step input = .ok s' ∧ s'.scheduler = Scheduler.step input s.scheduler ∧ Agree s' ∧
      Roomy s'.rooms ∧ Roomy s'.workers := by
  have hsound := h.step input
  have hroomsOk : ∃ rooms, s.stepRooms input = .ok rooms ∧ Roomy rooms := by
    unfold Tables.stepRooms
    cases htold : input.told with
    | some rooms =>
        have hstep := congrArg Scheduler.rooms (Scheduler.step_of_told (s := s.scheduler) htold)
        exact exists_updateRoomLists h.rooms hrooms rooms (hstep ▸ hafter.1)
    | none =>
        refine ⟨_, rfl, ?_⟩
        show Roomy (if _ then _ else _ : RoomsMap)
        split
        · exact roomy_sweep hrooms
        · exact hrooms
  obtain ⟨rooms, hrooms', hroomy⟩ := hroomsOk
  obtain ⟨workers, hworkers', hroomy'⟩ := exists_stepWorkers h.workers hworkers input hbefore hafter
  have hstep : s.step input = .ok
      { scheduler := Scheduler.step input s.scheduler
        rooms := rooms
        workers := workers.write (WorkerStatus.current (Scheduler.step input s.scheduler).workers) } := by
    unfold Tables.step
    rw [hrooms']
    unfold Tables.stepWorkers
    dsimp only
    rw [hworkers']
    rfl
  rw [hstep] at hsound
  exact ⟨_, hstep, hsound.1, hsound.2, hroomy, hroomy'⟩

theorem exists_foldlM_step (h : Agree s) (hrooms : Roomy s.rooms) (hworkers : Roomy s.workers) {inputs : List Input}
    (hfew : Runs.EveryState Scheduler.step Scheduler.Few s.scheduler inputs) :
    ∃ s', inputs.foldlM step s = .ok s' ∧ s'.scheduler = Runs.run Scheduler.step s.scheduler inputs ∧ Agree s' := by
  induction inputs generalizing s with
  | nil => exact ⟨s, rfl, rfl, h⟩
  | cons input rest ih =>
      obtain ⟨s', hok, hscheduler, hagree, hrooms', hworkers'⟩ :=
        exists_step h hrooms hworkers input hfew.1 hfew.2.head
      obtain ⟨s'', hrest, hrun, hagree'⟩ := ih hagree hrooms' hworkers' (hscheduler ▸ hfew.2)
      refine ⟨s'', ?_, ?_, hagree'⟩
      · rw [List.foldlM_cons, hok]
        exact hrest
      · rw [hrun, hscheduler]
        rfl

-- The table of the rooms grows with the seventh of them.
def fewInputs : List Input :=
  [{ env := .at 0, event := .updateRoomLists [3, 5, 8, 13, 21, 34, 55, 89] },
    { env := .at 0, event := .accept .accepted [7] },
    { env := .at (seconds 1), event := .updateRoomLists [5, 8, 13, 21, 34, 55, 89, 144] },
    { env := .at (seconds 10), event := .tick .expired }]

end Tables

end LiveReceptor.Supervisor

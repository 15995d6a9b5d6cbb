import LiveReceptor.Supervisor.Charges

namespace LiveReceptor.Supervisor.Scheduler

open SimpleWorkerProto

variable {env : Env} {input : Input} {s t : Scheduler} {w : Identifier} {tasks : List RoomTask}

section Failures

-- The step makes the worker wait longer. A reset puts its time back to the present.
def Delays (input : Input) (s : Scheduler) (w : Identifier) : Prop :=
  .reset w ∉ s.effects input ∧ ∃ worker ∈ s.workers, worker.identifier = w ∧
    ∃ worker' ∈ (step input s).workers, worker'.identifier = w ∧
      worker.allowNewTaskAfter < worker'.allowNewTaskAfter

-- The worker has reported one of its tasks as failed.
def ReportsFailure (input : Input) (s : Scheduler) (w : Identifier) : Prop :=
  ∃ task ∈ s.failedTask input, task.identifier = w

-- The pass of the step finds that a task of the worker exceeds the timeout.
def FindsTimeout (input : Input) (s : Scheduler) (w : Identifier) : Prop :=
  ∃ t, passStart input s = some t ∧ ¬throttled input.env t ∧
    ∃ task ∈ t.timedOut input.env, task.identifier = w

def OnlyFailures (input : Input) (s : Scheduler) : Prop :=
  ∀ w, Delays input s w → ReportsFailure input s w ∨ FindsTimeout input s w

-- When the pass of the step looks at the rooms, no room that has left the list
-- has a task.
def NoneRemoved (input : Input) (s : Scheduler) : Prop :=
  ∀ t, passStart input s = some t → ¬throttled input.env t →
    ∀ task ∈ (t.refreshed input.env).tasks, ¬InRoster t task.roomId false

theorem removed_eq_nil {rooms : List RoomStatus} (h : ∀ room ∈ rooms, room.active = false →
    ∀ task ∈ s.tasks, task.roomId ≠ room.roomId) : removed env rooms s = [] := by
  induction rooms generalizing s with
  | nil => rfl
  | cons room rest ih =>
      obtain ⟨hroom, hrest⟩ := List.forall_mem_cons.mp h
      rw [removed]
      cases hactive : room.active with
      | true => exact ih hrest
      | false =>
          have hnone : (s.tasks.entries.filter fun task => task.roomId = room.roomId) = [] :=
            List.filter_eq_nil_iff.mpr fun task ht hr => hroom hactive task ht (of_decide_eq_true hr)
          have hempty : env.tasksByRoom.arrange [] = [] := List.perm_nil.mp (env.tasksByRoom.perm [])
          rw [if_neg (by simp), hnone, hempty, List.nil_append]
          refine ih fun other ho hinactive task ht => hrest other ho hinactive task ?_
          exact ((mem_tasks_foldl_drop true _ s).mp ht).1

-- Where nothing goes with a room, what goes has exceeded the timeout.
theorem erred_eq_timedOut (hdue : ¬throttled env t)
    (hnone : ∀ task ∈ (t.refreshed env).tasks, ¬InRoster t task.roomId false) :
    t.erred env = t.timedOut env := by
  rw [erred, if_neg hdue, removed_eq_nil, List.append_nil]
  rintro room hroom hactive task ht he
  refine hnone task ht ((inRoster_collected env).mp ⟨room, (env.rooms.mem_arrange).mp hroom, he.symm, hactive⟩)

theorem mem_of_mem_chargeTimes {time : Time} (h : time ∈ chargeTimes env w tasks) :
    ∃ task ∈ tasks, task.identifier = w := by
  obtain ⟨task, ht, -⟩ := List.mem_map.mp h
  obtain ⟨hmem, hid⟩ := List.mem_filter.mp ht
  exact ⟨task, hmem, of_decide_eq_true hid⟩

theorem onlyFailures_of_noneRemoved (hs : Unpunished s) (hnone : NoneRemoved input s) :
    OnlyFailures input s := by
  rintro w ⟨hreset, worker, hworker, hid, worker', hworker', hid', hless⟩
  have hpays := (step_charged hs input w).2 ⟨worker, hworker, hid⟩ hreset
  rw [allowOf, allowOf, Keyed.find?_eq_some.mpr ⟨hworker, hid⟩, Keyed.find?_eq_some.mpr ⟨hworker', hid'⟩,
    Option.map_some, Option.map_some, Option.map_some, Option.some.injEq] at hpays
  have hcharged : s.charges input w ≠ [] := by
    intro hnothing
    rw [hnothing, charge_nil] at hpays
    exact absurd hless (not_lt.mpr hpays.le)
  obtain ⟨time, htime⟩ := List.exists_mem_of_ne_nil _ hcharged
  obtain ⟨task, ht, htask⟩ := mem_of_mem_chargeTimes htime
  rcases List.mem_append.mp ht with ht | ht
  · exact Or.inl ⟨task, ht, htask⟩
  · rw [passErred] at ht
    cases hstart : passStart input s with
    | none =>
        rw [hstart] at ht
        cases ht
    | some t =>
        rw [hstart] at ht
        change task ∈ t.erred input.env at ht
        by_cases hdue : throttled input.env t
        · rw [erred, if_pos hdue] at ht
          cases ht
        · rw [erred_eq_timedOut hdue (hnone t hstart hdue)] at ht
          exact Or.inr ⟨t, hstart, hdue, task, ht, htask⟩

-- Every delay is due to a failure in the runs in which no pass takes a task away
-- with its room.
theorem run_onlyFailures (config : Config) (inputs : List Input)
    (hnone : Runs.EveryStep step NoneRemoved (initial config) inputs) :
    Runs.EveryStep step OnlyFailures (initial config) inputs :=
  @Runs.everyStep_of _ _ _ Unpunished _ _ (fun input _ hs _ => (step_charged hs input 0).1)
    (fun _ _ hs hnone => onlyFailures_of_noneRemoved hs hnone) _ (initial_unpunished config) _ hnone

instance (input : Input) (s : Scheduler) (w : Identifier) : Decidable (Delays input s w) :=
  inferInstanceAs (Decidable (_ ∧ ∃ worker ∈ s.workers.entries, _ ∧
    ∃ worker' ∈ (step input s).workers.entries, _))

instance (input : Input) (s : Scheduler) (w : Identifier) : Decidable (ReportsFailure input s w) :=
  inferInstanceAs (Decidable (∃ task ∈ s.failedTask input, _))

instance (input : Input) (s : Scheduler) (w : Identifier) : Decidable (FindsTimeout input s w) :=
  decidable_of_iff (∃ t ∈ passStart input s, ¬throttled input.env t ∧
    ∃ task ∈ t.timedOut input.env, task.identifier = w) Iff.rfl

instance (input : Input) (s : Scheduler) : Decidable (NoneRemoved input s) :=
  decidable_of_iff (∀ t ∈ passStart input s, ¬throttled input.env t →
    ∀ task ∈ (t.refreshed input.env).tasks.entries,
      ¬∃ room ∈ t.rooms.entries, room.roomId = task.roomId ∧ room.active = false) Iff.rfl

-- The worker serves the room, and then reports that it has failed.
def servingInputs : List Input :=
  [{ env := .at 0, event := .accept .accepted [1] },
    { env := .at 0, event := .updateRoomLists [1] },
    { env := .at 0, event := .payload 1 (plainReady 1) },
    { env := .at (seconds 10), event := .tick .expired }]

-- Worker 1 reports the room as failed.
def failingInput (time : Time) (r : UInt8) : Input where
  env := .at time
  event := .payload 1 [roomFailedCode, 0, 0, 0, r]

theorem run_onlyFailures_reported : Runs.EveryStep step OnlyFailures (initial plainConfig)
    (servingInputs ++ [failingInput (seconds 11) 1]) :=
  run_onlyFailures plainConfig _ (by decide)

-- The room leaves the list, and the worker that has served it must wait.
theorem run_onlyFailures_refuted :
    ¬∀ config inputs, Runs.EveryStep step OnlyFailures (initial config) inputs := by
  intro h
  have hrun := h plainConfig (servingInputs ++ [{ env := .at (seconds 11), event := .updateRoomLists [] }] ++
    [{ env := .at (seconds 12), event := .tick .expired }])
  have hlast := Runs.everyStep_iff_prefix.mp hrun _ _ [] rfl 1
  revert hlast
  decide

end Failures

section Accumulation

-- The tasks of the step that its pass finds to have exceeded the timeout.
def passTimedOut (input : Input) (s : Scheduler) : List RoomTask :=
  match passStart input s with
  | none => []
  | some t => if throttled input.env t then [] else t.timedOut input.env

-- The times at which tasks of the worker fail or time out in the step.
def failures (w : Identifier) (input : Input) (s : Scheduler) : List Time :=
  chargeTimes input.env w (s.failedTask input ++ s.passTimedOut input)

-- The step does not reset the worker, and its pass does not find it available.
-- The penalty is of this many minutes.
structure Undisturbed (penaltyMin : Int) (w : Identifier) (input : Input) (s : Scheduler) : Prop where
  kept : .reset w ∉ s.effects input
  away : ∀ t, passStart input s = some t → ¬throttled input.env t →
    ∀ worker ∈ (t.refreshed input.env).workers, worker.identifier = w → ¬available input.env worker
  penalty : s.config.worker.workerPenaltyMin = penaltyMin

instance (penaltyMin : Int) (w : Identifier) (input : Input) (s : Scheduler) :
    Decidable (Undisturbed penaltyMin w input s) :=
  decidable_of_iff (.reset w ∉ s.effects input ∧
    (∀ t ∈ passStart input s, ¬throttled input.env t →
      ∀ worker ∈ (t.refreshed input.env).workers.entries, worker.identifier = w →
        ¬available input.env worker) ∧ s.config.worker.workerPenaltyMin = penaltyMin)
    ⟨fun h => ⟨h.1, h.2.1, h.2.2⟩, fun h => ⟨h.kept, h.away, h.penalty⟩⟩

theorem charge_of_getLast {p : Int} {times : List Time} {last : Time} (h : times.getLast? = some last)
    (allow : Time) : charge p times allow = last + minutes p := by
  obtain ⟨first, rfl⟩ := List.getLast?_eq_some_iff.mp h
  rw [charge_append]
  rfl

-- What fails or times out is charged for.
theorem failures_sublist (w : Identifier) (input : Input) (s : Scheduler) :
    (s.failures w input).Sublist (s.charges input w) := by
  refine (List.Sublist.filter _ (List.Sublist.append_left ?_ _)).map _
  rw [passTimedOut, passErred]
  cases passStart input s with
  | none => exact List.Sublist.refl _
  | some t =>
      change (if throttled input.env t then [] else t.timedOut input.env).Sublist (t.erred input.env)
      rw [erred]
      split
      · exact List.Sublist.refl _
      · exact List.sublist_append_left _ _

theorem allowOf_run {p : Int} {inputs : List Input} (hs : Unpunished s) (hkey : s.workers.HasKey w)
    (hsteps : Runs.EveryStep step (Undisturbed p w) s inputs) :
    (Runs.run step s inputs).allowOf w =
      (s.allowOf w).map (charge p (Runs.collect step (fun input s => s.charges input w) s inputs)) := by
  induction inputs generalizing s with
  | nil =>
      change s.allowOf w = (s.allowOf w).map (charge p [])
      cases s.allowOf w <;> rfl
  | cons input rest ih =>
      obtain ⟨hstep, hrest⟩ := hsteps
      obtain ⟨hs', hpays⟩ := step_charged hs input w
      have hone := hpays hkey hstep.kept
      have hkey' : (step input s).workers.HasKey w := by
        rw [hasKey_iff_allowOf, hone, Option.isSome_map]
        exact hasKey_iff_allowOf.mp hkey
      rw [Runs.run_cons, ih hs' hkey' hrest, hone, hstep.penalty, Runs.collect, Option.map_map]
      refine congrFun (congrArg Option.map (funext fun allow => ?_)) _
      rw [charge_append]
      rfl

theorem collect_failures_sublist (w : Identifier) (s : Scheduler) (inputs : List Input) :
    (Runs.collect step (failures w) s inputs).Sublist
      (Runs.collect step (fun input s => s.charges input w) s inputs) := by
  induction inputs generalizing s with
  | nil => exact .slnil
  | cons input rest ih => exact (failures_sublist w input s).append (ih (step input s))

-- The penalties have added up exactly when the last one, which alone counts,
-- comes as late after the first as the penalties before it amount to.
theorem run_accumulates_iff (config : Config) (before inputs : List Input) (w : Identifier) (penaltyMin : Int)
    (first : Time) (later : List Time) (hkey : (run config before).workers.HasKey w)
    (hsteps : Runs.EveryStep step (Undisturbed penaltyMin w) (run config before) inputs)
    (hfailures : Runs.collect step (failures w) (run config before) inputs = first :: later) :
    (Runs.run step (run config before) inputs).allowOf w =
        some (first + (first :: later).length * minutes penaltyMin) ↔
      (Runs.collect step (fun input s => s.charges input w) (run config before) inputs).getLast? =
        some (first + later.length * minutes penaltyMin) := by
  have hsub := collect_failures_sublist w (run config before) inputs
  rw [hfailures] at hsub
  obtain ⟨last, hlast⟩ : ∃ last,
      (Runs.collect step (fun input s => s.charges input w) (run config before) inputs).getLast? = some last :=
    Option.isSome_iff_exists.mp (List.getLast?_isSome.mpr (List.ne_nil_of_mem (hsub.subset List.mem_cons_self)))
  obtain ⟨allow, hallow⟩ := Option.isSome_iff_exists.mp (hasKey_iff_allowOf.mp hkey)
  rw [allowOf_run (run_unpunished config before) hkey hsteps, hallow, hlast, Option.map_some,
    charge_of_getLast hlast, Option.some.injEq, Option.some.injEq, List.length_cons]
  have hsum : ((later.length + 1 : Nat) : Int) * minutes penaltyMin =
      later.length * minutes penaltyMin + minutes penaltyMin := by
    rw [Int.natCast_add, Int.add_mul, Int.natCast_one, Int.one_mul]
  rw [hsum, ← Int.add_assoc]
  exact Int.add_left_inj _

-- The worker serves both rooms.
def servingBoth : List Input :=
  [{ env := .at 0, event := .accept .accepted [1] },
    { env := .at 0, event := .updateRoomLists [1, 2] },
    { env := .at 0, event := .payload 1 (plainReady 2) },
    { env := .at (seconds 10), event := .tick .expired }]

-- One room fails, the other is heard of, and fails a minute after the first.
def failingApart : List Input :=
  [failingInput (seconds 11) 1,
    { env := .at (seconds 30), event := .tick .expired },
    { env := .at (seconds 45)
      event := .payload 1 ([workerDataCode, 0, 0, 0, 2, 7, 0, 0, 0] ++ List.replicate 32 0) },
    { env := .at (seconds 60), event := .tick .expired },
    failingInput (seconds 71) 2]

theorem run_accumulates_iff_apart :
    (Runs.run step (run plainConfig servingBoth) failingApart).allowOf 1 = some (seconds 11 + 2 * minutes 1) :=
  (run_accumulates_iff plainConfig servingBoth failingApart 1 1 (seconds 11) [seconds 71] (by decide) (by decide)
    (by decide)).mpr (by decide)

-- Both rooms of a worker fail, and it waits as long as for the second one alone.
theorem run_accumulates_refuted : ¬∀ config before inputs w penaltyMin first later,
    (run config before).workers.HasKey w →
    Runs.EveryStep step (Undisturbed penaltyMin w) (run config before) inputs →
    Runs.collect step (failures w) (run config before) inputs = first :: later →
    (first :: later).Pairwise (· ≤ ·) →
    (Runs.run step (run config before) inputs).allowOf w =
      some (first + (first :: later).length * minutes penaltyMin) := by
  intro h
  have hwait := h plainConfig servingBoth [failingInput (seconds 11) 1, failingInput (seconds 12) 2] 1 1
    (seconds 11) [seconds 12] (by decide) (by decide) (by decide) (by decide)
  revert hwait
  decide

end Accumulation

end LiveReceptor.Supervisor.Scheduler

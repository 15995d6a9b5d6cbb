import LiveReceptor.Supervisor.Limits
import LiveReceptor.Supervisor.Oscillation

namespace LiveReceptor.Supervisor.Scheduler

variable {env : Env} {s s' t : Scheduler} {r : RoomId} {pass pass' : AssignPass}
  {maxTasks currentMin : Int} {rooms : List RoomId}

section Floor

-- The room has lost a task.
def Loses (s s' : Scheduler) (roomId : RoomId) : Prop := Receives s' s roomId

instance (s s' : Scheduler) (roomId : RoomId) : Decidable (Loses s s' roomId) :=
  inferInstanceAs (Decidable (Receives s' s roomId))

theorem Processed.lt_of_loses (h : Processed maxTasks currentMin rooms pass pass') (hr : r ∈ rooms)
    (hlost : Loses pass.state pass'.state r) : pass'.state.load r < pass.state.load r := by
  obtain ⟨w, hserves, hgone⟩ := receives_iff.mp hlost
  rcases h.oneWay r hr with hgrow | hshrink
  · exact absurd (hgrow w hserves) hgone
  · exact load_lt_of_serves hshrink hserves hgone

theorem one_le_maxTasksPerRoom : 1 ≤ s.maxTasksPerRoom := le_max_left _ _

theorem currentMin_nonneg : 0 ≤ (s.roomScan env).currentMinTasksPerRoom := by
  have hattained : (s.roomScan env).currentMinTasksPerRoom = 2147483647 / 2 ∨
      ∃ room ∈ env.rooms.arrange (s.collected env).rooms.entries, room.active = true ∧
        room.currentConnections = (s.roomScan env).currentMinTasksPerRoom := currentMin_foldl_visit
  obtain hstart | ⟨room, hroom, -, heq⟩ := hattained
  · omega
  · have hload := (balanced_collected s).count_eq ((env.rooms.mem_arrange).mp hroom)
    omega

-- Every worker holds an open socket, and there are fewer of these than an int counts.
def FewWorkers (s : Scheduler) : Prop := s.workers.entries.length < 2147483648

-- A room that the pass takes tasks from keeps some. The last part needs a number
-- of workers that static_cast<int> leaves as it is.
structure KeepsCovered (env : Env) (t : Scheduler) : Prop where
  floor : ∀ r, Loses (t.assignStart env).state (t.checkAllStates env) r →
    min (t.refreshed env).maxTasksPerRoom ((t.roomScan env).currentMinTasksPerRoom + 1) ≤
      (t.checkAllStates env).load r
  covered : ∀ r, Loses (t.assignStart env).state (t.checkAllStates env) r →
    1 ≤ (t.checkAllStates env).load r
  minimum : FewWorkers (t.refreshed env) →
    ∀ r, Loses (t.assignStart env).state (t.checkAllStates env) r →
      (t.roomScan env).currentMinTasksPerRoom ≤ (t.checkAllStates env).load r

theorem load_assignStart_le (hinv : Inv t) (r : RoomId) :
    (t.assignStart env).state.load r ≤ (t.refreshed env).workers.entries.length := by
  have hinterval : PassMoves env Unguarded .interval t (t.refreshed env) := refreshed_moves t
  have hrooms : PassMoves env Unguarded .rooms (t.refreshed env) (t.assignStart env).state :=
    assignStart_moves t
  rw [← length_workers_passMoves (by simp) hrooms]
  exact load_le_workers (moves_invariant (fun _ _ => Inv.passMove)
    (moves_invariant (fun _ _ => Inv.passMove) hinv hinterval) hrooms) r

theorem keepsCovered (hinv : Inv t) (hdue : ¬throttled env t) : KeepsCovered env t := by
  have hpass := @processed_pass env t hdue
  have hdone : t.checkAllStates env = (t.processRooms env (t.roomNeedProc env)).state := by
    rw [checkAllStates, if_neg hdue]
  have hshrink : ∀ r, Loses (t.assignStart env).state (t.checkAllStates env) r →
      (t.checkAllStates env).load r < (t.assignStart env).state.load r ∧
        ((t.refreshed env).maxTasksPerRoom ≤ (t.checkAllStates env).load r ∨
          (t.roomScan env).currentMinTasksPerRoom < (t.checkAllStates env).load r) := by
    rw [hdone]
    intro r hlost
    have hr : r ∈ t.roomNeedProc env := by
      by_contra hr
      obtain ⟨w, hserves, hgone⟩ := receives_iff.mp hlost
      exact hgone ((hpass.adjusts.frame r hr w).mpr hserves)
    have hless := hpass.lt_of_loses hr hlost
    exact ⟨hless, hpass.shrink r hr hless⟩
  have hone : 1 ≤ (t.refreshed env).maxTasksPerRoom := one_le_maxTasksPerRoom
  have hmin := @currentMin_nonneg env t
  constructor
  · intro r hlost
    obtain ⟨-, hmax | hover⟩ := hshrink r hlost
    · exact (min_le_left _ _).trans hmax
    · exact (min_le_right _ _).trans hover
  · intro r hlost
    obtain ⟨-, hmax | hover⟩ := hshrink r hlost
    · omega
    · omega
  · intro hfew r hlost
    obtain ⟨hless, hmax | hover⟩ := hshrink r hlost
    · -- The room would have had more tasks than there are workers.
      have hload := @load_assignStart_le env t hinv r
      have hbound := le_maxTasksPerRoom hfew
      omega
    · exact hover.le

theorem run_keepsCovered (config : Config) (inputs : List Input) : EveryPass KeepsCovered config inputs :=
  everyPass_of (fun _ _ hinv hdue => keepsCovered hinv hdue) config inputs

end Floor

end LiveReceptor.Supervisor.Scheduler

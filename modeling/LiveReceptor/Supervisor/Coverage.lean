import LiveReceptor.Supervisor.RoomFloor
import Mathlib.Algebra.BigOperators.Group.List.Basic
import Mathlib.Algebra.GroupWithZero.Nat

-- How many of the active rooms that no worker serves find one in a pass.
namespace LiveReceptor.Supervisor

-- How many tasks a worker may be given before the loop over the rooms drops it
-- from its list. A worker that is at its limit is not dropped yet.
def WorkerStatus.places (worker : WorkerStatus) : Nat :=
  min worker.remainingThisBunch.toNat (worker.maxRooms.toInt + 1 - worker.currentConnections).toNat

namespace Scheduler

def placesOf (s : Scheduler) (worker : Identifier) : Nat :=
  ((s.workers.find? worker).map WorkerStatus.places).getD 0

def AssignPass.places (pass : AssignPass) : Nat := (pass.workersAvailable.map pass.state.placesOf).sum

-- The active rooms that no worker serves.
def uncovered (s : Scheduler) : Nat :=
  s.rooms.entries.countP fun room => room.active && s.load room.roomId == 0

variable {env : Env} {s s' t : Scheduler} {r q : RoomId} {v w : Identifier} {pass pass' : AssignPass}
  {maxTasks currentMin : Int} {erasing : Bool} {workers : List Identifier} {rooms : List RoomId}

section Places

theorem placesOf_eq_zero : s.placesOf w = 0 ↔ s.dropped w = true := by
  rw [placesOf, dropped]
  cases s.workers.find? w with
  | none => exact iff_of_true rfl rfl
  | some status =>
      simp only [Option.map_some, Option.getD_some, WorkerStatus.places, decide_eq_true_eq]
      omega

theorem sum_placesOf_of_dropped (h : ∀ v ∈ workers, s.dropped v = true) :
    (workers.map s.placesOf).sum = 0 := by
  refine List.sum_eq_zero fun n hn => ?_
  obtain ⟨v, hv, rfl⟩ := List.mem_map.mp hn
  exact placesOf_eq_zero.mpr (h v hv)

theorem placesOf_addTask_of_ne (h : v ≠ w) : (s.addTask env w r).placesOf v = s.placesOf v := by
  rw [placesOf, placesOf, workers_addTask, Keyed.modify, Keyed.find?_update]
  cases hfind : s.workers.find? v with
  | none => rfl
  | some status =>
      have hid := (Keyed.find?_eq_some.mp hfind).2
      simp [hid, h]

-- Giving a task to a worker takes one of its places.
theorem placesOf_addTask_self (h : s.dropped w = false) :
    (s.addTask env w r).placesOf w + 1 = s.placesOf w := by
  obtain ⟨status, hstatus, hid, hlimit, hpositive⟩ := not_dropped h
  have hfind := Keyed.find?_eq_some.mpr ⟨hstatus, hid⟩
  rw [placesOf, placesOf, workers_addTask, Keyed.modify, Keyed.find?_update, hfind]
  simp only [Option.map_some, Option.getD_some, WorkerStatus.places, hid, if_true]
  omega

theorem sum_placesOf_addTask (hworkers : (w :: workers).Nodup) (h : s.dropped w = false) :
    ((w :: workers).map (s.addTask env w r).placesOf).sum + 1 = ((w :: workers).map s.placesOf).sum := by
  obtain ⟨hw, -⟩ := List.nodup_cons.mp hworkers
  have hothers : workers.map (s.addTask env w r).placesOf = workers.map s.placesOf :=
    List.map_congr_left fun v hv => placesOf_addTask_of_ne fun he => hw (he ▸ hv)
  have hself := @placesOf_addTask_self env s r w h
  rw [List.map_cons, List.map_cons, List.sum_cons, List.sum_cons, hothers]
  omega

end Places

section Turn

-- The walk for a room that no worker serves ends at the first worker that is not
-- dropped.
theorem offerRoom_of_unserved (h : ∀ w ∈ workers, ¬s.Serves w r) :
    ((offerRoom env r erasing workers s).1 = [] ∧ taker r s workers = none ∧
        ∀ v ∈ workers, s.dropped v = true) ∨
      ∃ before w rest, workers = before ++ w :: rest ∧ (∀ v ∈ before, s.dropped v = true) ∧
        s.dropped w = false ∧ taker r s workers = some w ∧
        (offerRoom env r erasing workers s).1 = w :: rest := by
  induction workers generalizing erasing with
  | nil => exact Or.inl ⟨rfl, rfl, by simp⟩
  | cons worker rest ih =>
      obtain ⟨hworker, hrest⟩ := List.forall_mem_cons.mp h
      have hnone : ¬s.tasks.HasKey (worker, r) := hworker
      cases hd : s.dropped worker with
      | true =>
          have hoffer : (offerRoom env r erasing (worker :: rest) s).1 = (offerRoom env r true rest s).1 := by
            rw [offerRoom, hd, if_pos rfl]
          have htaker : taker r s (worker :: rest) = taker r s rest := by
            rw [taker_cons, hd, if_neg (by simp)]
          rw [hoffer, htaker]
          obtain ⟨hkept, htake, hdropped⟩ | ⟨before, w, more, rfl, hbefore, hspare, htake, hkept⟩ :=
            @ih true hrest
          · exact Or.inl ⟨hkept, htake, List.forall_mem_cons.mpr ⟨hd, hdropped⟩⟩
          · exact Or.inr ⟨worker :: before, w, more, rfl, List.forall_mem_cons.mpr ⟨hd, hbefore⟩, hspare,
              htake, hkept⟩
      | false =>
          refine Or.inr ⟨[], worker, rest, rfl, by simp, hd, ?_, ?_⟩
          · rw [taker_cons, if_pos ⟨hd, hnone⟩]
          · simp [offerRoom, hd, assignTask, hnone]

-- What the turn of a room does that no worker serves: the room finds one as long
-- as there is a place.
inductive UncoveredTurn (r : RoomId) (pass pass' : AssignPass) : Prop
  | full (hbefore : pass.places = 0) (hafter : pass'.places = 0) (hstate : pass'.state = pass.state)
  | found (hplaces : pass'.places + 1 = pass.places) (hload : pass'.state.load r = 1)

theorem uncoveredTurn {room : RoomStatus} (hroom : room ∈ pass.state.rooms)
    (hcount : room.currentConnections = pass.state.load room.roomId)
    (hnone : pass.state.load room.roomId = 0) (hmax : 1 ≤ maxTasks) (hmin : 0 ≤ currentMin)
    (hworkers : pass.workersAvailable.Nodup) :
    UncoveredTurn room.roomId pass (pass.processRoom env maxTasks currentMin room.roomId) ∧
      (pass.processRoom env maxTasks currentMin room.roomId).workersAvailable.Nodup := by
  have hzero : room.currentConnections = 0 := by omega
  have hunserved : ∀ w, ¬pass.state.Serves w room.roomId := fun w hw =>
    Nat.ne_of_gt (load_pos_of_serves hw) hnone
  have hstate : (pass.offered env room.roomId).state = _ := offerRoom_state room.roomId false _ _
  have hkept : (pass.offered env room.roomId).workersAvailable =
      (offerRoom env room.roomId false pass.workersAvailable pass.state).1 := rfl
  rw [processRoom_of_mem hroom, if_pos (by omega), rebalance_of_few (by omega) (by omega), ite_self]
  obtain ⟨hnil, htaker, hdropped⟩ | ⟨before, w, rest, hsplit, hbefore, hspare, htaker, hcons⟩ :=
    @offerRoom_of_unserved env pass.state room.roomId false pass.workersAvailable fun w _ => hunserved w
  · rw [htaker] at hstate
    rw [hnil] at hkept
    refine ⟨.full (sum_placesOf_of_dropped hdropped) ?_ hstate, ?_⟩
    · rw [AssignPass.places, hkept]
      rfl
    · rw [hkept]
      exact List.nodup_nil
  · rw [htaker] at hstate
    rw [hcons] at hkept
    have hrest : (w :: rest).Nodup := by
      rw [hsplit] at hworkers
      exact (List.nodup_append.mp hworkers).2.1
    refine ⟨.found ?_ ?_, hkept ▸ hrest⟩
    · have htotal : pass.places = ((w :: rest).map pass.state.placesOf).sum := by
        rw [AssignPass.places, hsplit, List.map_append, List.sum_append, sum_placesOf_of_dropped hbefore,
          Nat.zero_add]
      rw [htotal, AssignPass.places, hkept, hstate]
      exact sum_placesOf_addTask hrest hspare
    · rw [hstate, load_addTask (hunserved w), hnone]

end Turn

section Loop

theorem countP_load_congr (h : ∀ q ∈ rooms, s'.load q = s.load q) :
    rooms.countP (fun q => s'.load q == 0) = rooms.countP fun q => s.load q == 0 :=
  List.countP_congr fun q hq => by rw [h q hq]

-- The rooms without a worker come first, and each takes a place.
theorem countP_load_foldl (hmax : 1 ≤ maxTasks) (hmin : 0 ≤ currentMin) (hbalanced : Balanced pass.state)
    (hknown : ∀ r ∈ rooms, pass.state.rooms.HasKey r) (hnodup : rooms.Nodup)
    (hsorted : rooms.Pairwise fun a b => pass.state.load a ≤ pass.state.load b)
    (hworkers : pass.workersAvailable.Nodup) :
    rooms.countP (fun r =>
        (rooms.foldl (AssignPass.processRoom env maxTasks currentMin) pass).state.load r == 0) =
      rooms.countP (fun r => pass.state.load r == 0) - pass.places := by
  induction rooms generalizing pass with
  | nil => exact (Nat.zero_sub _).symm
  | cons r rest ih =>
      have hpass : Processed maxTasks currentMin (r :: rest) pass
          ((r :: rest).foldl (AssignPass.processRoom env maxTasks currentMin) pass) :=
        processed_foldl hbalanced hknown hnodup hsorted
      obtain ⟨hnotin, hrest⟩ := List.nodup_cons.mp hnodup
      obtain ⟨hfirst, hsorted'⟩ := List.pairwise_cons.mp hsorted
      by_cases hnone : pass.state.load r = 0
      · obtain ⟨room, hroom, rfl⟩ := hknown r List.mem_cons_self
        obtain ⟨hturn, hworkers'⟩ := @uncoveredTurn env pass maxTasks currentMin room hroom
          (hbalanced.count_eq hroom) hnone hmax hmin hworkers
        have hmoves : PassMoves env Unguarded .assign pass.state
            (pass.processRoom env maxTasks currentMin room.roomId).state :=
          processRoom_moves currentMin fun _ _ _ _ _ _ _ => trivial
        have hbalanced' : Balanced (pass.processRoom env maxTasks currentMin room.roomId).state :=
          moves_invariant (fun _ _ => Balanced.passMove (by simp)) hbalanced hmoves
        have hone : Processed maxTasks currentMin [room.roomId] pass
            (pass.processRoom env maxTasks currentMin room.roomId) :=
          processed_processRoom hbalanced (.of_mem hroom)
        have hframe : ∀ q ∈ rest, (pass.processRoom env maxTasks currentMin room.roomId).state.load q =
            pass.state.load q := fun q hq =>
          hone.adjusts.load_eq fun he => hnotin (List.mem_singleton.mp he ▸ hq)
        have hknown' : ∀ q ∈ rest,
            (pass.processRoom env maxTasks currentMin room.roomId).state.rooms.HasKey q := by
          intro q hq
          obtain ⟨a, ha⟩ := hasKey_iff_inRoster.mp (hknown q (List.mem_cons_of_mem _ hq))
          exact hasKey_iff_inRoster.mpr ⟨a, (inRoster_passMoves (by simp) hmoves).mpr ha⟩
        have hsorted'' : rest.Pairwise fun a b =>
            (pass.processRoom env maxTasks currentMin room.roomId).state.load a ≤
              (pass.processRoom env maxTasks currentMin room.roomId).state.load b :=
          hsorted'.imp_of_mem fun {a b} ha hb hle => by rwa [hframe a ha, hframe b hb]
        have hloop : Processed maxTasks currentMin rest
            (pass.processRoom env maxTasks currentMin room.roomId)
            (rest.foldl (AssignPass.processRoom env maxTasks currentMin)
              (pass.processRoom env maxTasks currentMin room.roomId)) :=
          processed_foldl hbalanced' hknown' hrest hsorted''
        have hhead := hloop.adjusts.load_eq hnotin
        have hcount := ih hbalanced' hknown' hrest hsorted'' hworkers'
        rw [countP_load_congr hframe] at hcount
        rw [List.foldl_cons, List.countP_cons, List.countP_cons, hhead, hcount, hnone]
        cases hturn with
        | full hbefore hafter hstate =>
            rw [hafter, hbefore, hstate, hnone]
            simp
        | found hplaces hload =>
            rw [hload]
            simp only [Nat.reduceBEq, Bool.false_eq_true, if_false, if_true]
            omega
      · have hcovered : ∀ q ∈ r :: rest, 0 < pass.state.load q := by
          intro q hq
          rcases List.mem_cons.mp hq with rfl | hq
          · exact Nat.pos_of_ne_zero hnone
          · exact (Nat.pos_of_ne_zero hnone).trans_le (hfirst q hq)
        have hbefore : (r :: rest).countP (fun q => pass.state.load q == 0) = 0 :=
          List.countP_eq_zero.mpr fun q hq => by simpa using Nat.ne_of_gt (hcovered q hq)
        rw [hbefore, Nat.zero_sub]
        refine List.countP_eq_zero.mpr fun q hq => ?_
        have hpos := hcovered q hq
        have hkept : 0 < ((r :: rest).foldl (AssignPass.processRoom env maxTasks currentMin)
            pass).state.load q := by
          by_contra hlost
          obtain hless | hless := hpass.shrink q hq (by omega) <;> omega
        simpa using Nat.ne_of_gt hkept

end Loop

section Pass

theorem uncovered_eq (hnodup : rooms.Nodup) (hrooms : ∀ r, r ∈ rooms ↔ InRoster s r true) :
    s.uncovered = rooms.countP fun r => s.load r == 0 := by
  have hactive : ((s.rooms.entries.filter RoomStatus.active).map RoomStatus.roomId).Perm rooms := by
    refine (List.perm_ext_iff_of_nodup ?_ hnodup).mpr fun r => ?_
    · exact s.rooms.nodup.sublist (List.filter_sublist.map _)
    · simp only [List.mem_map, List.mem_filter, hrooms]
      exact exists_active_iff
  rw [← hactive.countP_eq, List.countP_map, List.countP_filter, uncovered]
  exact List.countP_congr fun room _ => by simp [and_comm]

theorem nodup_workersAvailable : (s.workersAvailable env).Nodup := by
  rw [workersAvailable]
  apply ((env.sortWorkers.perm _).map _).nodup_iff.mpr
  exact (((env.workers.perm _).map _).nodup_iff.mpr s.workers.nodup).sublist (List.filter_sublist.map _)

theorem inRoster_checkAllStates_of_active (hdue : ¬throttled env t) :
    InRoster (t.checkAllStates env) r true ↔ InRoster t r true :=
  (inRoster_checkAllStates hdue).trans (and_iff_left rfl)

-- Of the active rooms that no worker serves, a pass finds a worker for as many as
-- there are places. The places are those of the workers available to the pass,
-- when the loop over the rooms begins.
def CoversMost (env : Env) (t : Scheduler) : Prop :=
  (t.checkAllStates env).uncovered = (t.assignStart env).state.uncovered - (t.assignStart env).places

theorem coversMost (hdue : ¬throttled env t) : CoversMost env t := by
  have hstart : ∀ r, r ∈ t.roomNeedProc env ↔ InRoster (t.assignStart env).state r true := fun r =>
    mem_roomNeedProc.trans ((inRoster_assignStart hdue).trans (and_iff_left rfl)).symm
  have hend : ∀ r, r ∈ t.roomNeedProc env ↔ InRoster (t.checkAllStates env) r true := fun r =>
    mem_roomNeedProc.trans (inRoster_checkAllStates_of_active hdue).symm
  rw [CoversMost, uncovered_eq nodup_roomNeedProc hstart, uncovered_eq nodup_roomNeedProc hend,
    checkAllStates, if_neg hdue]
  exact countP_load_foldl one_le_maxTasksPerRoom currentMin_nonneg (balanced_assignStart t)
    (fun _ hr => hasKey_of_mem_roomNeedProc hdue hr) nodup_roomNeedProc sorted_roomNeedProc
    nodup_workersAvailable

theorem run_coversMost (config : Config) (inputs : List Input) : EveryPass CoversMost config inputs :=
  everyPass_of (fun _ _ _ hdue => coversMost hdue) config inputs

end Pass

end Scheduler

end LiveReceptor.Supervisor

import Mathlib.Logic.Relation
import LiveReceptor.Library.Iteration
import LiveReceptor.Library.Sweep
import LiveReceptor.Supervisor.CheckAllStates
import LiveReceptor.Supervisor.Lemmas

-- The loop of check_all_states over the table that `_rooms` is.
namespace LiveReceptor.Supervisor

open RobinHood (slotAt values ahead fastForward)

-- A room is small enough for the table to keep it in the slot itself.
abbrev RoomTable := RobinHood.Table RoomStatus.roomId

-- The pointers of room_need_proc are the numbers of the slots. The rooms of `state`
-- are the elements of the table; only a room that is erased next is written to.
-- `visited` is no part of the program; it is the record of the slots that the loop
-- has met and of the rooms that were in them.
structure TableScan where
  table : RoomTable
  state : Scheduler
  it : Nat
  roomNeedProc : List Nat := []
  currentMinTasksPerRoom : Int := 2147483647 / 2
  visited : List (Nat × RoomStatus) := []

namespace TableScan

def start (table : RoomTable) (s : Scheduler) : TableScan where
  table := table
  state := { s with rooms := table.content }
  it := table.begin

-- One turn of the loop; the end has no slot.
def turn (env : Env) (scan : TableScan) : Option TableScan :=
  match h : slotAt scan.table.slots scan.it with
  | none => none
  | some slot =>
      let room := slot.value
      let visited := scan.visited ++ [(scan.it, room)]
      if room.active then
        some { scan with
          currentMinTasksPerRoom := min scan.currentMinTasksPerRoom room.currentConnections
          roomNeedProc := scan.roomNeedProc ++ [scan.it]
          it := scan.table.next scan.it
          visited := visited }
      else
        let (table, it) := scan.table.eraseIterator scan.it slot h
        some { scan with
          state := scan.state.deleteInactiveRoom env room.roomId
          table := table
          it := it
          visited := visited }

-- The room that a pointer designates.
def room? (scan : TableScan) (pointer : Nat) : Option RoomStatus :=
  (slotAt scan.table.slots pointer).map RobinHood.Slot.value

def ahead (scan : TableScan) : List RoomStatus := RobinHood.ahead scan.table.slots scan.it

-- What is known of the rooms when the pointers are followed.
def toRoomScan (scan : TableScan) : Scheduler.RoomScan where
  state := scan.state
  roomNeedProc := scan.roomNeedProc.filterMap scan.room?
  currentMinTasksPerRoom := scan.currentMinTasksPerRoom

variable {env : Env} {scan next : TableScan} {table : RoomTable} {s : Scheduler} {room : RoomStatus}
  {roomId : RoomId}

section Turn

theorem slotAt_of_turn (h : scan.turn env = none) : slotAt scan.table.slots scan.it = none := by
  unfold turn at h
  split at h
  · assumption
  · dsimp only at h
    split at h
    · cases h
    · cases h

-- What a turn does with the room at the iterator: it collects it where it is, or
-- deletes it.
inductive Turned (env : Env) (scan : TableScan) : RoomStatus → TableScan → Prop
  | collected (slot : RobinHood.Slot RoomStatus) (hslot : slotAt scan.table.slots scan.it = some slot)
      (hactive : slot.value.active = true) :
      Turned env scan slot.value { scan with
        currentMinTasksPerRoom := min scan.currentMinTasksPerRoom slot.value.currentConnections
        roomNeedProc := scan.roomNeedProc ++ [scan.it]
        it := fastForward scan.table.slots (scan.it + 1)
        visited := scan.visited ++ [(scan.it, slot.value)] }
  | deleted (slot : RobinHood.Slot RoomStatus) (hslot : slotAt scan.table.slots scan.it = some slot)
      (hinactive : ¬slot.value.active = true) :
      Turned env scan slot.value { scan with
        state := scan.state.deleteInactiveRoom env slot.value.roomId
        table := scan.table.free scan.it slot hslot
        it := fastForward (scan.table.free scan.it slot hslot).slots scan.it
        visited := scan.visited ++ [(scan.it, slot.value)] }

theorem turned_turn (h : scan.turn env = some next) : ∃ room, Turned env scan room next := by
  unfold turn at h
  split at h
  · cases h
  · rename_i slot hslot
    dsimp only at h
    split at h
    · rename_i hactive
      cases h
      exact ⟨slot.value, .collected slot hslot hactive⟩
    · rename_i hinactive
      cases h
      rw [RobinHood.eraseIterator_snd scan.table hslot]
      exact ⟨slot.value, .deleted slot hslot hinactive⟩

theorem Turned.visited (h : Turned env scan room next) :
    next.visited = scan.visited ++ [(scan.it, room)] := by
  cases h with
  | collected => rfl
  | deleted => rfl

-- The rooms ahead are met in their order.
theorem Turned.ahead (h : Turned env scan room next) : scan.ahead = room :: next.ahead := by
  cases h with
  | collected slot hslot hactive =>
      rw [TableScan.ahead, TableScan.ahead, RobinHood.ahead_fastForward, RobinHood.ahead_of_some hslot]
  | deleted slot hslot hinactive =>
      rw [TableScan.ahead, TableScan.ahead, RobinHood.ahead_fastForward, RobinHood.ahead_free,
        RobinHood.ahead_of_some hslot]

theorem length_ahead_turn (h : scan.turn env = some next) : next.ahead.length < scan.ahead.length := by
  obtain ⟨room, hturned⟩ := turned_turn h
  rw [hturned.ahead]
  exact Nat.lt_succ_self _

-- A turn leaves the iterator at a room or at the end.
theorem Turned.ended (h : Turned env scan room next) (hend : slotAt next.table.slots next.it = none) :
    next.ahead = [] := by
  cases h with
  | collected slot hslot hactive => exact RobinHood.ahead_eq_nil_of_fastForward hend
  | deleted slot hslot hinactive => exact RobinHood.ahead_eq_nil_of_fastForward hend

theorem Turned.it_le (h : Turned env scan room next) : scan.it ≤ next.it := by
  cases h with
  | collected slot hslot hactive => exact (Nat.le_succ _).trans (RobinHood.le_fastForward _ _)
  | deleted slot hslot hinactive => exact RobinHood.le_fastForward _ _

-- A slot that the iterator has passed stays as it is.
theorem Turned.room? (h : Turned env scan room next) {pointer : Nat} (hpointer : pointer < scan.it) :
    next.room? pointer = scan.room? pointer := by
  cases h with
  | collected slot hslot hactive => rfl
  | deleted slot hslot hinactive =>
      exact congrArg _ (RobinHood.slotAt_free_of_lt scan.table hslot hpointer)

-- A room that is collected is passed and stays in its slot.
theorem Turned.designates (h : Turned env scan room next) (hactive : room.active = true) :
    scan.it < next.it ∧ next.room? scan.it = some room := by
  cases h with
  | collected slot hslot _ => exact ⟨RobinHood.le_fastForward _ _, congrArg _ hslot⟩
  | deleted slot hslot hinactive => exact absurd hactive hinactive

theorem Turned.pointers (h : Turned env scan room next) : next.roomNeedProc =
    scan.roomNeedProc ++ ([(scan.it, room)].filter fun visit => visit.2.active).map Prod.fst := by
  cases h with
  | collected slot hslot hactive => rw [List.filter_cons_of_pos (by exact hactive)]; rfl
  | deleted slot hslot hinactive =>
      rw [List.filter_cons_of_neg (by exact hinactive)]
      exact (List.append_nil _).symm

-- Of the elements only the room that is met can leave the table.
theorem Turned.values (h : Turned env scan room next) {before : List RoomStatus}
    (hbefore : values scan.table.slots = before ++ scan.ahead) :
    values next.table.slots = (before ++ [room].filter RoomStatus.active) ++ next.ahead := by
  cases h with
  | collected slot hslot hactive =>
      rw [List.filter_cons_of_pos hactive, TableScan.ahead, RobinHood.ahead_fastForward, hbefore,
        TableScan.ahead, RobinHood.ahead_of_some hslot, List.append_assoc]
      rfl
  | deleted slot hslot hinactive =>
      rw [List.filter_cons_of_neg hinactive, TableScan.ahead, RobinHood.ahead_fastForward,
        RobinHood.ahead_free, RobinHood.values_free scan.table hslot hbefore]
      exact congrArg (· ++ _) (List.append_nil before).symm

end Turn

def loop (env : Env) (scan : TableScan) : TableScan :=
  match h : scan.turn env with
  | none => scan
  | some next =>
      have : next.ahead.length < scan.ahead.length := length_ahead_turn h
      next.loop env
termination_by scan.ahead.length

-- The states that the loop goes through.
def Reaches (env : Env) : TableScan → TableScan → Prop :=
  Relation.ReflTransGen fun scan next => scan.turn env = some next

section Collecting

theorem rooms_deleteInactiveRoom : (s.deleteInactiveRoom env roomId).rooms = s.rooms.erase roomId := by
  have hdrops : ∀ tasks : List RoomTask, (∀ task ∈ tasks, task.roomId = roomId) → ∀ s : Scheduler,
      (tasks.foldl (fun s task => (s.sendUnassign task.identifier task.roomId).deleteTask env task.identifier
        task.roomId true) s).rooms.erase roomId = s.rooms.erase roomId := by
    intro tasks
    induction tasks with
    | nil => exact fun _ _ => rfl
    | cons task rest ih =>
        intro hroom s
        obtain ⟨htask, hrest⟩ := List.forall_mem_cons.mp hroom
        rw [List.foldl_cons, ih hrest, htask]
        by_cases h : (s.sendUnassign task.identifier roomId).tasks.HasKey (task.identifier, roomId)
        · rw [Scheduler.rooms_deleteTask_of_hasKey h, Keyed.erase_modify, Scheduler.rooms_sendUnassign]
        · rw [Scheduler.deleteTask_of_not_hasKey h, Scheduler.rooms_sendUnassign]
  refine hdrops _ (fun task htask => ?_) s
  rw [env.tasksByRoom.mem_arrange] at htask
  exact of_decide_eq_true (List.mem_filter.mp htask).2

-- What holds whenever the loop is at its head. The rooms that it has met and kept
-- stand in front of those that it has not met yet.
structure Collecting (table : RoomTable) (scan : TableScan) : Prop where
  order : scan.visited.map Prod.snd ++ scan.ahead = values table.slots
  kept : values scan.table.slots = (scan.visited.map Prod.snd).filter RoomStatus.active ++ scan.ahead
  pointers : scan.roomNeedProc = (scan.visited.filter fun visit => visit.2.active).map Prod.fst
  behind : ∀ visit ∈ scan.visited, visit.2.active = true → visit.1 < scan.it
  designates : ∀ visit ∈ scan.visited, visit.2.active = true → scan.room? visit.1 = some visit.2
  ended : slotAt scan.table.slots scan.it = none → scan.ahead = []
  rooms : scan.state.rooms = scan.table.content

theorem collecting_start (table : RoomTable) (s : Scheduler) : Collecting table (start table s) := by
  have hall : (start table s).ahead = values table.slots := RobinHood.ahead_fastForward table.slots 0
  refine ⟨hall, hall.symm, rfl, fun visit hvisit => ?_, fun visit hvisit => ?_, fun hend => ?_, rfl⟩
  · cases hvisit
  · cases hvisit
  · exact RobinHood.ahead_eq_nil_of_fastForward hend

theorem Turned.rooms (h : Turned env scan room next) (hrooms : scan.state.rooms = scan.table.content) :
    next.state.rooms = next.table.content := by
  cases h with
  | collected slot hslot hactive => exact hrooms
  | deleted slot hslot hinactive =>
      show (scan.state.deleteInactiveRoom env slot.value.roomId).rooms =
        (scan.table.free scan.it slot hslot).content
      rw [rooms_deleteInactiveRoom, hrooms, ← scan.table.erase_of_slotAt hslot,
        RobinHood.Table.content_erase]

theorem Collecting.turned (hs : Collecting table scan) (h : Turned env scan room next) :
    Collecting table next := by
  refine ⟨?_, ?_, ?_, ?_, ?_, h.ended, h.rooms hs.rooms⟩
  · rw [h.visited, List.map_append, List.append_assoc, ← hs.order, h.ahead]
    rfl
  · rw [h.values hs.kept, h.visited, List.map_append, List.filter_append]
    rfl
  · rw [h.pointers, h.visited, List.filter_append, List.map_append, hs.pointers]
  · intro visit hvisit hactive
    rw [h.visited, List.mem_append] at hvisit
    rcases hvisit with hbefore | hhere
    · exact Nat.lt_of_lt_of_le (hs.behind visit hbefore hactive) h.it_le
    · cases List.mem_singleton.mp hhere
      exact (h.designates hactive).1
  · intro visit hvisit hactive
    rw [h.visited, List.mem_append] at hvisit
    rcases hvisit with hbefore | hhere
    · rw [h.room? (hs.behind visit hbefore hactive)]
      exact hs.designates visit hbefore hactive
    · cases List.mem_singleton.mp hhere
      exact (h.designates hactive).2

-- The pointers lead to the rooms that they were taken from.
theorem Collecting.designated (hs : Collecting table scan) : scan.roomNeedProc.map scan.room? =
    ((scan.visited.map Prod.snd).filter RoomStatus.active).map some := by
  rw [hs.pointers, List.filter_map, List.map_map, List.map_map]
  refine List.map_congr_left fun visit hvisit => ?_
  obtain ⟨hmet, hactive⟩ := List.mem_filter.mp hvisit
  exact hs.designates visit hmet hactive

theorem Collecting.pointer_lt (hs : Collecting table scan) {pointer : Nat}
    (h : pointer ∈ scan.roomNeedProc) : pointer < scan.it := by
  rw [hs.pointers] at h
  obtain ⟨visit, hvisit, rfl⟩ := List.mem_map.mp h
  obtain ⟨hmet, hactive⟩ := List.mem_filter.mp hvisit
  exact hs.behind visit hmet hactive

-- With the pointers followed, a turn visits the room.
theorem Collecting.toRoomScan (hs : Collecting table scan) (h : Turned env scan room next) :
    next.toRoomScan = scan.toRoomScan.visit env room := by
  have hstays : scan.roomNeedProc.filterMap next.room? = scan.roomNeedProc.filterMap scan.room? :=
    List.filterMap_congr fun pointer hpointer => h.room? (hs.pointer_lt hpointer)
  rw [Scheduler.RoomScan.visit]
  cases h with
  | collected slot hslot hactive =>
      have hroom : scan.room? scan.it = some slot.value := congrArg _ hslot
      have hrooms : (scan.roomNeedProc ++ [scan.it]).filterMap scan.room? =
          scan.roomNeedProc.filterMap scan.room? ++ [slot.value] := by
        rw [List.filterMap_append, List.filterMap_cons_some hroom]
        rfl
      rw [if_pos hactive]
      exact congrArg (fun rooms => Scheduler.RoomScan.mk scan.state rooms
        (min scan.currentMinTasksPerRoom slot.value.currentConnections)) hrooms
  | deleted slot hslot hinactive =>
      rw [if_neg hinactive, TableScan.toRoomScan, hstays]
      rfl

-- At the end of the loop.
theorem Collecting.of_end (hs : Collecting table scan) (hend : scan.turn env = none) :
    scan.visited.map Prod.snd = values table.slots ∧
      values scan.table.slots = (values table.slots).filter RoomStatus.active := by
  have hnil := hs.ended (slotAt_of_turn hend)
  have horder := hs.order
  have hkept := hs.kept
  rw [hnil, List.append_nil] at horder hkept
  rw [hkept, horder]
  exact ⟨rfl, rfl⟩

theorem reaches_loop (env : Env) (scan : TableScan) :
    Reaches env scan (scan.loop env) ∧ (scan.loop env).turn env = none := by
  fun_induction loop env scan with
  | case1 scan hend => exact ⟨.refl, hend⟩
  | case2 scan next hturn _ ih => exact ⟨.head hturn ih.1, ih.2⟩

theorem Collecting.reaches (hs : Collecting table scan) (h : Reaches env scan next) :
    Collecting table next := by
  induction h with
  | refl => exact hs
  | tail _ hturn ih =>
      obtain ⟨room, hturned⟩ := turned_turn hturn
      exact ih.turned hturned

theorem Collecting.foldl_visit (hs : Collecting table scan) :
    (scan.loop env).toRoomScan = scan.ahead.foldl (Scheduler.RoomScan.visit env) scan.toRoomScan := by
  fun_induction loop env scan with
  | case1 scan hend =>
      rw [hs.ended (slotAt_of_turn hend)]
      rfl
  | case2 scan next hturn _ ih =>
      obtain ⟨room, hturned⟩ := turned_turn hturn
      rw [ih (hs.turned hturned), hturned.ahead, List.foldl_cons, hs.toRoomScan hturned]

-- The loop over the table does what collectRooms does when the container yields
-- the rooms in the order of the slots.
theorem loop_toRoomScan (env : Env) (table : RoomTable) (s : Scheduler) :
    ((start table s).loop env).toRoomScan =
      Scheduler.collectRooms { env with rooms := default } { s with rooms := table.content } := by
  have hs := collecting_start table s
  have hall : (start table s).ahead = values table.slots := hs.order
  rw [hs.foldl_visit, hall]
  rfl

-- The loop meets every room once and deletes those that are not active. At no time
-- has a collected room left the slot that it was in.
theorem loop_rooms (env : Env) (table : RoomTable) (s : Scheduler) :
    (∀ scan, Reaches env (start table s) scan → ∀ visit ∈ scan.visited, visit.2.active = true →
      visit.1 ∈ scan.roomNeedProc ∧ scan.room? visit.1 = some visit.2) ∧
    ((start table s).loop env).visited.map Prod.snd = values table.slots ∧
    ((start table s).loop env).state.rooms = ((start table s).loop env).table.content ∧
    values ((start table s).loop env).table.slots = (values table.slots).filter RoomStatus.active ∧
    ((start table s).loop env).roomNeedProc.map ((start table s).loop env).room? =
      ((values table.slots).filter RoomStatus.active).map some := by
  have hstart := collecting_start table s
  obtain ⟨hreaches, hend⟩ := reaches_loop env (start table s)
  have hlast := hstart.reaches hreaches
  obtain ⟨hvisited, hkept⟩ := hlast.of_end hend
  refine ⟨fun scan hscan visit hvisit hactive => ?_, hvisited, hlast.rooms, hkept, ?_⟩
  · have hs := hstart.reaches hscan
    refine ⟨?_, hs.designates visit hvisit hactive⟩
    rw [hs.pointers]
    exact List.mem_map_of_mem (List.mem_filter.mpr ⟨hvisit, hactive⟩)
  · rw [hlast.designated, hvisited]

end Collecting

end TableScan

end LiveReceptor.Supervisor

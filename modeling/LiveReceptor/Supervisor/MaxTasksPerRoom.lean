import LiveReceptor.Supervisor.RoomFloor

namespace LiveReceptor.Supervisor.Scheduler

open SimpleWorkerProto

variable {s : Scheduler} {workers : List WorkerStatus}

-- The values of an int and of a long long.
def IsInt (n : Int) : Prop := -2147483648 ≤ n ∧ n ≤ 2147483647

instance (n : Int) : Decidable (IsInt n) := inferInstanceAs (Decidable (_ ∧ _))

def IsLongLong (n : Int) : Prop := -9223372036854775808 ≤ n ∧ n ≤ 9223372036854775807

-- The sum of the limits, and what the room count divides it to.
def sumMaxRooms (workers : List WorkerStatus) : Int :=
  workers.foldl (fun sum worker => sum + worker.maxRooms.toInt) 0

def quotient (s : Scheduler) : Int :=
  (sumMaxRooms s.workers.entries).tdiv s.rooms.entries.length

-- max_tasks_per_room is the exact number, and every value that is narrowed or
-- added on the way to it is one of its type.
structure Exact (s : Scheduler) : Prop where
  workerCount : IsInt s.workers.entries.length
  roomCount : IsInt s.rooms.entries.length
  sums : ∀ workers, workers <+: s.workers.entries → IsLongLong (sumMaxRooms workers)
  narrowed : IsInt s.quotient
  added : IsInt (s.quotient + 1)
  value : s.maxTasksPerRoom = max 1 (max (s.workers.entries.length : Int) (s.quotient + 1))

-- The counts are small, and so is what each room has of the limits: it is less
-- than INT_MAX, and more than INT_MIN - 1.
structure WithinInt (s : Scheduler) : Prop where
  workers : s.workers.entries.length < 2147483648
  rooms : s.rooms.entries.length < 2147483648
  above : -2147483649 * (s.rooms.entries.length : Int) < sumMaxRooms s.workers.entries
  below : sumMaxRooms s.workers.entries < 2147483647 * (s.rooms.entries.length : Int)

theorem toInt_of_isInt {n : Int} (h : IsInt n) : toInt n = n := toInt_eq h.1 h.2

theorem isInt_natCast {n : Nat} : IsInt n ↔ n < 2147483648 := by
  unfold IsInt
  omega

theorem foldl_maxRooms (start : Int) :
    workers.foldl (fun sum worker => sum + worker.maxRooms.toInt) start = start + sumMaxRooms workers := by
  induction workers generalizing start with
  | nil => exact (Int.add_zero start).symm
  | cons worker workers ih =>
      rw [sumMaxRooms, List.foldl_cons, List.foldl_cons, ih, ih]
      omega

theorem sumMaxRooms_cons (worker : WorkerStatus) :
    sumMaxRooms (worker :: workers) = worker.maxRooms.toInt + sumMaxRooms workers := by
  rw [sumMaxRooms, List.foldl_cons, foldl_maxRooms, Int.zero_add]

-- Each worker adds an int to the sum.
theorem sumMaxRooms_bounds (workers : List WorkerStatus) :
    -2147483648 * (workers.length : Int) ≤ sumMaxRooms workers ∧
      sumMaxRooms workers ≤ 2147483648 * (workers.length : Int) := by
  induction workers with
  | nil => exact ⟨Int.le_refl 0, Int.le_refl 0⟩
  | cons worker workers ih =>
      have hlow := worker.maxRooms.le_toInt
      have hhigh := worker.maxRooms.toInt_lt
      rw [sumMaxRooms_cons, List.length_cons]
      omega

theorem isLongLong_sumMaxRooms (hfew : workers.length < 2147483648) : IsLongLong (sumMaxRooms workers) := by
  obtain ⟨hlow, hhigh⟩ := sumMaxRooms_bounds workers
  unfold IsLongLong
  omega

-- The quotient is rounded towards zero, so it is below a bound of either sign
-- exactly when the sum is on the same side of the multiple.
theorem tdiv_lt_iff {sum rooms bound : Int} (hrooms : 0 < rooms) (hbound : 0 < bound) :
    sum.tdiv rooms < bound ↔ sum < bound * rooms := by
  rcases Int.le_total 0 sum with hsum | hsum
  · rw [Int.tdiv_eq_ediv_of_nonneg hsum]
    exact Int.ediv_lt_iff_lt_mul hrooms
  · have hquotient : 0 ≤ (-sum).tdiv rooms := Int.tdiv_nonneg (by omega) (by omega)
    rw [Int.neg_tdiv] at hquotient
    have hmultiple : 0 < bound * rooms := Int.mul_pos hbound hrooms
    constructor <;> omega

theorem lt_tdiv_iff {sum rooms bound : Int} (hrooms : 0 < rooms) (hbound : 0 < bound) :
    -bound < sum.tdiv rooms ↔ -bound * rooms < sum := by
  have hflip := @tdiv_lt_iff (-sum) _ _ hrooms hbound
  rw [Int.neg_tdiv] at hflip
  rw [Int.neg_mul]
  omega

theorem quotient_isInt_iff (hrooms : 0 < s.rooms.entries.length) :
    IsInt s.quotient ∧ IsInt (s.quotient + 1) ↔
      -2147483649 * (s.rooms.entries.length : Int) < sumMaxRooms s.workers.entries ∧
        sumMaxRooms s.workers.entries < 2147483647 * (s.rooms.entries.length : Int) := by
  have hpos : (0 : Int) < s.rooms.entries.length := by omega
  have habove := @lt_tdiv_iff (sumMaxRooms s.workers.entries) _ 2147483649 hpos (by omega)
  have hbelow := @tdiv_lt_iff (sumMaxRooms s.workers.entries) _ 2147483647 hpos (by omega)
  rw [← habove, ← hbelow, IsInt, IsInt, quotient]
  omega

theorem calculateMaxWorkersPerRoom_eq (hrooms : 0 < s.rooms.entries.length)
    (hnarrowed : IsInt s.quotient) (hadded : IsInt (s.quotient + 1)) :
    calculateMaxWorkersPerRoom s.workers.entries s.rooms.entries.length = s.quotient + 1 := by
  have hnonzero : (s.rooms.entries.length : Int) ≠ 0 := by omega
  rw [calculateMaxWorkersPerRoom, if_neg hnonzero, foldl_maxRooms, Int.zero_add]
  change toInt (toInt s.quotient + 1) = s.quotient + 1
  rw [toInt_of_isInt hnarrowed, toInt_of_isInt hadded]

-- max_tasks_per_room is exact as long as the counts and what each room has of
-- the limits are ints, with one to spare.
theorem exact_iff (s : Scheduler) (hrooms : 0 < s.rooms.entries.length) : Exact s ↔ WithinInt s := by
  constructor
  · intro h
    obtain ⟨habove, hbelow⟩ := (quotient_isInt_iff hrooms).mp ⟨h.narrowed, h.added⟩
    exact ⟨isInt_natCast.mp h.workerCount, isInt_natCast.mp h.roomCount, habove, hbelow⟩
  · intro h
    have hworkers := isInt_natCast.mpr h.workers
    have hroomCount := isInt_natCast.mpr h.rooms
    obtain ⟨hnarrowed, hadded⟩ := (quotient_isInt_iff hrooms).mpr ⟨h.above, h.below⟩
    refine ⟨hworkers, hroomCount, ?_, hnarrowed, hadded, ?_⟩
    · intro workers hfront
      apply isLongLong_sumMaxRooms
      exact Nat.lt_of_le_of_lt hfront.length_le h.workers
    · rw [maxTasksPerRoom, toInt_of_isInt hroomCount, toInt_of_isInt hworkers,
        calculateMaxWorkersPerRoom_eq hrooms hnarrowed hadded, max_comm (s.quotient + 1)]

-- Two workers serve the only room.
def servedInputs : List Input :=
  [{ env := .at 0, event := .accept .accepted [1] },
    { env := .at 0, event := .accept .accepted [2] },
    { env := .at 0, event := .updateRoomLists [1] },
    { env := .at 0, event := .payload 1 (plainReady 1) },
    { env := .at 0, event := .payload 2 (plainReady 1) },
    { env := .at (seconds 10), event := .tick .expired },
    { env := .at (seconds 12), event := .tick .expired }]

theorem exact_within : Exact (run plainConfig servedInputs) ↔ WithinInt (run plainConfig servedInputs) :=
  exact_iff _ (by decide)

-- A worker announces INT_MAX rooms while there is one room.
def boundless : List Input :=
  [{ env := .at 0, event := .accept .accepted [1] },
    { env := .at 0, event := .updateRoomLists [1] },
    { env := .at 0, event := .payload 1 ([workerReadyCode, 127, 255, 255, 255, 65] ++ List.replicate 31 0) }]

theorem exact_refuted : ¬∀ s : Scheduler, 0 < s.rooms.entries.length → Exact s := by
  intro h
  have hadded : IsInt ((run plainConfig boundless).quotient + 1) := (h _ (by decide)).added
  revert hadded
  decide

end LiveReceptor.Supervisor.Scheduler

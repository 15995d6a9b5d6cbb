import Mathlib.Data.List.Induction
import LiveReceptor.Library.Since
import LiveReceptor.Supervisor.GlobalContext

namespace LiveReceptor.Supervisor

-- A call with the time that it is given. The threshold is the number that
-- `_threshold_sec_ptr` points to when check_expire reads it.
inductive DeduplicateCall
  | checkAndAdd (checksum : Checksum) (addTime : Time)
  | checkExpire (now : Time) (thresholdSec : Int)
  deriving DecidableEq, Repr

def DeduplicateCall.time : DeduplicateCall → Time
  | .checkAndAdd _ addTime => addTime
  | .checkExpire now _ => now

namespace DeduplicateContext

def step (call : DeduplicateCall) (context : DeduplicateContext) : DeduplicateContext :=
  match call with
  | .checkAndAdd checksum addTime => (context.checkAndAdd checksum addTime).2
  | .checkExpire now thresholdSec => context.checkExpire thresholdSec now

def run (calls : List DeduplicateCall) : DeduplicateContext := Runs.run step {} calls

-- After these calls, check_and_add accepts the checksum.
def Accepts (calls : List DeduplicateCall) (checksum : Checksum) (addTime : Time) : Prop :=
  ((run calls).checkAndAdd checksum addTime).1 = true

-- What the calls so far promise for the next one.
structure Specified (calls : List DeduplicateCall) : Prop where
  accepts : ∀ checksum addTime, Accepts calls checksum addTime ↔
    ∀ before earlier later, calls = before ++ .checkAndAdd checksum earlier :: later →
      Accepts before checksum earlier →
        ∃ now thresholdSec, .checkExpire now thresholdSec ∈ later ∧ earlier < now - seconds thresholdSec
  rejected : ∀ checksum addTime, ¬Accepts calls checksum addTime →
    ((run calls).checkAndAdd checksum addTime).2 = run calls
  unique : ((run calls).container.entries.map DeduplicateEntry.value).Nodup
  expired : ∀ now thresholdSec, ((run calls).checkExpire thresholdSec now).container.entries =
    (run calls).container.entries.filter fun entry => ¬entry.addTime < now - seconds thresholdSec

variable {context : DeduplicateContext} {calls : List DeduplicateCall} {checksum : Checksum}
  {time : Time}

theorem run_concat (calls : List DeduplicateCall) (call : DeduplicateCall) :
    run (calls ++ [call]) = step call (run calls) := Runs.run_append step _ _ _

theorem accepts_iff : Accepts calls checksum time ↔ ¬(run calls).container.HasKey checksum := by
  unfold Accepts checkAndAdd
  split <;> simp_all

theorem checkAndAdd_rejected (h : ¬Accepts calls checksum time) :
    ((run calls).checkAndAdd checksum time).2 = run calls := by
  rw [accepts_iff, not_not] at h
  rw [checkAndAdd, if_pos h]

-- The entries stand in the order of their times.
def Sorted (context : DeduplicateContext) : Prop :=
  context.container.entries.Pairwise fun entry other => entry.addTime ≤ other.addTime

theorem Sorted.checkExpire (h : Sorted context) (thresholdSec : Int) (now : Time) :
    (context.checkExpire thresholdSec now).container =
      context.container.filter fun entry => ¬entry.addTime < now - seconds thresholdSec := by
  have hfront : context.container.entries.Pairwise fun entry other =>
      decide (other.addTime < now - seconds thresholdSec) = true →
        decide (entry.addTime < now - seconds thresholdSec) = true := by
    refine h.imp fun {entry other} hle => ?_
    simp only [decide_eq_true_eq]
    exact Int.lt_of_le_of_lt hle
  rw [DeduplicateContext.checkExpire, Keyed.dropWhile_eq_filter hfront]
  simp only [decide_not]

-- The call that an entry stands for, and the calls that take the entry away.
def Adds (checksum : Checksum) (addTime : Time) (calls : List DeduplicateCall) : Prop :=
  ∃ before, calls = before ++ [.checkAndAdd checksum addTime] ∧ Accepts before checksum addTime

def Expires (addTime : Time) (call : DeduplicateCall) : Prop :=
  ∃ now thresholdSec, call = .checkExpire now thresholdSec ∧ addTime < now - seconds thresholdSec

theorem adds_concat {call : DeduplicateCall} : Adds checksum time (calls ++ [call]) ↔
    call = .checkAndAdd checksum time ∧ Accepts calls checksum time := by
  constructor
  · rintro ⟨before, hcalls, haccepts⟩
    obtain ⟨rfl, hcall⟩ := List.append_inj' hcalls rfl
    exact ⟨List.head_eq_of_cons_eq hcall, haccepts⟩
  · rintro ⟨rfl, haccepts⟩
    exact ⟨calls, rfl, haccepts⟩

theorem not_expires_checkAndAdd {addTime : Time} : ¬Expires time (.checkAndAdd checksum addTime) := by
  rintro ⟨_, _, hcall, -⟩
  cases hcall

theorem expires_checkExpire {now : Time} {thresholdSec : Int} :
    Expires time (.checkExpire now thresholdSec) ↔ time < now - seconds thresholdSec := by
  constructor
  · rintro ⟨_, _, hcall, hlate⟩
    cases hcall
    exact hlate
  · exact fun hlate => ⟨_, _, rfl, hlate⟩

-- The container holds what was accepted and has not expired since, sorted by
-- times that are times of the calls.
structure Holds (calls : List DeduplicateCall) (context : DeduplicateContext) : Prop where
  sorted : Sorted context
  past : ∀ entry ∈ context.container, ∃ call ∈ calls, entry.addTime = call.time
  held : ∀ checksum addTime, (⟨checksum, addTime⟩ ∈ context.container ↔
    Since (Adds checksum addTime) (Expires addTime) calls)

theorem holds_nil : Holds [] {} where
  sorted := List.Pairwise.nil
  past entry hentry := absurd hentry (Keyed.notMem_empty entry)
  held checksum addTime := by
    apply iff_of_false (Keyed.notMem_empty _)
    rintro ⟨before, after, hcalls, ⟨first, rfl, -⟩, -⟩
    simp at hcalls

section Step

variable {addTime now : Time} {thresholdSec : Int}

theorem Holds.rejected (h : Holds calls (run calls)) (hkey : (run calls).container.HasKey checksum) :
    Holds (calls ++ [.checkAndAdd checksum addTime]) (run calls) where
  sorted := h.sorted
  past entry hentry := by
    obtain ⟨call, hcall, htime⟩ := h.past entry hentry
    exact ⟨call, List.mem_append_left _ hcall, htime⟩
  held other time := by
    rw [h.held, Since.concat_iff, adds_concat]
    have hadds : ¬(DeduplicateCall.checkAndAdd checksum addTime = .checkAndAdd other time ∧
        Accepts calls other time) := by
      rintro ⟨hsame, haccepts⟩
      cases hsame
      exact accepts_iff.mp haccepts hkey
    rw [or_iff_right hadds, and_iff_left not_expires_checkAndAdd]

-- A new entry goes behind the others, none of which is younger.
theorem Holds.accepted (h : Holds calls (run calls)) (hkey : ¬(run calls).container.HasKey checksum)
    (hlast : ∀ call ∈ calls, call.time ≤ addTime) :
    Holds (calls ++ [.checkAndAdd checksum addTime])
      { container := (run calls).container.insert ⟨checksum, addTime⟩ } where
  sorted := by
    rw [Sorted, Keyed.entries_insert hkey]
    apply List.pairwise_append.mpr
    refine ⟨h.sorted, List.pairwise_singleton _ _, ?_⟩
    intro entry hentry other hother
    obtain ⟨call, hcall, htime⟩ := h.past entry hentry
    rw [List.mem_singleton.mp hother, htime]
    exact hlast call hcall
  past entry hentry := by
    rcases (Keyed.mem_insert hkey).mp hentry with hold | rfl
    · obtain ⟨call, hcall, htime⟩ := h.past entry hold
      exact ⟨call, List.mem_append_left _ hcall, htime⟩
    · exact ⟨_, List.mem_append_right _ (List.mem_singleton_self _), rfl⟩
  held other time := by
    rw [Keyed.mem_insert hkey, h.held, Since.concat_iff, adds_concat, accepts_iff, or_comm,
      and_iff_left not_expires_checkAndAdd]
    apply or_congr_left
    constructor
    · intro hsame
      cases hsame
      exact ⟨rfl, hkey⟩
    · rintro ⟨hsame, -⟩
      cases hsame
      rfl

theorem Holds.expired (h : Holds calls (run calls)) :
    Holds (calls ++ [.checkExpire now thresholdSec]) ((run calls).checkExpire thresholdSec now) where
  sorted := h.sorted.sublist (List.dropWhile_sublist _)
  past entry hentry := by
    obtain ⟨call, hcall, htime⟩ := h.past entry ((List.dropWhile_sublist _).subset hentry)
    exact ⟨call, List.mem_append_left _ hcall, htime⟩
  held other time := by
    have hadds : ¬(DeduplicateCall.checkExpire now thresholdSec = .checkAndAdd other time ∧
        Accepts calls other time) := by
      rintro ⟨hsame, -⟩
      cases hsame
    rw [h.sorted.checkExpire, Keyed.mem_filter, h.held, Since.concat_iff, adds_concat, expires_checkExpire]
    rw [or_iff_right hadds, decide_eq_true_iff]

theorem Holds.step {call : DeduplicateCall} (h : Holds calls (run calls))
    (hlast : ∀ earlier ∈ calls, earlier.time ≤ call.time) :
    Holds (calls ++ [call]) (run (calls ++ [call])) := by
  rw [run_concat]
  cases call with
  | checkAndAdd checksum addTime =>
      rw [DeduplicateContext.step, checkAndAdd]
      split
      · rename_i hkey
        exact h.rejected hkey
      · rename_i hkey
        exact h.accepted hkey hlast
  | checkExpire now thresholdSec => exact h.expired

end Step

theorem holds_run (calls : List DeduplicateCall)
    (horder : calls.Pairwise fun call later => call.time ≤ later.time) : Holds calls (run calls) := by
  induction calls using List.reverseRec with
  | nil => exact holds_nil
  | append_singleton calls call ih =>
      obtain ⟨hcalls, -, hlast⟩ := List.pairwise_append.mp horder
      exact (ih hcalls).step fun earlier hearlier => hlast earlier hearlier call (List.mem_singleton_self _)

-- A checksum is in the container exactly when one of its additions was accepted
-- and has not expired.
theorem Holds.accepts_iff (h : Holds calls (run calls)) : Accepts calls checksum time ↔
    ∀ before earlier later, calls = before ++ .checkAndAdd checksum earlier :: later →
      Accepts before checksum earlier →
        ∃ now thresholdSec, .checkExpire now thresholdSec ∈ later ∧ earlier < now - seconds thresholdSec := by
  rw [DeduplicateContext.accepts_iff]
  constructor
  · rintro hkey before earlier later rfl haccepts
    by_contra hstays
    refine hkey ⟨⟨checksum, earlier⟩, (h.held _ _).mpr ?_, rfl⟩
    refine ⟨before ++ [.checkAndAdd checksum earlier], later, by simp, adds_concat.mpr ⟨rfl, haccepts⟩, ?_⟩
    rintro _ hcall ⟨now, thresholdSec, rfl, hlate⟩
    exact hstays ⟨now, thresholdSec, hcall, hlate⟩
  · rintro hexpired ⟨⟨other, earlier⟩, hentry, rfl⟩
    obtain ⟨_, later, hcalls, ⟨before, rfl, haccepts⟩, hstays⟩ := (h.held _ _).mp hentry
    rw [List.append_assoc] at hcalls
    obtain ⟨now, thresholdSec, hcall, hlate⟩ := hexpired before earlier later hcalls haccepts
    exact hstays _ hcall ⟨now, thresholdSec, rfl, hlate⟩

-- The store does what is promised as long as time does not go back.
theorem specified (calls : List DeduplicateCall)
    (horder : calls.Pairwise fun call later => call.time ≤ later.time) : Specified calls where
  accepts checksum addTime := (holds_run calls horder).accepts_iff
  rejected checksum addTime := checkAndAdd_rejected
  unique := (run calls).container.nodup
  expired now thresholdSec := by
    rw [(holds_run calls horder).sorted.checkExpire]
    rfl

-- An entry that expires under a shorter threshold, and is added again.
theorem specified_shortened : Specified [.checkAndAdd 7 0, .checkExpire (seconds 20) 30,
    .checkExpire (seconds 20) 10, .checkAndAdd 7 (seconds 20)] :=
  specified _ (by decide)

end DeduplicateContext

end LiveReceptor.Supervisor

import LiveReceptor.Agreement.CrossRoom
import LiveReceptor.Library.Firsts

namespace LiveReceptor.Agreement

open Supervisor

-- What the supervisor tells messages apart by.
def checksum? (call : Checksum × Bytes × Bytes) : Option Checksum :=
  if call.1 = 0 then none else some call.1

variable {env : Env} {s : GlobalContext} {calls : List (Checksum × Bytes × Bytes)}

-- The messages posted so far are the first ones of those handled so far, and the
-- container knows their checksums.
structure PostsFirsts (calls : List (Checksum × Bytes × Bytes)) (s : GlobalContext) : Prop where
  posted : s.posted = (firsts checksum? calls).map Prod.snd
  seen : ∀ checksum, Seen checksum s ↔ some checksum ∈ calls.map checksum?

theorem PostsFirsts.of_eq {s' : GlobalContext} (h : PostsFirsts calls s) (hposted : s'.posted = s.posted)
    (hcontext : s'.deduplicateContext = s.deduplicateContext) : PostsFirsts calls s' where
  posted := hposted.trans h.posted
  seen checksum := by
    rw [Seen, hcontext]
    exact h.seen checksum

-- A checksum has been seen exactly when a message that was kept has it.
theorem PostsFirsts.seen_iff (h : PostsFirsts calls s) (checksum : Checksum) :
    Seen checksum s ↔ some checksum ∈ (firsts checksum? calls).map checksum? := by
  rw [mem_map_key_firsts]
  exact h.seen checksum

theorem seen_onWorkerData_iff {checksum : Checksum} (routingKey payload : Bytes) (other : Checksum) :
    Seen other (s.onWorkerData env checksum routingKey payload) ↔
      Seen other s ∨ checksum? (checksum, routingKey, payload) = some other := by
  rw [GlobalContext.onWorkerData, checksum?]
  by_cases hzero : checksum = 0
  · rw [if_pos hzero, if_pos hzero]
    exact (or_iff_left (by simp)).symm
  · rw [if_neg hzero, if_neg hzero, Option.some.injEq]
    dsimp only [Seen]
    rw [DeduplicateContext.checkAndAdd]
    split
    · rename_i hkey
      exact (or_iff_left_of_imp fun (he : checksum = other) => he ▸ hkey).symm
    · dsimp only
      rw [Keyed.hasKey_insert, eq_comm (a := other)]

theorem posted_onWorkerData_of_not_seen {checksum : Checksum} (hseen : ¬Seen checksum s)
    (routingKey payload : Bytes) :
    (s.onWorkerData env checksum routingKey payload).posted = s.posted ++ [(routingKey, payload)] := by
  have hkey : ¬s.deduplicateContext.container.HasKey checksum := hseen
  rw [GlobalContext.onWorkerData]
  split
  · rfl
  · dsimp only
    rw [DeduplicateContext.checkAndAdd, if_neg hkey]
    rfl

theorem PostsFirsts.onWorkerData (h : PostsFirsts calls s) (env : Env)
    (call : Checksum × Bytes × Bytes) :
    PostsFirsts (calls ++ [call]) (s.onWorkerData env call.1 call.2.1 call.2.2) := by
  obtain ⟨checksum, routingKey, payload⟩ := call
  constructor
  · rw [firsts_concat]
    by_cases hzero : checksum = 0
    · have hnone : checksum? (checksum, routingKey, payload) = none := if_pos hzero
      rw [keepFirst_of_none hnone, List.map_append, ← h.posted, GlobalContext.onWorkerData, if_pos hzero]
      rfl
    · have hsome : checksum? (checksum, routingKey, payload) = some checksum := if_neg hzero
      by_cases hseen : Seen checksum s
      · rw [keepFirst_of_mem hsome ((h.seen_iff checksum).mp hseen), ← h.posted]
        exact posted_onWorkerData_of_seen hzero hseen routingKey payload
      · rw [keepFirst_of_notMem hsome (mt (h.seen_iff checksum).mpr hseen), List.map_append, ← h.posted]
        exact posted_onWorkerData_of_not_seen hseen routingKey payload
  · intro other
    rw [seen_onWorkerData_iff, h.seen, List.map_append, List.mem_append, List.map_singleton,
      List.mem_singleton, eq_comm (a := some other)]

theorem PostsFirsts.foldl (h : PostsFirsts calls s) (env : Env) (more : List (Checksum × Bytes × Bytes)) :
    PostsFirsts (calls ++ more)
      (more.foldl (fun s call => s.onWorkerData env call.1 call.2.1 call.2.2) s) := by
  induction more generalizing calls s with
  | nil => rwa [List.append_nil]
  | cons call rest ih =>
      have hrest := ih (h.onWorkerData env call)
      rwa [List.append_assoc] at hrest

-- The tick does not look at what the container holds.
theorem PostsFirsts.step (h : PostsFirsts calls s) (input : Input) :
    PostsFirsts (calls ++ dataCalls s.scheduler (Scheduler.step input s.scheduler))
      (GlobalContext.step input s) := by
  have hscheduler : PostsFirsts calls { s with scheduler := Scheduler.step input s.scheduler } :=
    h.of_eq rfl rfl
  have hcalls := hscheduler.foldl input.env (dataCalls s.scheduler (Scheduler.step input s.scheduler))
  rw [GlobalContext.step, foldl_onEffect_eq]
  split
  · exact hcalls.of_eq rfl rfl
  · exact hcalls

-- All that the data handler is called with in a run of the scheduler.
def handled (s : Scheduler) (inputs : List Input) : List (Checksum × Bytes × Bytes) :=
  Runs.collect Scheduler.step (fun input s => dataCalls s (Scheduler.step input s)) s inputs

theorem PostsFirsts.run (h : PostsFirsts calls s) (inputs : List Input) :
    PostsFirsts (calls ++ handled s.scheduler inputs) (Runs.run GlobalContext.step s inputs) := by
  induction inputs generalizing calls s with
  | nil => exact (List.append_nil calls).symm ▸ h
  | cons input rest ih =>
      have hrest := ih (h.step input)
      rwa [step_scheduler, List.append_assoc] at hrest

theorem postsFirsts_initial (config : Config) : PostsFirsts [] (GlobalContext.initial config) where
  posted := rfl
  seen checksum := by simp [Seen, GlobalContext.initial]

end LiveReceptor.Agreement

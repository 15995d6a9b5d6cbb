import LiveReceptor.Library.Since
import LiveReceptor.Supervisor.GlobalContext
import LiveReceptor.Supervisor.Steps

namespace LiveReceptor.Supervisor.GlobalContext

-- The time at which the first message with this checksum came.
def firstMessage (record : List Notice) (checksum : Checksum) : Option Time :=
  record.findSome? fun notice =>
    match notice with
    | .message other time _ => if other = checksum then some time else none
    | .tick _ => none

-- The last message with this checksum was forwarded before the most recent tick,
-- and too long before it.
def ForwardedTooLongAgo (record : List Notice) (checksum : Checksum) : Prop :=
  ∃ before time between limit after,
    record = before ++ .message checksum time true :: between ++ .tick limit :: after ∧
      (∀ later, .message checksum later true ∉ between ++ after) ∧ (∀ later, .tick later ∉ after) ∧
      time < limit

-- A message is held back only for one that was forwarded recently enough.
def HeldBackRightly (record : List Notice) : Notice → Prop
  | .message checksum _ false => ¬ForwardedTooLongAgo record checksum
  | _ => True

-- Right after a tick no entry is too old.
def TickExpires (input : Input) (s : GlobalContext) : Prop :=
  ticks input = true →
    ∀ entry ∈ (step input s).deduplicateContext.container, expiry input s ≤ entry.addTime

instance (input : Input) (s : GlobalContext) : Decidable (TickExpires input s) :=
  inferInstanceAs (Decidable (ticks input = true →
    ∀ entry ∈ (step input s).deduplicateContext.container.entries, expiry input s ≤ entry.addTime))

def WindowKept (config : Config) (inputs : List Input) : Prop :=
  Justified HeldBackRightly (run config inputs).record ∧
    Runs.EveryStep step TickExpires (initial config) inputs

-- At a tick, every message whose checksum had not come before is recent.
def MessagesRecent (input : Input) (s : GlobalContext) : Prop :=
  ticks input = true → ∀ checksum time, firstMessage s.record checksum = some time → expiry input s ≤ time

variable {env : Env} {input : Input} {s : GlobalContext} {checksum : Checksum} {time : Time}

section Record

theorem firstMessage_append (record : List Notice) (notice : Notice) :
    firstMessage (record ++ [notice]) checksum =
      (firstMessage record checksum).or (firstMessage [notice] checksum) := List.findSome?_append

-- Only the first message with a checksum is forwarded.
def ForwardedFirst (record : List Notice) : Notice → Prop
  | .message checksum _ true => firstMessage record checksum = none
  | _ => True

-- The ticks found the first messages recent.
def TickedRecent (record : List Notice) : Notice → Prop
  | .tick limit => ∀ checksum time, firstMessage record checksum = some time → limit ≤ time
  | .message _ _ _ => True

theorem heldBackRightly {record : List Notice} (hfirst : Justified ForwardedFirst record)
    (hticked : Justified TickedRecent record) : Justified HeldBackRightly record := by
  intro before notice hprefix
  cases notice with
  | tick limit => trivial
  | message checksum received forwarded =>
      cases forwarded with
      | true => trivial
      | false =>
          rintro ⟨first, time, between, limit, after, rfl, -, -, hlate⟩
          have hforwarded : first ++ [.message checksum time true] <+: record := by
            refine List.IsPrefix.trans ?_ hprefix
            simp
          have htick : (first ++ .message checksum time true :: between) ++ [.tick limit] <+: record := by
            refine List.IsPrefix.trans ?_ hprefix
            simp
          have hnone : firstMessage first checksum = none := hfirst _ _ hforwarded
          have hsome : firstMessage (first ++ .message checksum time true :: between) checksum =
              some time := by
            rw [firstMessage, List.findSome?_append]
            change (firstMessage first checksum).or _ = _
            rw [hnone]
            simp
          have hrecent : limit ≤ time := hticked _ _ htick checksum time hsome
          exact absurd hlate (Int.not_lt.mpr hrecent)

end Record

section Container

-- The container holds the first messages, and nothing was forwarded twice.
structure DedupInv (s : GlobalContext) : Prop where
  container : ∀ checksum time, (⟨checksum, time⟩ ∈ s.deduplicateContext.container ↔
    firstMessage s.record checksum = some time)
  forwarded : Justified ForwardedFirst s.record

theorem DedupInv.hasKey_iff (h : DedupInv s) :
    s.deduplicateContext.container.HasKey checksum ↔ ∃ time, firstMessage s.record checksum = some time := by
  constructor
  · rintro ⟨entry, hentry, rfl⟩
    exact ⟨entry.addTime, (h.container _ _).mp hentry⟩
  · rintro ⟨time, htime⟩
    exact ⟨⟨checksum, time⟩, (h.container _ _).mpr htime, rfl⟩

theorem firstMessage_message_of_ne {other : Checksum} (forwarded : Bool) (hne : other ≠ checksum) :
    firstMessage [.message other time forwarded] checksum = none := by
  simp [firstMessage, hne]

-- A checksum that came before is held back, and the container stays as it is.
theorem DedupInv.heldBack (h : DedupInv s) (hkey : s.deduplicateContext.container.HasKey checksum)
    (now : Time) : DedupInv { s with record := s.record ++ [.message checksum now false] } where
  container other time := by
    rw [h.container, firstMessage_append]
    by_cases he : checksum = other
    · obtain ⟨first, hfirst⟩ := h.hasKey_iff.mp hkey
      rw [← he, hfirst]
      rfl
    · rw [firstMessage_message_of_ne false he, Option.or_none]
  forwarded := h.forwarded.concat trivial

-- A new checksum goes into the container with its message.
theorem DedupInv.added (h : DedupInv s) (hkey : ¬s.deduplicateContext.container.HasKey checksum)
    (now : Time) :
    DedupInv { s with
      deduplicateContext := { container := s.deduplicateContext.container.insert ⟨checksum, now⟩ }
      record := s.record ++ [.message checksum now true] } := by
  have hnone : firstMessage s.record checksum = none := by
    cases hfirst : firstMessage s.record checksum with
    | none => rfl
    | some time => exact absurd (h.hasKey_iff.mpr ⟨time, hfirst⟩) hkey
  constructor
  · intro other time
    rw [Keyed.mem_insert hkey, h.container, firstMessage_append]
    by_cases he : checksum = other
    · rw [← he, hnone]
      simp [firstMessage, eq_comm]
    · rw [firstMessage_message_of_ne true he, Option.or_none]
      refine or_iff_left fun heq => he ?_
      exact (congrArg DeduplicateEntry.value heq).symm
  · exact h.forwarded.concat hnone

theorem DedupInv.of_eq {s' : GlobalContext} (h : DedupInv s)
    (hcontext : s'.deduplicateContext = s.deduplicateContext) (hrecord : s'.record = s.record) :
    DedupInv s' := by
  constructor
  · rw [hcontext, hrecord]
    exact h.container
  · rw [hrecord]
    exact h.forwarded

theorem DedupInv.onEffect (h : DedupInv s) (env : Env) (effect : Effect) :
    DedupInv (s.onEffect env effect) := by
  cases effect with
  | data i r checksum routingKey payload =>
      rw [GlobalContext.onEffect, onWorkerData]
      split
      · exact h.of_eq rfl rfl
      · dsimp only
        rw [DeduplicateContext.checkAndAdd]
        split
        · rename_i hkey
          exact (h.heldBack hkey _).of_eq rfl rfl
        · rename_i hkey
          exact (h.added hkey _).of_eq rfl rfl
  | _ => exact h

theorem DedupInv.foldl_onEffect (h : DedupInv s) (env : Env) (effects : List Effect) :
    DedupInv (effects.foldl (GlobalContext.onEffect env) s) := by
  induction effects generalizing s with
  | nil => exact h
  | cons effect rest ih => exact ih (h.onEffect env effect)

theorem DedupInv.tick (h : DedupInv s) (limit : Time) :
    DedupInv { s with record := s.record ++ [.tick limit] } where
  container checksum time := by
    rw [h.container, firstMessage_append]
    exact (congrArg (· = some time) (Option.or_none)).symm.to_iff
  forwarded := h.forwarded.concat trivial

theorem step_dedupInv (input : Input) (s : GlobalContext) (h : DedupInv s) : DedupInv (step input s) := by
  have hscheduler : DedupInv { s with scheduler := Scheduler.step input s.scheduler } := h.of_eq rfl rfl
  rw [step]
  split
  · exact (hscheduler.foldl_onEffect _ _).tick _
  · exact hscheduler.foldl_onEffect _ _

end Container

section Ticks

theorem foldl_onEffect_of_not_publishes {effects : List Effect}
    (h : ∀ effect ∈ effects, ¬effect.Publishes) (s : GlobalContext) :
    effects.foldl (onEffect env) s = s := by
  induction effects with
  | nil => rfl
  | cons effect rest ih =>
      have heffect := h effect List.mem_cons_self
      have hsame : s.onEffect env effect = s := by
        cases effect <;> first | rfl | exact absurd trivial heffect
      rw [List.foldl_cons, hsame]
      exact ih fun other ho => h other (List.mem_cons_of_mem _ ho)

theorem tick_of_ticks (h : ticks input = true) : ∃ result, input.event = .tick result := by
  unfold ticks at h
  split at h
  · exact ⟨_, by assumption⟩
  · exact ⟨_, by assumption⟩
  · cases h

-- A tick adds its notice and leaves the rest of the record and the container.
theorem step_of_ticks (h : ticks input = true) :
    (step input s).deduplicateContext = s.deduplicateContext ∧
      (step input s).record = s.record ++ [.tick (expiry input s)] := by
  obtain ⟨result, hevent⟩ := tick_of_ticks h
  obtain ⟨effects, htrace, hnone⟩ := Scheduler.step_tick_trace input.env result s.scheduler
  rw [← hevent] at htrace
  rw [step, if_pos h, htrace, List.drop_left, foldl_onEffect_of_not_publishes hnone]
  exact ⟨rfl, rfl⟩

theorem tickExpires_of_messagesRecent (input : Input) (s : GlobalContext) (h : DedupInv s)
    (hrecent : MessagesRecent input s) : TickExpires input s := by
  intro hticks entry hentry
  rw [(step_of_ticks hticks).1] at hentry
  exact hrecent hticks entry.value entry.addTime ((h.container _ _).mp hentry)

theorem messagesRecent_of_tickExpires (input : Input) (s : GlobalContext) (h : DedupInv s)
    (hexpires : TickExpires input s) : MessagesRecent input s := by
  intro hticks checksum time hfirst
  refine hexpires hticks ⟨checksum, time⟩ ?_
  rw [(step_of_ticks hticks).1]
  exact (h.container _ _).mpr hfirst

theorem tickedRecent_onEffect (h : Justified TickedRecent s.record) (effect : Effect) :
    Justified TickedRecent (s.onEffect env effect).record := by
  cases effect with
  | data i r checksum routingKey payload =>
      rw [onEffect, onWorkerData]
      split
      · exact h
      · exact h.concat trivial
  | _ => exact h

theorem tickedRecent_foldl_onEffect (h : Justified TickedRecent s.record) (effects : List Effect) :
    Justified TickedRecent (effects.foldl (onEffect env) s).record := by
  induction effects generalizing s with
  | nil => exact h
  | cons effect rest ih => exact ih (tickedRecent_onEffect h effect)

theorem step_tickedRecent (input : Input) (s : GlobalContext) (h : Justified TickedRecent s.record)
    (hrecent : MessagesRecent input s) : Justified TickedRecent (step input s).record := by
  by_cases hticks : ticks input = true
  · rw [(step_of_ticks hticks).2]
    exact h.concat (hrecent hticks)
  · rw [step, if_neg hticks]
    exact tickedRecent_foldl_onEffect (s := { s with scheduler := Scheduler.step input s.scheduler }) h _

end Ticks

section Claim

theorem initial_dedupInv (config : Config) : DedupInv (initial config) where
  container checksum time := ⟨fun h => absurd h (Keyed.notMem_empty _), fun h => by cases h⟩
  forwarded := .nil

-- Nothing ever expires: the window is kept exactly in the runs in which every
-- tick finds all the first messages recent.
theorem windowKept_iff (config : Config) (inputs : List Input) :
    WindowKept config inputs ↔ Runs.EveryStep step MessagesRecent (initial config) inputs := by
  constructor
  · intro h
    exact Runs.everyStep_of (fun input s hinv _ => step_dedupInv input s hinv)
      messagesRecent_of_tickExpires (initial_dedupInv config) h.2
  · intro h
    have hinv := Runs.run_invariant step_dedupInv (initial_dedupInv config) inputs
    have hticked : Justified TickedRecent (run config inputs).record :=
      @Runs.run_invariant_of _ _ _ (fun s => Justified TickedRecent s.record) _ step_tickedRecent _
        .nil _ h
    refine ⟨heldBackRightly hinv.forwarded hticked, ?_⟩
    exact Runs.everyStep_of (fun input s hinv _ => step_dedupInv input s hinv)
      tickExpires_of_messagesRecent (initial_dedupInv config) h

open SimpleWorkerProto

-- A message at 20 s, a tick at 55 s, and the message again.
def repeatingRun : List Input :=
  let data := [workerDataCode, 0, 0, 0, 1, 7, 0, 0, 0] ++ List.replicate 32 0
  [{ env := .at 0, event := .accept .accepted [5] },
    { env := .at 0, event := .updateRoomLists [1] },
    { env := .at (seconds 10), event := .payload 5 (plainReady 5) },
    { env := .at (seconds 20), event := .tick .expired },
    { env := .at (seconds 20), event := .payload 5 data },
    { env := .at (seconds 55), event := .tick .expired },
    { env := .at (seconds 56), event := .payload 5 data }]

example : (run plainConfig repeatingRun).posted = [([], [])] := by decide

theorem windowKept_refuted : ¬∀ config inputs, WindowKept config inputs := by
  intro h
  have hrun := (h plainConfig repeatingRun).2
  revert hrun
  decide

end Claim

end LiveReceptor.Supervisor.GlobalContext

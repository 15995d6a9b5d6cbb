import LiveReceptor.Agreement.DataChannel
import LiveReceptor.Supervisor.Deduplication
import LiveReceptor.Worker.Serialization

namespace LiveReceptor.Agreement

open Supervisor Worker SimpleWorkerProto Handler

section Deduplication

variable {config : Config} {input : Input} {s : GlobalContext} {checksum : Checksum} {env : Env}
  {effects : List Effect}

-- The data handler has been called with this checksum before.
def Seen (checksum : Checksum) (s : GlobalContext) : Prop :=
  s.deduplicateContext.container.HasKey checksum

theorem onEffect_scheduler (effect : Effect) : (s.onEffect env effect).scheduler = s.scheduler := by
  cases effect with
  | data i r checksum routingKey payload =>
      rw [GlobalContext.onEffect, GlobalContext.onWorkerData]
      split <;> rfl
  | _ => rfl

theorem foldl_onEffect_scheduler :
    (effects.foldl (GlobalContext.onEffect env) s).scheduler = s.scheduler := by
  induction effects generalizing s with
  | nil => rfl
  | cons effect rest ih => exact ih.trans (onEffect_scheduler effect)

theorem step_scheduler (input : Input) (s : GlobalContext) :
    (GlobalContext.step input s).scheduler = Scheduler.step input s.scheduler := by
  rw [GlobalContext.step]
  split <;> exact foldl_onEffect_scheduler

theorem run_scheduler (config : Config) (inputs : List Input) :
    (GlobalContext.run config inputs).scheduler = Scheduler.run config inputs := by
  have hrun : ∀ s : GlobalContext, (Runs.run GlobalContext.step s inputs).scheduler =
      Runs.run Scheduler.step s.scheduler inputs := by
    induction inputs with
    | nil => exact fun s => rfl
    | cons input rest ih =>
        intro s
        rw [Runs.run_cons, ih, step_scheduler, ← Runs.run_cons]
  exact hrun (GlobalContext.initial config)

-- Of the effects, the calls of the data handler are what counts.
theorem foldl_onEffect_eq :
    effects.foldl (GlobalContext.onEffect env) s = (effects.filterMap dataCall).foldl
      (fun s call => s.onWorkerData env call.1 call.2.1 call.2.2) s := by
  induction effects generalizing s with
  | nil => rfl
  | cons effect rest ih => cases effect <;> exact ih

theorem seen_onWorkerData (h : Seen checksum s) (other : Checksum) (routingKey data : Bytes) :
    Seen checksum (s.onWorkerData env other routingKey data) := by
  rw [GlobalContext.onWorkerData]
  split
  · exact h
  · dsimp only [Seen]
    rw [DeduplicateContext.checkAndAdd]
    split
    · exact h
    · exact Keyed.hasKey_insert.mpr (Or.inl h)

theorem onWorkerData_seen (hchecksum : checksum ≠ 0) (routingKey data : Bytes) :
    Seen checksum (s.onWorkerData env checksum routingKey data) := by
  rw [GlobalContext.onWorkerData, if_neg hchecksum]
  dsimp only [Seen]
  rw [DeduplicateContext.checkAndAdd]
  split
  · rename_i hkey
    exact hkey
  · exact Keyed.hasKey_insert.mpr (Or.inr rfl)

theorem posted_onWorkerData_of_seen (hchecksum : checksum ≠ 0) (h : Seen checksum s)
    (routingKey data : Bytes) :
    (s.onWorkerData env checksum routingKey data).posted = s.posted := by
  have hkey : s.deduplicateContext.container.HasKey checksum := h
  rw [GlobalContext.onWorkerData, if_neg hchecksum]
  dsimp only
  rw [DeduplicateContext.checkAndAdd, if_pos hkey]
  rfl

theorem step_seen (input : Input) (s : GlobalContext) (h : Seen checksum s) :
    Seen checksum (GlobalContext.step input s) := by
  have hfold : ∀ (calls : List (Checksum × Bytes × Bytes)) (s : GlobalContext), Seen checksum s →
      Seen checksum (calls.foldl (fun s call => s.onWorkerData input.env call.1 call.2.1 call.2.2) s) := by
    intro calls
    induction calls with
    | nil => exact fun s h => h
    | cons call rest ih => exact fun s h => ih _ (seen_onWorkerData h call.1 call.2.1 call.2.2)
  have hscheduler : Seen checksum { s with scheduler := Scheduler.step input s.scheduler } := h
  rw [GlobalContext.step, foldl_onEffect_eq]
  split <;> exact hfold _ _ hscheduler

end Deduplication

-- An event of a room, as the worker of the room hands it on. The memory of its
-- packet holds anything before. `env` is the environment in which the supervisor
-- gets it.
structure Delivery (libraries : Libraries) (json : Bytes) where
  worker : Identifier
  roomId : Int32
  message : BorrowedMessage
  serialized : SerializesTo libraries json roomId.toUInt32 message
  memory : Allocation UInt8 (simpleMessageHeaderLength + workerDataPayloadLength message)
  env : Env

namespace Delivery

variable {libraries : Libraries} {json : Bytes}

-- The supervisor handles what is behind the length of the packet.
def payload (delivery : Delivery libraries json) : Bytes :=
  (generateWorkerDataPacket delivery.message delivery.memory delivery.roomId).drop simpleMessageHeaderLength

def input (delivery : Delivery libraries json) : Input where
  env := delivery.env
  event := .payload delivery.worker delivery.payload

-- The room is assigned to the worker when the message comes.
def Assigned (delivery : Delivery libraries json) (s : GlobalContext) : Prop :=
  s.scheduler.tasks.HasKey (delivery.worker, delivery.roomId)

instance (delivery : Delivery libraries json) (s : GlobalContext) : Decidable (delivery.Assigned s) :=
  inferInstanceAs (Decidable (Keyed.HasKey _ _))

-- The message is posted, under the routing key of its room.
def Forwarded (delivery : Delivery libraries json) (s : GlobalContext) : Prop :=
  (GlobalContext.step delivery.input s).posted =
    s.posted ++ [(routingKeyString delivery.message, delivery.message.payload)]

-- What the data handler is called with as the checksum.
def checksum (delivery : Delivery libraries json) : Checksum := checksumOf delivery.payload

theorem payload_eq (delivery : Delivery libraries json) :
    delivery.payload = workerDataPayload delivery.roomId delivery.message := by
  rw [payload, generateWorkerDataPacket_eq]
  rfl

-- It depends on the bytes of the event alone.
theorem checksum_eq (delivery : Delivery libraries json) : delivery.checksum =
    (networkToHostLong (hostToNetworkLong (crc32 json)).reverse).toInt32 := by
  rw [checksum, payload_eq, checksumOf, drop_workerDataPayload_five, loadInt_hostToNetworkLong,
    delivery.serialized.crc32_eq]
  rfl

theorem crc32_ne_zero (hcrc : crc32 json ≠ 0) (delivery : Delivery libraries json) :
    delivery.message.crc32 ≠ 0 := by
  rw [delivery.serialized.crc32_eq]
  exact fun hzero => hcrc (congrArg Int32.toUInt32 hzero)

theorem checksum_ne_zero (hcrc : crc32 json ≠ 0) (delivery : Delivery libraries json) :
    delivery.checksum ≠ 0 := by
  intro hzero
  rw [checksum, payload_eq, checksumOf, drop_workerDataPayload_five, loadInt_eq_zero_iff] at hzero
  exact delivery.crc32_ne_zero hcrc hzero

end Delivery

section Suppression

variable {libraries : Libraries} {json : Bytes} {config : Config} {inputs : List Input}
  {delivery first second : Delivery libraries json}

theorem step_of_dataCalls {routingKey payload : Bytes} {checksum : Checksum} {input : Input}
    {s : GlobalContext} (hticks : GlobalContext.ticks input = false)
    (hcalls : dataCalls s.scheduler (Scheduler.step input s.scheduler) =
      [(checksum, routingKey, payload)]) :
    GlobalContext.step input s = GlobalContext.onWorkerData input.env checksum routingKey payload
      { s with scheduler := Scheduler.step input s.scheduler } := by
  rw [dataCalls] at hcalls
  rw [GlobalContext.step, if_neg (Bool.eq_false_iff.mp hticks), foldl_onEffect_eq, hcalls]
  rfl

theorem dataCalls_delivery {s : Scheduler} (hcrc : crc32 json ≠ 0) (hinv : s.Inv)
    (htask : s.tasks.HasKey (delivery.worker, delivery.roomId)) :
    dataCalls s (Scheduler.step delivery.input s) =
      [(delivery.checksum, routingKeyString delivery.message, delivery.message.payload)] := by
  have hcalls := dataCalls_workerDataPayload delivery.env hinv htask
    fun hzero => absurd hzero (delivery.crc32_ne_zero hcrc)
  rw [← delivery.payload_eq] at hcalls
  exact hcalls

-- The message reaches the data handler of the global context.
theorem step_delivery (hcrc : crc32 json ≠ 0)
    (hassigned : delivery.Assigned (GlobalContext.run config inputs)) :
    ∃ s : GlobalContext, s.deduplicateContext = (GlobalContext.run config inputs).deduplicateContext ∧
      s.posted = (GlobalContext.run config inputs).posted ∧
      GlobalContext.step delivery.input (GlobalContext.run config inputs) =
        s.onWorkerData delivery.env delivery.checksum (routingKeyString delivery.message)
          delivery.message.payload := by
  have hinv : (GlobalContext.run config inputs).scheduler.Inv := by
    rw [run_scheduler]
    exact Scheduler.run_inv config inputs
  have hcalls := dataCalls_delivery hcrc hinv hassigned
  generalize GlobalContext.run config inputs = s at hcalls ⊢
  exact ⟨{ s with scheduler := Scheduler.step delivery.input s.scheduler }, rfl, rfl,
    step_of_dataCalls rfl hcalls⟩

-- The two rooms' events are both forwarded, the second any time after the first.
def BothForwarded (config : Config) (before : List Input) (first : Delivery libraries json)
    (between : List Input) (second : Delivery libraries json) : Prop :=
  first.Forwarded (GlobalContext.run config before) ∧
    second.Forwarded (GlobalContext.run config (before ++ first.input :: between))

theorem run_seen (hcrc : crc32 json ≠ 0) (before between : List Input)
    (hassigned : first.Assigned (GlobalContext.run config before)) :
    Seen first.checksum (GlobalContext.run config (before ++ first.input :: between)) := by
  obtain ⟨s, -, -, hstep⟩ := step_delivery hcrc hassigned
  rw [GlobalContext.run, Runs.run_append, Runs.run_cons]
  refine Runs.run_invariant step_seen ?_ between
  rw [GlobalContext.run] at hstep
  rw [hstep]
  exact onWorkerData_seen (first.checksum_ne_zero hcrc) _ _

-- Nothing in the checksum tells the rooms apart, and it is never forgotten: the
-- later event is dropped.
theorem not_forwarded (hcrc : crc32 json ≠ 0) {before between : List Input}
    (hfirst : first.Assigned (GlobalContext.run config before))
    (hsecond : second.Assigned (GlobalContext.run config (before ++ first.input :: between))) :
    ¬second.Forwarded (GlobalContext.run config (before ++ first.input :: between)) := by
  obtain ⟨s, hcontext, hposted, hstep⟩ := step_delivery hcrc hsecond
  have hseen : Seen second.checksum s := by
    have hrun := run_seen hcrc before between hfirst
    rw [first.checksum_eq, ← second.checksum_eq, Seen, ← hcontext] at hrun
    exact hrun
  intro hforwarded
  rw [Delivery.Forwarded, hstep,
    posted_onWorkerData_of_seen (second.checksum_ne_zero hcrc) hseen, hposted] at hforwarded
  exact absurd hforwarded (by simp)

theorem not_bothForwarded (config : Config) (libraries : Libraries) (json : Bytes) (hcrc : crc32 json ≠ 0)
    (first second : Delivery libraries json) (_hrooms : first.roomId ≠ second.roomId)
    (before between : List Input)
    (hfirst : first.Assigned (GlobalContext.run config before))
    (hsecond : second.Assigned (GlobalContext.run config (before ++ first.input :: between))) :
    ¬BothForwarded config before first between second :=
  fun hboth => not_forwarded hcrc hfirst hsecond hboth.2

end Suppression

section Example

open Json

def liveJson : Bytes := ascii "\x7b\"cmd\":\"LIVE\"\x7d"

def liveLibraries : Libraries where
  parseInsitu buf := if buf = liveJson then some (object [(ascii "cmd", string (ascii "LIVE"))]) else none
  timestamp _ := none
  serializeToArray message := ⟨[8, .ofNat (message.roomId.getD 0).toNat], Nat.lt_of_sub_eq_succ rfl⟩

def liveMessage (roomId : Int32) : BorrowedMessage :=
  ((serialize liveLibraries liveJson roomId.toUInt32).writes
    { crc32 := 0, routingKey := ⟨List.replicate 32 0, rfl⟩, message := {} }).borrow liveLibraries

-- Both rooms are assigned to one worker.
def liveInputs : List Input :=
  [{ env := .at 0, event := .accept .accepted [5] },
    { env := .at 0, event := .updateRoomLists [1, 2] },
    { env := .at (seconds 10), event := .payload 5 (plainReady 2) },
    { env := .at (seconds 13), event := .tick .expired }]

def liveDelivery (roomId : Int32) (time : Time)
    (haccepted : (serialize liveLibraries liveJson roomId.toUInt32).Returns ()) :
    Delivery liveLibraries liveJson where
  worker := 5
  roomId
  message := liveMessage roomId
  serialized := ⟨haccepted, _, rfl⟩
  memory := ⟨List.replicate 47 0, rfl⟩
  env := .at time

theorem not_bothForwarded_live : ¬BothForwarded plainConfig liveInputs
    (liveDelivery 1 (seconds 20) rfl) [] (liveDelivery 2 (seconds 200) rfl) :=
  not_bothForwarded plainConfig liveLibraries liveJson (by decide) (liveDelivery 1 (seconds 20) rfl)
    (liveDelivery 2 (seconds 200) rfl) (by decide) liveInputs [] (by decide) (by decide)

theorem bothForwarded_refuted : ¬∀ config libraries json, crc32 json ≠ 0 →
    ∀ first second : Delivery libraries json, first.roomId ≠ second.roomId → ∀ before between,
    first.Assigned (GlobalContext.run config before) →
    second.Assigned (GlobalContext.run config (before ++ first.input :: between)) →
    BothForwarded config before first between second := by
  intro hall
  have hboth := hall plainConfig liveLibraries liveJson (by decide) (liveDelivery 1 (seconds 20) rfl)
    (liveDelivery 2 (seconds 200) rfl) (by decide) liveInputs [] (by decide) (by decide)
  exact not_forwarded (by decide) (by decide) (by decide) hboth.2

end Example

end LiveReceptor.Agreement

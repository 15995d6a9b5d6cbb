import LiveReceptor.Agreement.ExactlyOnce
import LiveReceptor.Worker.Crc32

namespace LiveReceptor.Agreement

open Supervisor Worker SimpleWorkerProto

section Checksums

variable {libraries : Libraries} {json json' : Bytes}

theorem hostToNetworkLong_injective {m n : UInt32} (h : hostToNetworkLong m = hostToNetworkLong n) : m = n := by
  have hm := networkToHostLong_hostToNetworkLong m []
  have hn := networkToHostLong_hostToNetworkLong n []
  rw [List.append_nil] at hm hn
  rw [← hm, ← hn, h]

theorem networkToHostLong_injective {a b : Bytes} (ha : a.length = 4) (hb : b.length = 4)
    (h : networkToHostLong a = networkToHostLong b) : a = b := by
  rw [← hostToNetworkLong_networkToHostLong a ha, ← hostToNetworkLong_networkToHostLong b hb, h]

-- The reversal of the bytes makes no two checksums equal.
theorem crc32_eq_of_checksum_eq {first : Delivery libraries json} {second : Delivery libraries json'}
    (h : first.checksum = second.checksum) : crc32 json = crc32 json' := by
  rw [first.checksum_eq, second.checksum_eq] at h
  have hlength : ∀ n : UInt32, (hostToNetworkLong n).reverse.length = 4 := fun _ => rfl
  have hword := networkToHostLong_injective (hlength _) (hlength _) (congrArg Int32.toUInt32 h)
  exact hostToNetworkLong_injective (List.reverse_injective hword)

end Checksums

section Bursts

variable {libraries : Libraries} {json json' : Bytes} {config : Config} {inputs : List Input}
  {first : Delivery libraries json} {second : Delivery libraries json'}

-- A message with a checksum goes to AMQP exactly when its checksum is new.
theorem forwarded_iff (hcrc : crc32 json ≠ 0) (hassigned : first.Assigned (GlobalContext.run config inputs)) :
    first.Forwarded (GlobalContext.run config inputs) ↔
      ¬Seen first.checksum (GlobalContext.run config inputs) := by
  obtain ⟨s, hcontext, hposted, hstep⟩ := step_delivery hcrc hassigned
  have hseen : Seen first.checksum s ↔ Seen first.checksum (GlobalContext.run config inputs) := by
    rw [Seen, Seen, hcontext]
  rw [Delivery.Forwarded, hstep, ← hposted, ← hseen]
  by_cases h : Seen first.checksum s
  · rw [posted_onWorkerData_of_seen (first.checksum_ne_zero hcrc) h]
    simp [h]
  · exact iff_of_true (posted_onWorkerData_of_not_seen h _ _) h

theorem seen_onWorkerData_of_ne {env : Env} {s : GlobalContext} {checksum other : Checksum}
    {routingKey payload : Bytes} (hne : checksum ≠ other) (hzero : checksum ≠ 0) :
    Seen other (s.onWorkerData env checksum routingKey payload) ↔ Seen other s := by
  have hother : ¬checksum? (checksum, routingKey, payload) = some other := by
    rw [checksum?, if_neg hzero, Option.some.injEq]
    exact hne
  rw [seen_onWorkerData_iff, or_iff_left hother]

theorem seen_step_of_ne (hcrc : crc32 json ≠ 0) (hassigned : first.Assigned (GlobalContext.run config inputs))
    {other : Checksum} (hne : first.checksum ≠ other) :
    Seen other (GlobalContext.step first.input (GlobalContext.run config inputs)) ↔
      Seen other (GlobalContext.run config inputs) := by
  obtain ⟨s, hcontext, -, hstep⟩ := step_delivery hcrc hassigned
  have hseen : Seen other s ↔ Seen other (GlobalContext.run config inputs) := by
    rw [Seen, Seen, hcontext]
  rw [hstep]
  exact (seen_onWorkerData_of_ne hne (first.checksum_ne_zero hcrc)).trans hseen

-- The first message leaves the tasks as they are.
theorem assigned_step (hassigned : first.Assigned (GlobalContext.run config inputs)) :
    second.Assigned (GlobalContext.step first.input (GlobalContext.run config inputs)) ↔
      second.Assigned (GlobalContext.run config inputs) := by
  have hinv : (GlobalContext.run config inputs).scheduler.Inv := by
    rw [run_scheduler]
    exact Scheduler.run_inv config inputs
  have hdata := handleBuffer_workerDataPayload first.env hinv hassigned first.message
  rw [← first.payload_eq] at hdata
  generalize GlobalContext.run config inputs = s at hdata ⊢
  have hstep : (Scheduler.step first.input s.scheduler).tasks.HasKey (second.worker, second.roomId) ↔
      s.scheduler.tasks.HasKey (second.worker, second.roomId) := by
    rw [Delivery.input, Scheduler.step]
    dsimp only
    rw [hdata]
    exact Scheduler.hasKey_handleData
  rw [Delivery.Assigned, step_scheduler, hstep]
  exact Iff.rfl

end Bursts

-- Two events of one length that differ within four consecutive bytes, from any
-- rooms: that the one has come does not keep the other one back.
theorem forwarded_iff_of_burst (config : Config) (libraries : Libraries) (front xs ys back : Bytes)
    (hlength : xs.length = ys.length) (hshort : xs.length ≤ 4) (hne : xs ≠ ys)
    (hfirst : crc32 (front ++ xs ++ back) ≠ 0) (hsecond : crc32 (front ++ ys ++ back) ≠ 0)
    (first : Delivery libraries (front ++ xs ++ back)) (second : Delivery libraries (front ++ ys ++ back))
    (before : List Input) (hassigned : first.Assigned (GlobalContext.run config before))
    (hthen : second.Assigned (GlobalContext.run config before)) :
    second.Forwarded (GlobalContext.run config (before ++ [first.input])) ↔
      second.Forwarded (GlobalContext.run config before) := by
  have hchecksum : first.checksum ≠ second.checksum := fun h =>
    hne (crc32_burst hlength hshort front back (crc32_eq_of_checksum_eq h))
  have hlater : second.Assigned (GlobalContext.run config (before ++ [first.input])) := by
    rw [GlobalContext.run, Runs.run_append]
    exact (assigned_step hassigned).mpr hthen
  rw [forwarded_iff hsecond hlater, forwarded_iff hsecond hthen, not_iff_not, GlobalContext.run,
    Runs.run_append]
  exact seen_step_of_ne hfirst hassigned hchecksum

section Example

open Json

-- {"cmd":"LIVE","id":n} with one digit.
abbrev numberedJson (digit : UInt8) : Bytes :=
  ascii "\x7b\"cmd\":\"LIVE\",\"id\":" ++ [digit] ++ ascii "\x7d"

def numberedLibraries : Libraries where
  parseInsitu buf :=
    if buf = numberedJson 49 then some (object [(ascii "cmd", string (ascii "LIVE")), (ascii "id", integer 1)])
    else if buf = numberedJson 50 then
      some (object [(ascii "cmd", string (ascii "LIVE")), (ascii "id", integer 2)])
    else none
  timestamp _ := none
  serializeToArray := liveLibraries.serializeToArray

def numberedDelivery (digit : UInt8) (roomId : Int32) (time : Time)
    (haccepted : (serialize numberedLibraries (numberedJson digit) roomId.toUInt32).Returns ()) :
    Delivery numberedLibraries (numberedJson digit) where
  worker := 5
  roomId
  message := ((serialize numberedLibraries (numberedJson digit) roomId.toUInt32).writes
    { crc32 := 0, routingKey := ⟨List.replicate 32 255, rfl⟩, message := {} }).borrow numberedLibraries
  serialized := ⟨haccepted, _, rfl⟩
  memory := ⟨List.replicate 47 255, rfl⟩
  env := .at time

theorem forwarded_iff_of_burst_numbered :
    (numberedDelivery 50 2 (seconds 21) rfl).Forwarded (GlobalContext.run plainConfig
        (liveInputs ++ [(numberedDelivery 49 1 (seconds 20) rfl).input])) ↔
      (numberedDelivery 50 2 (seconds 21) rfl).Forwarded (GlobalContext.run plainConfig liveInputs) :=
  forwarded_iff_of_burst plainConfig numberedLibraries _ [49] [50] _ rfl (by decide) (by decide) (by decide)
    (by decide) (numberedDelivery 49 1 (seconds 20) rfl) (numberedDelivery 50 2 (seconds 21) rfl) liveInputs
    (by decide) (by decide)

end Example

end LiveReceptor.Agreement

import LiveReceptor.Supervisor.Handlers

namespace LiveReceptor.Supervisor

structure DeduplicateEntry where
  value : Checksum
  addTime : Time
  deriving DecidableEq, Repr

-- The order of the entries is that of the sequenced index.
structure DeduplicateContext where
  container : Keyed DeduplicateEntry.value := ∅

namespace DeduplicateContext

def checkAndAdd (checksum : Checksum) (addTime : Time) (context : DeduplicateContext) :
    Bool × DeduplicateContext :=
  if context.container.HasKey checksum then (false, context)
  else (true, { container := context.container.insert ⟨checksum, addTime⟩ })

-- Erases from the front, up to the first entry that is not too old.
def checkExpire (thresholdSec : Int) (now : Time) (context : DeduplicateContext) : DeduplicateContext :=
  { container := context.container.dropWhile fun entry => entry.addTime < now - seconds thresholdSec }

end DeduplicateContext

-- What happens to the messages with a checksum: whether each was forwarded, and
-- between them the timer ticks, with the time before which entries are too old.
inductive Notice
  | message (checksum : Checksum) (time : Time) (forwarded : Bool)
  | tick (limit : Time)
  deriving DecidableEq, Repr

-- supervisor_global_context. `posted` is what goes to AMQP, the routing key with
-- each payload; `record` is no part of the program.
structure GlobalContext where
  scheduler : Scheduler
  deduplicateContext : DeduplicateContext := {}
  posted : List (Bytes × Bytes) := []
  record : List Notice := []

namespace GlobalContext

def onWorkerData (env : Env) (checksum : Checksum) (routingKey data : Bytes) (s : GlobalContext) :
    GlobalContext :=
  if checksum = 0 then { s with posted := s.posted ++ [(routingKey, data)] }
  else
    let now := env.now .checkAndAdd
    let (added, deduplicateContext) := s.deduplicateContext.checkAndAdd checksum now
    { s with
      deduplicateContext
      posted := if added then s.posted ++ [(routingKey, data)] else s.posted
      record := s.record ++ [.message checksum now added] }

def expiry (input : Input) (s : GlobalContext) : Time :=
  input.env.now .checkExpire - seconds s.scheduler.config.message.messageTtlSec

-- The handler that the scheduler keeps as `_tick_handler` and calls nowhere.
def onServerTick (env : Env) (s : GlobalContext) : GlobalContext :=
  { s with
    deduplicateContext := s.deduplicateContext.checkExpire
      s.scheduler.config.message.messageTtlSec (env.now .checkExpire) }

-- The data handler of the scheduler is the only one that leads back here.
def onEffect (env : Env) (s : GlobalContext) : Effect → GlobalContext
  | .data _ _ checksum routingKey payload => s.onWorkerData env checksum routingKey payload
  | _ => s

-- The server timer ticks: any completion of the wait except a cancellation.
def ticks (input : Input) : Bool :=
  match input.event with
  | .tick .expired | .tick .failed => true
  | _ => false

def step (input : Input) (s : GlobalContext) : GlobalContext :=
  let scheduler := Scheduler.step input s.scheduler
  let effects := scheduler.trace.drop s.scheduler.trace.length
  let s' := effects.foldl (onEffect input.env) { s with scheduler }
  if ticks input then { s' with record := s'.record ++ [.tick (s.expiry input)] } else s'

def initial (config : Config) : GlobalContext := { scheduler := Scheduler.initial config }

def run (config : Config) (inputs : List Input) : GlobalContext :=
  Runs.run step (initial config) inputs

end GlobalContext

end LiveReceptor.Supervisor

import LiveReceptor.Supervisor.Commands
import LiveReceptor.Worker.Orphans

namespace LiveReceptor.Agreement

open Supervisor Worker SimpleWorkerProto

-- One live connection: its two ends, and the packets under way between them,
-- the oldest first.
structure Link where
  scheduler : Scheduler
  manager : BilibiliConnectionManager
  down : List Packet := []
  up : List Int32 := []

-- Everything the supervisor does on its own, the delivery of the next packet in
-- either direction, and the steps of the worker's pool threads.
inductive LinkEvent
  | supervisor (input : Input)
  | deliverDown
  | deliverUp (env : Env)
  | beginClose (connection : Nat)
  | reportFailure (n : Nat)
  | endClose (n : Nat)
  | destroy (connection : Nat)
  | failInit (connection : Nat)

-- What generate_room_failed_packet puts behind the header.
def roomFailedPayload (roomId : Int32) : Bytes := roomFailedCode :: hostToNetworkLong roomId.toUInt32

-- on_supervisor_message
def onPacket : Packet → ConnectionEvent
  | .assign roomId => .openConnection roomId
  | .unassign roomId => .closeConnection roomId

namespace Link

-- The scheduler has moved on; what it sent to the worker is under way.
def scheduled (worker : Identifier) (scheduler : Scheduler) (link : Link) : Link :=
  { link with
    scheduler
    down := link.down ++ packetsTo worker (scheduler.trace.drop link.scheduler.trace.length) }

-- A step at the worker; the failures that it reports are under way.
def managed (event : ConnectionEvent) (link : Link) : Link :=
  let manager := BilibiliConnectionManager.step event link.manager
  { link with
    manager
    up := link.up ++ manager.failures.drop link.manager.failures.length }

def deliverDown (link : Link) : Link :=
  match link.down with
  | [] => link
  | packet :: rest => managed (onPacket packet) { link with down := rest }

def deliverUp (env : Env) (worker : Identifier) (link : Link) : Link :=
  match link.up with
  | [] => link
  | roomId :: rest =>
      scheduled worker (link.scheduler.handleBuffer env worker (roomFailedPayload roomId))
        { link with up := rest }

def step (worker : Identifier) (event : LinkEvent) (link : Link) : Link :=
  match event with
  | .supervisor input => link.scheduled worker (Scheduler.step input link.scheduler)
  | .deliverDown => link.deliverDown
  | .deliverUp env => link.deliverUp env worker
  | .beginClose connection => link.managed (.beginClose connection true)
  | .reportFailure n => link.managed (.reportFailure n)
  | .endClose n => link.managed (.endClose n)
  | .destroy connection => link.managed (.destroy connection)
  | .failInit connection => link.managed (.failInit connection)

-- The supervisor handles the WORKER_READY of a worker.
def start (env : Env) (worker : Identifier) (payload : Bytes) (s : Scheduler)
    (manager : BilibiliConnectionManager) : Link :=
  scheduled worker (s.handleBuffer env worker payload) { scheduler := s, manager }

def effects (worker : Identifier) (event : LinkEvent) (link : Link) : List Effect :=
  (step worker event link).scheduler.trace.drop link.scheduler.trace.length

-- The connection stays up, and the worker sends no further WORKER_READY. Its
-- ROOM_FAILEDs come from `up` alone.
def StaysConnected (worker : Identifier) (event : LinkEvent) (link : Link) : Prop :=
  match event with
  | .supervisor _ => ∀ effect ∈ link.effects worker event, ¬effect.Disturbs worker
  | .deliverUp _ => .disconnect worker ∉ link.effects worker event
  | _ => True

instance (worker : Identifier) (event : LinkEvent) (link : Link) :
    Decidable (StaysConnected worker event link) := by
  unfold StaysConnected
  split <;> infer_instance

-- The rooms whose failure the supervisor has yet to hear of: the report is
-- under way, or a close() has still to send it.
def failing (link : Link) : List Int32 :=
  link.up ++ (link.manager.closing.filter Closing.unreported).map Closing.roomId

-- The tasks of the worker are the rooms for which it has a live connection.
def Agrees (worker : Identifier) (link : Link) : Prop :=
  ∀ roomId, link.scheduler.tasks.HasKey (worker, roomId) ↔ link.manager.hasLive roomId = true

end Link

end LiveReceptor.Agreement

import LiveReceptor.Library.Runs
import LiveReceptor.Worker.Serialization

-- The messages of a thread that are made in one and the same object.
namespace LiveReceptor.Worker

open SimpleWorkerProto Memory Handler Json

inductive Payload
  | json (buf : Bytes)
  | popularity (value : Int)

def Payload.serialize (libraries : Libraries) (roomId : UInt32) : Payload → Serializing Unit
  | .json buf => Worker.serialize libraries buf roomId
  | .popularity value => serializePopularity value roomId

structure Call where
  payload : Payload
  roomId : UInt32

-- What a call leaves behind in the object, whether it gets to its end or not.
def Call.step (libraries : Libraries) (call : Call) (context : BorrowedBilibiliMessage) :
    BorrowedBilibiliMessage := (call.payload.serialize libraries call.roomId).writes context

-- A new object, with the memory for the checksum and the key as it is found.
def parseContext (crc32 : Int32) (routingKey : Allocation UInt8 routingKeyMaxSize) :
    BorrowedBilibiliMessage where
  crc32
  routingKey
  message := {}

-- The packet that is made of the message when the handlers accept the payload.
-- `memory` is what is found in the memory of a packet.
def packet (libraries : Libraries) (memory : (size : Nat) → Allocation UInt8 size) (payload : Payload)
    (roomId : UInt32) (context : BorrowedBilibiliMessage) : Option Bytes :=
  match (payload.serialize libraries roomId).outcome with
  | .error _ => none
  | .ok _ =>
      let msg := ((payload.serialize libraries roomId).writes context).borrow libraries
      some (generateWorkerDataPacket msg (memory _) roomId.toInt32)

-- The command of a document.
def commandOf (document : Json) : Option Command :=
  (document.member "cmd").bind fun cmd => command.lookup cmd.stringValue

-- The text of the routing key, before it is cut.
def Payload.keyText (libraries : Libraries) (roomId : UInt32) : Payload → Option Bytes
  | .json buf =>
      (libraries.parseInsitu buf).bind fun document =>
        (commandOf document).map fun command => routingKeyText roomId command.suffix
  | .popularity _ => some (routingKeyText roomId "online")

-- Where the NUL behind the text of a key is.
def keyLength (text : Bytes) : Nat := min text.length (routingKeyMaxSize - 1)

section Key

-- What is behind the NUL stays as it is.
theorem formatKey_eq (text : Bytes) (key : Allocation UInt8 routingKeyMaxSize) :
    (formatKey text key).1 = text.take (keyLength text) ++ 0 :: key.1.drop (keyLength text + 1) := by
  have hsize : key.1.length = routingKeyMaxSize := key.2
  have hplace : (if routingKeyMaxSize ≤ text.length then routingKeyMaxSize - 1 else text.length) =
      keyLength text := by
    unfold keyLength routingKeyMaxSize
    split <;> omega
  have hwritten : (text.take routingKeyMaxSize).length ≤ keyLength text + 1 ∧
      keyLength text ≤ (text.take routingKeyMaxSize).length := by
    rw [List.length_take]
    unfold keyLength routingKeyMaxSize
    omega
  have hstored : store key.1 0 (text.take routingKeyMaxSize) =
      text.take routingKeyMaxSize ++ key.1.drop (text.take routingKeyMaxSize).length := by
    rw [store, List.take_zero, List.nil_append, Nat.sub_zero, hsize, List.take_take, Nat.min_self,
      Nat.zero_add]
  have hfront : (store key.1 0 (text.take routingKeyMaxSize)).take (keyLength text) =
      text.take (keyLength text) := by
    have hcut : min (keyLength text) routingKeyMaxSize = keyLength text := by
      unfold keyLength routingKeyMaxSize
      omega
    rw [hstored, List.take_append_of_le_length hwritten.2, List.take_take, hcut]
  have hback : (store key.1 0 (text.take routingKeyMaxSize)).drop (keyLength text + 1) =
      key.1.drop (keyLength text + 1) := by
    rw [hstored, List.drop_append, List.drop_of_length_le hwritten.1, List.nil_append, List.drop_drop,
      Nat.add_sub_cancel' hwritten.1]
  have hlt : keyLength text < (store key.1 0 (text.take routingKeyMaxSize)).length := by
    rw [length_store key.1 0 _ (Nat.zero_le _), hsize]
    unfold keyLength routingKeyMaxSize
    omega
  show (store key.1 0 _).set _ 0 = _
  rw [hplace, List.set_eq_take_append_cons_drop, if_pos hlt, hfront, hback]

theorem formatKey_eq_iff (text : Bytes) (key other : Allocation UInt8 routingKeyMaxSize) :
    formatKey text key = formatKey text other ↔
      key.1.drop (keyLength text + 1) = other.1.drop (keyLength text + 1) := by
  rw [← Subtype.coe_inj, formatKey_eq, formatKey_eq, List.append_cancel_left_eq, List.cons.injEq,
    and_iff_right rfl]

end Key

section Accepted

variable {libraries : Libraries} {roomId : UInt32} {payload : Payload}

theorem serializeDocument_of_returns {timestamp : Bytes → Option Int} {parsed : Option Json}
    (h : (serializeDocument timestamp parsed roomId).Returns ()) :
    ∃ document event, parsed = some document ∧ commandOf document = some event ∧
      serializeDocument timestamp parsed roomId = (do
        onMessage fun message => { message with roomId := some roomId }
        event.handler timestamp roomId document) := by
  cases parsed with
  | none => cases h
  | some document =>
      simp only [serializeDocument, returns_check_bind, read_some_bind, returns_write_bind,
        findMember, returns_getTyped_bind, returns_read_bind] at h
      obtain ⟨-, hobject, -, htest, cmd, hcmd, hstring, hknown, event, hevent, -⟩ := h
      refine ⟨document, event, rfl, ?_, ?_⟩
      · rw [commandOf, hcmd, Option.bind_some, hevent]
      · simp only [serializeDocument, Option.isSome_some, check_bind, read_some_bind, hobject,
          findMember_bind hobject, hcmd, Option.any_some, hstring, getTyped_bind hstring, hevent]

-- An accepted payload determines everything but the bytes behind the key.
theorem writes_of_returns (h : (payload.serialize libraries roomId).Returns ()) :
    ∃ text crc32 message, payload.keyText libraries roomId = some text ∧ ∀ context,
      (payload.serialize libraries roomId).writes context =
        { crc32, routingKey := formatKey text context.routingKey, message } := by
  cases payload with
  | popularity value =>
      exact ⟨routingKeyText roomId "online", 0,
        { roomId := some roomId, popularityChange := some (some value) }, rfl, fun context => rfl⟩
  | json buf =>
      have hdocument :
          (serializeDocument libraries.timestamp (libraries.parseInsitu buf) roomId).Returns () := h
      obtain ⟨document, event, hparsed, hevent, heq⟩ := serializeDocument_of_returns hdocument
      obtain ⟨body, hbody, hhandler⟩ := handler_eq libraries.timestamp event roomId document
      -- any object with an empty message will do: the body does not see the rest of it
      let cleared : BorrowedBilibiliMessage := parseContext 0 ⟨List.replicate routingKeyMaxSize 0, rfl⟩
      refine ⟨routingKeyText roomId event.suffix, (crc32 buf).toInt32,
        (body.writes { cleared with message := { roomId := some roomId } }).message, ?_, fun context => ?_⟩
      · rw [Payload.keyText, hparsed, Option.bind_some, hevent]
        rfl
      · show (serialize libraries buf roomId).writes context = _
        rw [serialize, writes_write_bind, writes_write_bind, heq, writes_write_bind, hhandler, routingKey,
          writes_write_bind]
        exact hbody.writes_eq rfl

end Accepted

section Packets

variable {libraries : Libraries} {memory memory' : (size : Nat) → Allocation UInt8 size} {payload : Payload}
  {roomId : UInt32} {context context' : BorrowedBilibiliMessage}

-- Of the packet of an accepted payload, only what the key field has behind the NUL
-- depends on what was done before.
theorem packet_of_returns (h : (payload.serialize libraries roomId).Returns ()) :
    ∃ text front back, payload.keyText libraries roomId = some text ∧ ∀ memory context,
      packet libraries memory payload roomId context =
        some (front ++ ((formatKey text context.routingKey).1 ++ back)) := by
  obtain ⟨text, crc32, message, htext, hwrites⟩ := writes_of_returns h
  let length := workerDataPayloadHeaderLength + (libraries.serializeToArray message).1.length
  refine ⟨text, hostToNetworkLong (.ofNat length) ++
    workerDataCode :: (hostToNetworkLong roomId.toInt32.toUInt32 ++ hostToNetworkLong crc32.toUInt32),
    (libraries.serializeToArray message).1, htext, fun memory context => ?_⟩
  have hok : (payload.serialize libraries roomId).outcome = .ok () := h
  rw [packet, hok]
  dsimp only
  rw [generateWorkerDataPacket_eq, hwrites]
  simp only [List.append_assoc, List.cons_append]
  rfl

theorem packet_of_not_returns (h : ¬(payload.serialize libraries roomId).Returns ()) :
    packet libraries memory payload roomId context = none := by
  rw [packet]
  split
  · rfl
  · rename_i hok
    exact absurd hok h

theorem packet_eq_iff (h : (payload.serialize libraries roomId).Returns ()) {text : Bytes}
    (htext : payload.keyText libraries roomId = some text) :
    packet libraries memory payload roomId context = packet libraries memory' payload roomId context' ↔
      context.routingKey.1.drop (keyLength text + 1) = context'.routingKey.1.drop (keyLength text + 1) := by
  obtain ⟨same, front, back, hsame, hpacket⟩ := packet_of_returns h
  obtain rfl := Option.some.inj (htext.symm.trans hsame)
  rw [hpacket, hpacket, Option.some.injEq, List.append_cancel_left_eq, List.append_cancel_right_eq,
    Subtype.coe_inj, formatKey_eq_iff]

-- Two threads, or one in two runs, whatever was called on them before: a payload
-- that is accepted gives the same packet exactly when the two keys that it meets
-- have the same bytes behind the place of its own NUL.
theorem run_packet_eq_iff (libraries : Libraries) (memory memory' : (size : Nat) → Allocation UInt8 size)
    (payload : Payload) (roomId : UInt32) (crc32 crc32' : Int32)
    (key key' : Allocation UInt8 routingKeyMaxSize) (history history' : List Call) :
    packet libraries memory payload roomId
        (Runs.run (Call.step libraries) (parseContext crc32 key) history) =
      packet libraries memory' payload roomId
        (Runs.run (Call.step libraries) (parseContext crc32' key') history') ↔
      ((payload.serialize libraries roomId).Returns () → ∀ text ∈ payload.keyText libraries roomId,
        (Runs.run (Call.step libraries) (parseContext crc32 key) history).routingKey.1.drop
            (keyLength text + 1) =
          (Runs.run (Call.step libraries) (parseContext crc32' key') history').routingKey.1.drop
            (keyLength text + 1)) := by
  by_cases h : (payload.serialize libraries roomId).Returns ()
  · obtain ⟨text, -, -, htext, -⟩ := packet_of_returns h
    rw [packet_eq_iff h htext, htext]
    constructor
    · intro hbehind _ same hsame
      obtain rfl := Option.some.inj hsame
      exact hbehind
    · intro hbehind
      exact hbehind h text rfl
  · rw [packet_of_not_returns h, packet_of_not_returns h]
    exact iff_of_true rfl fun hreturns => absurd hreturns h

-- A handler for heartbeats only.
def heartbeatLibraries : Libraries where
  parseInsitu _ := none
  timestamp _ := none
  serializeToArray _ := ⟨[], Nat.zero_lt_succ _⟩

-- The number of the room before is longer than that of this one.
theorem run_packet_refuted : ¬∀ (libraries : Libraries) (memory : (size : Nat) → Allocation UInt8 size)
    (payload : Payload) (roomId : UInt32) (crc32 : Int32) (key : Allocation UInt8 routingKeyMaxSize)
    (history history' : List Call),
    packet libraries memory payload roomId
        (Runs.run (Call.step libraries) (parseContext crc32 key) history) =
      packet libraries memory payload roomId
        (Runs.run (Call.step libraries) (parseContext crc32 key) history') := by
  intro hall
  have hsame := hall heartbeatLibraries (fun size => ⟨List.replicate size 0, List.length_replicate⟩)
    (.popularity 7) 1 0 ⟨List.replicate routingKeyMaxSize 0, List.length_replicate⟩ []
    [⟨.popularity 9, 4294967295⟩]
  have haccepted : ((Payload.popularity 7).serialize heartbeatLibraries 1).Returns () := rfl
  have hbehind := (packet_eq_iff haccepted rfl).mp hsame
  revert hbehind
  decide

end Packets

end LiveReceptor.Worker

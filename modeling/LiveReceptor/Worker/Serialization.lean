import LiveReceptor.Worker.BiliJson
import LiveReceptor.Worker.SimpleWorkerProtoGenerator

namespace LiveReceptor.Worker

open SimpleWorkerProto Handler Json

-- What the generator of the data packets gets to see.
def BorrowedBilibiliMessage.borrow (libraries : Libraries) (borrowed : BorrowedBilibiliMessage) :
    BorrowedMessage where
  crc32 := borrowed.crc32
  routingKey := borrowed.routingKey
  payload := (libraries.serializeToArray borrowed.message).1
  short := (libraries.serializeToArray borrowed.message).2

-- The handlers accept the event, and this is the message they make of it. The
-- serializer may have handled others before.
def SerializesTo (libraries : Libraries) (buf : Bytes) (roomId : UInt32) (msg : BorrowedMessage) : Prop :=
  (serialize libraries buf roomId).Returns () ∧
    ∃ borrowed, msg = ((serialize libraries buf roomId).writes borrowed).borrow libraries

def messagePart : Part BorrowedBilibiliMessage RoomMessage where
  get := BorrowedBilibiliMessage.message
  put borrowed message := { borrowed with message := message }
  get_put _ _ := rfl
  put_get _ := rfl

abbrev OnlyMessage {α : Type} (handler : Serializing α) : Prop := handler.Within messagePart

theorem closed_onlyMessage : Closed fun {_} (handler : Serializing _) => OnlyMessage handler :=
  closed_within messagePart

theorem onlyMessage_danmuMsgTitle (titleInfo : Json) : OnlyMessage (danmuMsgTitle titleInfo) :=
  closed_danmuMsgTitle closed_onlyMessage (fun _ _ _ => rfl) titleInfo

theorem onlyMessage_danmuMsgMedal (medalInfo : Json) : OnlyMessage (danmuMsgMedal medalInfo) :=
  closed_danmuMsgMedal closed_onlyMessage (fun _ _ _ => rfl) medalInfo

theorem onlyMessage_superChatMedalInfo (found : Option Json) : OnlyMessage (superChatMedalInfo found) :=
  closed_superChatMedalInfo closed_onlyMessage (fun _ _ _ => rfl) found

theorem onlyMessage_userBlockedUid (uid : Json) : OnlyMessage (userBlockedUid uid) :=
  closed_userBlockedUid closed_onlyMessage (fun _ _ _ => rfl) uid

-- What the handlers put behind the number of the room.
def Command.suffix : Command → String
  | .danmuMsg => "danmaku"
  | .superChatMessage => "sc"
  | .sendGift => "gift"
  | .userToastMsg => "new_guard"
  | .welcome => "welcome_vip"
  | .welcomeGuard => "welcome_guard"
  | .roomBlockMsg => "user_blocked"
  | .live | .preparing | .round | .cutOff => "live_status"
  | .roomChange | .changeRoomInfo | .roomSkinMsg | .roomAdmins => "room_info"
  | .roomLock => "room_locked"
  | .warning => "room_warning"
  | .roomLimit => "room_limited"
  | .superChatMessageDelete => "sc_delete"

-- A handler writes the routing key first, and then nothing but the message.
theorem handler_eq (timestamp : Bytes → Option Int) (command : Command) (roomId : UInt32) (document : Json) :
    ∃ body : Serializing Unit, OnlyMessage body ∧
      command.handler timestamp roomId document = (do routingKey roomId command.suffix; body) := by
  cases command <;>
    refine ⟨_, ?_, rfl⟩ <;>
    repeat' first
      | with_reducible exact closed_getMemberCheck closed_onlyMessage _ _ _
      | with_reducible exact onlyMessage_danmuMsgTitle _
      | with_reducible exact onlyMessage_danmuMsgMedal _
      | with_reducible exact onlyMessage_superChatMedalInfo _
      | with_reducible exact onlyMessage_userBlockedUid _
      | with_reducible refine closed_addUint64s closed_onlyMessage (fun _ => ?_) _
      | with_reducible refine closed_onlyMessage.when ?_
      | with_reducible refine closed_onlyMessage.bind ?_ fun _ => ?_
      | exact fun _ _ => rfl

-- The handlers leave the checksum alone.
theorem keeps_crc32_handler (timestamp : Bytes → Option Int) (command : Command) (roomId : UInt32)
    (document : Json) : (command.handler timestamp roomId document).Keeps (·.crc32) := by
  obtain ⟨body, hbody, heq⟩ := handler_eq timestamp command roomId document
  rw [heq]
  exact keeps_bind (keeps_write.mpr fun _ => rfl) fun _ => hbody.keeps fun _ _ => rfl

theorem keeps_crc32_serializeDocument (timestamp : Bytes → Option Int) (document : Option Json)
    (roomId : UInt32) : (serializeDocument timestamp document roomId).Keeps (·.crc32) := by
  have h := closed_keeps fun borrowed : BorrowedBilibiliMessage => borrowed.crc32
  unfold serializeDocument
  refine h.bind (h.quiet rfl) fun _ => h.bind (h.quiet rfl) fun _ => h.bind (h.quiet rfl) fun _ => ?_
  refine h.bind (fun _ => rfl) fun _ => h.bind (h.quiet rfl) fun _ => h.bind (h.quiet rfl) fun _ => ?_
  refine h.bind (h.quiet rfl) fun _ => h.bind (h.quiet rfl) fun _ => h.bind (h.quiet rfl) fun _ => ?_
  exact h.bind (h.quiet rfl) fun _ => keeps_crc32_handler _ _ _ _

-- Whatever becomes of the document, the message has the checksum of its bytes.
theorem crc32_serialize (libraries : Libraries) (buf : Bytes) (roomId : UInt32)
    (borrowed : BorrowedBilibiliMessage) :
    ((serialize libraries buf roomId).writes borrowed).crc32 = (crc32 buf).toInt32 := by
  rw [serialize, writes_write_bind, writes_write_bind]
  exact keeps_crc32_serializeDocument libraries.timestamp (libraries.parseInsitu buf) roomId _

theorem SerializesTo.crc32_eq {libraries : Libraries} {buf : Bytes} {roomId : UInt32}
    {msg : BorrowedMessage} (h : SerializesTo libraries buf roomId msg) :
    msg.crc32 = (crc32 buf).toInt32 := by
  obtain ⟨-, borrowed, rfl⟩ := h
  exact crc32_serialize libraries buf roomId borrowed

end LiveReceptor.Worker

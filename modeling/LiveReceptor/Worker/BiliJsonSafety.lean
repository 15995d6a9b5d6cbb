import LiveReceptor.Worker.BiliJson

namespace LiveReceptor.Worker

open SimpleWorkerProto Handler Json

-- What a handler asks of a document on its way: what it checks, and where it
-- reads without the check.
inductive Step
  | checks (holds : Bool)
  | relies (holds : Bool)

-- Every read that is reached finds what it relies on.
def Safe : List Step → Prop
  | [] => True
  | .checks holds :: rest => holds = true → Safe rest
  | .relies holds :: rest => holds = true ∧ Safe rest

@[simp] theorem safe_nil : Safe [] ↔ True := Iff.rfl

@[simp] theorem safe_checks_cons {holds : Bool} {rest : List Step} :
    Safe (.checks holds :: rest) ↔ holds = true → Safe rest := Iff.rfl

@[simp] theorem safe_relies_cons {holds : Bool} {rest : List Step} :
    Safe (.relies holds :: rest) ↔ holds = true ∧ Safe rest := Iff.rfl

def ifPresent (present holds : Bool) : Bool := !present || holds

@[simp] theorem ifPresent_eq_true {present holds : Bool} :
    ifPresent present holds = true ↔ present = true → holds = true := by
  cases present <;> simp [ifPresent]

def danmuMsgMedalChecks (medalInfo : Json) : Bool :=
  (medalInfo.place 1).isString && (medalInfo.place 0).isUint && (medalInfo.place 4).isUint &&
    (medalInfo.place 2).isString && (medalInfo.place 3).isUint

-- The rank is a number, the level of the guard is unsigned: both are read as
-- signed numbers.
def danmuMsgSteps (document : Json) : List Step :=
  let info := document.field "info"
  let userInfo := info.place 2
  let userLevelInfo := info.place 4
  [.checks (info.isArrayOf 15), .checks ((info.place 0).isArrayOf 11),
    .checks (userInfo.isArrayOf 8), .checks (userLevelInfo.isArrayOf 4),
    .checks (userInfo.place 0).isUint64, .checks (userInfo.place 1).isString,
    .checks (userInfo.place 2).isInt, .checks ((userInfo.place 3).isInt && (userInfo.place 4).isInt),
    .checks (userInfo.place 5).isNumber, .relies (userInfo.place 5).isInt,
    .checks (userInfo.place 6).isInt,
    .checks (userLevelInfo.place 0).isUint, .checks (userLevelInfo.place 2).isUint,
    .checks (ifPresent ((info.place 3).isArrayOf 6) (danmuMsgMedalChecks (info.place 3))),
    .checks (info.place 1).isString, .checks ((info.place 0).place 9).isUint,
    .checks (info.place 7).isUint, .relies (info.place 7).isInt]

def superChatMedalChecks (medalInfo : Json) : Bool :=
  (medalInfo.field "medal_name").isString && (medalInfo.field "medal_level").isUint &&
    (medalInfo.field "medal_color").isString && (medalInfo.field "target_id").isUint &&
    (medalInfo.field "anchor_uname").isString && (medalInfo.field "anchor_roomid").isUint

-- The level of the guard is unsigned and read as signed, the price the other
-- way round. The message and the end have no check of their own.
def superChatMessageSteps (document : Json) : List Step :=
  let data := document.field "data"
  let userInfo := data.field "user_info"
  let medalInfo := data.field "medal_info"
  [.checks data.isObject, .checks userInfo.isObject, .checks (data.field "uid").isInt64,
    .checks (userInfo.field "uname").isString, .checks (userInfo.field "manager").isInt,
    .checks (userInfo.field "is_vip").isInt, .checks (userInfo.field "is_svip").isInt,
    .checks (userInfo.field "user_level").isUint, .checks (userInfo.field "level_color").isString,
    .checks (userInfo.field "title").isString, .checks (userInfo.field "is_main_vip").isInt,
    .checks (userInfo.field "face").isString,
    .checks (userInfo.field "guard_level").isUint, .relies (userInfo.field "guard_level").isInt,
    .checks (ifPresent (medalInfo.member "target_id").isSome (superChatMedalChecks medalInfo)),
    .checks (data.field "id").isString,
    .checks (data.member "message").isSome, .relies (data.field "message").isString,
    .checks (data.field "price").isInt, .relies (data.field "price").isUint,
    .checks (data.field "rate").isUint, .checks (data.field "token").isString,
    .checks (data.field "time").isUint, .checks (data.field "start_time").isUint64,
    .checks (data.member "end_time").isSome, .relies (data.field "end_time").isUint64]

-- The other handlers read nothing that they have not checked.
def Command.steps (document : Json) : Command → List Step
  | .danmuMsg => danmuMsgSteps document
  | .superChatMessage => superChatMessageSteps document
  | .cutOff => [.relies (document.member "msg").isSome]
  | _ => []

section Medals

variable {medalInfo : Json} {go : Unit → Serializing Unit}

theorem noFault_danmuMsgMedal (h : medalInfo.isArrayOf 6 = true) :
    (danmuMsgMedal medalInfo).NoFault := by
  simp +contextual [danmuMsgMedal, lt_length_of_isArrayOf _ h]

theorem returns_danmuMsgMedal (h : medalInfo.isArrayOf 6 = true) :
    (danmuMsgMedal medalInfo).Returns () ↔ danmuMsgMedalChecks medalInfo = true := by
  simp +contextual [danmuMsgMedal, danmuMsgMedalChecks, and_assoc, lt_length_of_isArrayOf _ h]

theorem noFault_danmuMsgTitle (h : medalInfo.isArrayOf 2 = true) :
    (danmuMsgTitle medalInfo).NoFault := by
  simp +contextual [danmuMsgTitle, lt_length_of_isArrayOf _ h]

theorem returns_danmuMsgTitle (h : medalInfo.isArrayOf 2 = true) :
    (danmuMsgTitle medalInfo).Returns () := by
  simp +contextual [danmuMsgTitle, lt_length_of_isArrayOf _ h]

theorem noFault_superChatMedal (h : medalInfo.isObject = true) :
    (superChatMedal medalInfo).NoFault := by
  simp +contextual [superChatMedal, h, isUint64_of_isUint]

theorem returns_superChatMedal (h : medalInfo.isObject = true) :
    (superChatMedal medalInfo).Returns () ↔ superChatMedalChecks medalInfo = true := by
  simp +contextual [superChatMedal, superChatMedalChecks, and_assoc, h, isUint64_of_isUint]

theorem member_eq_none_of_not_isObject {value : Json} {name : String} (h : value.isObject = false) :
    value.member name = none := by
  cases value with
  | object members => cases h
  | _ => rfl

-- What is no object has no target_id.
theorem superChatMedalInfo_eq (data : Json) : superChatMedalInfo (data.member "medal_info") =
    if ((data.field "medal_info").member "target_id").isSome then superChatMedal (data.field "medal_info")
    else clearMedal := by
  cases h : data.member "medal_info" with
  | none =>
      rw [field, h, Option.getD_none, member_eq_none_of_not_isObject rfl]
      rfl
  | some value =>
      rw [field, h, Option.getD_some, superChatMedalInfo]
      cases hobject : value.isObject with
      | true => rw [Bool.true_and]
      | false =>
          rw [member_eq_none_of_not_isObject hobject]
          rfl

theorem noFault_superChatMedalInfo_bind (data : Json) :
    (superChatMedalInfo (data.member "medal_info") >>= go).NoFault ↔
      ((((data.field "medal_info").member "target_id").isSome = true →
        superChatMedalChecks (data.field "medal_info") = true) → (go ()).NoFault) := by
  rw [noFault_seq, superChatMedalInfo_eq]
  cases h : (data.field "medal_info").member "target_id" with
  | none => simp
  | some value =>
      have hobject : (data.field "medal_info").isObject = true := by
        by_contra hobject
        rw [member_eq_none_of_not_isObject (Bool.eq_false_iff.mpr hobject)] at h
        cases h
      simp [noFault_superChatMedal hobject, returns_superChatMedal hobject]

end Medals

section Handlers

variable {document : Json}

theorem noFault_cmdDanmuMsg_iff (h : document.isObject = true) (roomId : UInt32) :
    (cmdDanmuMsg roomId document).NoFault ↔ Safe (danmuMsgSteps document) := by
  simp +contextual [cmdDanmuMsg, routingKey, danmuMsgSteps, h, lt_length_of_isArrayOf 15,
    lt_length_of_isArrayOf 11, lt_length_of_isArrayOf 8, lt_length_of_isArrayOf 4,
    noFault_danmuMsgTitle, returns_danmuMsgTitle, noFault_danmuMsgMedal, returns_danmuMsgMedal]

theorem noFault_cmdSuperChatMessage_iff (h : document.isObject = true) (roomId : UInt32) :
    (cmdSuperChatMessage roomId document).NoFault ↔ Safe (superChatMessageSteps document) := by
  simp +contextual [cmdSuperChatMessage, routingKey, superChatMessageSteps, h,
    noFault_superChatMedalInfo_bind, noFault_getMemberCheck_bind]

theorem noFault_cmdCutOff_iff (h : document.isObject = true) (roomId : UInt32) :
    (cmdCutOff roomId document).NoFault ↔ (document.member "msg").isSome = true := by
  cases hmsg : document.member "msg" <;>
    simp [cmdCutOff, routingKey, h, hmsg, noFault_read_bind]

theorem noFault_addUint64s (add : Int → Serializing Unit) (hadd : ∀ n, (add n).NoFault)
    (elements : List Json) : (addUint64s add elements).NoFault := by
  induction elements with
  | nil => exact noFault_pure
  | cons elem rest ih => simp +contextual [addUint64s, noFault_seq, hadd, ih]

theorem noFault_userBlockedUid (uid : Json) : (userBlockedUid uid).NoFault := by
  cases hstring : uid.isString with
  | true => simp [userBlockedUid, hstring]
  | false => cases huint : uid.isUint64 <;> simp [userBlockedUid, hstring, huint]

-- The sixteen that check what they read.
theorem noFault_handler_of_steps_nil (timestamp : Bytes → Option Int) (command : Command)
    (h : document.isObject = true) (hsteps : command.steps document = []) (roomId : UInt32) :
    (command.handler timestamp roomId document).NoFault := by
  cases command with
  | danmuMsg => cases hsteps
  | superChatMessage => cases hsteps
  | cutOff => cases hsteps
  | sendGift => simp +contextual [Command.handler, cmdSendGift, routingKey, h]
  | userToastMsg => simp +contextual [Command.handler, cmdUserToastMsg, routingKey, h]
  | welcome => simp +contextual [Command.handler, cmdWelcome, routingKey, h]
  | welcomeGuard => simp +contextual [Command.handler, cmdWelcomeGuard, routingKey, h]
  | roomBlockMsg =>
      simp +contextual [Command.handler, cmdRoomBlockMsg, routingKey, h, noFault_seq,
        noFault_userBlockedUid]
  | live => simp [Command.handler, cmdLive, cmdLiveStatus, routingKey]
  | preparing => simp [Command.handler, cmdPreparing, cmdLiveStatus, routingKey]
  | round => simp [Command.handler, cmdRound, cmdLiveStatus, routingKey]
  | roomChange => simp +contextual [Command.handler, cmdRoomChange, routingKey, h]
  | changeRoomInfo => simp +contextual [Command.handler, cmdChangeRoomInfo, routingKey, h]
  | roomSkinMsg => simp +contextual [Command.handler, cmdRoomSkinMsg, routingKey, h]
  | roomAdmins =>
      simp +contextual [Command.handler, cmdRoomAdmins, routingKey, h, noFault_addUint64s]
  | roomLock => simp +contextual [Command.handler, cmdRoomLock, routingKey, h]
  | warning => simp +contextual [Command.handler, cmdWarning, routingKey, h]
  | roomLimit => simp +contextual [Command.handler, cmdRoomLimit, routingKey, h]
  | superChatMessageDelete =>
      simp +contextual [Command.handler, cmdSuperChatMessageDelete, routingKey, h, noFault_addUint64s]

end Handlers

-- A document that reaches a handler is an object.
theorem noFault_handler_iff (timestamp : Bytes → Option Int) (command : Command) (roomId : UInt32)
    (members : List (Bytes × Json)) : (command.handler timestamp roomId (object members)).NoFault ↔
      Safe (command.steps (object members)) := by
  have h : (object members).isObject = true := rfl
  cases hcommand : command with
  | danmuMsg => exact noFault_cmdDanmuMsg_iff h roomId
  | superChatMessage => exact noFault_cmdSuperChatMessage_iff h roomId
  | cutOff =>
      rw [Command.steps, safe_relies_cons, safe_nil, and_true]
      exact noFault_cmdCutOff_iff h roomId
  | _ => exact iff_of_true (noFault_handler_of_steps_nil timestamp _ h rfl roomId) trivial

-- A room that is cut off without a message.
theorem noFault_handler_refuted : ¬ ∀ (timestamp : Bytes → Option Int) (command : Command)
    (roomId : UInt32) (members : List (Bytes × Json)),
    (command.handler timestamp roomId (object members)).NoFault := by
  intro h
  have hcutOff := h (fun _ => none) .cutOff 1 [(ascii "cmd", string (ascii "CUT_OFF"))]
  exact absurd ((noFault_cmdCutOff_iff rfl 1).mp hcutOff) (by decide)

end LiveReceptor.Worker

import LiveReceptor.Worker.Json
import LiveReceptor.Worker.RoomMessage

namespace LiveReceptor.Worker

open SimpleWorkerProto Memory Handler Json

-- fmt::format_to_n over the old key, and the NUL behind it. A key that is too
-- long is cut.
def formatKey (text : Bytes) (key : Allocation UInt8 routingKeyMaxSize) :
    Allocation UInt8 routingKeyMaxSize :=
  ⟨(store key.1 0 (text.take routingKeyMaxSize)).set
      (if routingKeyMaxSize ≤ text.length then routingKeyMaxSize - 1 else text.length) 0, by
    rw [List.length_set, length_store key.1 0 _ (Nat.zero_le _), key.2]⟩

def decimal (n : Nat) : Bytes := (Nat.toDigits 10 n).map fun c => .ofNat c.toNat

-- A decimal number is digits only, between '0' and '9'.
theorem digits_decimal (n : Nat) : ∀ byte ∈ decimal n, 48 ≤ byte ∧ byte ≤ 57 := by
  intro byte h
  obtain ⟨c, hc, rfl⟩ := List.mem_map.mp h
  have hdigit := Nat.isDigit_of_mem_toDigits (by decide) (by decide) hc
  simp only [Char.isDigit, Bool.and_eq_true, decide_eq_true_eq, ge_iff_le, UInt32.le_iff_toNat_le] at hdigit
  have hlow : 48 ≤ c.toNat := hdigit.1
  have hhigh : c.toNat ≤ 57 := hdigit.2
  have hbyte : (UInt8.ofNat c.toNat).toNat = c.toNat := by
    rw [UInt8.toNat_ofNat', Nat.mod_eq_of_lt (by omega)]
  rw [UInt8.le_iff_toNat_le, UInt8.le_iff_toNat_le, hbyte]
  exact ⟨hlow, hhigh⟩

def routingKeyText (roomId : UInt32) (suffix : String) : Bytes :=
  ascii "blv." ++ decimal roomId.toNat ++ ascii "." ++ ascii suffix

-- ROUTING_KEY("blv.{}.suffix")
def routingKey (roomId : UInt32) (suffix : String) : Serializing Unit :=
  write fun borrowed =>
    { borrowed with routingKey := formatKey (routingKeyText roomId suffix) borrowed.routingKey }

def convertGuardLevel (level : Int) : GuardLevel :=
  if level = 1 then .level3
  else if level = 2 then .level2
  else if level = 3 then .level1
  else .noGuard

def convertLiveVipLevel (vip svip : Int) : LiveVipLevel :=
  if svip = 1 then .yearlyVip
  else if vip = 1 then .monthlyVip
  else .noVip

def isSpace (byte : UInt8) : Bool := byte = 32 || (9 ≤ byte && byte ≤ 13)

def digitValue (byte : UInt8) : Nat :=
  if 48 ≤ byte ∧ byte ≤ 57 then byte.toNat - 48
  else if 65 ≤ byte ∧ byte ≤ 90 then byte.toNat - 55
  else if 97 ≤ byte ∧ byte ≤ 122 then byte.toNat - 87
  else 36

def readDigits (base : Nat) : Nat → Bytes → Nat
  | value, [] => value
  | value, byte :: rest =>
      if digitValue byte < base then readDigits base (value * base + digitValue byte) rest else value

def skipHexMark (base : Nat) : Bytes → Bytes
  | 48 :: 120 :: rest => if base = 16 then rest else 48 :: 120 :: rest
  | 48 :: 88 :: rest => if base = 16 then rest else 48 :: 88 :: rest
  | text => text

-- std::strtoul and std::strtoull, of 64 bits. What overflows is the largest
-- number, and a minus sign negates modulo 2⁶⁴.
def strtoul (text : Bytes) (base : Nat) : Nat :=
  match text.dropWhile isSpace with
  | 45 :: rest =>
      let value := readDigits base 0 (skipHexMark base rest)
      if 18446744073709551616 ≤ value then 18446744073709551615
      else (18446744073709551616 - value) % 18446744073709551616
  | 43 :: rest => min (readDigits base 0 (skipHexMark base rest)) 18446744073709551615
  | rest => min (readDigits base 0 (skipHexMark base rest)) 18446744073709551615

def danmuMsgMedal (medalInfo : Json) : Serializing Unit := do
  onMedal id
  let medalName ← medalInfo.index 1
  check medalName.isString
  let medalName ← medalName.getString
  onMedal fun medal => { medal with medalName := some medalName }
  let medalLevel ← medalInfo.index 0
  check medalLevel.isUint
  let medalLevel ← medalLevel.getUint
  onMedal fun medal => { medal with medalLevel := some medalLevel }
  let medalColor ← medalInfo.index 4
  check medalColor.isUint
  let medalColor ← medalColor.getUint
  onMedal fun medal => { medal with medalColor := some medalColor }
  let streamerName ← medalInfo.index 2
  check streamerName.isString
  let streamerName ← streamerName.getString
  onMedal fun medal => { medal with streamerName := some streamerName }
  let streamerRoomid ← medalInfo.index 3
  check streamerRoomid.isUint
  let streamerRoomid ← streamerRoomid.getUint
  onMedal fun medal => { medal with streamerRoomid := some streamerRoomid }

def danmuMsgTitle (titleInfo : Json) : Serializing Unit := do
  let title ← titleInfo.index 1
  when title.isString do
    let title ← title.getString
    onUser fun user => { user with title := some title }

def cmdDanmuMsg (roomId : UInt32) (document : Json) : Serializing Unit := do
  routingKey roomId "danmaku"
  let info ← document.getMemberCheck "info" (·.isArrayOf 15)
  let basicInfo ← info.index 0
  check (basicInfo.isArrayOf 11)
  let userInfo ← info.index 2
  check (userInfo.isArrayOf 8)
  let medalInfo ← info.index 3
  let userLevelInfo ← info.index 4
  check (userLevelInfo.isArrayOf 4)
  let titleInfo ← info.index 5
  onUser id
  onDanmaku id
  let uid ← userInfo.index 0
  check uid.isUint64
  let uid ← uid.getUint64
  onUser fun user => { user with uid := some uid }
  let uname ← userInfo.index 1
  check uname.isString
  let uname ← uname.getString
  onUser fun user => { user with name := some uname }
  let admin ← userInfo.index 2
  check admin.isInt
  let admin ← admin.getInt
  onUser fun user => { user with admin := some (admin == 1) }
  let vip ← userInfo.index 3
  let svip ← userInfo.index 4
  check (vip.isInt && svip.isInt)
  let vip ← vip.getInt
  let svip ← svip.getInt
  onUser fun user => { user with liveVipLevel := some (convertLiveVipLevel vip svip) }
  let rank ← userInfo.index 5
  check rank.isNumber
  let rank ← rank.getInt
  onUser fun user =>
    if rank = 10000 then { user with regularUser := some true }
    else if rank = 5000 then { user with regularUser := some false }
    else user
  let phoneVerified ← userInfo.index 6
  check phoneVerified.isInt
  let phoneVerified ← phoneVerified.getInt
  onUser fun user => { user with phoneVerified := some (phoneVerified == 1) }
  let userLevel ← userLevelInfo.index 0
  check userLevel.isUint
  let userLevel ← userLevel.getUint
  onUser fun user => { user with userLevel := some userLevel }
  -- the border colour goes to set_user_level too
  let borderColor ← userLevelInfo.index 2
  check borderColor.isUint
  let borderColor ← borderColor.getUint
  onUser fun user => { user with userLevel := some borderColor }
  when (titleInfo.isArrayOf 2) (danmuMsgTitle titleInfo)
  when (medalInfo.isArrayOf 6) (danmuMsgMedal medalInfo)
  let messageContent ← info.index 1
  check messageContent.isString
  let messageContent ← messageContent.getString
  onDanmaku fun danmaku => { danmaku with message := some messageContent }
  let danmakuType ← basicInfo.index 9
  check danmakuType.isUint
  let danmakuType ← danmakuType.getUint
  onDanmaku fun danmaku =>
    if danmakuType = 0 then { danmaku with lotteryType := some .noLottery }
    else if danmakuType = 1 then { danmaku with lotteryType := some .storm }
    else if danmakuType = 2 then { danmaku with lotteryType := some .lottery }
    else danmaku
  let guardLevel ← info.index 7
  check guardLevel.isUint
  let guardLevel ← guardLevel.getInt
  onUser fun user => { user with guardLevel := some (convertGuardLevel guardLevel) }

def superChatMedal (medalInfo : Json) : Serializing Unit := do
  onMedal id
  let medalName ← (← medalInfo.getMemberCheck "medal_name" isString).getString
  onMedal fun medal => { medal with medalName := some medalName }
  let medalLevel ← (← medalInfo.getMemberCheck "medal_level" isUint).getUint
  onMedal fun medal => { medal with medalLevel := some medalLevel }
  let medalColor ← (← medalInfo.getMemberCheck "medal_color" isString).getString
  when (7 ≤ medalColor.length) do
    -- the leading '#' is not skipped
    onMedal fun medal => { medal with medalColor := some (strtoul medalColor 16) }
  let targetId ← (← medalInfo.getMemberCheck "target_id" isUint).getUint64
  onMedal fun medal => { medal with streamerUid := some targetId }
  let anchorUname ← (← medalInfo.getMemberCheck "anchor_uname" isString).getString
  onMedal fun medal => { medal with streamerName := some anchorUname }
  let anchorRoomid ← (← medalInfo.getMemberCheck "anchor_roomid" isUint).getUint
  onMedal fun medal => { medal with streamerRoomid := some anchorRoomid }

abbrev clearMedal : Serializing Unit := onUser fun user => { user with medal := none }

-- Only an object with a target_id is a medal.
def superChatMedalInfo : Option Json → Serializing Unit
  | none => clearMedal
  | some medalInfo =>
      if medalInfo.isObject && (medalInfo.member "target_id").isSome then superChatMedal medalInfo
      else clearMedal

def cmdSuperChatMessage (roomId : UInt32) (document : Json) : Serializing Unit := do
  routingKey roomId "sc"
  let data ← document.getMemberCheck "data" isObject
  let userInfo ← data.getMemberCheck "user_info" isObject
  onUser id
  onSuperChat id
  let uid ← (← data.getMemberCheck "uid" isInt64).getInt64
  onUser fun user => { user with uid := some uid }
  let uname ← (← userInfo.getMemberCheck "uname" isString).getString
  onUser fun user => { user with name := some uname }
  let manager ← (← userInfo.getMemberCheck "manager" isInt).getInt
  onUser fun user => { user with admin := some (manager == 1) }
  let isVip ← userInfo.getMemberCheck "is_vip" isInt
  let isSvip ← userInfo.getMemberCheck "is_svip" isInt
  let vip ← isVip.getInt
  let svip ← isSvip.getInt
  onUser fun user => { user with liveVipLevel := some (convertLiveVipLevel vip svip) }
  onUser fun user => { user with regularUser := some true, phoneVerified := some true }
  let userLevel ← (← userInfo.getMemberCheck "user_level" isUint).getUint
  onUser fun user => { user with userLevel := some userLevel }
  let levelColor ← (← userInfo.getMemberCheck "level_color" isString).getString
  when (7 ≤ levelColor.length) do
    onUser fun user => { user with userLevelBorderColor := some (strtoul (levelColor.drop 1) 16) }
  let title ← (← userInfo.getMemberCheck "title" isString).getString
  onUser fun user => { user with title := some (if cString title = ascii "0" then [] else title) }
  -- compared as a value, without a getter
  let isMainVip ← userInfo.getMemberCheck "is_main_vip" isInt
  onUser fun user => { user with mainVip := some (isMainVip.integerValue == 1) }
  let face ← (← userInfo.getMemberCheck "face" isString).getString
  onUser fun user => { user with avatarUrl := some face }
  let guardLevel ← (← userInfo.getMemberCheck "guard_level" isUint).getInt
  onUser fun user => { user with guardLevel := some (convertGuardLevel guardLevel) }
  superChatMedalInfo (← data.findMember "medal_info")
  let id ← (← data.getMemberCheck "id" isString).getString
  onSuperChat fun chat => { chat with id := some (strtoul id 10) }
  let content ← data.findMember "message"
  check content.isSome
  let content ← (← read content).getString
  onSuperChat fun chat => { chat with message := some content }
  let price ← (← data.getMemberCheck "price" isInt).getUint
  onSuperChat fun chat => { chat with priceCny := some price }
  let rate ← (← data.getMemberCheck "rate" isUint).getUint
  onSuperChat fun chat => { chat with priceCoin := some (price * rate % 4294967296) }
  let token ← (← data.getMemberCheck "token" isString).getString
  onSuperChat fun chat => { chat with token := some token }
  let time ← (← data.getMemberCheck "time" isUint).getUint
  onSuperChat fun chat => { chat with lastingTimeSec := some time }
  let startTime ← data.getMemberCheck "start_time" isUint64
  let start ← startTime.getUint64
  onSuperChat fun chat => { chat with startTime := some start }
  -- the check of end_time looks at start_time, and what it sets is the start
  let endTime ← data.getMemberCheck "end_time" fun _ => startTime.isUint64
  let endTime ← endTime.getUint64
  onSuperChat fun chat => { chat with startTime := some endTime }

def cmdSendGift (roomId : UInt32) (document : Json) : Serializing Unit := do
  routingKey roomId "gift"
  let data ← document.getMemberCheck "data" isObject
  onUser id
  onGift id
  let uid ← (← data.getMemberCheck "uid" isUint64).getUint64
  onUser fun user => { user with uid := some uid }
  let uname ← (← data.getMemberCheck "uname" isString).getString
  onUser fun user => { user with name := some uname }
  let face ← (← data.getMemberCheck "face" isString).getString
  onUser fun user => { user with avatarUrl := some face }
  let coinType ← (← data.getMemberCheck "coin_type" isString).getString
  onGift fun gift => { gift with isGold := some (cString coinType == ascii "gold") }
  let totalCoin ← (← data.getMemberCheck "total_coin" isUint).getUint
  onGift fun gift => { gift with totalCoin := some totalCoin }
  let price ← (← data.getMemberCheck "price" isUint).getUint
  onGift fun gift => { gift with singlePriceCoinRaw := some price }
  let giftId ← (← data.getMemberCheck "giftId" isUint).getUint
  onGift fun gift => { gift with giftId := some giftId }
  let giftName ← (← data.getMemberCheck "giftName" isString).getString
  onGift fun gift => { gift with giftName := some giftName }
  let num ← (← data.getMemberCheck "num" isUint).getUint
  onGift fun gift => { gift with count := some num }

def cmdUserToastMsg (roomId : UInt32) (document : Json) : Serializing Unit := do
  routingKey roomId "new_guard"
  let data ← document.getMemberCheck "data" isObject
  onUser id
  onNewGuard id
  let uid ← (← data.getMemberCheck "uid" isUint64).getUint64
  onUser fun user => { user with uid := some uid }
  let username ← (← data.getMemberCheck "username" isString).getString
  onUser fun user => { user with name := some username }
  let guardLevel ← (← data.getMemberCheck "guard_level" isInt).getInt
  let guardLevelConverted := convertGuardLevel guardLevel
  onUser fun user => { user with guardLevel := some guardLevelConverted }
  onNewGuard fun guard => { guard with level := some guardLevelConverted }
  onUser fun user => { user with phoneVerified := some true, regularUser := some true }
  let opType ← (← data.getMemberCheck "op_type" isInt).getInt
  onNewGuard fun guard =>
    if opType = 1 then { guard with buyType := some .buy }
    else if opType = 2 then { guard with buyType := some .renew }
    else guard
  let unit ← (← data.getMemberCheck "unit" isString).getString
  onNewGuard fun guard =>
    if cString unit = [0xe6, 0x9c, 0x88] then { guard with durationLevel := some .monthlyGuard }
    else if cString unit = [0xe5, 0x91, 0xa8] then { guard with durationLevel := some .weeklyGuard }
    else guard
  let num ← (← data.getMemberCheck "num" isInt).getInt
  onNewGuard fun guard => { guard with count := some num }
  let price ← (← data.getMemberCheck "price" isUint).getUint
  onNewGuard fun guard => { guard with totalCoin := some price }

def cmdWelcome (roomId : UInt32) (document : Json) : Serializing Unit := do
  routingKey roomId "welcome_vip"
  let data ← document.getMemberCheck "data" isObject
  onUser id
  onUserMessage fun message => { message with welcomeVip := some (message.welcomeVip.getD {}) }
  let uid ← (← data.getMemberCheck "uid" isUint64).getUint64
  onUser fun user => { user with uid := some uid }
  let uname ← (← data.getMemberCheck "uname" isString).getString
  onUser fun user => { user with name := some uname }
  let isAdmin ← (← data.getMemberCheck "is_admin" isBool).getBool
  onUser fun user => { user with admin := some isAdmin }
  let vip ← data.getMemberCheck "vip" isInt
  let svip ← data.getMemberCheck "svip" isInt
  let vip ← vip.getInt
  let svip ← svip.getInt
  onUserMessage fun message =>
    { message with welcomeVip := some { level := some (convertLiveVipLevel vip svip) } }

def cmdWelcomeGuard (roomId : UInt32) (document : Json) : Serializing Unit := do
  routingKey roomId "welcome_guard"
  let data ← document.getMemberCheck "data" isObject
  onUser id
  onUserMessage fun message => { message with welcomeGuard := some (message.welcomeGuard.getD {}) }
  let uid ← (← data.getMemberCheck "uid" isUint64).getUint64
  onUser fun user => { user with uid := some uid }
  let username ← (← data.getMemberCheck "username" isString).getString
  onUser fun user => { user with name := some username }
  let guardLevel ← (← data.getMemberCheck "guard_level" isInt).getInt
  onUserMessage fun message =>
    { message with welcomeGuard := some { level := some (convertGuardLevel guardLevel) } }

-- The uid is a string of hexadecimal digits or a number.
def userBlockedUid (uid : Json) : Serializing Unit :=
  if uid.isString then do
    let uid ← uid.getString
    onUser fun user => { user with uid := some (strtoul uid 16) }
  else if uid.isUint64 then do
    let uid ← uid.getUint64
    onUser fun user => { user with uid := some uid }
  else check false

def cmdRoomBlockMsg (roomId : UInt32) (document : Json) : Serializing Unit := do
  routingKey roomId "user_blocked"
  onUser id
  onUserMessage fun message => { message with userBlocked := true }
  let uid ← document.findMember "uid"
  check uid.isSome
  userBlockedUid (← read uid)
  let uname ← (← document.getMemberCheck "uname" isString).getString
  onUser fun user => { user with name := some uname }

def cmdLiveStatus (status : LiveStatus) (roomId : UInt32) : Serializing Unit := do
  routingKey roomId "live_status"
  onLiveStatus fun live => { live with status := some status }

def cmdLive (roomId : UInt32) (_document : Json) : Serializing Unit := cmdLiveStatus .live roomId

def cmdPreparing (roomId : UInt32) (_document : Json) : Serializing Unit := cmdLiveStatus .preparing roomId

def cmdRound (roomId : UInt32) (_document : Json) : Serializing Unit := cmdLiveStatus .round roomId

def cmdCutOff (roomId : UInt32) (document : Json) : Serializing Unit := do
  routingKey roomId "live_status"
  onLiveStatus fun live => { live with status := some .cutOff }
  -- the member is read when it is not there
  let msg ← document.findMember "msg"
  when msg.isNone do
    let msg ← (← read msg).getString
    onLiveStatus fun live => { live with message := some msg }

def cmdRoomChange (roomId : UInt32) (document : Json) : Serializing Unit := do
  routingKey roomId "room_info"
  onBaseInfo id
  let data ← document.getMemberCheck "data" isObject
  let title ← (← data.getMemberCheck "title" isString).getString
  onBaseInfo fun info => { info with title := some title }
  let areaId ← (← data.getMemberCheck "area_id" isUint).getUint
  onBaseInfo fun info => { info with areaId := some areaId }
  let areaName ← (← data.getMemberCheck "area_name" isString).getString
  onBaseInfo fun info => { info with areaName := some areaName }
  let parentAreaId ← (← data.getMemberCheck "parent_area_id" isUint).getUint
  onBaseInfo fun info => { info with parentAreaId := some parentAreaId }
  let parentAreaName ← (← data.getMemberCheck "parent_area_name" isString).getString
  onBaseInfo fun info => { info with parentAreaName := some parentAreaName }

def cmdChangeRoomInfo (roomId : UInt32) (document : Json) : Serializing Unit := do
  routingKey roomId "room_info"
  onInfoChange id
  let background ← (← document.getMemberCheck "background" isString).getString
  onInfoChange fun info => { info with backgroundUrl := some background }

def cmdRoomSkinMsg (roomId : UInt32) (document : Json) : Serializing Unit := do
  routingKey roomId "room_info"
  onInfoChange id
  let skinId ← (← document.getMemberCheck "skin_id" isUint).getUint
  onInfoChange fun info => { info with skinId := some skinId }

-- The elements that are unsigned numbers of 64 bits. The others are left out.
def addUint64s (add : Int → Serializing Unit) : List Json → Serializing Unit
  | [] => pure ()
  | elem :: rest => do
      when elem.isUint64 do
        add (← elem.getUint64)
      addUint64s add rest

def cmdRoomAdmins (roomId : UInt32) (document : Json) : Serializing Unit := do
  routingKey roomId "room_info"
  onInfoChange fun info => { info with admin := some (info.admin.getD []) }
  let uids ← (← document.getMemberCheck "uids" isArray).getArray
  addUint64s (fun uid => onInfoChange fun info =>
    { info with admin := some (info.admin.getD [] ++ [uid]) }) uids

-- `timestamp` is what std::get_time and std::mktime make of a date in the local
-- time zone.
def cmdRoomLock (timestamp : Bytes → Option Int) (roomId : UInt32) (document : Json) :
    Serializing Unit := do
  routingKey roomId "room_locked"
  onMessage fun message => { message with roomLocked := some (message.roomLocked.getD none) }
  let expire ← (← document.getMemberCheck "expire" isString).getString
  when (timestamp (cString expire)).isSome do
    onMessage fun message => { message with roomLocked := some (timestamp (cString expire)) }

def cmdWarning (roomId : UInt32) (document : Json) : Serializing Unit := do
  routingKey roomId "room_warning"
  onMessage fun message => { message with roomWarning := some (message.roomWarning.getD none) }
  let msg ← (← document.getMemberCheck "msg" isString).getString
  onMessage fun message => { message with roomWarning := some (some msg) }

def cmdRoomLimit (roomId : UInt32) (document : Json) : Serializing Unit := do
  routingKey roomId "room_limited"
  onRoomLimited id
  let type ← (← document.getMemberCheck "type" isString).getString
  onRoomLimited fun limited => { limited with type := some type }
  let delayRange ← (← document.getMemberCheck "delay_range" isUint).getUint
  onRoomLimited fun limited => { limited with delayRange := some delayRange }

def cmdSuperChatMessageDelete (roomId : UInt32) (document : Json) : Serializing Unit := do
  routingKey roomId "sc_delete"
  onSuperchatDelete id
  let data ← document.getMemberCheck "data" isObject
  let ids ← (← data.getMemberCheck "ids" isArray).getArray
  addUint64s (fun id => onSuperchatDelete fun ids => ids ++ [id]) ids

inductive Command
  | danmuMsg
  | superChatMessage
  | sendGift
  | userToastMsg
  | welcome
  | welcomeGuard
  | roomBlockMsg
  | live
  | preparing
  | round
  | cutOff
  | roomChange
  | changeRoomInfo
  | roomSkinMsg
  | roomAdmins
  | roomLock
  | warning
  | roomLimit
  | superChatMessageDelete
  deriving DecidableEq, Repr

def Command.handler (timestamp : Bytes → Option Int) : Command → UInt32 → Json → Serializing Unit
  | .danmuMsg => cmdDanmuMsg
  | .superChatMessage => cmdSuperChatMessage
  | .sendGift => cmdSendGift
  | .userToastMsg => cmdUserToastMsg
  | .welcome => cmdWelcome
  | .welcomeGuard => cmdWelcomeGuard
  | .roomBlockMsg => cmdRoomBlockMsg
  | .live => cmdLive
  | .preparing => cmdPreparing
  | .round => cmdRound
  | .cutOff => cmdCutOff
  | .roomChange => cmdRoomChange
  | .changeRoomInfo => cmdChangeRoomInfo
  | .roomSkinMsg => cmdRoomSkinMsg
  | .roomAdmins => cmdRoomAdmins
  | .roomLock => cmdRoomLock timestamp
  | .warning => cmdWarning
  | .roomLimit => cmdRoomLimit
  | .superChatMessageDelete => cmdSuperChatMessageDelete

-- The handlers under the names that the documents give in cmd.
def command : List (Bytes × Command) :=
  [(ascii "DANMU_MSG", .danmuMsg), (ascii "SUPER_CHAT_MESSAGE", .superChatMessage),
    (ascii "SEND_GIFT", .sendGift), (ascii "USER_TOAST_MSG", .userToastMsg),
    (ascii "WELCOME", .welcome), (ascii "WELCOME_GUARD", .welcomeGuard),
    (ascii "ROOM_BLOCK_MSG", .roomBlockMsg), (ascii "LIVE", .live),
    (ascii "PREPARING", .preparing), (ascii "ROUND", .round), (ascii "CUT_OFF", .cutOff),
    (ascii "ROOM_CHANGE", .roomChange), (ascii "CHANGE_ROOM_INFO", .changeRoomInfo),
    (ascii "ROOM_SKIN_MSG", .roomSkinMsg), (ascii "ROOM_ADMINS", .roomAdmins),
    (ascii "ROOM_LOCK", .roomLock), (ascii "WARNING", .warning),
    (ascii "ROOM_LIMIT", .roomLimit), (ascii "SUPER_CHAT_MESSAGE_DELETE", .superChatMessageDelete)]

-- CRC::Calculate with the parameters of CRC_32. The polynomial 0x04C11DB7 is
-- reflected.
def crcBit (remainder : UInt32) : UInt32 := (remainder >>> 1) ^^^ ((remainder &&& 1) * 0xEDB88320)

def crcTable (byte : UInt8) : UInt32 := Nat.repeat crcBit 8 byte.toUInt32

def crcByte (remainder : UInt32) (byte : UInt8) : UInt32 :=
  (remainder >>> 8) ^^^ crcTable (remainder.toUInt8 ^^^ byte)

def crc32 (buf : Bytes) : UInt32 := buf.foldl crcByte 0xFFFFFFFF ^^^ 0xFFFFFFFF

example : crc32 (ascii "123456789") = 0xCBF43926 := by decide

-- What the serializer uses of other libraries: the JSON parser, the dates of
-- the local time zone, and the wire format of a message.
structure Libraries where
  parseInsitu : Bytes → Option Json
  timestamp : Bytes → Option Int
  serializeToArray : RoomMessage → { payload : Bytes // payload.length < 2147483648 }

-- What is done with the parsed document. A rejected message is a nullptr.
def serializeDocument (timestamp : Bytes → Option Int) (document : Option Json) (roomId : UInt32) :
    Serializing Unit := do
  check document.isSome
  let document ← read document
  check document.isObject
  onMessage fun message => { message with roomId := some roomId }
  let cmd ← document.findMember "cmd"
  check (cmd.any isString)
  let cmd ← (← read cmd).getString
  let handler := command.lookup cmd
  check handler.isSome
  let handler ← read handler
  handler.handler timestamp roomId document

def serialize (libraries : Libraries) (buf : Bytes) (roomId : UInt32) : Serializing Unit := do
  onMessage fun _ => {}
  write fun borrowed => { borrowed with crc32 := (crc32 buf).toInt32 }
  serializeDocument libraries.timestamp (libraries.parseInsitu buf) roomId

def serializePopularity (popularity : Int) (roomId : UInt32) : Serializing Unit := do
  write fun borrowed => { borrowed with crc32 := 0 }
  routingKey roomId "online"
  onMessage fun _ => {}
  onMessage fun message => { message with popularityChange := some (some popularity) }
  onMessage fun message => { message with roomId := some roomId }

section Closed

variable {holds : ∀ {α : Type}, Serializing α → Prop}

theorem closed_danmuMsgTitle (h : Closed holds)
    (hset : ∀ title, holds (onUser fun user => { user with title := some title })) (titleInfo : Json) :
    holds (danmuMsgTitle titleInfo) :=
  h.bind (h.quiet rfl) fun _ => h.when (h.bind (h.quiet rfl) hset)

theorem closed_danmuMsgMedal (h : Closed holds) (honMedal : ∀ change, holds (onMedal change))
    (medalInfo : Json) : holds (danmuMsgMedal medalInfo) := by
  unfold danmuMsgMedal
  repeat' first
    | with_reducible exact honMedal _
    | with_reducible refine h.bind ?_ fun _ => ?_
    | exact h.quiet rfl

theorem closed_superChatMedal (h : Closed holds) (honMedal : ∀ change, holds (onMedal change))
    (medalInfo : Json) : holds (superChatMedal medalInfo) := by
  unfold superChatMedal
  repeat' first
    | with_reducible exact honMedal _
    | with_reducible exact closed_getMemberCheck h _ _ _
    | with_reducible refine h.when ?_
    | with_reducible refine h.bind ?_ fun _ => ?_
    | exact h.quiet rfl

theorem closed_superChatMedalInfo (h : Closed holds)
    (hset : ∀ change : Option MedalInfo → Option MedalInfo,
      holds (onUser fun user => { user with medal := change user.medal })) (found : Option Json) :
    holds (superChatMedalInfo found) := by
  unfold superChatMedalInfo
  split
  · exact hset fun _ => none
  · split
    · exact closed_superChatMedal h (fun change => hset fun medal => some (change (medal.getD {}))) _
    · exact hset fun _ => none

theorem closed_userBlockedUid (h : Closed holds)
    (hset : ∀ uid, holds (onUser fun user => { user with uid := some uid })) (uid : Json) :
    holds (userBlockedUid uid) := by
  unfold userBlockedUid
  split
  · exact h.bind (h.quiet rfl) fun _ => hset _
  · split
    · exact h.bind (h.quiet rfl) fun _ => hset _
    · exact h.quiet rfl

theorem closed_addUint64s (h : Closed holds) {add : Int → Serializing Unit} (hadd : ∀ n, holds (add n))
    (elements : List Json) : holds (addUint64s add elements) := by
  induction elements with
  | nil => exact h.quiet rfl
  | cons elem rest ih => exact h.bind (h.when (h.bind (h.quiet rfl) hadd)) fun _ => ih

end Closed

end LiveReceptor.Worker

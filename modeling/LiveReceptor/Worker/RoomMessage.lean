import LiveReceptor.Library.Memory
import LiveReceptor.Library.Handler
import LiveReceptor.Shared.SimpleWorkerProto

namespace LiveReceptor.Worker

open SimpleWorkerProto Memory Handler

inductive GuardLevel
  | noGuard
  | level1
  | level2
  | level3
  deriving DecidableEq, Repr

inductive LiveVipLevel
  | noVip
  | monthlyVip
  | yearlyVip
  deriving DecidableEq, Repr

inductive LotteryDanmakuType
  | noLottery
  | storm
  | lottery
  deriving DecidableEq, Repr

inductive GuardBuyType
  | buy
  | renew
  deriving DecidableEq, Repr

inductive GuardDurationLevel
  | monthlyGuard
  | weeklyGuard
  deriving DecidableEq, Repr

inductive LiveStatus
  | live
  | preparing
  | round
  | cutOff
  deriving DecidableEq, Repr

-- A field is `none` until it is set. Numbers are what the setter was given.
structure MedalInfo where
  medalName : Option Bytes := none
  medalLevel : Option Int := none
  medalColor : Option Int := none
  streamerUid : Option Int := none
  streamerName : Option Bytes := none
  streamerRoomid : Option Int := none
  deriving DecidableEq, Repr

structure UserInfo where
  uid : Option Int := none
  name : Option Bytes := none
  admin : Option Bool := none
  liveVipLevel : Option LiveVipLevel := none
  regularUser : Option Bool := none
  phoneVerified : Option Bool := none
  userLevel : Option Int := none
  userLevelBorderColor : Option Int := none
  title : Option Bytes := none
  mainVip : Option Bool := none
  avatarUrl : Option Bytes := none
  guardLevel : Option GuardLevel := none
  medal : Option MedalInfo := none
  deriving DecidableEq, Repr

structure Danmaku where
  message : Option Bytes := none
  lotteryType : Option LotteryDanmakuType := none
  deriving DecidableEq, Repr

structure SuperChat where
  id : Option Int := none
  message : Option Bytes := none
  priceCny : Option Int := none
  priceCoin : Option Int := none
  token : Option Bytes := none
  lastingTimeSec : Option Int := none
  startTime : Option Int := none
  endTime : Option Int := none
  deriving DecidableEq, Repr

structure Gift where
  isGold : Option Bool := none
  totalCoin : Option Int := none
  singlePriceCoinRaw : Option Int := none
  giftId : Option Int := none
  giftName : Option Bytes := none
  count : Option Int := none
  deriving DecidableEq, Repr

structure NewGuard where
  level : Option GuardLevel := none
  buyType : Option GuardBuyType := none
  durationLevel : Option GuardDurationLevel := none
  count : Option Int := none
  totalCoin : Option Int := none
  deriving DecidableEq, Repr

structure WelcomeVip where
  level : Option LiveVipLevel := none
  deriving DecidableEq, Repr

structure WelcomeGuard where
  level : Option GuardLevel := none
  deriving DecidableEq, Repr

structure UserMessage where
  user : Option UserInfo := none
  danmaku : Option Danmaku := none
  superChat : Option SuperChat := none
  gift : Option Gift := none
  newGuard : Option NewGuard := none
  welcomeVip : Option WelcomeVip := none
  welcomeGuard : Option WelcomeGuard := none
  userBlocked : Bool := false
  deriving DecidableEq, Repr

structure LiveStatusMessage where
  status : Option LiveStatus := none
  message : Option Bytes := none
  deriving DecidableEq, Repr

structure BaseInfo where
  title : Option Bytes := none
  areaId : Option Int := none
  areaName : Option Bytes := none
  parentAreaId : Option Int := none
  parentAreaName : Option Bytes := none
  deriving DecidableEq, Repr

structure InfoChange where
  baseInfo : Option BaseInfo := none
  backgroundUrl : Option Bytes := none
  skinId : Option Int := none
  admin : Option (List Int) := none
  deriving DecidableEq, Repr

structure RoomLimited where
  type : Option Bytes := none
  delayRange : Option Int := none
  deriving DecidableEq, Repr

-- The messages of one field stand for it: `room_locked` for `locked_until`,
-- `room_warning` for `message`, `superchat_delete` for `id` and
-- `popularity_change` for `popularity`.
structure RoomMessage where
  roomId : Option UInt32 := none
  userMessage : Option UserMessage := none
  liveStatus : Option LiveStatusMessage := none
  infoChange : Option InfoChange := none
  roomLocked : Option (Option Int) := none
  roomWarning : Option (Option Bytes) := none
  roomLimited : Option RoomLimited := none
  superchatDelete : Option (List Int) := none
  popularityChange : Option (Option Int) := none
  deriving DecidableEq, Repr

structure BorrowedBilibiliMessage where
  crc32 : Int32
  routingKey : Allocation UInt8 routingKeyMaxSize
  message : RoomMessage
  deriving DecidableEq, Repr

abbrev Serializing := Handler BorrowedBilibiliMessage

abbrev onMessage (change : RoomMessage → RoomMessage) : Serializing Unit :=
  write fun borrowed => { borrowed with message := change borrowed.message }

-- mutable_user_message() and what is set through the pointer.
abbrev onUserMessage (change : UserMessage → UserMessage) : Serializing Unit :=
  onMessage fun message => { message with userMessage := some (change (message.userMessage.getD {})) }

abbrev onUser (change : UserInfo → UserInfo) : Serializing Unit :=
  onUserMessage fun message => { message with user := some (change (message.user.getD {})) }

abbrev onMedal (change : MedalInfo → MedalInfo) : Serializing Unit :=
  onUser fun user => { user with medal := some (change (user.medal.getD {})) }

abbrev onDanmaku (change : Danmaku → Danmaku) : Serializing Unit :=
  onUserMessage fun message => { message with danmaku := some (change (message.danmaku.getD {})) }

abbrev onSuperChat (change : SuperChat → SuperChat) : Serializing Unit :=
  onUserMessage fun message => { message with superChat := some (change (message.superChat.getD {})) }

abbrev onGift (change : Gift → Gift) : Serializing Unit :=
  onUserMessage fun message => { message with gift := some (change (message.gift.getD {})) }

abbrev onNewGuard (change : NewGuard → NewGuard) : Serializing Unit :=
  onUserMessage fun message => { message with newGuard := some (change (message.newGuard.getD {})) }

abbrev onLiveStatus (change : LiveStatusMessage → LiveStatusMessage) : Serializing Unit :=
  onMessage fun message => { message with liveStatus := some (change (message.liveStatus.getD {})) }

abbrev onInfoChange (change : InfoChange → InfoChange) : Serializing Unit :=
  onMessage fun message => { message with infoChange := some (change (message.infoChange.getD {})) }

abbrev onBaseInfo (change : BaseInfo → BaseInfo) : Serializing Unit :=
  onInfoChange fun info => { info with baseInfo := some (change (info.baseInfo.getD {})) }

abbrev onRoomLimited (change : RoomLimited → RoomLimited) : Serializing Unit :=
  onMessage fun message => { message with roomLimited := some (change (message.roomLimited.getD {})) }

abbrev onSuperchatDelete (change : List Int → List Int) : Serializing Unit :=
  onMessage fun message =>
    { message with superchatDelete := some (change (message.superchatDelete.getD [])) }

end LiveReceptor.Worker

import LiveReceptor.Worker.BiliJson

-- Which member of a document gets into which field of the message.
namespace LiveReceptor.Worker

open SimpleWorkerProto Handler Json

-- A message within that was never made reads as an empty one.
abbrev RoomMessage.user (message : RoomMessage) : UserInfo := (message.userMessage.getD {}).user.getD {}

abbrev RoomMessage.chat (message : RoomMessage) : SuperChat := (message.userMessage.getD {}).superChat.getD {}

abbrev RoomMessage.status (message : RoomMessage) : LiveStatusMessage := message.liveStatus.getD {}

abbrev Mapper := UInt32 → Json → Serializing Unit

-- What a handler makes of the message that serialize hands to it.
def messageOf (context : BorrowedBilibiliMessage) (mapper : Mapper) (roomId : UInt32) (document : Json) :
    RoomMessage :=
  ((mapper roomId document).writes { context with message := { roomId := some roomId } }).message

-- No other member of the document has a say in the field.
def OnlyFrom {α β : Type} (context : BorrowedBilibiliMessage) (mapper : Mapper) (roomId : UInt32)
    (field : RoomMessage → α) (source : Json → β) (document : Json) : Prop :=
  ∀ other, (mapper roomId other).Returns () → source other = source document →
    field (messageOf context mapper roomId other) = field (messageOf context mapper roomId document)

-- What the field gets is a function of the one member.
theorem onlyFrom_of_eq {α β : Type} {context : BorrowedBilibiliMessage} {mapper : Mapper} {roomId : UInt32}
    {field : RoomMessage → α} {source : Json → β} {document : Json} (value : β → α)
    (hvalue : ∀ document, (mapper roomId document).Returns () →
      field (messageOf context mapper roomId document) = value (source document))
    (h : (mapper roomId document).Returns ()) : OnlyFrom context mapper roomId field source document := by
  intro other hother hsame
  rw [hvalue other hother, hvalue document h, hsame]

-- What one write makes of the parts that are asked for below.
section Parts

variable {s : BorrowedBilibiliMessage} {onInfo : UserInfo → UserInfo} {onText : Danmaku → Danmaku}
  {onChat : SuperChat → SuperChat} {onBadge : MedalInfo → MedalInfo}
  {roomId : UInt32} {suffix : String} {condition : Bool}

theorem message_routingKey : ((routingKey roomId suffix).writes s).message = s.message := rfl

theorem user_onUser : ((onUser onInfo).writes s).message.user = onInfo s.message.user := rfl

theorem user_onDanmaku : ((onDanmaku onText).writes s).message.user = s.message.user := rfl

theorem user_onSuperChat : ((onSuperChat onChat).writes s).message.user = s.message.user := rfl

theorem chat_onUser : ((onUser onInfo).writes s).message.chat = s.message.chat := rfl

theorem chat_when_onUser : ((when condition (onUser onInfo)).writes s).message.chat = s.message.chat := by
  cases condition <;> rfl

theorem chat_onSuperChat : ((onSuperChat onChat).writes s).message.chat = onChat s.message.chat := rfl

theorem medal_onMedal : ((onMedal onBadge).writes s).message.user.medal =
    some (onBadge (s.message.user.medal.getD {})) := rfl

end Parts

section DanmuMsg

variable {roomId : UInt32} {document : Json} {borrowed : BorrowedBilibiliMessage}

theorem user_danmuMsgTitle {α : Type} (field : UserInfo → α)
    (h : ∀ user title, field { user with title := title } = field user) (condition : Bool)
    (titleInfo : Json) (s : BorrowedBilibiliMessage) :
    field ((when condition (danmuMsgTitle titleInfo)).writes s).message.user = field s.message.user := by
  have hclosed := closed_keeps fun borrowed : BorrowedBilibiliMessage => field borrowed.message.user
  exact hclosed.when (closed_danmuMsgTitle hclosed (fun _ _ => h _ _) titleInfo) s

theorem user_danmuMsgMedal {α : Type} (field : UserInfo → α)
    (h : ∀ user medal, field { user with medal := medal } = field user) (condition : Bool)
    (medalInfo : Json) (s : BorrowedBilibiliMessage) :
    field ((when condition (danmuMsgMedal medalInfo)).writes s).message.user = field s.message.user := by
  have hclosed := closed_keeps fun borrowed : BorrowedBilibiliMessage => field borrowed.message.user
  exact hclosed.when (closed_danmuMsgMedal hclosed (fun _ _ => h _ _) medalInfo) s

-- The colour overwrites the level that has been set before.
theorem leaves_cmdDanmuMsg : (cmdDanmuMsg roomId document).Leaves (fun after =>
    after.message.user.userLevel = some (((document.field "info").place 4).place 2).integerValue ∧
      after.message.user.userLevelBorderColor = borrowed.message.user.userLevelBorderColor) borrowed := by
  simp only [cmdDanmuMsg, leaves_getMemberCheck_bind, leaves_index_bind, leaves_getTyped_bind, leaves_seq,
    leaves_last]
  intros
  simp only [user_onUser, user_onDanmaku, writes_check, message_routingKey,
    user_danmuMsgTitle UserInfo.userLevel fun _ _ => rfl,
    user_danmuMsgTitle UserInfo.userLevelBorderColor fun _ _ => rfl,
    user_danmuMsgMedal UserInfo.userLevel fun _ _ => rfl,
    user_danmuMsgMedal UserInfo.userLevelBorderColor fun _ _ => rfl,
    apply_ite UserInfo.userLevelBorderColor, ite_self, id, and_self]

end DanmuMsg

section SuperChatMessage

variable {roomId : UInt32} {document : Json} {borrowed : BorrowedBilibiliMessage}

theorem leaves_superChatMedal {medalInfo : Json}
    (hlong : 7 ≤ (medalInfo.field "medal_color").stringValue.length) :
    (superChatMedal medalInfo).Leaves (fun after => (after.message.user.medal.getD {}).medalColor =
      some ((strtoul (medalInfo.field "medal_color").stringValue 16 : Nat) : Int)) borrowed := by
  simp only [superChatMedal, leaves_getMemberCheck_bind, leaves_getTyped_bind, leaves_seq, leaves_last,
    Handler.when, hlong, decide_true, if_true]
  intros
  simp only [medal_onMedal, Option.getD_some]

theorem kept_superChatMedalInfo {α : Type} (field : UserMessage → α)
    (h : ∀ message medal, field { message with user := some { message.user.getD {} with medal := medal } } =
      field message) (found : Option Json) (s : BorrowedBilibiliMessage) :
    field (((superChatMedalInfo found).writes s).message.userMessage.getD {}) =
      field (s.message.userMessage.getD {}) :=
  closed_superChatMedalInfo
    (closed_keeps fun borrowed : BorrowedBilibiliMessage => field (borrowed.message.userMessage.getD {}))
    (fun _ _ => h _ _) found s

-- The end overwrites the start that has been set before, and the '#' in front of the
-- colour of the medal is read as well, so no digit is.
theorem leaves_cmdSuperChatMessage : (cmdSuperChatMessage roomId document).Leaves (fun after =>
    after.message.chat.startTime = some ((document.field "data").field "end_time").integerValue ∧
      after.message.chat.endTime = borrowed.message.chat.endTime ∧
      (7 ≤ (((document.field "data").field "user_info").field "level_color").stringValue.length →
        after.message.user.userLevelBorderColor = some ((strtoul
          ((((document.field "data").field "user_info").field "level_color").stringValue.drop 1) 16 : Nat) :
            Int)) ∧
      ∀ medalInfo, (document.field "data").member "medal_info" = some medalInfo →
        (medalInfo.isObject && (medalInfo.member "target_id").isSome) = true →
          7 ≤ (medalInfo.field "medal_color").stringValue.length →
            (after.message.user.medal.getD {}).medalColor =
              some ((strtoul (medalInfo.field "medal_color").stringValue 16 : Nat) : Int)) borrowed := by
  have hend : ∀ found (s : BorrowedBilibiliMessage),
      ((superChatMedalInfo found).writes s).message.chat.endTime = s.message.chat.endTime :=
    kept_superChatMedalInfo (fun message => (message.superChat.getD {}).endTime) fun _ _ => rfl
  have hcolour : ∀ found (s : BorrowedBilibiliMessage),
      ((superChatMedalInfo found).writes s).message.user.userLevelBorderColor =
        s.message.user.userLevelBorderColor :=
    kept_superChatMedalInfo (fun message => (message.user.getD {}).userLevelBorderColor) fun _ _ => rfl
  simp only [cmdSuperChatMessage, leaves_getMemberCheck_bind, leaves_findMember_bind, leaves_getTyped_bind,
    leaves_read_member_bind, leaves_seq, leaves_last]
  intros
  have hreturns : (superChatMedalInfo ((document.field "data").member "medal_info")).Returns () := ‹_›
  simp only [user_onUser, user_onSuperChat, chat_onUser, chat_onSuperChat, chat_when_onUser, writes_check,
    message_routingKey, hend, hcolour]
  refine ⟨trivial, rfl, fun hlong => ?_, fun medalInfo hmember hpresent hlong => ?_⟩
  · simp only [Handler.when, hlong, decide_true, if_true, user_onUser]
  · rw [hmember, superChatMedalInfo, if_pos hpresent] at hreturns ⊢
    exact leaves_superChatMedal hlong () hreturns

end SuperChatMessage

section Decimal

-- The bytes between '0' and '9'.
theorem toNat_of_digit {byte : UInt8} (h : 48 ≤ byte ∧ byte ≤ 57) : 48 ≤ byte.toNat ∧ byte.toNat ≤ 57 :=
  ⟨UInt8.le_iff_toNat_le.mp h.1, UInt8.le_iff_toNat_le.mp h.2⟩

theorem skipHexMark_of_digits {text : Bytes} (hdigits : ∀ byte ∈ text, 48 ≤ byte ∧ byte ≤ 57) :
    skipHexMark 16 text = text := by
  unfold skipHexMark
  split
  · exact absurd (hdigits 120 (by simp)).2 (by decide)
  · exact absurd (hdigits 88 (by simp)).2 (by decide)
  · rfl

-- There is nothing to skip in front of digits, and no sign.
theorem strtoul_of_digits {text : Bytes} (hdigits : ∀ byte ∈ text, 48 ≤ byte ∧ byte ≤ 57) :
    strtoul text 16 = min (readDigits 16 0 text) 18446744073709551615 := by
  have hkept : text.dropWhile isSpace = text := by
    cases text with
    | nil => rfl
    | cons byte rest =>
        obtain ⟨hlow, hhigh⟩ := toNat_of_digit (hdigits byte List.mem_cons_self)
        refine List.dropWhile_cons_of_neg fun hspace => ?_
        simp only [isSpace, Bool.or_eq_true, Bool.and_eq_true, decide_eq_true_eq] at hspace
        rcases hspace with rfl | ⟨-, hbefore⟩
        · exact absurd hlow (by decide)
        · have hless : byte.toNat ≤ 13 := UInt8.le_iff_toNat_le.mp hbefore
          omega
  unfold strtoul
  rw [hkept]
  split
  · exact absurd (hdigits 45 List.mem_cons_self).1 (by decide)
  · exact absurd (hdigits 43 List.mem_cons_self).1 (by decide)
  · rw [skipHexMark_of_digits hdigits]

theorem digitValue_of_digit {byte : UInt8} (h : 48 ≤ byte ∧ byte ≤ 57) :
    digitValue byte = byte.toNat - 48 := if_pos h

theorem digitValue_digitChar {d : Nat} (h : d < 10) : digitValue (.ofNat d.digitChar.toNat) = d := by
  have hbyte : (UInt8.ofNat d.digitChar.toNat).toNat = 48 + d := by
    rw [Nat.toNat_digitChar_of_lt_ten h, UInt8.toNat_ofNat', Nat.mod_eq_of_lt (by omega)]
  rw [digitValue_of_digit, hbyte]
  · omega
  · have hlast : 48 + d ≤ 57 := by omega
    rw [UInt8.le_iff_toNat_le, UInt8.le_iff_toNat_le, hbyte]
    exact ⟨Nat.le_add_right 48 d, hlast⟩

theorem readDigits_append {base value : Nat} {text rest : Bytes}
    (hdigits : ∀ byte ∈ text, digitValue byte < base) :
    readDigits base value (text ++ rest) = readDigits base (readDigits base value text) rest := by
  induction text generalizing value with
  | nil => rfl
  | cons byte text ih =>
      obtain ⟨hbyte, htext⟩ := List.forall_mem_cons.mp hdigits
      rw [List.cons_append, readDigits, readDigits, if_pos hbyte, if_pos hbyte, ih htext]

theorem readDigits_decimal_of_lt {n : Nat} (h : n < 10) : readDigits 16 0 (decimal n) = n := by
  rw [decimal, Nat.toDigits_of_lt_base h, List.map_singleton, readDigits, digitValue_digitChar h,
    if_pos (by omega), readDigits]
  omega

theorem readDigits_decimal_of_le {n : Nat} (h : 10 ≤ n) :
    readDigits 16 0 (decimal n) = readDigits 16 0 (decimal (n / 10)) * 16 + n % 10 := by
  have hlast : n % 10 < 10 := Nat.mod_lt n (by decide)
  have hsplit : decimal n = decimal (n / 10) ++ [.ofNat (n % 10).digitChar.toNat] := by
    rw [decimal, Nat.toDigits_of_base_le (by decide) h, List.map_append]
    rfl
  have hfront : ∀ byte ∈ decimal (n / 10), digitValue byte < 16 := by
    intro byte hbyte
    have hdigit := digits_decimal (n / 10) byte hbyte
    obtain ⟨hlow, hhigh⟩ := toNat_of_digit hdigit
    rw [digitValue_of_digit hdigit]
    omega
  rw [hsplit, readDigits_append hfront, readDigits, digitValue_digitChar hlast, if_pos (by omega), readDigits]

theorem le_readDigits_decimal (n : Nat) : n ≤ readDigits 16 0 (decimal n) := by
  induction n using Nat.strongRecOn with
  | ind n ih =>
      by_cases h : n < 10
      · exact Nat.le_of_eq (readDigits_decimal_of_lt h).symm
      · have hfront := ih (n / 10) (Nat.div_lt_self (by omega) (by decide))
        rw [readDigits_decimal_of_le (Nat.not_lt.mp h)]
        omega

-- Read with the base 16, a decimal number is a greater one, unless it has one
-- digit only or is the greatest one there is.
theorem strtoul_decimal_iff {n : Nat} (hn : n < 18446744073709551616) :
    strtoul (decimal n) 16 = n ↔ n < 10 ∨ n = 18446744073709551615 := by
  rw [strtoul_of_digits (digits_decimal n)]
  by_cases h : n < 10
  · rw [readDigits_decimal_of_lt h]
    omega
  · have hfront := le_readDigits_decimal (n / 10)
    rw [readDigits_decimal_of_le (Nat.not_lt.mp h)]
    omega

end Decimal

section RoomBlockMsg

variable {roomId : UInt32} {document : Json} {borrowed : BorrowedBilibiliMessage}

-- What becomes of a uid.
def blockedUid (uid : Json) : Int :=
  if uid.isString then ((strtoul uid.stringValue 16 : Nat) : Int) else uid.integerValue

theorem leaves_userBlockedUid (uid : Json) : (userBlockedUid uid).Leaves
    (fun after => after.message.user.uid = some (blockedUid uid)) borrowed := by
  unfold userBlockedUid blockedUid
  cases hstring : uid.isString with
  | true => exact leaves_getTyped_bind.mpr fun _ _ _ => rfl
  | false =>
      simp only [Bool.false_eq_true, if_false]
      split
      · exact leaves_getTyped_bind.mpr fun _ _ _ => rfl
      · intro result h
        cases h

theorem leaves_cmdRoomBlockMsg : (cmdRoomBlockMsg roomId document).Leaves (fun after =>
    after.message.user.uid = some (blockedUid (document.field "uid")) ∧
      after.message.user.name = some (document.field "uname").stringValue) borrowed := by
  simp only [cmdRoomBlockMsg, leaves_getMemberCheck_bind, leaves_findMember_bind, leaves_getTyped_bind,
    leaves_read_member_bind, leaves_seq, leaves_last]
  intros
  have huid : (userBlockedUid (document.field "uid")).Returns () := ‹_›
  exact ⟨leaves_userBlockedUid _ () huid, rfl⟩

end RoomBlockMsg

section CutOff

variable {context : BorrowedBilibiliMessage} {roomId : UInt32} {document : Json}

-- The text is set only when it is not there, and then it cannot be read.
theorem messageOf_cmdCutOff (h : (cmdCutOff roomId document).Returns ()) :
    messageOf context cmdCutOff roomId document =
      { roomId := some roomId, liveStatus := some { status := some .cutOff } } := by
  simp only [cmdCutOff, routingKey, returns_write_bind, findMember, returns_getTyped_bind, returns_when] at h
  obtain ⟨hobject, hpresent⟩ := h
  cases hmsg : document.member "msg" with
  | none =>
      rw [hmsg] at hpresent
      cases hpresent rfl
  | some msg =>
      simp only [messageOf, cmdCutOff, routingKey, writes_write_bind, findMember_bind hobject, hmsg]
      rfl

end CutOff

section Fidelity

variable {context : BorrowedBilibiliMessage} {roomId : UInt32} {document : Json}

structure DanmuMsgFaithful (context : BorrowedBilibiliMessage) (roomId : UInt32) (document : Json) : Prop where
  userLevel : (messageOf context cmdDanmuMsg roomId document).user.userLevel =
    some (((document.field "info").place 4).place 0).integerValue
  userLevelBorderColor : (messageOf context cmdDanmuMsg roomId document).user.userLevelBorderColor =
    some (((document.field "info").place 4).place 2).integerValue
  fromLevel : OnlyFrom context cmdDanmuMsg roomId (fun message => message.user.userLevel)
    (fun document => ((document.field "info").place 4).place 0) document
  fromColor : OnlyFrom context cmdDanmuMsg roomId (fun message => message.user.userLevelBorderColor)
    (fun document => ((document.field "info").place 4).place 2) document

-- A colour is the hexadecimal number behind a '#'.
structure SuperChatMessageFaithful (context : BorrowedBilibiliMessage) (roomId : UInt32) (document : Json) :
    Prop where
  startTime : (messageOf context cmdSuperChatMessage roomId document).chat.startTime =
    some ((document.field "data").field "start_time").integerValue
  endTime : (messageOf context cmdSuperChatMessage roomId document).chat.endTime =
    some ((document.field "data").field "end_time").integerValue
  userLevelBorderColor : ∀ colour, 6 ≤ colour.length →
    (((document.field "data").field "user_info").field "level_color").stringValue = 35 :: colour →
      (messageOf context cmdSuperChatMessage roomId document).user.userLevelBorderColor =
        some ((readDigits 16 0 colour : Nat) : Int)
  medalColor : ∀ medalInfo colour, 6 ≤ colour.length →
    (document.field "data").member "medal_info" = some medalInfo →
      (medalInfo.isObject && (medalInfo.member "target_id").isSome) = true →
        (medalInfo.field "medal_color").stringValue = 35 :: colour →
          ((messageOf context cmdSuperChatMessage roomId document).user.medal.getD {}).medalColor =
            some ((readDigits 16 0 colour : Nat) : Int)
  fromStart : OnlyFrom context cmdSuperChatMessage roomId (fun message => message.chat.startTime)
    (fun document => (document.field "data").field "start_time") document
  fromEnd : OnlyFrom context cmdSuperChatMessage roomId (fun message => message.chat.endTime)
    (fun document => (document.field "data").field "end_time") document
  fromLevelColor : OnlyFrom context cmdSuperChatMessage roomId
    (fun message => message.user.userLevelBorderColor)
    (fun document => ((document.field "data").field "user_info").field "level_color") document
  fromMedal : OnlyFrom context cmdSuperChatMessage roomId (fun message => message.user.medal)
    (fun document => (document.field "data").member "medal_info") document

-- An integer of 64 bits and its decimal digits.
inductive SameUid : Json → Json → Prop
  | digits (n : Nat) (hn : n < 18446744073709551616) : SameUid (integer n) (string (decimal n))
  | number (n : Nat) (hn : n < 18446744073709551616) : SameUid (string (decimal n)) (integer n)

structure RoomBlockMsgFaithful (context : BorrowedBilibiliMessage) (roomId : UInt32) (document : Json) :
    Prop where
  uid : ∀ other, (cmdRoomBlockMsg roomId other).Returns () →
    SameUid (document.field "uid") (other.field "uid") →
      (messageOf context cmdRoomBlockMsg roomId other).user.uid =
        (messageOf context cmdRoomBlockMsg roomId document).user.uid
  fromUid : OnlyFrom context cmdRoomBlockMsg roomId (fun message => message.user.uid)
    (fun document => document.field "uid") document
  fromUname : OnlyFrom context cmdRoomBlockMsg roomId (fun message => message.user.name)
    (fun document => document.field "uname") document

structure CutOffFaithful (context : BorrowedBilibiliMessage) (roomId : UInt32) (document : Json) : Prop where
  message : ∀ msg, document.member "msg" = some (string msg) →
    (messageOf context cmdCutOff roomId document).status.message = some msg
  fromMsg : OnlyFrom context cmdCutOff roomId (fun message => message.status.message)
    (fun document => document.member "msg") document

-- A uid that is the same number with the base 16 and with the base 10, if it is a
-- number at all.
def ReadsAlike (uid : Json) : Prop :=
  ∀ n : Nat, n < 18446744073709551616 → uid = integer n ∨ uid = string (decimal n) →
    n < 10 ∨ n = 18446744073709551615

-- The field for the colour stays empty.
theorem messageOf_cmdDanmuMsg (h : (cmdDanmuMsg roomId document).Returns ()) :
    (messageOf context cmdDanmuMsg roomId document).user.userLevel =
        some (((document.field "info").place 4).place 2).integerValue ∧
      (messageOf context cmdDanmuMsg roomId document).user.userLevelBorderColor = none :=
  leaves_cmdDanmuMsg () h

-- Of the two times and the two colours, one colour is right.
theorem messageOf_cmdSuperChatMessage (h : (cmdSuperChatMessage roomId document).Returns ()) :
    (messageOf context cmdSuperChatMessage roomId document).chat.startTime =
        some ((document.field "data").field "end_time").integerValue ∧
      (messageOf context cmdSuperChatMessage roomId document).chat.endTime = none ∧
      (∀ colour, 6 ≤ colour.length →
        (((document.field "data").field "user_info").field "level_color").stringValue = 35 :: colour →
          (messageOf context cmdSuperChatMessage roomId document).user.userLevelBorderColor =
            some ((strtoul colour 16 : Nat) : Int)) ∧
      ∀ medalInfo colour, 6 ≤ colour.length →
        (document.field "data").member "medal_info" = some medalInfo →
          (medalInfo.isObject && (medalInfo.member "target_id").isSome) = true →
            (medalInfo.field "medal_color").stringValue = 35 :: colour →
              ((messageOf context cmdSuperChatMessage roomId document).user.medal.getD {}).medalColor =
                some 0 := by
  obtain ⟨hstart, hend, hcolour, hmedal⟩ := leaves_cmdSuperChatMessage () h
  refine ⟨hstart, hend, ?_, ?_⟩
  · intro colour hlong hlevel
    rw [hlevel] at hcolour
    exact hcolour (Nat.succ_le_succ hlong)
  · intro medalInfo colour hlong hmember hpresent hbadge
    have hset := hmedal medalInfo hmember hpresent
    rw [hbadge] at hset
    exact hset (Nat.succ_le_succ hlong)

theorem uid_messageOf_cmdRoomBlockMsg (h : (cmdRoomBlockMsg roomId document).Returns ()) :
    (messageOf context cmdRoomBlockMsg roomId document).user.uid =
      some (blockedUid (document.field "uid")) := (leaves_cmdRoomBlockMsg () h).1

theorem name_messageOf_cmdRoomBlockMsg (h : (cmdRoomBlockMsg roomId document).Returns ()) :
    (messageOf context cmdRoomBlockMsg roomId document).user.name =
      some (document.field "uname").stringValue := (leaves_cmdRoomBlockMsg () h).2

theorem not_danmuMsgFaithful (h : (cmdDanmuMsg roomId document).Returns ()) :
    ¬DanmuMsgFaithful context roomId document := by
  intro hfaithful
  have hset := hfaithful.userLevelBorderColor
  rw [(messageOf_cmdDanmuMsg h).2] at hset
  cases hset

theorem not_superChatMessageFaithful (h : (cmdSuperChatMessage roomId document).Returns ()) :
    ¬SuperChatMessageFaithful context roomId document := by
  intro hfaithful
  have hset := hfaithful.endTime
  rw [(messageOf_cmdSuperChatMessage h).2.1] at hset
  cases hset

-- A document with a uid, and nothing else that matters.
def blockDocument (uid : Json) : Json := object [(ascii "uid", uid), (ascii "uname", string [])]

theorem blockedUid_digits (n : Nat) : blockedUid (string (decimal n)) = ((strtoul (decimal n) 16 : Nat) : Int) :=
  rfl

theorem blockedUid_number (n : Nat) : blockedUid (integer n) = n := rfl

theorem blockedUid_eq_iff {n : Nat} (hn : n < 18446744073709551616) :
    blockedUid (string (decimal n)) = blockedUid (integer n) ↔ n < 10 ∨ n = 18446744073709551615 := by
  rw [blockedUid_digits, blockedUid_number, Int.ofNat_inj, strtoul_decimal_iff hn]

theorem returns_blockDocument {uid : Json} (h : (userBlockedUid uid).Returns ()) :
    (cmdRoomBlockMsg roomId (blockDocument uid)).Returns () := by
  have hobject : (blockDocument uid).isObject = true := rfl
  have hmember : (blockDocument uid).member "uid" = some uid := rfl
  simp only [cmdRoomBlockMsg, routingKey, returns_write_bind, findMember_bind hobject, hmember,
    returns_check_bind, read_some_bind]
  exact ⟨rfl, returns_bind.mpr ⟨(), h, rfl⟩⟩

theorem returns_userBlockedUid_number {n : Nat} (hn : n < 18446744073709551616) :
    (userBlockedUid (integer n)).Returns () := by
  have hnumber : (integer n).isUint64 = true := by
    simp only [isUint64, Bool.and_eq_true, decide_eq_true_eq]
    omega
  rw [userBlockedUid, if_neg (by exact Bool.false_ne_true), if_pos hnumber, returns_getTyped_bind]
  exact ⟨hnumber, returns_write⟩

theorem blockedUid_of_sameUid {uid other : Json} (halike : ReadsAlike uid) (h : SameUid uid other) :
    blockedUid other = blockedUid uid := by
  cases h with
  | digits n hn => exact (blockedUid_eq_iff hn).mpr (halike n hn (Or.inl rfl))
  | number n hn => exact ((blockedUid_eq_iff hn).mpr (halike n hn (Or.inr rfl))).symm

theorem roomBlockMsgFaithful_iff (h : (cmdRoomBlockMsg roomId document).Returns ()) :
    RoomBlockMsgFaithful context roomId document ↔ ReadsAlike (document.field "uid") := by
  constructor
  · intro hfaithful n hn huid
    rw [← blockedUid_eq_iff hn]
    rcases huid with huid | huid
    · have hother : (cmdRoomBlockMsg roomId (blockDocument (string (decimal n)))).Returns () :=
        returns_blockDocument rfl
      have hsame := hfaithful.uid _ hother (by
        rw [huid]
        exact .digits n hn)
      rw [uid_messageOf_cmdRoomBlockMsg h, uid_messageOf_cmdRoomBlockMsg hother, huid] at hsame
      exact Option.some.inj hsame
    · have hother : (cmdRoomBlockMsg roomId (blockDocument (integer n))).Returns () :=
        returns_blockDocument (returns_userBlockedUid_number hn)
      have hsame := hfaithful.uid _ hother (by
        rw [huid]
        exact .number n hn)
      rw [uid_messageOf_cmdRoomBlockMsg h, uid_messageOf_cmdRoomBlockMsg hother, huid] at hsame
      exact (Option.some.inj hsame).symm
  · intro halike
    refine ⟨fun other hother hsame => ?_, ?_, ?_⟩
    · rw [uid_messageOf_cmdRoomBlockMsg h, uid_messageOf_cmdRoomBlockMsg hother,
        blockedUid_of_sameUid halike hsame]
    · exact onlyFrom_of_eq (fun uid => some (blockedUid uid)) (fun _ => uid_messageOf_cmdRoomBlockMsg) h
    · exact onlyFrom_of_eq (fun uname => some uname.stringValue) (fun _ => name_messageOf_cmdRoomBlockMsg) h

theorem cutOffFaithful_iff (h : (cmdCutOff roomId document).Returns ()) :
    CutOffFaithful context roomId document ↔ ¬∃ msg, document.member "msg" = some (string msg) := by
  constructor
  · rintro hfaithful ⟨msg, hmsg⟩
    have hset := hfaithful.message msg hmsg
    rw [messageOf_cmdCutOff h] at hset
    cases hset
  · intro hnone
    refine ⟨fun msg hmsg => absurd ⟨msg, hmsg⟩ hnone,
      onlyFrom_of_eq (fun _ => none) (fun other hother => ?_) h⟩
    rw [messageOf_cmdCutOff hother]
    rfl

-- What the four handlers map faithfully, of the documents that they accept.
theorem fieldFidelity_iff (context : BorrowedBilibiliMessage) (roomId : UInt32) (document : Json) :
    ((cmdDanmuMsg roomId document).Returns () → ¬DanmuMsgFaithful context roomId document) ∧
    ((cmdSuperChatMessage roomId document).Returns () →
      ¬SuperChatMessageFaithful context roomId document) ∧
    ((cmdRoomBlockMsg roomId document).Returns () →
      (RoomBlockMsgFaithful context roomId document ↔ ReadsAlike (document.field "uid"))) ∧
    ((cmdCutOff roomId document).Returns () →
      (CutOffFaithful context roomId document ↔ ¬∃ msg, document.member "msg" = some (string msg))) :=
  ⟨not_danmuMsgFaithful, not_superChatMessageFaithful, roomBlockMsgFaithful_iff, cutOffFaithful_iff⟩

theorem fieldFidelity_refuted : ¬∀ context roomId document,
    ((cmdDanmuMsg roomId document).Returns () → DanmuMsgFaithful context roomId document) ∧
    ((cmdSuperChatMessage roomId document).Returns () →
      SuperChatMessageFaithful context roomId document) ∧
    ((cmdRoomBlockMsg roomId document).Returns () → RoomBlockMsgFaithful context roomId document) ∧
    ((cmdCutOff roomId document).Returns () → CutOffFaithful context roomId document) := by
  intro hall
  let document := object [(ascii "cmd", string (ascii "CUT_OFF")), (ascii "msg", string (ascii "rules"))]
  let context : BorrowedBilibiliMessage := ⟨0, ⟨List.replicate routingKeyMaxSize 0, rfl⟩, {}⟩
  have haccepted : (cmdCutOff 1 document).Returns () := rfl
  have hset := ((hall context 1 document).2.2.2 haccepted).message (ascii "rules") rfl
  rw [messageOf_cmdCutOff haccepted] at hset
  cases hset

end Fidelity

end LiveReceptor.Worker

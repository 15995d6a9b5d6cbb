import LiveReceptor.Worker.Json

namespace LiveReceptor.Supervisor

open Handler Worker Worker.Json

-- What the callback of the updater is given, call after call.
abbrev RoomLists := List (List Int)

-- The body of the loop over allBilibiliInfo: the room of an element, if the
-- element is not skipped.
def elementRoomId (element : Json) : Handler RoomLists (Option Int) :=
  if element.isObject then do
    let liveInfo ← element.findMember "liveInfo"
    if liveInfo.any isObject then do
      let liveInfo ← read liveInfo
      -- what FindMember gives is compared with the end of the other object,
      -- which it never is
      let roomId ← read (← liveInfo.findMember "roomId")
      if roomId.isInt then do
        return some (← roomId.getInt)
      else return none
    else return none
  else return none

def collectRoomIds : List Int → List Json → Handler RoomLists (List Int)
  | roomIds, [] => pure roomIds
  | roomIds, element :: rest => do
      let roomId ← elementRoomId element
      collectRoomIds (roomIds ++ roomId.toList) rest

-- on_updated. `parse` is the JSON parser on the characters in front of the
-- first NUL. A response that is turned down is only logged.
def onUpdated (parse : Bytes → Option Json) (body : Bytes) : Handler RoomLists Unit := do
  let document := parse (cString body)
  check document.isSome
  let document ← read document
  check document.isObject
  let data ← document.findMember "data"
  check (data.any isObject)
  let data ← read data
  let allBilibiliInfo ← data.findMember "allBilibiliInfo"
  check (allBilibiliInfo.any isArray)
  let allBilibiliInfo ← read allBilibiliInfo
  let roomIds ← collectRoomIds [] (← allBilibiliInfo.getArray)
  write fun calls => calls ++ [roomIds]

-- The elements of allBilibiliInfo in a response that has them.
def allBilibiliInfo (document : Json) : Option (List Json) :=
  let data := document.field "data"
  let info := data.field "allBilibiliInfo"
  if document.isObject ∧ data.isObject ∧ info.isArray then some info.elements else none

-- The room that an element gives.
def givenRoom (element : Json) : Option Int :=
  let liveInfo := element.field "liveInfo"
  let roomId := liveInfo.field "roomId"
  if element.isObject ∧ liveInfo.isObject ∧ roomId.isInt then some roomId.integerValue else none

-- The calls of the callback that a response leads to.
def givenRooms (document : Option Json) : RoomLists :=
  match document.bind allBilibiliInfo with
  | none => []
  | some elements => [elements.filterMap givenRoom]

-- The updater reads no member that is not there, and calls the callback as the
-- response has it.
structure Extracted (parse : Bytes → Option Json) (body : Bytes) : Prop where
  noFault : (onUpdated parse body).NoFault
  called : ∀ calls, (onUpdated parse body).writes calls = calls ++ givenRooms (parse (cString body))

-- An element with a liveInfo has a roomId in it, of whatever type.
def HasRoomId (element : Json) : Prop :=
  element.isObject = true → (element.field "liveInfo").isObject = true →
    ((element.field "liveInfo").member "roomId").isSome = true

section Elements

variable {β : Type} {element : Json} {next : Option Int → Handler RoomLists β}

theorem elementRoomId_of_hasRoomId (h : HasRoomId element) :
    elementRoomId element = pure (givenRoom element) := by
  unfold elementRoomId givenRoom
  by_cases helement : element.isObject = true
  · rw [if_pos helement, findMember_bind helement, any_member rfl]
    by_cases hinfo : (element.field "liveInfo").isObject = true
    · have hmember := member_eq_some_field (isSome_member_of_test rfl hinfo)
      have hroom := member_eq_some_field (h helement hinfo)
      rw [if_pos hinfo, hmember, read_some_bind, findMember_bind hinfo, hroom, read_some_bind]
      by_cases hint : ((element.field "liveInfo").field "roomId").isInt = true
      · rw [if_pos hint, getTyped_bind hint, if_pos ⟨helement, hinfo, hint⟩]
      · rw [if_neg hint, if_neg fun hgiven => hint hgiven.2.2]
    · rw [if_neg hinfo, if_neg fun hgiven => hinfo hgiven.2.1]
  · rw [if_neg helement, if_neg fun hgiven => helement hgiven.1]

theorem hasRoomId_of_noFault (h : (elementRoomId element).NoFault) : HasRoomId element := by
  intro helement hinfo
  have hmember := member_eq_some_field (isSome_member_of_test rfl hinfo)
  rw [elementRoomId, if_pos helement, findMember_bind helement, any_member rfl, if_pos hinfo, hmember,
    read_some_bind, findMember_bind hinfo, noFault_read_member_bind] at h
  exact h.1

end Elements

section Loop

variable {elements : List Json} {roomIds : List Int}

theorem collectRoomIds_of_hasRoomId (h : ∀ element ∈ elements, HasRoomId element) :
    collectRoomIds roomIds elements = pure (roomIds ++ elements.filterMap givenRoom) := by
  induction elements generalizing roomIds with
  | nil => rw [collectRoomIds, List.filterMap_nil, List.append_nil]
  | cons element rest ih =>
      obtain ⟨helement, hrest⟩ := List.forall_mem_cons.mp h
      rw [collectRoomIds, elementRoomId_of_hasRoomId helement, pure_bind, ih hrest, List.append_assoc]
      cases hgiven : givenRoom element with
      | none => rw [List.filterMap_cons_none hgiven, Option.toList_none, List.nil_append]
      | some roomId => rw [List.filterMap_cons_some hgiven, Option.toList_some, List.singleton_append]

theorem hasRoomId_of_mem (h : (collectRoomIds roomIds elements).NoFault) :
    ∀ element ∈ elements, HasRoomId element := by
  induction elements generalizing roomIds with
  | nil => exact fun element helement => absurd helement List.not_mem_nil
  | cons element rest ih =>
      obtain ⟨hfirst, hnext⟩ := noFault_bind.mp h
      have helement := hasRoomId_of_noFault hfirst
      rw [elementRoomId_of_hasRoomId helement] at hnext
      exact List.forall_mem_cons.mpr ⟨helement, ih (hnext _ rfl)⟩

end Loop

section Response

variable {parse : Bytes → Option Json} {body : Bytes} {document : Json} {elements : List Json}

-- A response without the array is turned down.
theorem onUpdated_of_none (h : (parse (cString body)).bind allBilibiliInfo = none) :
    onUpdated parse body = check false := by
  unfold onUpdated
  cases hparse : parse (cString body) with
  | none => exact check_bind_of_not Bool.false_ne_true
  | some document =>
      rw [hparse, Option.bind_some, allBilibiliInfo, ite_eq_right_iff] at h
      rw [check_bind Option.isSome_some, read_some_bind]
      by_cases hdocument : document.isObject = true
      · rw [check_bind hdocument, findMember_bind hdocument, any_member rfl]
        by_cases hdata : (document.field "data").isObject = true
        · have hmember := member_eq_some_field (isSome_member_of_test rfl hdata)
          rw [check_bind hdata, hmember, read_some_bind, findMember_bind hdata, any_member rfl]
          exact check_bind_of_not fun hinfo => Option.some_ne_none _ (h ⟨hdocument, hdata, hinfo⟩)
        · exact check_bind_of_not hdata
      · exact check_bind_of_not hdocument

theorem onUpdated_of_some (hparse : parse (cString body) = some document)
    (h : allBilibiliInfo document = some elements) :
    onUpdated parse body = collectRoomIds [] elements >>= fun roomIds =>
      write fun calls => calls ++ [roomIds] := by
  rw [allBilibiliInfo, Option.ite_none_right_eq_some] at h
  obtain ⟨⟨hdocument, hdata, hinfo⟩, helements⟩ := h
  have hmember := member_eq_some_field (isSome_member_of_test rfl hdata)
  have hlist := member_eq_some_field (isSome_member_of_test rfl hinfo)
  rw [onUpdated, hparse, check_bind Option.isSome_some, read_some_bind, check_bind hdocument,
    findMember_bind hdocument, any_member rfl, check_bind hdata, hmember, read_some_bind,
    findMember_bind hdata, any_member rfl, check_bind hinfo, hlist, read_some_bind, getTyped_bind hinfo,
    Option.some.inj helements]

end Response

theorem extracted_iff (parse : Bytes → Option Json) (body : Bytes) : Extracted parse body ↔
    ∀ elements, (parse (cString body)).bind allBilibiliInfo = some elements →
      ∀ element ∈ elements, HasRoomId element := by
  cases hgiven : (parse (cString body)).bind allBilibiliInfo with
  | none =>
      refine iff_of_true ⟨?_, fun calls => ?_⟩ fun elements helements => by cases helements
      · rw [onUpdated_of_none hgiven]
        exact noFault_check
      · rw [onUpdated_of_none hgiven, givenRooms, hgiven]
        exact (List.append_nil calls).symm
  | some elements =>
      obtain ⟨document, hparse, hinfo⟩ := Option.bind_eq_some_iff.mp hgiven
      constructor
      · rintro ⟨hfault, -⟩ others hothers
        rw [onUpdated_of_some hparse hinfo] at hfault
        cases hothers
        exact hasRoomId_of_mem (noFault_bind.mp hfault).1
      · intro hall
        have hcollected : onUpdated parse body =
            write fun calls => calls ++ [elements.filterMap givenRoom] := by
          rw [onUpdated_of_some hparse hinfo, collectRoomIds_of_hasRoomId (hall elements rfl), pure_bind,
            List.nil_append]
        refine ⟨?_, fun calls => ?_⟩
        · rw [hcollected]
          exact noFault_write
        · rw [hcollected, givenRooms, hgiven]
          rfl

section Refutation

-- A list of one element, whose liveInfo is empty.
def emptyLiveInfo : Bytes :=
  ascii "\x7b\"data\":\x7b\"allBilibiliInfo\":[\x7b\"liveInfo\":\x7b\x7d\x7d]\x7d\x7d"

def parseEmptyLiveInfo (text : Bytes) : Option Json :=
  if text = emptyLiveInfo then
    some (.object [(ascii "data", .object [(ascii "allBilibiliInfo",
      .array [.object [(ascii "liveInfo", .object [])]])])])
  else none

theorem extracted_refuted : ¬∀ parse body, Extracted parse body := by
  intro h
  have hfault := (h parseEmptyLiveInfo emptyLiveInfo).noFault
  exact hfault rfl

end Refutation

end LiveReceptor.Supervisor

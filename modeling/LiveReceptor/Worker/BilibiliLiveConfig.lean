import LiveReceptor.Worker.Json

namespace LiveReceptor.Worker

open Handler Json

-- bilibili_live_config. The user agent is the one of the request.
structure BilibiliLiveConfig where
  host : Bytes
  port : Int
  token : Bytes
  userAgent : Bytes
  deriving DecidableEq, Repr

inductive FetchCallback
  | onSuccess (config : BilibiliLiveConfig)
  | onFailed
  deriving DecidableEq, Repr

-- The callbacks that a fetch has made, one after the other.
abbrev Fetching := Handler (List FetchCallback)

def callback (call : FetchCallback) : Fetching Unit := write fun calls => calls ++ [call]

-- The loop over host_list. A server without a host and a port is skipped.
def offerChatServers (userAgent : Bytes) (token : Json) : List Json → Fetching Unit
  | [] => callback .onFailed
  | chatServer :: rest =>
      if chatServer.isObject then do
        let host ← chatServer.findMember "host"
        let port ← chatServer.findMember "wss_port"
        if host.any isString ∧ port.any isInt then do
          let token ← token.getString
          let host ← (← read host).getString
          let port ← (← read port).getInt
          callback (.onSuccess { host, port, token, userAgent })
        else offerChatServers userAgent token rest
      else offerChatServers userAgent token rest

-- The code of a failed request is logged, with its messages if it has both.
def logFailedRequest (document : Json) : Fetching Unit := do
  let msg ← document.findMember "msg"
  let message ← document.findMember "message"
  when (msg.any isString && message.any isString) do
    let _ ← (← read msg).getString
    let _ ← (← read message).getString

-- `parse` is the JSON parser on the characters in front of the first NUL.
def parseBilibiliConfig (parse : Bytes → Option Json) (userAgent body : Bytes) : Fetching Unit := do
  let document := parse (cString body)
  if document.isSome then do
    let document ← read document
    if document.isObject then do
      let code ← document.findMember "code"
      if code.any isInt then do
        let code ← (← read code).getInt
        if code = 0 then do
          let data ← document.findMember "data"
          if data.any isObject then do
            let data ← read data
            let token ← data.findMember "token"
            if token.any isString then do
              let token ← read token
              let serverList ← data.findMember "host_list"
              if serverList.any isArray then do
                let servers ← (← read serverList).getArray
                if servers.length = 0 then callback .onFailed
                else offerChatServers userAgent token servers
              else callback .onFailed
            else callback .onFailed
          else callback .onFailed
        else do
          logFailedRequest document
          callback .onFailed
      else callback .onFailed
    else callback .onFailed
  else callback .onFailed

-- The host and the port that a server of the list gives.
def givenServer (server : Json) : Option (Bytes × Int) :=
  let host := server.field "host"
  let port := server.field "wss_port"
  if server.isObject ∧ host.isString ∧ port.isInt then some (host.stringValue, port.integerValue) else none

-- What a response has to be, apart from the servers in it.
structure Successful (document : Json) : Prop where
  object : document.isObject = true
  code : (document.field "code").isInt = true
  zero : (document.field "code").integerValue = 0
  data : (document.field "data").isObject = true
  token : ((document.field "data").field "token").isString = true
  hostList : ((document.field "data").field "host_list").isArray = true

-- The config that a response gives: the token, and the first server that is one.
def givenConfig (userAgent : Bytes) (document : Json) : Option BilibiliLiveConfig :=
  let data := document.field "data"
  ((data.field "host_list").elements.findSome? givenServer).map fun (host, port) =>
    { host, port, token := (data.field "token").stringValue, userAgent }

-- The fetch ends with one callback: a success with the config that the response
-- gives, if it gives one.
structure Answered (parse : Bytes → Option Json) (userAgent body : Bytes) (call : FetchCallback) : Prop where
  returns : (parseBilibiliConfig parse userAgent body).Returns ()
  once : ∀ calls, (parseBilibiliConfig parse userAgent body).writes calls = calls ++ [call]
  success : ∀ config, call = .onSuccess config ↔ ∃ document, parse (cString body) = some document ∧
    Successful document ∧ givenConfig userAgent document = some config

section Servers

variable {userAgent : Bytes} {token document : Json}

theorem offerChatServers_eq (htoken : token.isString = true) (servers : List Json) :
    offerChatServers userAgent token servers =
      callback (match servers.findSome? givenServer with
        | none => .onFailed
        | some (host, port) => .onSuccess { host, port, token := token.stringValue, userAgent }) := by
  induction servers with
  | nil => rfl
  | cons server rest ih =>
      by_cases hserver : server.isObject = true
      · rw [offerChatServers, if_pos hserver, findMember_bind hserver, findMember_bind hserver,
          any_member rfl, any_member rfl]
        by_cases hgiven : (server.field "host").isString = true ∧ (server.field "wss_port").isInt = true
        · have hhost := member_eq_some_field (isSome_member_of_test rfl hgiven.1)
          have hport := member_eq_some_field (isSome_member_of_test rfl hgiven.2)
          have hsome : givenServer server =
              some ((server.field "host").stringValue, (server.field "wss_port").integerValue) :=
            if_pos ⟨hserver, hgiven⟩
          rw [if_pos hgiven, getTyped_bind htoken, hhost, read_some_bind, getTyped_bind hgiven.1, hport,
            read_some_bind, getTyped_bind hgiven.2, List.findSome?_cons_of_isSome, hsome]
          rw [hsome]
          rfl
        · have hnone : givenServer server = none := if_neg fun hall => hgiven hall.2
          rw [if_neg hgiven, ih, List.findSome?_cons, hnone]
      · have hnone : givenServer server = none := if_neg fun hall => hserver hall.1
        rw [offerChatServers, if_neg hserver, ih, List.findSome?_cons, hnone]

-- Logging reads only messages that are there.
theorem logFailedRequest_eq (h : document.isObject = true) : logFailedRequest document = pure () := by
  rw [logFailedRequest, findMember_bind h, findMember_bind h, any_member rfl, any_member rfl]
  cases hboth : (document.field "msg").isString && (document.field "message").isString with
  | false => rfl
  | true =>
      obtain ⟨hmsg, hmessage⟩ := Bool.and_eq_true_iff.mp hboth
      rw [when, if_pos rfl, member_eq_some_field (isSome_member_of_test rfl hmsg), read_some_bind,
        getTyped_bind hmsg, member_eq_some_field (isSome_member_of_test rfl hmessage), read_some_bind,
        getTyped_bind hmessage]

end Servers

section Responses

variable {parse : Bytes → Option Json} {userAgent body : Bytes} {document : Json}

theorem parseBilibiliConfig_of_not
    (h : ∀ document, parse (cString body) = some document → ¬Successful document) :
    parseBilibiliConfig parse userAgent body = callback .onFailed := by
  unfold parseBilibiliConfig
  cases hparse : parse (cString body) with
  | none => rfl
  | some document =>
      rw [if_pos Option.isSome_some, read_some_bind]
      by_cases hobject : document.isObject = true
      · rw [if_pos hobject, findMember_bind hobject, any_member rfl]
        by_cases hcode : (document.field "code").isInt = true
        · rw [if_pos hcode, member_eq_some_field (isSome_member_of_test rfl hcode), read_some_bind,
            getTyped_bind hcode]
          by_cases hzero : (document.field "code").integerValue = 0
          · rw [if_pos hzero, findMember_bind hobject, any_member rfl]
            by_cases hdata : (document.field "data").isObject = true
            · rw [if_pos hdata, member_eq_some_field (isSome_member_of_test rfl hdata), read_some_bind,
                findMember_bind hdata, any_member rfl]
              by_cases htoken : ((document.field "data").field "token").isString = true
              · rw [if_pos htoken, member_eq_some_field (isSome_member_of_test rfl htoken), read_some_bind,
                  findMember_bind hdata, any_member rfl]
                exact if_neg fun hlist => h document hparse ⟨hobject, hcode, hzero, hdata, htoken, hlist⟩
              · exact if_neg htoken
            · exact if_neg hdata
          · rw [if_neg hzero, logFailedRequest_eq hobject, pure_bind]
        · exact if_neg hcode
      · exact if_neg hobject

theorem parseBilibiliConfig_of_successful (hparse : parse (cString body) = some document)
    (h : Successful document) : parseBilibiliConfig parse userAgent body =
      offerChatServers userAgent ((document.field "data").field "token")
        ((document.field "data").field "host_list").elements := by
  rw [parseBilibiliConfig, hparse, if_pos Option.isSome_some, read_some_bind, if_pos h.object,
    findMember_bind h.object, any_member rfl, if_pos h.code,
    member_eq_some_field (isSome_member_of_test rfl h.code), read_some_bind, getTyped_bind h.code,
    if_pos h.zero, findMember_bind h.object, any_member rfl, if_pos h.data,
    member_eq_some_field (isSome_member_of_test rfl h.data), read_some_bind, findMember_bind h.data,
    any_member rfl, if_pos h.token, member_eq_some_field (isSome_member_of_test rfl h.token),
    read_some_bind, findMember_bind h.data, any_member rfl, if_pos h.hostList,
    member_eq_some_field (isSome_member_of_test rfl h.hostList), read_some_bind,
    getTyped_bind h.hostList]
  cases helements : ((document.field "data").field "host_list").elements with
  | nil => rfl
  | cons server rest => exact if_neg (Nat.succ_ne_zero _)

end Responses

-- What the callback is decides the rest.
theorem answered_of_eq {parse : Bytes → Option Json} {userAgent body : Bytes} {call : FetchCallback}
    (h : parseBilibiliConfig parse userAgent body = callback call)
    (hsuccess : ∀ config, call = .onSuccess config ↔ ∃ document, parse (cString body) = some document ∧
      Successful document ∧ givenConfig userAgent document = some config) :
    Answered parse userAgent body call := by
  refine ⟨?_, fun calls => ?_, hsuccess⟩
  · rw [h]
    exact returns_write
  · rw [h]
    rfl

theorem parseBilibiliConfig_answered (parse : Bytes → Option Json) (userAgent body : Bytes) :
    ∃ call, Answered parse userAgent body call := by
  by_cases hgood : ∃ document, parse (cString body) = some document ∧ Successful document
  · obtain ⟨document, hparse, hdocument⟩ := hgood
    have hcall := (@parseBilibiliConfig_of_successful _ userAgent _ _ hparse hdocument).trans
      (offerChatServers_eq hdocument.token _)
    refine ⟨_, answered_of_eq hcall fun config => ?_⟩
    have hgiven : (∃ other, parse (cString body) = some other ∧ Successful other ∧
        givenConfig userAgent other = some config) ↔ givenConfig userAgent document = some config := by
      constructor
      · rintro ⟨other, hother, -, hconfig⟩
        rw [hparse] at hother
        cases hother
        exact hconfig
      · exact fun hconfig => ⟨document, hparse, hdocument, hconfig⟩
    rw [hgiven, givenConfig]
    cases ((document.field "data").field "host_list").elements.findSome? givenServer with
    | none => simp
    | some server => simp
  · have hnone : ∀ document, parse (cString body) = some document → ¬Successful document :=
      fun document hparse hdocument => hgood ⟨document, hparse, hdocument⟩
    refine ⟨.onFailed, answered_of_eq (parseBilibiliConfig_of_not hnone) fun config => ?_⟩
    refine iff_of_false (fun hcall => by cases hcall) ?_
    rintro ⟨document, hparse, hdocument, -⟩
    exact hnone document hparse hdocument

end LiveReceptor.Worker

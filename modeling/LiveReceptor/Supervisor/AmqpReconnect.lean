import LiveReceptor.Supervisor.AmqpLifecycle

namespace LiveReceptor.Supervisor

open Halting (Ensures ensures_some ensures_none ensures_foldlM ensures_run)

-- The connection has answered a close() of ours.
def AmqpClientEvent.closes : AmqpClientEvent → Bool
  | .received _ (some callbacks) => callbacks.contains .closed
  | _ => false

namespace AmqpClient

variable {s s' t : AmqpClient} {connection : Nat} {sends : List Bool} {active : Bool}
  {callbacks : List AmqpCallback} {attempt : ConnectAttempt}

section Within

-- What the callbacks leave as it is. A socket that they close is one that the
-- reconnect timer waits for.
structure Within (s s' : AmqpClient) : Prop where
  connection : s'.connection = s.connection
  receives : s'.receives = s.receives
  sockets : s'.sockets = s.sockets
  socket : s'.socket = s.socket ∨ s'.socket = none ∧ s'.reconnectTimer.waiting = true
  waiting : s.reconnectTimer.waiting = true → s'.reconnectTimer.waiting = true
  published : s'.published = s.published

theorem Within.refl (s : AmqpClient) : Within s s := ⟨rfl, rfl, rfl, Or.inl rfl, id, rfl⟩

theorem Within.trans (h : Within s s') (h' : Within s' t) : Within s t where
  connection := h'.connection.trans h.connection
  receives := h'.receives.trans h.receives
  sockets := h'.sockets.trans h.sockets
  socket := by
    obtain hsame | hnone := h'.socket
    · rw [hsame]
      exact h.socket.imp_right fun hnone => ⟨hnone.1, h'.waiting hnone.2⟩
    · exact Or.inr hnone
  waiting hwaiting := h'.waiting (h.waiting hwaiting)
  published := h'.published.trans h.published

theorem within_closeSocket : Ensures (Within s) (s.closeSocket false) := by
  rw [closeSocket]
  split
  · exact ensures_some.mpr (.refl s)
  · split
    · exact ensures_some.mpr ⟨rfl, rfl, rfl, Or.inr ⟨rfl, rfl⟩, fun _ => rfl, rfl⟩
    · exact ensures_none

theorem within_onData (fails : Bool) : Ensures (Within s) (s.onData connection fails) := by
  rw [onData]
  split
  · exact ensures_some.mpr (.refl s)
  · split
    · exact within_closeSocket
    · exact ensures_some.mpr (.refl s)

theorem within_sendAll (h : Within s s') : Ensures (Within s) (s'.sendAll connection sends) :=
  ensures_foldlM (fun _ h fails _ => (within_onData fails).mono fun _ h' => h.trans h') h

theorem within_callback {callback : AmqpCallback} (h : Within s s') (hclosed : callback ≠ .closed) :
    Ensures (Within s) (s'.callback connection callback) := by
  cases callback with
  | data fails => exact (within_onData fails).mono fun _ h' => h.trans h'
  | negotiate interval =>
      rw [AmqpClient.callback, ensures_some, onNegotiate]
      split
      · exact h
      · exact h.trans ⟨rfl, rfl, rfl, Or.inl rfl, id, rfl⟩
  | ready sends => exact within_sendAll (h.trans ⟨rfl, rfl, rfl, Or.inl rfl, id, rfl⟩)
  | declared =>
      rw [AmqpClient.callback, ensures_some, onDeclared]
      split
      · exact h.trans ⟨rfl, rfl, rfl, Or.inl rfl, id, rfl⟩
      · exact h
  | error =>
      rw [AmqpClient.callback, onError]
      split
      · exact ensures_some.mpr h
      · exact within_closeSocket.mono fun _ h' => h.trans ⟨h'.connection, h'.receives, h'.sockets, h'.socket,
          h'.waiting, h'.published⟩
  | closed => exact absurd rfl hclosed

theorem within_callbacks (hclosed : callbacks.contains .closed = false) :
    Ensures (Within s) (callbacks.foldlM (callback connection) s) := by
  refine ensures_foldlM (fun s' h callback hmem => within_callback h ?_) (.refl s)
  rintro rfl
  rw [List.contains_eq_mem, decide_eq_false_iff_not] at hclosed
  exact hclosed hmem

end Within

section Trying

-- The client waits for data on its socket, or for the time to connect again.
def Waits (s : AmqpClient) : Prop :=
  s.reconnectTimer.waiting = true ∨ ∃ socket, s.socket = some socket ∧ socket.number ∈ s.receives

structure Trying (s : AmqpClient) : Prop where
  waits : s.Waits
  linked : ∀ socket, s.socket = some socket → socket.number ∈ s.receives → s.connection.isSome = true
  known : ∀ n ∈ s.receives, n < s.sockets
  fresh : ∀ socket, s.socket = some socket → socket.number < s.sockets

theorem Trying.within (h : Trying s) (hwithin : Within s s') : Trying s' := by
  obtain ⟨hconnection, hreceives, hsockets, hsocket, hwaiting, -⟩ := hwithin
  constructor
  · obtain hsame | hnone := hsocket
    · exact h.waits.imp hwaiting fun ⟨socket, hsome, hmem⟩ => ⟨socket, hsame.trans hsome, hreceives ▸ hmem⟩
    · exact Or.inl hnone.2
  · intro socket hsome hmem
    rw [hreceives] at hmem
    obtain hsame | hnone := hsocket
    · exact hconnection ▸ h.linked socket (hsame ▸ hsome) hmem
    · rw [hnone.1] at hsome
      cases hsome
  · rw [hreceives, hsockets]
    exact h.known
  · intro socket hsome
    obtain hsame | hnone := hsocket
    · exact hsockets ▸ h.fresh socket (hsame ▸ hsome)
    · rw [hnone.1] at hsome
      cases hsome

theorem trying_startAsyncRead (hopen : s.reconnectTimer.waiting = true ∨ s.socket.isSome = true)
    (hconnection : s.connection.isSome = true) (hknown : ∀ n ∈ s.receives, n < s.sockets)
    (hfresh : ∀ socket, s.socket = some socket → socket.number < s.sockets) : Trying s.startAsyncRead := by
  rw [startAsyncRead]
  split
  · rename_i hnone
    refine ⟨Or.inl (hopen.resolve_right ?_), fun _ _ _ => hconnection, hknown, hfresh⟩
    simp [hnone]
  · rename_i socket hsome
    refine ⟨Or.inr ⟨socket, hsome, ?_⟩, fun _ _ _ => hconnection, fun n hn => ?_, hfresh⟩
    · exact List.mem_append_right _ (List.mem_singleton_self _)
    · rcases List.mem_append.mp hn with hn | hn
      · exact hknown n hn
      · rw [List.mem_singleton.mp hn]
        exact hfresh socket hsome

-- What closing the old connection and its socket leaves.
structure Disconnected (s s' : AmqpClient) : Prop where
  socket : s'.socket = none
  connection : s'.connection = none
  receives : s'.receives = s.receives
  sockets : s'.sockets = s.sockets
  published : s'.published = s.published

theorem disconnected_closeSocket (hconnection : s'.connection = none) (hwithin : s'.receives = s.receives ∧
    s'.sockets = s.sockets ∧ s'.published = s.published) : Ensures (Disconnected s) (s'.closeSocket true) := by
  obtain ⟨hreceives, hsockets, hpublished⟩ := hwithin
  rw [closeSocket]
  split
  · rename_i hsocket
    exact ensures_some.mpr ⟨hsocket, hconnection, hreceives, hsockets, hpublished⟩
  · split
    · exact ensures_some.mpr ⟨rfl, hconnection, hreceives, hsockets, hpublished⟩
    · exact ensures_none

theorem ensures_reconnect {P : AmqpClient → Prop}
    (h : ∀ s', Disconnected s s' → Ensures P (s'.connect attempt)) : Ensures P (s.reconnect attempt) := by
  have hclosed : Ensures (fun s' => s'.connection = none ∧ s'.receives = s.receives ∧
      s'.sockets = s.sockets ∧ s'.published = s.published) (s.closeConnection attempt.closing) := by
    rw [closeConnection]
    split
    · rw [Option.map_eq_bind]
      refine (within_sendAll (.refl s)).bind fun s' hwithin => ?_
      exact ensures_some.mpr ⟨rfl, hwithin.receives, hwithin.sockets, hwithin.published⟩
    · rename_i hnone
      exact ensures_some.mpr ⟨hnone, rfl, rfl, rfl⟩
  exact hclosed.bind fun s' ⟨hconnection, hwithin⟩ => (disconnected_closeSocket hconnection hwithin).bind h

-- An attempt ends with a socket that is read from, or with a wait for the next one.
theorem trying_reconnect (hknown : ∀ n ∈ s.receives, n < s.sockets) : Ensures Trying (s.reconnect attempt) := by
  refine ensures_reconnect fun s' ⟨hsocket, hconnection, hreceives, hsockets, _⟩ => ?_
  rw [← hreceives, ← hsockets] at hknown
  have hnone : ∀ socket, s'.socket ≠ some socket := fun socket => by simp [hsocket]
  rw [connect]
  split
  · exact ensures_some.mpr ⟨Or.inl rfl, fun socket hsome => absurd hsome (hnone socket), hknown,
      fun socket hsome => absurd hsome (hnone socket)⟩
  dsimp only
  have hknown' : ∀ n ∈ s'.receives, n < s'.sockets + 1 := fun n hn => Nat.lt_succ_of_lt (hknown n hn)
  split
  · refine ensures_some.mpr ⟨Or.inl rfl, ?_, hknown', ?_⟩
    · rintro socket hsome hmem
      obtain rfl := Option.some.inj hsome
      exact absurd (hknown _ hmem) (Nat.lt_irrefl _)
    · rintro socket hsome
      obtain rfl := Option.some.inj hsome
      exact Nat.lt_succ_self _
  · rw [Option.map_eq_bind]
    refine (within_sendAll (.refl _)).bind fun s'' hwithin => ensures_some.mpr ?_
    obtain ⟨-, hreceives', hsockets', hsocket', -, -⟩ := hwithin
    refine trying_startAsyncRead ?_ rfl (fun n hn => ?_) fun socket hsome => ?_
    · exact hsocket'.symm.imp And.right fun hsame => by simp [hsame]
    · exact hsockets'.symm ▸ hknown' n (hreceives' ▸ hn)
    · obtain hsame | ⟨hgone, -⟩ := hsocket'
      · obtain rfl := Option.some.inj (hsame.symm.trans hsome)
        exact hsockets'.symm ▸ Nat.lt_succ_self _
      · exact absurd (hgone.symm.trans hsome) (by simp)

theorem Trying.finish (h : Trying s) {completion : WaitEnd} {reconnectTimer : WaitTimer}
    (hfinish : s.reconnectTimer.finish completion = some reconnectTimer) :
    Ensures Trying ({ s with reconnectTimer }.onReconnectionTimerTick completion.aborted attempt) := by
  rw [onReconnectionTimerTick]
  split
  · rename_i haborted
    cases completion with
    | expired => cases haborted
    | cancelled aborted =>
        simp only [WaitTimer.finish] at hfinish
        split at hfinish
        · obtain rfl := Option.some.inj hfinish
          exact ensures_some.mpr ⟨h.waits, h.linked, h.known, h.fresh⟩
        · cases hfinish
  · exact trying_reconnect h.known

theorem Trying.received (h : Trying s) (n : Nat) {callbacks : Option (List AmqpCallback)}
    (hclosed : (AmqpClientEvent.received n callbacks).closes = false) :
    Ensures Trying ({ s with receives := s.receives.eraseIdx n }.onReceived callbacks) := by
  have hknown : ∀ m ∈ s.receives.eraseIdx n, m < s.sockets := fun m hm =>
    h.known m (List.mem_of_mem_eraseIdx hm)
  have hopen : s.reconnectTimer.waiting = true ∨ s.socket.isSome = true :=
    h.waits.imp_right fun ⟨socket, hsome, _⟩ => by simp [hsome]
  cases callbacks with
  | none =>
      rw [onReceived, closeSocket]
      dsimp only
      split
      · rename_i hnone
        refine ensures_some.mpr ⟨Or.inl (hopen.resolve_right (by simp [hnone])), ?_, hknown, h.fresh⟩
        exact fun socket hsome => absurd (hnone.symm.trans hsome) (by simp)
      · split
        · refine ensures_some.mpr ⟨Or.inl rfl, ?_, hknown, ?_⟩
          · rintro socket ⟨⟩
          · rintro socket ⟨⟩
        · exact ensures_none
  | some callbacks =>
      rw [onReceived]
      dsimp only
      split
      · -- Without a connection the current socket is none that is read from.
        rename_i hnone
        have hwaiting : s.reconnectTimer.waiting = true := by
          obtain hwaiting | ⟨socket, hsome, hmem⟩ := h.waits
          · exact hwaiting
          · have hlinked := h.linked socket hsome hmem
            rw [hnone] at hlinked
            cases hlinked
        refine ensures_some.mpr ⟨Or.inl hwaiting, fun socket hsome hmem => ?_, hknown, h.fresh⟩
        exact h.linked socket hsome (List.mem_of_mem_eraseIdx hmem)
      · rename_i connection hsome
        rw [Option.map_eq_bind]
        refine (within_callbacks hclosed).bind fun s' hwithin => ensures_some.mpr ?_
        obtain ⟨hconnection, hreceives, hsockets, hsocket, hwaiting, -⟩ := hwithin
        dsimp only at hreceives
        refine trying_startAsyncRead ?_ ?_ (fun m hm => ?_) fun socket hsome' => ?_
        · obtain hsame | hgone := hsocket
          · exact hopen.imp hwaiting fun hopen => by rwa [hsame]
          · exact Or.inl hgone.2
        · rw [hconnection, hsome]
          rfl
        · rw [hreceives] at hm
          exact hsockets.symm ▸ hknown m hm
        · obtain hsame | hgone := hsocket
          · exact hsockets.symm ▸ h.fresh socket (hsame ▸ hsome')
          · exact absurd (hgone.1.symm.trans hsome') (by simp)

theorem Trying.step {event : AmqpClientEvent} (h : Trying s) (hclosed : event.closes = false) :
    Ensures Trying (step event s) := by
  cases event with
  | received n callbacks =>
      rw [AmqpClient.step]
      split
      · exact h.received n hclosed
      · exact ensures_some.mpr h
  | timerTick completion usable sends =>
      have hstart : ∀ timer s', Within { s with timer } s' → Trying s'.startHeartbeatTimer :=
        fun timer s' hwithin => h.within ⟨hwithin.connection, hwithin.receives, hwithin.sockets,
          hwithin.socket, hwithin.waiting, hwithin.published⟩
      simp only [AmqpClient.step, onTimerTick]
      split
      · split
        · exact ensures_some.mpr ⟨h.waits, h.linked, h.known, h.fresh⟩
        · split
          · rw [Option.map_eq_bind]
            split
            · exact (within_sendAll (.refl _)).bind fun s' hwithin => ensures_some.mpr (hstart _ s' hwithin)
            · exact ensures_some.mpr (hstart _ _ (.refl _))
          · exact ensures_some.mpr (hstart _ _ (.refl _))
      · exact ensures_some.mpr h
  | reconnectTick completion attempt =>
      simp only [AmqpClient.step]
      split
      · rename_i hfinish
        exact h.finish hfinish
      · exact ensures_some.mpr h
  | post message sends =>
      simp only [AmqpClient.step, publish]
      split
      · split
        · have hpublished : ∀ published, Trying { s with published } := fun published =>
            ⟨h.waits, h.linked, h.known, h.fresh⟩
          exact (within_sendAll (.refl _)).mono fun _ => (hpublished _).within
        · exact ensures_some.mpr h
      · exact ensures_some.mpr h
  | disconnect sends =>
      simp only [AmqpClient.step, AmqpClient.disconnect]
      split
      · exact (within_sendAll (.refl s)).mono fun _ => h.within
      · exact ensures_some.mpr h
  | reset =>
      refine ensures_some.mpr ⟨h.waits.imp_right ?_, ?_, h.known, ?_⟩
      · rintro ⟨socket, hsome, hmem⟩
        exact ⟨{ socket with connected := false }, by simp [hsome], hmem⟩
      · intro socket hsome hmem
        obtain ⟨old, hold, rfl⟩ := Option.map_eq_some_iff.mp hsome
        exact h.linked old hold hmem
      · intro socket hsome
        obtain ⟨old, hold, rfl⟩ := Option.map_eq_some_iff.mp hsome
        exact h.fresh old hold

-- Unless it terminates, and until the connection has answered a close() of its own,
-- the client reads or is about to connect again, whatever fails in whatever order.
theorem run_waits (first : ConnectAttempt) (events : List AmqpClientEvent)
    (hclosed : ∀ event ∈ events, event.closes = false) : Ensures Waits (run first events) := by
  have htrying : Ensures Trying (run first events) :=
    ensures_run (fun event hevent _ h => h.step (hclosed event hevent)) (trying_reconnect (by simp))
  exact htrying.mono fun _ h => h.waits

-- The connection becomes ready, a message is published, and the connection is lost.
def lostConnection : List AmqpClientEvent :=
  [.received 0 (some [.data false, .negotiate 60, .ready [false, false]]), .received 0 (some [.declared]),
    .post ⟨.topic, [98], [1, 2]⟩ [false], .received 0 none, .post ⟨.topic, [98], [3]⟩ [],
    .reconnectTick .expired {}]

theorem run_waits_lost : (run {} lostConnection).isSome = true ∧ Ensures Waits (run {} lostConnection) :=
  ⟨by decide, run_waits {} lostConnection (by decide)⟩

end Trying

section Stranded

-- An attempt to connect has failed, and left its socket behind.
structure Stranded (s : AmqpClient) : Prop where
  connection : s.connection = none
  socket : ∃ n, s.socket = some ⟨n, false⟩
  waiting : s.reconnectTimer.waiting = true

-- shutdown throws on such a socket.
theorem closeSocket_of_failed {n : Nat} (hsocket : s.socket = some ⟨n, false⟩) : s.closeSocket active = none := by
  rw [closeSocket, hsocket]
  rfl

theorem reconnect_of_failed {n : Nat} (hconnection : s.connection = none) (hsocket : s.socket = some ⟨n, false⟩) :
    s.reconnect attempt = none := by
  have hclosed : s.closeConnection attempt.closing = some s := by
    rw [closeConnection, hconnection]
  rw [reconnect, hclosed, Option.bind_eq_bind, Option.bind_some, closeSocket_of_failed hsocket]
  rfl

theorem stranded_reconnect (hresolves : attempt.resolves = true) (hfails : attempt.connects = false) :
    Ensures (fun t => Stranded t ∧ t.published = s.published) (s.reconnect attempt) := by
  refine ensures_reconnect fun s' ⟨_, hconnection, _, _, hpublished⟩ => ?_
  simp only [connect, hresolves, hfails, Bool.not_true, Bool.not_false, Bool.false_eq_true, if_false, if_true]
  exact ensures_some.mpr ⟨⟨hconnection, ⟨_, rfl⟩, rfl⟩, hpublished⟩

theorem Stranded.step (h : Stranded s) (event : AmqpClientEvent) :
    Ensures (fun t => Stranded t ∧ t.published = s.published) (step event s) := by
  obtain ⟨hconnection, ⟨m, hsocket⟩, hwaiting⟩ := h
  have hsame : Stranded s ∧ s.published = s.published := ⟨⟨hconnection, ⟨m, hsocket⟩, hwaiting⟩, rfl⟩
  cases event with
  | received n callbacks =>
      simp only [AmqpClient.step]
      split
      · cases callbacks with
        | none =>
            have hhalt : { s with receives := s.receives.eraseIdx n }.closeSocket false = none :=
              closeSocket_of_failed hsocket
            rw [onReceived, hhalt]
            exact ensures_none
        | some callbacks =>
            rw [onReceived, hconnection]
            exact ensures_some.mpr ⟨⟨rfl, ⟨m, hsocket⟩, hwaiting⟩, rfl⟩
      · exact ensures_some.mpr hsame
  | timerTick completion usable sends =>
      simp only [AmqpClient.step, onTimerTick, hconnection]
      split
      · split <;> exact ensures_some.mpr ⟨⟨rfl, ⟨m, hsocket⟩, hwaiting⟩, rfl⟩
      · exact ensures_some.mpr hsame
  | reconnectTick completion attempt =>
      simp only [AmqpClient.step]
      split
      · rename_i reconnectTimer hfinish
        rw [onReconnectionTimerTick]
        split
        · rename_i haborted
          cases completion with
          | expired => cases haborted
          | cancelled aborted =>
              simp only [WaitTimer.finish] at hfinish
              split at hfinish
              · obtain rfl := Option.some.inj hfinish
                exact ensures_some.mpr ⟨⟨hconnection, ⟨m, hsocket⟩, hwaiting⟩, rfl⟩
              · cases hfinish
        · have hhalt : { s with reconnectTimer }.reconnect attempt = none :=
            reconnect_of_failed hconnection hsocket
          rw [hhalt]
          exact ensures_none
      · exact ensures_some.mpr hsame
  | post message sends =>
      simp only [AmqpClient.step, publish, hconnection]
      exact ensures_some.mpr hsame
  | disconnect sends =>
      simp only [AmqpClient.step, AmqpClient.disconnect, hconnection]
      exact ensures_some.mpr hsame
  | reset => exact ensures_some.mpr ⟨⟨hconnection, ⟨m, by simp [hsocket]⟩, hwaiting⟩, rfl⟩

-- An attempt to connect that fails is the last one: whatever happens next, either
-- the process terminates, or there is no connection, nothing more is handed over, and
-- the wait that would lead to another attempt has not come to its end. That attempt
-- would terminate the process.
theorem run_stranded (attempt : ConnectAttempt) (hresolves : attempt.resolves = true)
    (hfails : attempt.connects = false) (s : AmqpClient) (more : List AmqpClientEvent) :
    Ensures (fun t => Stranded t ∧ t.published = s.published ∧ ∀ next, t.reconnect next = none)
      (Halting.run AmqpClient.step (s.reconnect attempt) more) := by
  have hrun : Ensures (fun t => Stranded t ∧ t.published = s.published)
      (Halting.run AmqpClient.step (s.reconnect attempt) more) :=
    ensures_run (fun event _ t h => (h.1.step event).mono fun _ h' => ⟨h'.1, h'.2.trans h.2⟩)
      (stranded_reconnect hresolves hfails)
  refine hrun.mono fun t ⟨hstranded, hpublished⟩ => ⟨hstranded, hpublished, fun next => ?_⟩
  obtain ⟨hconnection, ⟨m, hsocket⟩, -⟩ := hstranded
  exact reconnect_of_failed hconnection hsocket

theorem run_stranded_first :
    (Halting.run AmqpClient.step (reconnect { connects := false } {}) [.post ⟨.topic, [98], [1]⟩ []]).isSome = true ∧
      Ensures (fun t => Stranded t ∧ t.published = ({} : AmqpClient).published ∧
          ∀ next, t.reconnect next = none)
        (Halting.run AmqpClient.step (reconnect { connects := false } {}) [.post ⟨.topic, [98], [1]⟩ []]) :=
  ⟨by decide, run_stranded { connects := false } rfl rfl {} [.post ⟨.topic, [98], [1]⟩ []]⟩

end Stranded

section Published

-- The flag tells whether the exchange has been declared, over the channel that there is.
structure DeclaredOn (available : Bool) (declared channel : Option Nat) : Prop where
  available : available = true ↔ declared.isSome = true
  channel : declared.isSome = true → channel = declared

def Declared (s : AmqpClient) : Prop := DeclaredOn s.available s.declared s.channel

-- What the step hands to the channel, and on which connection.
def publishes (event : AmqpClientEvent) (s : AmqpClient) : List (Nat × AmqpMessage) :=
  match event with
  | .post message _ =>
      match s.connection with
      | some connection => if s.declared = some connection then [(connection, message)] else []
      | none => []
  | _ => []

theorem Declared.closeSocket (h : Declared s) : Ensures Declared (s.closeSocket active) := by
  rw [AmqpClient.closeSocket]
  split
  · exact ensures_some.mpr h
  · split
    · dsimp only
      split <;> exact ensures_some.mpr h
    · exact ensures_none

theorem Declared.onData (h : Declared s) (fails : Bool) : Ensures Declared (s.onData connection fails) := by
  rw [AmqpClient.onData]
  split
  · exact ensures_some.mpr h
  · split
    · exact h.closeSocket
    · exact ensures_some.mpr h

theorem Declared.sendAll (h : Declared s) : Ensures Declared (s.sendAll connection sends) :=
  ensures_foldlM (fun _ h fails _ => h.onData fails) h

theorem Declared.callback (h : Declared s) (callback : AmqpCallback) :
    Ensures Declared (s.callback connection callback) := by
  cases callback with
  | data fails => exact h.onData fails
  | negotiate interval =>
      rw [AmqpClient.callback, ensures_some, onNegotiate]
      split
      · exact h
      · exact h
  | ready sends =>
      have hnone : Declared { s with
          initializing := false, timer := s.timer.start, available := false, channel := s.connection,
          declared := none } := ⟨by simp, by simp⟩
      exact hnone.sendAll
  | declared =>
      rw [AmqpClient.callback, ensures_some, onDeclared]
      split
      · rename_i hchannel
        exact ⟨by simp, fun _ => hchannel⟩
      · exact h
  | error =>
      rw [AmqpClient.callback, onError]
      split
      · exact ensures_some.mpr h
      · exact Declared.closeSocket h
  | closed =>
      rw [AmqpClient.callback, onClosed]
      split
      · exact ensures_some.mpr h
      · exact Declared.closeSocket h

theorem Declared.startAsyncRead (h : Declared s) : Declared s.startAsyncRead := by
  rw [AmqpClient.startAsyncRead]
  split
  · exact h
  · exact h

theorem Declared.reconnect (h : Declared s) : Ensures Declared (s.reconnect attempt) := by
  have hclosed : Ensures Declared (s.closeConnection attempt.closing) := by
    rw [closeConnection]
    split
    · rw [Option.map_eq_bind]
      exact h.sendAll.bind fun s' h' => ensures_some.mpr h'
    · exact ensures_some.mpr h
  refine hclosed.bind fun s₁ h₁ => h₁.closeSocket.bind fun s₂ h₂ => ?_
  rw [connect]
  split
  · exact ensures_some.mpr h₂
  dsimp only
  split
  · exact ensures_some.mpr h₂
  · rw [Option.map_eq_bind]
    refine Ensures.bind (Declared.sendAll ?_) fun s₃ h₃ => ensures_some.mpr (Declared.startAsyncRead ?_)
    · exact h₂
    · exact h₃

theorem Declared.received (h : Declared s) (callbacks : Option (List AmqpCallback)) :
    Ensures Declared (s.onReceived callbacks) := by
  cases callbacks with
  | none => exact h.closeSocket
  | some callbacks =>
      rw [onReceived]
      split
      · exact ensures_some.mpr h
      · rw [Option.map_eq_bind]
        refine Ensures.bind (ensures_foldlM (fun _ h callback _ => h.callback callback) h) fun s' h' => ?_
        exact ensures_some.mpr h'.startAsyncRead

theorem Declared.step (h : Declared s) (event : AmqpClientEvent) : Ensures Declared (step event s) := by
  cases event with
  | received n callbacks =>
      rw [AmqpClient.step]
      split
      · refine Declared.received ?_ callbacks
        exact h
      · exact ensures_some.mpr h
  | timerTick completion usable sends =>
      simp only [AmqpClient.step, onTimerTick]
      split
      · split
        · exact ensures_some.mpr h
        · split
          · rw [Option.map_eq_bind]
            split
            · refine Ensures.bind (Declared.sendAll ?_) fun s' h' => ensures_some.mpr ?_
              · exact h
              · exact h'
            · exact ensures_some.mpr h
          · exact ensures_some.mpr h
      · exact ensures_some.mpr h
  | reconnectTick completion attempt =>
      simp only [AmqpClient.step, onReconnectionTimerTick]
      split
      · split
        · exact ensures_some.mpr h
        · exact Declared.reconnect h
      · exact ensures_some.mpr h
  | post message sends =>
      simp only [AmqpClient.step, publish]
      split
      · split
        · exact Declared.sendAll h
        · exact ensures_some.mpr h
      · exact ensures_some.mpr h
  | disconnect sends =>
      simp only [AmqpClient.step, AmqpClient.disconnect]
      split
      · exact h.sendAll
      · exact ensures_some.mpr h
  | reset => exact ensures_some.mpr h

theorem run_declared (first : ConnectAttempt) (events : List AmqpClientEvent) :
    Ensures Declared (run first events) :=
  ensures_run (fun event _ _ h => h.step event) (Declared.reconnect ⟨by simp, by simp⟩)

theorem published_startAsyncRead : s.startAsyncRead.published = s.published := by
  rw [startAsyncRead]
  split <;> rfl

-- Nothing but the closure of a post hands anything to the channel.
theorem published_callback (callback : AmqpCallback) :
    Ensures (fun t => t.published = s.published) (s.callback connection callback) := by
  by_cases hclosed : callback = .closed
  · subst hclosed
    rw [AmqpClient.callback, onClosed]
    split
    · exact ensures_some.mpr rfl
    · rw [closeSocket]
      split
      · exact ensures_some.mpr rfl
      · split
        · exact ensures_some.mpr rfl
        · exact ensures_none
  · exact (within_callback (.refl s) hclosed).mono fun _ h => h.published

theorem published_reconnect : Ensures (fun t => t.published = s.published) (s.reconnect attempt) := by
  refine ensures_reconnect fun s' ⟨_, _, _, _, hpublished⟩ => ?_
  rw [connect, ← hpublished]
  split
  · exact ensures_some.mpr rfl
  dsimp only
  split
  · exact ensures_some.mpr rfl
  · rw [Option.map_eq_bind]
    refine (within_sendAll (.refl _)).bind fun s'' hwithin => ensures_some.mpr ?_
    exact published_startAsyncRead.trans hwithin.published

theorem published_received (callbacks : Option (List AmqpCallback)) :
    Ensures (fun t => t.published = s.published) (s.onReceived callbacks) := by
  cases callbacks with
  | none => exact within_closeSocket.mono fun _ h => h.published
  | some callbacks =>
      rw [onReceived]
      split
      · exact ensures_some.mpr rfl
      · rename_i connection _
        have hturns : Ensures (fun t => t.published = s.published) (callbacks.foldlM (callback connection) s) :=
          ensures_foldlM (fun s' h callback _ => (published_callback callback).mono fun _ h' => h'.trans h) rfl
        rw [Option.map_eq_bind]
        exact hturns.bind fun s' h => ensures_some.mpr (published_startAsyncRead.trans h)

theorem published_step (h : Declared s) (event : AmqpClientEvent) :
    Ensures (fun t => t.published = s.published ++ s.publishes event) (step event s) := by
  cases event with
  | received n callbacks =>
      simp only [publishes, List.append_nil, AmqpClient.step]
      split
      · exact published_received callbacks
      · exact ensures_some.mpr rfl
  | timerTick completion usable sends =>
      simp only [publishes, List.append_nil, AmqpClient.step, onTimerTick]
      split
      · split
        · exact ensures_some.mpr rfl
        · split
          · rw [Option.map_eq_bind]
            split
            · exact (within_sendAll (.refl _)).bind fun s' hwithin => ensures_some.mpr hwithin.published
            · exact ensures_some.mpr rfl
          · exact ensures_some.mpr rfl
      · exact ensures_some.mpr rfl
  | reconnectTick completion attempt =>
      simp only [publishes, List.append_nil, AmqpClient.step, onReconnectionTimerTick]
      split
      · split
        · exact ensures_some.mpr rfl
        · exact published_reconnect
      · exact ensures_some.mpr rfl
  | post message sends =>
      simp only [publishes, AmqpClient.step, publish]
      cases hconnection : s.connection with
      | none => exact ensures_some.mpr (List.append_nil _).symm
      | some connection =>
          dsimp only
          by_cases hdeclared : s.declared = some connection
          · have hchannel : s.channel = some connection := (h.channel (by simp [hdeclared])).trans hdeclared
            have havailable : s.available = true := h.available.mpr (by simp [hdeclared])
            rw [if_pos hdeclared, hchannel]
            simp only [havailable, and_self, if_true]
            exact (within_sendAll (.refl _)).mono fun _ hwithin => hwithin.published
          · rw [if_neg hdeclared, List.append_nil]
            split
            · rename_i c channel hc hchannel
              obtain rfl := Option.some.inj hc
              rw [if_neg]
              · exact ensures_some.mpr rfl
              · rintro ⟨havailable, rfl⟩
                exact hdeclared ((h.channel (h.available.mp havailable)).symm.trans hchannel)
            · exact ensures_some.mpr rfl
  | disconnect sends =>
      simp only [publishes, List.append_nil, AmqpClient.step, AmqpClient.disconnect]
      split
      · exact (within_sendAll (.refl _)).mono fun _ hwithin => hwithin.published
      · exact ensures_some.mpr rfl
  | reset => exact ensures_some.mpr (List.append_nil _).symm

-- In every run, a message that is posted is handed to the channel when the exchange
-- has been declared on the connection that there is, once, and on that connection;
-- otherwise it is lost. Nothing else is ever handed to it.
theorem run_published (first : ConnectAttempt) (events : List AmqpClientEvent) (event : AmqpClientEvent) :
    Ensures (fun s => Ensures (fun t => t.published = s.published ++ s.publishes event) (step event s))
      (run first events) :=
  (run_declared first events).mono fun _ h => published_step h event

end Published

end AmqpClient

end LiveReceptor.Supervisor

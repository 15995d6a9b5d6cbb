import LiveReceptor.Agreement.Link

namespace LiveReceptor.Agreement

open Supervisor Worker SimpleWorkerProto
open SwitchCommand (Turns)

theorem roomIdOf_roomFailedPayload (roomId : Int32) : roomIdOf (roomFailedPayload roomId) = roomId := by
  have hdecode := networkToHostLong_hostToNetworkLong roomId.toUInt32 []
  rw [List.append_nil] at hdecode
  show (networkToHostLong (hostToNetworkLong roomId.toUInt32)).toInt32 = roomId
  rw [hdecode, Int32.toInt32_toUInt32]

theorem isFailed_roomFailedPayload (roomId : Int32) : isFailed (roomFailedPayload roomId) :=
  ⟨Nat.le_refl _, rfl⟩

namespace Link

variable {w : Identifier} {link : Link} {r : Int32} {env : Env}

-- No ROOM_FAILED and ASSIGN for the same room are under way together.
def uncrossed (link : Link) : Bool :=
  link.failing.all fun roomId => !decide (.assign roomId ∈ link.down)

theorem not_assign_of_uncrossed (h : link.uncrossed = true) (hr : r ∈ link.failing) :
    .assign r ∉ link.down := by
  have hall := List.all_eq_true.mp h r hr
  simpa using hall

theorem mem_failing : r ∈ link.failing ↔ r ∈ link.up ∨
    ∃ task ∈ link.manager.closing, task.unreported = true ∧ task.roomId = r := by
  simp only [failing, List.mem_append, List.mem_map, List.mem_filter, and_assoc]

-- Where no report is under way, the packets under way turn what the worker has
-- into what the supervisor thinks it has.
structure Agreeing (worker : Identifier) (link : Link) : Prop where
  connected : Scheduler.Connected worker link.scheduler
  valid : link.manager.Valid
  registered : link.manager.Registered
  failed : ∀ roomId ∈ link.failing, link.manager.hasLive roomId = false
  turns : ∀ roomId, roomId ∉ link.failing → Turns (link.manager.hasLive roomId)
    (commandsFor roomId link.down) (link.scheduler.holds worker roomId)

section Supervisor

-- Where a report is under way, the worker will not have the room.
theorem Agreeing.turns_failing (h : Agreeing w link) (hcross : link.uncrossed = true)
    (hr : r ∈ link.failing) :
    Turns (link.manager.hasLive r) (commandsFor r link.down) false := by
  rw [h.failed r hr]
  refine SwitchCommand.turns_false_of_not_mem fun hon => ?_
  exact not_assign_of_uncrossed hcross hr (on_mem_commandsFor.mp hon)

theorem Agreeing.supervisor (h : Agreeing w link) {input : Input}
    (hstays : StaysConnected w (.supervisor input) link) :
    Agreeing w (step w (.supervisor input) link) := by
  obtain ⟨effects, htrace, hfollows⟩ := Scheduler.step_follows (w := w) input link.scheduler
  have hdrop : (Scheduler.step input link.scheduler).trace.drop link.scheduler.trace.length = effects := by
    rw [htrace, List.drop_left]
  have hnone : ∀ effect ∈ effects, ¬effect.Disturbs w := hdrop ▸ hstays
  obtain ⟨hconnected, hturns⟩ := hfollows h.connected hnone
  refine ⟨hconnected, h.valid, h.registered, h.failed, fun roomId hroom => ?_⟩
  show Turns _ (commandsFor roomId (link.down ++ packetsTo w _)) _
  rw [hdrop, commandsFor_append]
  exact (h.turns roomId hroom).append (hturns roomId)

-- A handler that sends nothing itself and then calls check_all_states.
theorem pass_turns {s t : Scheduler} {first : List Effect} (hfirst : t.trace = s.trace ++ first)
    (hsilent : ∀ effect ∈ first, effect.packetTo w = none) (hconnected : Scheduler.Connected w t)
    (hkept : .disconnect w ∉ (t.checkAllStates env).trace.drop s.trace.length) :
    Scheduler.Connected w (t.checkAllStates env) ∧ ∀ roomId, Turns (t.holds w roomId)
      (commandsFor roomId (packetsTo w ((t.checkAllStates env).trace.drop s.trace.length)))
      ((t.checkAllStates env).holds w roomId) := by
  have hpass : Scheduler.Follows (· = .disconnect w) w t (t.checkAllStates env) :=
    Scheduler.checkAllStates_follows (by rfl) t
  obtain ⟨effects, htrace, hfollows⟩ := hpass
  have hdrop : (t.checkAllStates env).trace.drop s.trace.length = first ++ effects := by
    rw [htrace, hfirst, List.append_assoc, List.drop_left]
  rw [hdrop] at hkept ⊢
  rw [packetsTo_append, packetsTo_eq_nil hsilent, List.nil_append]
  refine hfollows hconnected fun effect he heq => hkept ?_
  rw [← heq]
  exact List.mem_append_right _ he

-- The state in which the handler of a ROOM_FAILED calls check_all_states.
def failedState (env : Env) (worker : Identifier) (roomId : Int32) (s : Scheduler) : Scheduler :=
  ((s.emit (.received worker (roomFailedPayload roomId) s.authCode)).touchWorker env worker).deleteTask
    env worker roomId true

theorem handleBuffer_roomFailed {s : Scheduler} (hkey : s.workers.HasKey w) :
    s.handleBuffer env w (roomFailedPayload r) = (failedState env w r s).checkAllStates env := by
  have hfailed := isFailed_roomFailedPayload r
  rw [Scheduler.handleBuffer_known hfailed.1 hkey]
  dsimp only
  have hready : ¬(roomFailedPayload r).head? = some workerReadyCode :=
    fun hcode => Scheduler.not_isReady_of_isFailed hfailed ⟨hfailed.1, hcode⟩
  rw [if_neg hready, if_pos hfailed.2, roomIdOf_roomFailedPayload]
  rfl

theorem holds_failedState_self {s : Scheduler} : (failedState env w r s).holds w r = false := by
  unfold failedState Scheduler.holds
  rw [Scheduler.tasks_deleteTask]
  exact decide_eq_false fun hkey => (Keyed.hasKey_erase.mp hkey).2 rfl

theorem holds_failedState_of_ne {s : Scheduler} {roomId : Int32} (hne : roomId ≠ r) :
    (failedState env w r s).holds w roomId = s.holds w roomId := by
  unfold failedState Scheduler.holds
  rw [Scheduler.tasks_deleteTask, decide_eq_decide, Keyed.hasKey_erase]
  exact ⟨fun hkey => hkey.1, fun hkey => ⟨hkey, fun he => hne (Prod.ext_iff.mp he).2⟩⟩

-- What follows the deletion of the failed task is a pass like any other.
theorem Agreeing.deliverUp (h : Agreeing w link) (hcross : link.uncrossed = true)
    (hstays : StaysConnected w (.deliverUp env) link) : Agreeing w (step w (.deliverUp env) link) := by
  cases hup : link.up with
  | nil =>
      have hsame : step w (.deliverUp env) link = link := by
        show link.deliverUp env w = link
        unfold Link.deliverUp
        rw [hup]
      rw [hsame]
      exact h
  | cons failedRoom rest =>
      have hstep : step w (.deliverUp env) link = scheduled w
          ((failedState env w failedRoom link.scheduler).checkAllStates env) { link with up := rest } := by
        rw [← handleBuffer_roomFailed h.connected.1]
        show link.deliverUp env w = _
        unfold Link.deliverUp
        rw [hup]
      have hfirst : (failedState env w failedRoom link.scheduler).trace = link.scheduler.trace ++
          [.received w (roomFailedPayload failedRoom) link.scheduler.authCode] := Scheduler.trace_fail
      have hkept : .disconnect w ∉ ((failedState env w failedRoom link.scheduler).checkAllStates
          env).trace.drop link.scheduler.trace.length := by
        have hdisconnect := hstays
        unfold StaysConnected effects at hdisconnect
        rw [hstep] at hdisconnect
        exact hdisconnect
      obtain ⟨hconnected, hturns⟩ := pass_turns hfirst (by simp [Effect.packetTo])
        (h.connected.received w (roomFailedPayload failedRoom)).deleteTask hkept
      have hbefore : ∀ roomId, roomId ∈ link.failing ↔ roomId = failedRoom ∨
          roomId ∈ ({ link with up := rest } : Link).failing := by
        intro roomId
        rw [failing, hup, failing, List.cons_append, List.mem_cons]
      rw [hstep]
      refine ⟨hconnected, h.valid, h.registered, fun roomId hroom => ?_, fun roomId hroom => ?_⟩
      · exact h.failed roomId ((hbefore roomId).mpr (Or.inr hroom))
      · show Turns (link.manager.hasLive roomId) (commandsFor roomId (link.down ++ packetsTo w _)) _
        rw [commandsFor_append]
        refine Turns.append ?_ (hturns roomId)
        by_cases hsame : roomId = failedRoom
        · subst hsame
          rw [holds_failedState_self]
          exact h.turns_failing hcross ((hbefore roomId).mpr (Or.inl rfl))
        · rw [holds_failedState_of_ne hsame]
          exact h.turns roomId fun hfailing => ((hbefore roomId).mp hfailing).elim hsame hroom

end Supervisor

section Worker

theorem Agreeing.of_managed (h : Agreeing w link) {event : ConnectionEvent}
    (hharmless : BilibiliConnectionManager.Harmless event link.manager)
    (hfailed : ∀ roomId ∈ (managed event link).failing,
      (managed event link).manager.hasLive roomId = false)
    (hturns : ∀ roomId, roomId ∉ (managed event link).failing →
      Turns ((managed event link).manager.hasLive roomId) (commandsFor roomId link.down)
        (link.scheduler.holds w roomId)) : Agreeing w (managed event link) where
  connected := h.connected
  valid := h.valid.step event
  registered := (BilibiliConnectionManager.registered_step_iff h.valid h.registered event).mpr hharmless
  failed := hfailed
  turns := hturns

-- A step that neither opens nor closes a connection, nor reports one.
theorem Agreeing.of_same (h : Agreeing w link) {event : ConnectionEvent}
    (hharmless : BilibiliConnectionManager.Harmless event link.manager)
    (hlive : ∀ roomId, (managed event link).manager.hasLive roomId = link.manager.hasLive roomId)
    (hfailing : ∀ roomId, roomId ∈ (managed event link).failing ↔ roomId ∈ link.failing) :
    Agreeing w (managed event link) := by
  refine h.of_managed hharmless (fun roomId hroom => ?_) fun roomId hroom => ?_
  · rw [hlive]
    exact h.failed roomId ((hfailing roomId).mp hroom)
  · rw [hlive]
    exact h.turns roomId fun hr => hroom ((hfailing roomId).mpr hr)

theorem managed_eq {event : ConnectionEvent} {m : BilibiliConnectionManager} {reported : List Int32}
    (hstep : BilibiliConnectionManager.step event link.manager = m)
    (hfailures : m.failures = link.manager.failures ++ reported) :
    managed event link = { link with
      manager := m
      up := link.up ++ reported } := by
  unfold managed
  dsimp only
  rw [hstep, hfailures, List.drop_left]

theorem managed_of_silent {event : ConnectionEvent}
    (hfailures : (BilibiliConnectionManager.step event link.manager).failures = link.manager.failures) :
    managed event link = { link with manager := BilibiliConnectionManager.step event link.manager } := by
  rw [managed_eq rfl (hfailures.trans (List.append_nil _).symm), List.append_nil]

theorem managed_of_same {event : ConnectionEvent}
    (hstep : BilibiliConnectionManager.step event link.manager = link.manager) :
    managed event link = link := by
  rw [managed_eq hstep (List.append_nil _).symm, List.append_nil]

theorem Agreeing.destroy (h : Agreeing w link) (connection : Nat) :
    Agreeing w (managed (.destroy connection) link) := by
  have hsame : BilibiliConnectionManager.step (.destroy connection) link.manager = link.manager :=
    BilibiliConnectionManager.destroy_eq h.valid h.registered connection
  rw [managed_of_same hsame]
  exact h

-- The report of a close() goes from the one list of rooms to the other.
theorem Agreeing.reportFailure (h : Agreeing w link) (n : Nat) :
    Agreeing w (managed (.reportFailure n) link) := by
  by_cases hreports : ∃ task, link.manager.closing[n]? = some task ∧ task.unreported = true
  · obtain ⟨task, htask, hunreported⟩ := hreports
    have hstep : BilibiliConnectionManager.step (.reportFailure n) link.manager =
        { link.manager with
          closing := link.manager.closing.set n { task with unreported := false } }.onRoomFailed
            task.roomId := by
      show link.manager.reportFailure n = _
      unfold BilibiliConnectionManager.reportFailure
      rw [htask]
      exact if_pos hunreported
    have hmanaged : managed (.reportFailure n) link = _ := managed_eq hstep rfl
    refine h.of_same trivial (fun roomId => by rw [hmanaged]; rfl) fun roomId => ?_
    rw [hmanaged, mem_failing, mem_failing]
    show roomId ∈ link.up ++ [task.roomId] ∨ (∃ other ∈ link.manager.closing.set n
      { task with unreported := false }, other.unreported = true ∧ other.roomId = roomId) ↔ _
    rw [List.mem_append, List.mem_singleton]
    constructor
    · rintro ((hup | rfl) | ⟨other, hother, hun, hroom⟩)
      · exact Or.inl hup
      · exact Or.inr ⟨task, List.mem_of_getElem? htask, hunreported, rfl⟩
      · rcases List.mem_or_eq_of_mem_set hother with hold | rfl
        · exact Or.inr ⟨other, hold, hun, hroom⟩
        · cases hun
    · rintro (hup | ⟨other, hother, hun, hroom⟩)
      · exact Or.inl (Or.inl hup)
      · obtain ⟨k, hk⟩ := List.mem_iff_getElem?.mp hother
        by_cases hkn : n = k
        · obtain rfl := Option.some.inj (htask.symm.trans (hkn ▸ hk))
          exact Or.inl (Or.inr hroom.symm)
        · refine Or.inr ⟨other, List.mem_of_getElem? (i := k) ?_, hun, hroom⟩
          rw [List.getElem?_set_ne hkn]
          exact hk
  · have hsame : BilibiliConnectionManager.step (.reportFailure n) link.manager = link.manager := by
      show link.manager.reportFailure n = _
      unfold BilibiliConnectionManager.reportFailure
      split
      · rfl
      · rename_i task htask
        exact if_neg fun hunreported => hreports ⟨task, htask, hunreported⟩
    rw [managed_of_same hsame]
    exact h

theorem Agreeing.endClose (h : Agreeing w link) {n : Nat}
    (hharmless : BilibiliConnectionManager.Harmless (.endClose n) link.manager) :
    Agreeing w (managed (.endClose n) link) := by
  by_cases hends : ∃ task, link.manager.closing[n]? = some task ∧ task.unreported = false
  · obtain ⟨task, htask, hreported⟩ := hends
    have hstep : BilibiliConnectionManager.step (.endClose n) link.manager =
        { link.manager with closing := link.manager.closing.eraseIdx n }.onRoomClosed task.roomId := by
      show link.manager.endClose n = _
      unfold BilibiliConnectionManager.endClose
      rw [htask]
      exact if_neg (by simp [hreported])
    have hmanaged : managed (.endClose n) link = _ := managed_eq hstep (List.append_nil _).symm
    refine h.of_same hharmless (fun roomId => by rw [hmanaged]; rfl) fun roomId => ?_
    rw [hmanaged, mem_failing, mem_failing]
    show roomId ∈ link.up ++ [] ∨ (∃ other ∈ link.manager.closing.eraseIdx n,
      other.unreported = true ∧ other.roomId = roomId) ↔ _
    rw [List.append_nil]
    refine or_congr_right ⟨?_, ?_⟩
    · rintro ⟨other, hother, hrest⟩
      exact ⟨other, List.mem_of_mem_eraseIdx hother, hrest⟩
    · rintro ⟨other, hother, hun, hroom⟩
      obtain ⟨k, hk⟩ := List.mem_iff_getElem?.mp hother
      refine ⟨other, List.mem_eraseIdx_iff_getElem?.mpr ⟨k, fun hkn => ?_, hk⟩, hun, hroom⟩
      obtain rfl := Option.some.inj (htask.symm.trans (hkn ▸ hk))
      rw [hreported] at hun
      cases hun
  · have hsame : BilibiliConnectionManager.step (.endClose n) link.manager = link.manager := by
      show link.manager.endClose n = _
      unfold BilibiliConnectionManager.endClose
      split
      · rfl
      · rename_i task htask
        exact if_pos (by simpa using fun hreported => hends ⟨task, htask, hreported⟩)
    rw [managed_of_same hsame]
    exact h

-- The room has no live connection from now on, and its report is under way.
theorem Agreeing.beginClose (h : Agreeing w link) (connection : Nat) :
    Agreeing w (managed (.beginClose connection true) link) := by
  by_cases hlive : ∃ object, link.manager.objects[connection]? = some object ∧ object.live = true
  · obtain ⟨object, hobject, hopen⟩ := hlive
    have hstep : BilibiliConnectionManager.step (.beginClose connection true) link.manager =
        { link.manager.setClosed connection with
          closing := link.manager.closing ++
            [{ roomId := object.roomId, connection, unreported := true }] } := by
      show link.manager.beginClose connection true = _
      unfold BilibiliConnectionManager.beginClose
      rw [hobject]
      exact if_pos hopen
    have hmanaged : managed (.beginClose connection true) link = _ :=
      managed_eq hstep (List.append_nil _).symm
    have hafter : ∀ roomId, (managed (.beginClose connection true) link).manager.hasLive roomId = true ↔
        link.manager.hasLive roomId = true ∧ roomId ≠ object.roomId := fun roomId =>
      BilibiliConnectionManager.hasLive_beginClose h.registered ⟨object, hobject, hopen, rfl⟩ true
    have hfailing : ∀ roomId, roomId ∈ (managed (.beginClose connection true) link).failing ↔
        roomId ∈ link.failing ∨ roomId = object.roomId := by
      intro roomId
      rw [hmanaged, mem_failing, mem_failing, or_assoc]
      show (roomId ∈ link.up ++ [] ∨ ∃ task ∈ link.manager.closing ++
        [{ roomId := object.roomId, connection, unreported := true }],
          task.unreported = true ∧ task.roomId = roomId) ↔ _
      rw [List.append_nil]
      refine or_congr_right ⟨?_, ?_⟩
      · rintro ⟨task, htask, hun, hroom⟩
        rcases List.mem_append.mp htask with hold | hnew
        · exact Or.inl ⟨task, hold, hun, hroom⟩
        · rw [List.mem_singleton.mp hnew] at hroom
          exact Or.inr hroom.symm
      · rintro (⟨task, hold, hrest⟩ | rfl)
        · exact ⟨task, List.mem_append_left _ hold, hrest⟩
        · exact ⟨_, List.mem_append_right _ (List.mem_singleton_self _), rfl, rfl⟩
    refine h.of_managed trivial (fun roomId hroom => ?_) fun roomId hroom => ?_
    · rw [Bool.eq_false_iff, Ne, hafter]
      rintro ⟨hbefore, hne⟩
      rcases (hfailing roomId).mp hroom with hold | hsame
      · rw [h.failed roomId hold] at hbefore
        cases hbefore
      · exact hne hsame
    · rw [hfailing, not_or] at hroom
      have hsame : (managed (.beginClose connection true) link).manager.hasLive roomId =
          link.manager.hasLive roomId := by
        rw [Bool.eq_iff_iff, hafter]
        exact and_iff_left hroom.2
      rw [hsame]
      exact h.turns roomId hroom.1
  · have hsame : BilibiliConnectionManager.step (.beginClose connection true) link.manager =
        link.manager := by
      show link.manager.beginClose connection true = _
      unfold BilibiliConnectionManager.beginClose
      split
      · rfl
      · rename_i object hobject
        exact if_neg fun hopen => hlive ⟨object, hobject, hopen⟩
    rw [managed_of_same hsame]
    exact h

-- A packet that the worker has carried out without reporting anything concerns
-- the connections of its own room only.
theorem Agreeing.delivered (h : Agreeing w link) {packet : Packet} {rest : List Packet}
    {event : ConnectionEvent} {m : BilibiliConnectionManager} (hdown : link.down = packet :: rest)
    (hstep : BilibiliConnectionManager.step event link.manager = m)
    (hsilent : m.failures = link.manager.failures ∧ m.closing = link.manager.closing)
    (hregistered : m.Registered)
    (hothers : ∀ roomId, roomId ≠ packet.roomId → m.hasLive roomId = link.manager.hasLive roomId)
    (hfailed : packet.roomId ∈ link.failing → m.hasLive packet.roomId = false)
    (hturns : packet.roomId ∉ link.failing → Turns (m.hasLive packet.roomId)
      (commandsFor packet.roomId rest) (link.scheduler.holds w packet.roomId)) :
    Agreeing w (managed event { link with down := rest }) := by
  subst hstep
  have hmanaged : managed event { link with down := rest } =
      { link with
        manager := BilibiliConnectionManager.step event link.manager
        down := rest } := managed_of_silent (by exact hsilent.1)
  have hfailing : ({ link with
      manager := BilibiliConnectionManager.step event link.manager
      down := rest } : Link).failing = link.failing := by
    unfold failing
    dsimp only
    rw [hsilent.2]
  rw [hmanaged]
  refine ⟨h.connected, h.valid.step event, hregistered, fun roomId hroom => ?_, fun roomId hroom => ?_⟩
  · rw [hfailing] at hroom
    by_cases hsame : roomId = packet.roomId
    · subst hsame
      exact hfailed hroom
    · exact (hothers roomId hsame).trans (h.failed roomId hroom)
  · rw [hfailing] at hroom
    by_cases hsame : roomId = packet.roomId
    · subst hsame
      exact hturns hroom
    · have hbefore := h.turns roomId hroom
      rw [hdown, commandsFor_cons_of_ne (Ne.symm hsame), ← hothers roomId hsame] at hbefore
      exact hbefore

-- The worker has no live connection for the room when the ASSIGN arrives.
theorem Agreeing.assigned (h : Agreeing w link) (hcross : link.uncrossed = true) {assigned : Int32}
    {rest : List Packet} (hdown : link.down = .assign assigned :: rest) :
    Agreeing w (managed (.openConnection assigned) { link with down := rest }) := by
  have hquiet : assigned ∉ link.failing := by
    intro hfailing
    apply not_assign_of_uncrossed hcross hfailing
    rw [hdown]
    exact List.mem_cons_self
  have hturns := h.turns assigned hquiet
  have hcommands : commandsFor assigned link.down = .on :: commandsFor assigned rest := by
    rw [hdown]
    exact commandsFor_cons_self (.assign assigned) rest
  rw [hcommands, SwitchCommand.turns_on_cons] at hturns
  obtain ⟨hnone, hrest⟩ := hturns
  have hlive : ∀ roomId, (link.manager.openConnection assigned).hasLive roomId = true ↔
      link.manager.hasLive roomId = true ∨ roomId = assigned := fun _ =>
    BilibiliConnectionManager.hasLive_openConnection h.valid hnone
  refine h.delivered hdown rfl (BilibiliConnectionManager.openConnection_silent h.valid hnone)
    ((BilibiliConnectionManager.registered_openConnection h.valid h.registered assigned).mpr hnone)
    (fun roomId hne => ?_) (fun hfailing => absurd hfailing hquiet) fun _ => ?_
  · rw [Bool.eq_iff_iff]
    exact (hlive roomId).trans (or_iff_left hne)
  · have hopened : (link.manager.openConnection assigned).hasLive assigned = true :=
      (hlive assigned).mpr (Or.inr rfl)
    exact hopened.symm ▸ hrest

-- An UNASSIGN closes the connection of its room, if there is one.
theorem Agreeing.unassigned (h : Agreeing w link) {unassigned : Int32} {rest : List Packet}
    (hdown : link.down = .unassign unassigned :: rest) :
    Agreeing w (managed (.closeConnection unassigned) { link with down := rest }) := by
  have hlive : ∀ roomId, (link.manager.closeConnection unassigned).hasLive roomId = true ↔
      link.manager.hasLive roomId = true ∧ roomId ≠ unassigned := fun _ =>
    BilibiliConnectionManager.hasLive_closeConnection h.valid h.registered
  have hclosed : (link.manager.closeConnection unassigned).hasLive unassigned = false := by
    rw [Bool.eq_false_iff, Ne, hlive]
    exact fun hboth => hboth.2 rfl
  refine h.delivered hdown rfl BilibiliConnectionManager.closeConnection_silent
    (BilibiliConnectionManager.registered_closeConnection h.valid h.registered unassigned)
    (fun roomId hne => ?_) (fun _ => hclosed) fun hquiet => ?_
  · rw [Bool.eq_iff_iff]
    exact (hlive roomId).trans (and_iff_left hne)
  · have hbefore := h.turns unassigned hquiet
    have hcommands : commandsFor unassigned link.down = .off :: commandsFor unassigned rest := by
      rw [hdown]
      exact commandsFor_cons_self (.unassign unassigned) rest
    rw [hcommands, SwitchCommand.turns_off_cons] at hbefore
    exact hclosed.symm ▸ hbefore

theorem Agreeing.deliverDown (h : Agreeing w link) (hcross : link.uncrossed = true) :
    Agreeing w link.deliverDown := by
  unfold Link.deliverDown
  split
  · exact h
  · rename_i packet rest hdown
    cases packet with
    | assign roomId => exact h.assigned hcross hdown
    | unassign roomId => exact h.unassigned hdown

end Worker

section Run

-- The supervisor accepts the WORKER_READY of a worker that has no connection to
-- any room, nor a failure left to report, and does not drop it at once.
structure Starts (env : Env) (worker : Identifier) (payload : Bytes) (s : Scheduler)
    (manager : BilibiliConnectionManager) : Prop where
  connected : Scheduler.Connected worker s
  ready : isReady payload
  authenticated : authenticated s.authCode payload
  closed : manager.objects.all (!·.live) = true
  reported : manager.closing.all (!·.unreported) = true
  kept : .disconnect worker ∉
    (s.handleBuffer env worker payload).trace.drop s.trace.length

-- What keeps commands and reports apart: a report and an ASSIGN for the same
-- room do not cross, a room fails by way of close(), and no close() clears the
-- entry of another live connection.
def Orderly (event : LinkEvent) (link : Link) : Prop :=
  link.uncrossed = true ∧
    match event with
    | .endClose n => BilibiliConnectionManager.Harmless (.endClose n) link.manager
    | .failInit _ => False
    | _ => True

instance (event : LinkEvent) (link : Link) : Decidable (Orderly event link) := by
  unfold Orderly
  split <;> infer_instance

theorem Agreeing.step (h : Agreeing w link) {event : LinkEvent} (hstays : StaysConnected w event link)
    (horderly : Orderly event link) : Agreeing w (step w event link) := by
  obtain ⟨hcross, hevent⟩ := horderly
  cases event with
  | supervisor input => exact h.supervisor hstays
  | deliverDown => exact h.deliverDown hcross
  | deliverUp env => exact h.deliverUp hcross hstays
  | beginClose connection => exact h.beginClose connection
  | reportFailure n => exact h.reportFailure n
  | endClose n => exact h.endClose hevent
  | destroy connection => exact h.destroy connection
  | failInit connection => exact absurd hevent id

-- The state in which the handler of an accepted WORKER_READY calls
-- check_all_states.
def readyState (env : Env) (worker : Identifier) (payload : Bytes) (s : Scheduler) : Scheduler :=
  ((s.emit (.received worker payload s.authCode)).touchWorker env worker).readyWorker env worker payload

theorem handleBuffer_ready {payload : Bytes} {s : Scheduler} (hkey : s.workers.HasKey w)
    (hready : isReady payload) (hauth : authenticated s.authCode payload) :
    s.handleBuffer env w payload = (readyState env w payload s).checkAllStates env := by
  rw [Scheduler.handleBuffer_known hready.1 hkey]
  dsimp only
  rw [if_pos hready.2]
  unfold Scheduler.handleReady
  dsimp only
  rw [if_pos (by exact hauth)]
  rfl

-- The WORKER_READY takes all the tasks of the worker away.
theorem holds_readyState {payload : Bytes} {s : Scheduler} :
    (readyState env w payload s).holds w r = false := by
  apply decide_eq_false
  unfold readyState
  rw [Scheduler.tasks_readyWorker]
  rintro ⟨task, htask, hkey⟩
  exact of_decide_eq_true (Keyed.mem_filter.mp htask).2 (congrArg Prod.fst hkey)

theorem start_agreeing {payload : Bytes} {s : Scheduler} {manager : BilibiliConnectionManager}
    (h : Starts env w payload s manager) (hvalid : manager.Valid) :
    Agreeing w (start env w payload s manager) := by
  have hbuffer : s.handleBuffer env w payload = (readyState env w payload s).checkAllStates env :=
    handleBuffer_ready h.connected.1 h.ready h.authenticated
  have hfirst : (readyState env w payload s).trace =
      s.trace ++ [.received w payload s.authCode, .reset w] := Scheduler.trace_ready h.connected.1
  obtain ⟨hconnected, hturns⟩ := pass_turns hfirst (by simp [Effect.packetTo])
    (h.connected.received w payload).readyWorker (hbuffer ▸ h.kept)
  have hlive : ∀ roomId, manager.hasLive roomId = false := by
    intro roomId
    rw [BilibiliConnectionManager.hasLive, List.any_eq_false]
    intro object hobject
    have hclosed := List.all_eq_true.mp h.closed object hobject
    simp_all
  have hregistered : manager.Registered := by
    intro roomId connection hconnection
    have hany := BilibiliConnectionManager.hasLive_iff.mpr ⟨connection, hconnection⟩
    rw [hlive roomId] at hany
    cases hany
  refine ⟨?_, hvalid, hregistered, fun roomId _ => hlive roomId, fun roomId _ => ?_⟩
  · show Scheduler.Connected w (s.handleBuffer env w payload)
    rw [hbuffer]
    exact hconnected
  · have hroom := hturns roomId
    rw [holds_readyState, ← hbuffer, ← hlive roomId] at hroom
    exact hroom

theorem Agreeing.agrees (h : Agreeing w link) (hdown : link.down = []) (hfailing : link.failing = []) :
    Agrees w link := by
  intro roomId
  have hturns := h.turns roomId (by rw [hfailing]; exact List.not_mem_nil)
  rw [hdown] at hturns
  have hsame : link.manager.hasLive roomId = link.scheduler.holds w roomId := hturns
  rw [hsame]
  exact decide_eq_true_iff.symm

-- Between a supervisor and a worker that have run in any way before, over one
-- connection: whenever nothing is under way, both sides agree on the rooms.
theorem run_agrees (config : Config) (inputs : List Input) (connectionEvents : List ConnectionEvent)
    (env : Env) (worker : Identifier) (payload : Bytes) (events : List LinkEvent)
    (hstart : Starts env worker payload (Scheduler.run config inputs)
      (BilibiliConnectionManager.run connectionEvents))
    (hstays : Runs.EveryStep (step worker) (StaysConnected worker)
      (start env worker payload (Scheduler.run config inputs)
        (BilibiliConnectionManager.run connectionEvents)) events)
    (horderly : Runs.EveryStep (step worker) Orderly
      (start env worker payload (Scheduler.run config inputs)
        (BilibiliConnectionManager.run connectionEvents)) events) :
    Runs.EveryState (step worker) (fun link => link.down = [] → link.failing = [] → Agrees worker link)
      (start env worker payload (Scheduler.run config inputs)
        (BilibiliConnectionManager.run connectionEvents)) events := by
  have hvalid : (BilibiliConnectionManager.run connectionEvents).Valid :=
    Runs.run_invariant (fun event _ h => h.step event) BilibiliConnectionManager.valid_initial
      connectionEvents
  have hstep : ∀ event link, Agreeing worker link →
      StaysConnected worker event link ∧ Orderly event link → Agreeing worker (step worker event link) :=
    fun _ _ h hboth => h.step hboth.1 hboth.2
  exact Runs.everyState_of hstep (fun _ h => h.agrees) (start_agreeing hstart hvalid)
    (hstays.and horderly)

section Example

-- Two workers connect, and there is one room.
def exampleInputs : List Input :=
  [{ env := .at 0, event := .accept .accepted [5] },
    { env := .at 0, event := .accept .accepted [6] },
    { env := .at 0, event := .updateRoomLists [1] }]

def tickAt (n : Int) : LinkEvent := .supervisor { env := .at (seconds n), event := .tick .expired }

-- The room is assigned to the worker, and fails there.
def failingRun : List LinkEvent :=
  [tickAt 13, .deliverDown, .beginClose 0, .reportFailure 0, .endClose 0, .deliverUp (.at (seconds 14))]

theorem run_agrees_failing : Runs.EveryState (step 5)
    (fun link => link.down = [] → link.failing = [] → Agrees 5 link)
    (start (.at (seconds 10)) 5 (plainReady 1) (Scheduler.run plainConfig exampleInputs)
      (BilibiliConnectionManager.run [])) failingRun :=
  run_agrees plainConfig exampleInputs [] (.at (seconds 10)) 5 (plainReady 1) failingRun
    ⟨by decide, by decide, by decide, by decide, by decide, by decide⟩ (by decide) (by decide)

-- The room fails while both workers serve it. Before the report arrives, the
-- supervisor takes the room from the worker for the sake of a second one, and
-- with the next tick gives it back.
def crossingRun : List LinkEvent :=
  [tickAt 13, .deliverDown,
    .supervisor { env := .at (seconds 16), event := .payload 6 (plainReady 1) }, tickAt 19,
    .supervisor { env := .at (seconds 20), event := .updateRoomLists [1, 2] },
    .beginClose 0, .reportFailure 0, .endClose 0, tickAt 22, .deliverDown, tickAt 25,
    .deliverDown, .deliverDown, .deliverUp (.at (seconds 26))]

theorem run_agrees_refuted : ¬∀ config inputs connectionEvents env worker payload events,
    Starts env worker payload (Scheduler.run config inputs)
      (BilibiliConnectionManager.run connectionEvents) →
    Runs.EveryStep (step worker) (StaysConnected worker)
      (start env worker payload (Scheduler.run config inputs)
        (BilibiliConnectionManager.run connectionEvents)) events →
    Runs.EveryState (step worker) (fun link => link.down = [] → link.up = [] → Agrees worker link)
      (start env worker payload (Scheduler.run config inputs)
        (BilibiliConnectionManager.run connectionEvents)) events := by
  intro h
  have hstates := h plainConfig exampleInputs [] (.at (seconds 10)) 5 (plainReady 1) crossingRun
    ⟨by decide, by decide, by decide, by decide, by decide, by decide⟩ (by decide)
  have hlast := Runs.everyState_iff_prefix.mp hstates crossingRun [] (List.append_nil _).symm
  have hroom := (hlast (by decide) (by decide) 1).mpr (by decide)
  exact absurd hroom (by decide)

end Example

end Run

end Link

end LiveReceptor.Agreement

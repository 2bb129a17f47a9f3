import TcpChat.Client.HandshakeProtocol
import TcpChat.Server.Operations
import TcpChat.Server.Ownership
import TcpChat.Server.RoomIds

/-!
# The room fields of a session

That a client is in a room is recorded twice, by the state of its session and by a room id that
is not empty. The announcement sets the state alone, so it relies on being the first of all.
-/

namespace TcpChat.Server

open Base Base.Runs
set_option autoImplicit false

/-- The state of a session and its room id say the same, and so does the test for both. -/
structure RoomFields (session : ClientSession) : Prop where
  inRoom_iff : session.state = .inRoom ↔ session.currentRoomId.length = roomIdLength
  outside : session.state ≠ .inRoom → session.currentRoomId = .empty
  guard : session.hasRoom = true ↔ session.state = .inRoom

def RoomFieldsOk (sys : System) : Prop :=
  ∀ c, (sys.server.session c).active = true → RoomFields (sys.server.session c)

/-- The handler has not come to its loop yet. -/
def BeforeLoop : Pc → Prop
  | .loop | .exiting | .gone => False
  | _ => True

/-- A session keeps the empty room id it was made with until its handler starts to serve it. -/
structure RoomFieldsInv (sys : System) : Prop where
  fields : RoomFieldsOk sys
  empty : ∀ n c pc, Live sys n c pc → (sys.server.session c).active = true →
    sys.occupant c = n → BeforeLoop pc → (sys.server.session c).currentRoomId = .empty

section Fields
variable {session v : ClientSession}

theorem roomFields_of_inRoom (hstate : session.state = .inRoom)
    (hid : session.currentRoomId.length = roomIdLength) : RoomFields session := by
  have hlong : 0 < session.currentRoomId.length := by
    rw [hid]
    decide
  refine ⟨iff_of_true hstate hid, fun hne => absurd hstate hne, ?_⟩
  simp [ClientSession.hasRoom, hstate, hlong]

theorem roomFields_of_outside (hstate : session.state ≠ .inRoom)
    (hid : session.currentRoomId = .empty) : RoomFields session := by
  have hshort : session.currentRoomId.length ≠ roomIdLength := by
    rw [hid]
    decide
  refine ⟨iff_of_false hstate hshort, fun _ => hid, ?_⟩
  simp [ClientSession.hasRoom, hstate]

/-- The other fields do not matter. -/
theorem RoomFields.congr (h : RoomFields session) (hstate : v.state = session.state)
    (hid : v.currentRoomId = session.currentRoomId) : RoomFields v := by
  by_cases hin : session.state = .inRoom
  · exact roomFields_of_inRoom (hstate.trans hin) (by rw [hid, h.inRoom_iff.mp hin])
  · exact roomFields_of_outside (by rwa [hstate]) (hid.trans (h.outside hin))

theorem roomFields_enterRoom {roomId : CString} (h : roomId.length = roomIdLength) :
    RoomFields (session.enterRoom roomId) := by
  apply roomFields_of_inRoom rfl
  change (roomId.take roomIdLength).length = roomIdLength
  rw [CString.length_take, h, Nat.min_self]

end Fields

/-- The id of a room that has been created is generated. -/
theorem length_of_create {libc : Libc} {now clientId : Int} {manager rooms : RoomManager}
    {roomName roomId : CString}
    (heq : roomManagerCreateRoom libc now manager roomName clientId = (rooms, some roomId)) :
    roomId.length = roomIdLength := by
  unfold roomManagerCreateRoom at heq
  split at heq
  · cases heq
  · split at heq
    · cases heq
    · cases heq
      exact length_roomGenerateId libc now

section Served
variable {libc : Libc} {env : Env} {s : State} {c d : Slot} {r : Request}
  {sessions : Slot → ClientSession} {rooms : RoomManager}

/-- A request that moves a session between rooms writes both fields. -/
theorem Outcome.roomFields (h : Outcome libc env s c r sessions rooms)
    (hactive : (sessions d).active = true) (hd : RoomFields (s.session d)) :
    RoomFields (sessions d) := by
  cases h with
  | talk | createRefused | joinRefused => exact hd
  | announced =>
    dsimp only at hactive ⊢
    rwa [eq_of_cleaned_active hactive]
  | renamed =>
    dsimp only at hactive ⊢
    rw [eq_of_cleaned_active hactive]
    split
    · rename_i hdc
      subst hdc
      exact hd.congr rfl rfl
    · exact hd
  | created _ heq =>
    by_cases hdc : d = c
    · subst hdc
      rw [Function.update_self]
      exact roomFields_enterRoom (length_of_create heq)
    · rwa [Function.update_of_ne hdc]
  | joined hlen =>
    by_cases hdc : d = c
    · subst hdc
      rw [Function.update_self]
      exact roomFields_enterRoom hlen
    · rwa [Function.update_of_ne hdc]
  | left =>
    by_cases hdc : d = c
    · subst hdc
      rw [Function.update_self]
      exact roomFields_of_outside (fun hstate => by cases hstate) rfl
    · rwa [Function.update_of_ne hdc]

/-- The room id of another client is cleared with its session only. -/
theorem Outcome.roomId_of_ne (h : Outcome libc env s c r sessions rooms) (hdc : d ≠ c)
    (hactive : (sessions d).active = true) :
    (sessions d).currentRoomId = (s.session d).currentRoomId := by
  cases h with
  | talk | createRefused | joinRefused => rfl
  | announced =>
    dsimp only at hactive ⊢
    rw [eq_of_cleaned_active hactive]
  | renamed =>
    dsimp only at hactive ⊢
    rw [eq_of_cleaned_active hactive, if_neg hdc]
  | created | joined | left => rw [Function.update_of_ne hdc]

end Served

section Handler
variable {libc : Libc} {s : State} {h : Handler} {input : Input} {d : Slot}

/-- What a step of a handler does to the room fields of a session that stays active. -/
theorem Handler.room_step
    (hactive : ((h.step libc s input).1.session d).active = true) :
    (((h.step libc s input).1.session d).state = (s.session d).state ∧
      ((h.step libc s input).1.session d).currentRoomId = (s.session d).currentRoomId) ∨
    (d = h.slot ∧ h.pc = .welcome ∧ ((h.step libc s input).1.session d).state = .inLobby ∧
      ((h.step libc s input).1.session d).currentRoomId = (s.session d).currentRoomId) ∨
    (h.pc = .loop ∧
      (RoomFields (s.session d) → RoomFields ((h.step libc s input).1.session d)) ∧
      (d ≠ h.slot →
        ((h.step libc s input).1.session d).currentRoomId = (s.session d).currentRoomId)) := by
  obtain ⟨c, pc⟩ := h
  have hshaking : Shaking pc →
      (((⟨c, pc⟩ : Handler).step libc s input).1.session d).state = (s.session d).state ∧
        (((⟨c, pc⟩ : Handler).step libc s input).1.session d).currentRoomId =
          (s.session d).currentRoomId := by
    intro hpc
    obtain ⟨es, v, heq, hv, _⟩ := Handler.shaking_step libc s c input hpc
    rw [heq, State.session_setSession]
    split
    · rename_i hdc
      rw [hdc]
      exact ⟨hv.state, hv.currentRoomId⟩
    · exact ⟨rfl, rfl⟩
  cases pc with
  | awaitSyn | sendSynAck | awaitAck => exact Or.inl (hshaking trivial)
  | welcome =>
    by_cases hdc : d = c
    · subst hdc
      refine Or.inr (Or.inl ⟨rfl, rfl, ?_, ?_⟩)
      · simp only [Handler.step, chatProtocolAnnounceUserJoined, State.session_setSession_self]
      · simp only [Handler.step, chatProtocolAnnounceUserJoined, State.session_setSession_self]
        rfl
    · refine Or.inl ?_
      simp only [Handler.step, chatProtocolAnnounceUserJoined,
        State.session_setSession_of_ne _ _ _ _ hdc]
      exact ⟨rfl, rfl⟩
  | loop =>
    refine Or.inr (Or.inr ⟨rfl, ?_⟩)
    rcases handlerTurn_cases libc input.env s c input.chunk with
      ⟨heq, _⟩ | ⟨_, ⟨_, heq⟩ | ⟨bytes, _, _, heq⟩⟩
    · simp only [Handler.step, heq]
      exact ⟨id, fun _ => trivial⟩
    · simp only [Handler.step, heq, session_receiveMessage]
      exact ⟨id, fun _ => trivial⟩
    · simp only [Handler.step, heq] at hactive ⊢
      have hout := outcome_perform libc input.env
        (clientSessionReceiveMessage s c input.chunk).1 c (parse (CString.ofBuffer bytes))
      have hkept := @Outcome.roomFields _ _ _ _ d _ _ _ hout hactive
      have hother := fun hdc : d ≠ c => hout.roomId_of_ne hdc hactive
      rw [session_receiveMessage] at hkept hother
      exact ⟨hkept, hother⟩
  | exiting =>
    simp only [Handler.step, session_remove] at hactive ⊢
    rw [eq_of_cleaned_active hactive]
    exact Or.inl ⟨rfl, rfl⟩
  | gone => exact Or.inl ⟨rfl, rfl⟩

/-- Nobody comes back to the greeting. -/
theorem Handler.beforeLoop_of_step (hearly : BeforeLoop (h.step libc s input).2) :
    BeforeLoop h.pc := by
  obtain ⟨c, pc⟩ := h
  cases pc with
  | awaitSyn | sendSynAck | awaitAck | welcome => trivial
  | loop =>
    rcases Handler.loop_next libc s c input with hnext | hnext
    · rwa [hnext] at hearly
    · rw [hnext] at hearly
      exact hearly.elim
  | exiting | gone => exact hearly

end Handler

/-- Whoever stays active while a connection is given slot `i`, or given it and dropped again. -/
theorem session_givenSlot (s : State) (clientSocket : Int) (i : Slot) (started : Bool)
    (env : Env) (d : Slot)
    (hactive : ((if started then added s clientSocket i
      else clientManagerRemoveClient (env.sendFails 0) (added s clientSocket i) i).session
        d).active = true) :
    (if started then added s clientSocket i
      else clientManagerRemoveClient (env.sendFails 0) (added s clientSocket i) i).session d =
      if d = i then newSession s clientSocket i else s.session d := by
  cases started with
  | true => exact session_added s clientSocket i d
  | false =>
    simp only [Bool.false_eq_true, if_false, session_remove] at hactive ⊢
    rw [eq_of_cleaned_active hactive, session_added]

section Step
variable {libc : Libc} {sys : System}

theorem HandlersOwn.owner (hown : HandlersOwn sys) {n : Nat} {c : Slot} {pc : Pc}
    (hlive : Live sys n c pc) (hactive : (sys.server.session c).active = true) :
    sys.occupant c = n :=
  hown n _ ⟨c, pc, hlive, hactive, rfl⟩

/-- The announcement comes to a session whose room id is still empty. -/
theorem RoomFieldsInv.handler_fields (h : RoomFieldsInv sys) (hown : HandlersOwn sys) {n : Nat}
    {c : Slot} {pc : Pc} (hlive : Live sys n c pc) (input : Input) {d : Slot}
    (hactive : (((⟨c, pc⟩ : Handler).step libc sys.server input).1.session d).active = true) :
    RoomFields (((⟨c, pc⟩ : Handler).step libc sys.server input).1.session d) := by
  have hbefore := Handler.active_of_step hactive
  have hfields := h.fields d hbefore
  rcases Handler.room_step hactive with
    ⟨hstate, hid⟩ | ⟨rfl, rfl, hstate, hid⟩ | ⟨_, hkept, _⟩
  · exact hfields.congr hstate hid
  · have hempty := h.empty n _ _ hlive hbefore (hown.owner hlive hbefore) trivial
    exact roomFields_of_outside (by rw [hstate]; decide) (hid.trans hempty)
  · exact hkept hfields

theorem RoomFieldsInv.handler (h : RoomFieldsInv sys) (hown : HandlersOwn sys) (n : Nat)
    (input : Input) : RoomFieldsInv (sys.step libc (.handler n input)) := by
  cases hn : sys.handlers[n]? with
  | none =>
    rw [System.step_no_handler hn]
    exact h
  | some handler =>
    by_cases hgone : handler.pc = .gone
    · rw [System.step_gone hn hgone]
      exact h
    have hlive : Live sys n handler.slot handler.pc := ⟨hn, hgone⟩
    constructor
    · intro d hactive
      rw [System.step_handler hn] at hactive ⊢
      exact h.handler_fields hown hlive input hactive
    · intro m c pc hafter hactive hoccupant hearly
      obtain ⟨pc', hlive', hsame⟩ := hafter.of_step
      rw [System.step_handler hn] at hactive hoccupant ⊢
      have hbefore := Handler.active_of_step hactive
      have hearly' : BeforeLoop pc' := by
        rcases hsame with ⟨_, rfl⟩ | ⟨_, rfl⟩
        · exact hearly
        · exact Handler.beforeLoop_of_step hearly
      have hempty := h.empty m c pc' hlive' hbefore hoccupant hearly'
      rcases Handler.room_step hactive with ⟨_, hid⟩ | ⟨_, _, _, hid⟩ | ⟨hpc, _, hother⟩
      · exact hid.trans hempty
      · exact hid.trans hempty
      · -- a handler that has come to its loop is another one, and serves another client
        refine (hother fun hc => ?_).trans hempty
        subst hc
        have hmn : m = n := (hown.owner hlive' hbefore).symm.trans (hown.owner hlive hbefore)
        subst hmn
        have hpc' : pc' = handler.pc := by
          have hboth := hlive'.1.symm.trans hn
          rw [← Option.some.inj hboth]
        rw [hpc', hpc] at hearly'
        exact hearly'

theorem RoomFieldsInv.accept (h : RoomFieldsInv sys) (clientSocket : Int)
    (created started : Bool) (env : Env) :
    RoomFieldsInv (sys.accept clientSocket created started env) := by
  rcases sys.accept_cases clientSocket created started env with
    ⟨s, heq, _, _, hkept, _⟩ | ⟨_, i, _, heq⟩
  · rw [heq]
    have hsame : ∀ d, (s.session d).active = true → s.session d = sys.server.session d := by
      intro d hactive
      rcases hkept d with hsame | ⟨_, hdead, _⟩
      · exact hsame
      · rw [hactive] at hdead
        cases hdead
    constructor
    · intro d hactive
      dsimp only at hactive ⊢
      rw [hsame d hactive]
      exact h.fields d (hsame d hactive ▸ hactive)
    · intro m c pc hlive hactive hoccupant hearly
      dsimp only at hactive ⊢
      rw [hsame c hactive]
      exact h.empty m c pc hlive (hsame c hactive ▸ hactive) hoccupant hearly
  · rw [heq]
    constructor
    · intro d hactive
      dsimp only at hactive ⊢
      have hsession := session_givenSlot _ clientSocket i started env d hactive
      rw [hsession] at hactive ⊢
      split
      · exact roomFields_of_outside (fun hstate => by cases hstate) rfl
      · rename_i hdi
        rw [if_neg hdi] at hactive
        exact h.fields d hactive
    · intro m c pc hlive hactive hoccupant hearly
      dsimp only at hactive hoccupant ⊢
      have hsession := session_givenSlot _ clientSocket i started env c hactive
      rw [hsession] at hactive ⊢
      split
      · rfl
      · rename_i hci
        rw [if_neg hci] at hactive
        rw [Function.update_of_ne hci] at hoccupant
        rcases hlive.of_started rfl with hold | ⟨_, hnew⟩
        · exact h.empty m c pc hold hactive hoccupant hearly
        · exact absurd (Handler.mk.inj hnew).1.symm hci

theorem RoomFieldsInv.step (h : RoomFieldsInv sys) (hown : HandlersOwn sys) (label : Label) :
    RoomFieldsInv (sys.step libc label) := by
  cases label with
  | handler n input => exact h.handler hown n input
  | accept clientSocket created started env =>
    by_cases hunused : Unused sys.server clientSocket
    · rw [System.step_accept hunused]
      exact h.accept clientSocket created started env
    · rw [System.step_no_accept hunused]
      exact h

theorem roomFieldsInv_start (memory : State) : RoomFieldsInv (System.start memory) := by
  constructor
  · intro c hactive
    cases hactive
  · intro n c pc hlive
    exact absurd hlive.lt_length (Nat.not_lt_zero n)

end Step

/-- While handlers stay with their connections, an active session is in a room by its state
exactly when it is by its room id. -/
theorem roomFieldsOk_of_handlersOwn (libc : Libc) (memory : State) (labels : List Label)
    (hown : Always (System.step libc) HandlersOwn (System.start memory) labels) :
    Always (System.step libc) RoomFieldsOk (System.start memory) labels := by
  have hsteps : EachStep (System.step libc) (fun sys _ => HandlersOwn sys)
      (System.start memory) labels := fun pre l hpre =>
    hown pre ((List.prefix_append pre [l]).trans hpre)
  have hinv := always_of_eachStep (P := RoomFieldsInv)
    (fun _ label hinv hown => hinv.step hown label) (roomFieldsInv_start memory) hsteps
  exact hinv.imp fun _ h => h.fields

/-- The first connection, and steps of its handler. -/
def onlyClient (clientSocket : Int) (inputs : List Input) : List Label :=
  .accept clientSocket true true calm :: inputs.map (.handler 0)

theorem handlersOwn_onlyClient (libc : Libc) (memory : State) (clientSocket : Int)
    (inputs : List Input) :
    Always (System.step libc) HandlersOwn (System.start memory)
      (onlyClient clientSocket inputs) := by
  have hserved : ∀ sys : System,
      EachStep (System.step libc) SlotVacated sys (inputs.map (Label.handler 0)) := by
    induction inputs with
    | nil => exact fun _ => eachStep_nil
    | cons input rest ih =>
      exact fun sys => eachStep_cons.mpr ⟨fun _ hgiven => hgiven.elim, ih _⟩
  have hvacated : EachStep (System.step libc) SlotVacated (System.start memory)
      (onlyClient clientSocket inputs) :=
    eachStep_cons.mpr ⟨fun i _ n pc hlive => absurd hlive.lt_length (Nat.not_lt_zero n),
      hserved _⟩
  exact always_of_eachStep (P := HandlersOwn)
    (fun _ label hown hvacated => (handlersOwn_step_iff hown label).mpr hvacated)
    (handlersOwn_start memory) hvacated

/-- The client shakes hands, is announced and opens a room. -/
theorem roomFieldsOk_of_handlersOwn_create :
    let sys := run (System.step countingLibc) (System.start zeroedMemory)
      (onlyClient 5 [⟨some (Client.synPacket "ann" 7), none, 0, calm⟩, ⟨none, none, 9, calm⟩,
        ⟨some (Client.ackPacket "ann" 7 9), none, 0, calm⟩, ⟨none, none, 0, calm⟩,
        ⟨none, some (XorCodec.sealBytes 16 sessionKey (CString.ofString "/create den").bytes), 0,
          calm⟩])
    (sys.server.session 0).state = .inRoom ∧ RoomFieldsOk sys := by
  refine ⟨by decide +kernel, ?_⟩
  exact (roomFieldsOk_of_handlersOwn countingLibc zeroedMemory _
    (handlersOwn_onlyClient countingLibc zeroedMemory 5 _)).last

end TcpChat.Server

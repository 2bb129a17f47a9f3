import TcpChat.Server.Inbox
import TcpChat.Server.Ownership
import TcpChat.Server.Sends

/-!
# Handshakes among other clients

How far each handshake is, told from the handler, from the session and from what the client has
received, and what keeps the three in step.
-/

namespace TcpChat.Server

open Base Base.Runs
set_option autoImplicit false

/-- What the client of the session in slot `c` has received. -/
def received (s : State) (c : Slot) : List Payload := inbox (s.session c).socketFd s.trace

/-- The server's SYN-ACK came first. -/
def Begun (received : List Payload) : Prop :=
  ∃ seqNum clientSeq rest, received = .packet (synAckPacket seqNum clientSeq) :: rest

/-- How far a handshake is when its handler is at the given place. -/
def Stage (handshakeState : HandshakeState) (received : List Payload) : Pc → Prop
  | .awaitSyn | .sendSynAck _ => handshakeState ≠ .established ∧ received = []
  | .awaitAck clientSeq seqNum => handshakeState ≠ .established ∧
    received = [.packet (synAckPacket seqNum clientSeq)]
  | .welcome | .loop => handshakeState = .established ∧ Begun received
  | .exiting => (handshakeState ≠ .established ∧ received = []) ∨ Begun received
  | .gone => False

/-- The step broadcasts to all clients but `senderId`: a connection is dropped for want of a
thread, a client is removed, or a request is announced. -/
def BroadcastsAs (sys : System) : Label → Int → Prop
  | .accept clientSocket created started _, senderId => Unused sys.server clientSocket ∧
    created = true ∧ started = false ∧ ∃ i : Slot, LowestFree sys.server i ∧ senderId = i
  | .handler n input, senderId => ∃ c, (sys.server.session c).active = true ∧
    ((Live sys n c .exiting ∧ senderId = c) ∨
      (Live sys n c .loop ∧ clientSessionIsActive (sys.server.session c) = true ∧
        ∃ bytes, (clientSessionReceiveMessage sys.server c input.chunk).2 = some bytes ∧
          bytes ≠ [] ∧
          Announces (sys.server.session c) c (parse (CString.ofBuffer bytes)) senderId))

/-- A broadcast to all clients waits until all of them have shaken hands. -/
def BroadcastsWait (sys : System) (label : Label) : Prop :=
  ∀ senderId, BroadcastsAs sys label senderId → ∀ d, Reached sys.server senderId d →
    (sys.server.session d).handshakeState = .established

/-- A connection that is accepted and served gets a slot that no running handler is bound to
and no active room lists. -/
def CleanSlots (sys : System) (label : Label) : Prop :=
  SlotVacated sys label ∧
    ∀ i, GivenSlot sys label i → ∀ k, ¬ Member sys.server.roomManager k (i : Int)

structure Shaken (sys : System) : Prop where
  own : HandlersOwn sys
  fds : FdsOk sys.server
  table : TableOk sys.server.roomManager
  members : ∀ i (c : Slot), Member sys.server.roomManager i (c : Int) →
    (sys.server.session c).active = true → (sys.server.session c).handshakeState = .established
  stages : ∀ c, (sys.server.session c).active = true → ∃ pc, Live sys (sys.occupant c) c pc ∧
    Stage (sys.server.session c).handshakeState (received sys.server c) pc

theorem Begun.mono {before after : List Payload} (h : Begun before) (hgrow : before <+: after) :
    Begun after := by
  obtain ⟨seqNum, clientSeq, rest, rfl⟩ := h
  obtain ⟨more, rfl⟩ := hgrow
  exact ⟨seqNum, clientSeq, rest ++ more, rfl⟩

section Stage
variable {handshakeState : HandshakeState} {before after : List Payload} {pc : Pc}

theorem Stage.ne_gone (h : Stage handshakeState before pc) : pc ≠ .gone := by
  intro heq
  subst heq
  exact h

theorem Stage.begun (h : Stage handshakeState before pc) : before = [] ∨ Begun before := by
  cases pc with
  | awaitSyn | sendSynAck => exact Or.inl h.2
  | awaitAck clientSeq seqNum => exact Or.inr ⟨seqNum, clientSeq, [], h.2⟩
  | welcome | loop => exact Or.inr h.2
  | exiting => exact h.imp_left And.right
  | gone => exact h.elim

/-- Only a session that has shaken hands may receive more. -/
theorem Stage.grow (h : Stage handshakeState before pc) (hgrow : before <+: after)
    (hsame : handshakeState ≠ .established → after = before) : Stage handshakeState after pc := by
  by_cases hstate : handshakeState = .established
  · cases pc with
    | awaitSyn | sendSynAck | awaitAck => exact absurd hstate h.1
    | welcome | loop => exact ⟨hstate, h.2.mono hgrow⟩
    | exiting =>
      rcases h with ⟨hne, _⟩ | hbegun
      · exact absurd hstate hne
      · exact Or.inr (hbegun.mono hgrow)
    | gone => exact h
  · rw [hsame hstate]
    exact h

end Stage

section Received
variable {s s' : State} {c : Slot} {es : List Event} {pc : Pc}

theorem received_eq (hfd : (s'.session c).socketFd = (s.session c).socketFd)
    (htrace : s'.trace = s.trace ++ es) :
    received s' c = es.foldl (arrive (s.session c).socketFd) (received s c) := by
  rw [received, received, hfd, htrace, inbox_append]

theorem received_setSession {v : ClientSession} (hfd : v.socketFd = (s.session c).socketFd) :
    received (s.setSession c v) c = received s c := by
  rw [received, received, State.session_setSession_self, hfd, State.trace_setSession]

theorem received_send (s : State) (c : Slot) (payload : Payload) (ok : Bool) :
    received (s.emit [.send (s.session c).socketFd payload ok]) c =
      if ok = true then received s c ++ [payload] else received s c := by
  rw [received, received, State.session_emit, State.trace_emit, inbox_append]
  simp [arrive]

theorem Stage.unharmed (h : Stage (s.session c).handshakeState (received s c) pc)
    (hes : Unharmed (s.session c) es) (htrace : s'.trace = s.trace ++ es)
    (hfd : (s'.session c).socketFd = (s.session c).socketFd)
    (hstate : (s'.session c).handshakeState = (s.session c).handshakeState) :
    Stage (s'.session c).handshakeState (received s' c) pc := by
  rw [hstate, received_eq hfd htrace]
  exact h.grow (hes.grows _) fun hne => hes.same hne _

end Received

section Sent
variable {s s' : State} {P : Slot → Prop}

theorem Sends.unharmed (h : Sends P s s') (hdistinct : FdsDistinct s)
    (hP : ∀ d, P d → (s.session d).active = true ∧
      (s.session d).handshakeState = .established) :
    ∃ es, s'.trace = s.trace ++ es ∧
      ∀ d, (s.session d).active = true → Unharmed (s.session d) es := by
  obtain ⟨es, htrace, hes⟩ := h
  refine ⟨es, htrace, fun d hd e he => ?_⟩
  rcases hes e he with ⟨fd, rfl⟩ | ⟨d', message, ok, hd', rfl⟩
  · exact ⟨by simp, by simp⟩
  · refine ⟨by simp, fun payload ok' heq => ?_⟩
    obtain ⟨hactive, hstate⟩ := hP d' hd'
    obtain rfl := hdistinct d' d hactive hd (Event.send.inj heq).1
    exact hstate

/-- Whom the command of a turn sends to is settled before the message is taken in. -/
theorem sends_received (libc : Libc) (input : Input) (c : Slot) (ok : TableOk s.roomManager)
    (r : Request) :
    Sends (Addressed s c r) s
      (perform libc input.env (clientSessionReceiveMessage s c input.chunk).1 c r).1 := by
  have hsession : ∀ d, (clientSessionReceiveMessage s c input.chunk).1.session d =
      s.session d := fun d => congrFun (session_receiveMessage _ _ _) d
  have ok' : TableOk (clientSessionReceiveMessage s c input.chunk).1.roomManager := by
    rw [roomManager_receiveMessage]
    exact ok
  refine (Sends.nothing (trace_receiveMessage _ _ _)).trans
    (sends_perform libc input.env c ok' r) fun d hd => ⟨?_, by rw [hsession]⟩
  unfold Addressed Reached at hd
  rw [roomManager_receiveMessage, hsession, hsession] at hd
  exact hd

end Sent

/-- What a handler's step for slot `c` may do: it harms no other handshake, sends nothing but a
SYN-ACK during its own, and lets nobody into a room but its client. -/
structure Tame (s : State) (c : Slot) (s' : State) (pc : Pc) : Prop where
  events : ∃ es, s'.trace = s.trace ++ es ∧
    (∀ d, d ≠ c → (s.session d).active = true → Unharmed (s.session d) es) ∧
    ((s.session c).active = true → ∀ payload ok,
      .send (s.session c).socketFd payload ok ∈ es →
        (s.session c).handshakeState = .established ∨
          ∃ seqNum clientSeq, payload = .packet (synAckPacket seqNum clientSeq))
  stage : (s'.session c).active = true →
    Stage (s'.session c).handshakeState (received s' c) pc
  table : TableOk s'.roomManager
  members : ∀ i (d : Slot), Member s'.roomManager i (d : Int) →
    d = c ∨ Member s.roomManager i (d : Int)
  member_own : ∀ i, Member s'.roomManager i (c : Int) → (s'.session c).active = true →
    (s'.session c).handshakeState = .established

section Tame
variable {libc : Libc} {sys : System} (h : Shaken sys) {c : Slot} (input : Input)
include h

/-- A handler whose connection is gone. -/
theorem tame_dead {pc : Pc} (hdead : (sys.server.session c).active = false) :
    Tame sys.server c ((⟨c, pc⟩ : Handler).step libc sys.server input).1
      ((⟨c, pc⟩ : Handler).step libc sys.server input).2 := by
  obtain ⟨_, hrooms, es, htrace, hes⟩ :=
    @Handler.step_of_dead libc _ ⟨c, pc⟩ hdead input
  have hstill : ∀ {P : Prop}, (((⟨c, pc⟩ : Handler).step libc sys.server input).1.session
      c).active = true → P := by
    intro P hactive
    have hbefore := Handler.active_of_step hactive
    rw [hdead] at hbefore
    cases hbefore
  refine ⟨⟨es, htrace, fun d _ hd e he => ?_, fun hactive => ?_⟩, hstill, ?_, ?_,
    fun _ _ => hstill⟩
  · -- A live session has a descriptor, a dead one has not.
    obtain ⟨payload, ok, rfl⟩ := hes e he
    refine ⟨by simp, fun payload' ok' heq => ?_⟩
    have hfd := (Event.send.inj heq).1
    have hdead_fd := h.fds.fd_dead c hdead
    have hlive_fd := h.fds.fd_nonneg d hd
    dsimp only at hfd
    omega
  · rw [hdead] at hactive
    cases hactive
  · rw [hrooms]
    exact h.table
  · intro i d hmember
    rw [hrooms] at hmember
    exact Or.inr hmember

variable (hactive : (sys.server.session c).active = true)
include hactive

theorem Shaken.no_member (hstate : (sys.server.session c).handshakeState ≠ .established)
    (i : Fin maxRooms) : ¬ Member sys.server.roomManager i (c : Int) :=
  fun hmember => hstate (h.members i c hmember hactive)

/-- Receiving a packet only changes the session of the handler's own slot. -/
theorem tame_silent {v : ClientSession} {pc : Pc} (hv : SameConnection (sys.server.session c) v)
    (hstate : (sys.server.session c).handshakeState ≠ .established)
    (hstage : Stage v.handshakeState (received sys.server c) pc) :
    Tame sys.server c (sys.server.setSession c v) pc := by
  refine ⟨⟨[], by simp, fun d _ _ => unharmed_nil _, by simp⟩, fun _ => ?_, h.table,
    fun i d hmember => Or.inr hmember, fun i hmember => ?_⟩
  · rw [received_setSession hv.socketFd, State.session_setSession_self]
    exact hstage
  · exact absurd hmember (h.no_member hactive hstate i)

theorem tame_awaitSyn (hstage : Stage (sys.server.session c).handshakeState
    (received sys.server c) .awaitSyn) :
    Tame sys.server c ((⟨c, .awaitSyn⟩ : Handler).step libc sys.server input).1
      ((⟨c, .awaitSyn⟩ : Handler).step libc sys.server input).2 := by
  obtain ⟨v, hv, ⟨hfailed, heq⟩ | ⟨hreceived, synPacket, _, _, heq⟩⟩ :=
    receiveSyn_cases sys.server c (receivedBy (sys.server.session c) input.packet)
  · simp only [Handler.step, heq]
    exact tame_silent h hactive hv hstage.1 (Or.inl ⟨by rw [hfailed]; decide, hstage.2⟩)
  · simp only [Handler.step, heq]
    exact tame_silent h hactive hv hstage.1 ⟨by rw [hreceived]; decide, hstage.2⟩

theorem tame_awaitAck {clientSeq seqNum : UInt32}
    (hstage : Stage (sys.server.session c).handshakeState (received sys.server c)
      (.awaitAck clientSeq seqNum)) :
    Tame sys.server c ((⟨c, .awaitAck clientSeq seqNum⟩ : Handler).step libc sys.server input).1
      ((⟨c, .awaitAck clientSeq seqNum⟩ : Handler).step libc sys.server input).2 := by
  have hbegun : Begun (received sys.server c) := ⟨seqNum, clientSeq, [], hstage.2⟩
  rcases receiveAck_cases sys.server c seqNum (receivedBy (sys.server.session c) input.packet) with
    ⟨_, _, _, _, heq⟩ | ⟨_, heq⟩
  · simp only [Handler.step, heq]
    exact tame_silent h hactive ⟨rfl, rfl, rfl, rfl⟩ hstage.1 ⟨rfl, hbegun⟩
  · simp only [Handler.step, heq]
    exact tame_silent h hactive ⟨rfl, rfl, rfl, rfl⟩ hstage.1 (Or.inr hbegun)

theorem tame_sendSynAck {clientSeq : UInt32}
    (hstage : Stage (sys.server.session c).handshakeState (received sys.server c)
      (.sendSynAck clientSeq)) :
    Tame sys.server c ((⟨c, .sendSynAck clientSeq⟩ : Handler).step libc sys.server input).1
      ((⟨c, .sendSynAck clientSeq⟩ : Handler).step libc sys.server input).2 := by
  have hothers : ∀ ok d, d ≠ c → (sys.server.session d).active = true →
      Unharmed (sys.server.session d) [.send (sys.server.session c).socketFd
        (.packet (synAckPacket input.seqNum clientSeq)) ok] := by
    intro ok d hdc hd e he
    rw [List.mem_singleton.mp he]
    refine ⟨by simp, fun payload ok' heq => ?_⟩
    exact absurd (h.fds.distinct c d hactive hd (Event.send.inj heq).1).symm hdc
  rcases sendSynAck_cases sys.server c (input.env.sendFails 0) input.seqNum clientSeq with
    ⟨_, heq⟩ | ⟨_, heq⟩
  · simp only [Handler.step, heq]
    refine ⟨⟨_, rfl, hothers false, ?_⟩, fun _ => Or.inl ?_, h.table,
      fun i d hmember => Or.inr hmember, fun i hmember => ?_⟩
    · intro _ payload ok hsend
      exact Or.inr ⟨_, _, (Event.send.inj (List.mem_singleton.mp hsend)).2.1⟩
    · rw [received_setSession, received_send, State.session_setSession_self]
      · exact ⟨by simp, hstage.2⟩
      · rfl
    · exact absurd hmember (h.no_member hactive hstage.1 i)
  · simp only [Handler.step, heq]
    refine ⟨⟨_, rfl, hothers true, ?_⟩, fun _ => ⟨hstage.1, ?_⟩, h.table,
      fun i d hmember => Or.inr hmember, fun i hmember => ?_⟩
    · intro _ payload ok hsend
      exact Or.inr ⟨_, _, (Event.send.inj (List.mem_singleton.mp hsend)).2.1⟩
    · rw [received_send, hstage.2]
      rfl
    · exact absurd hmember (h.no_member hactive hstage.1 i)

theorem tame_texts {s' : State} {pc : Pc} {P : Slot → Prop} (hsends : Sends P sys.server s')
    (hP : ∀ d, P d → (sys.server.session d).active = true ∧
      (sys.server.session d).handshakeState = .established)
    (hstate : (sys.server.session c).handshakeState = .established)
    (hbegun : Begun (received sys.server c))
    (hown : (s'.session c).active = true →
      (s'.session c).socketFd = (sys.server.session c).socketFd ∧
        (s'.session c).handshakeState = .established)
    (hpc : (s'.session c).active = true → pc = .loop ∨ pc = .exiting)
    (htable : TableOk s'.roomManager)
    (hmembers : ∀ i (d : Slot), Member s'.roomManager i (d : Int) →
      d = c ∨ Member sys.server.roomManager i (d : Int)) :
    Tame sys.server c s' pc := by
  obtain ⟨es, htrace, hes⟩ := hsends.unharmed h.fds.distinct hP
  refine ⟨⟨es, htrace, fun d _ => hes d, fun _ _ _ _ => Or.inl hstate⟩, fun hactive' => ?_,
    htable, hmembers, fun _ _ hactive' => (hown hactive').2⟩
  obtain ⟨hfd, hstate'⟩ := hown hactive'
  have hbegun' : Begun (received s' c) := by
    rw [received_eq hfd htrace]
    exact hbegun.mono ((hes c hactive).grows _)
  rcases hpc hactive' with rfl | rfl
  · exact ⟨hstate', hbegun'⟩
  · exact Or.inr hbegun'

theorem tame_welcome (hstage : Stage (sys.server.session c).handshakeState
    (received sys.server c) .welcome) :
    Tame sys.server c ((⟨c, .welcome⟩ : Handler).step libc sys.server input).1
      ((⟨c, .welcome⟩ : Handler).step libc sys.server input).2 := by
  have hsends : Sends (· = c) sys.server (chatProtocolAnnounceUserJoined
      (chatProtocolSendWelcomeMessage input.env sys.server c) c) := by
    rw [Sends, chatProtocolAnnounceUserJoined, State.trace_setSession]
    exact sends_reply _ _ _ _
  refine tame_texts h hactive hsends (fun d hd => hd ▸ ⟨hactive, hstage.1⟩) hstage.1 hstage.2
    (fun _ => ?_) (fun _ => Or.inl rfl) h.table (fun i d hmember => Or.inr hmember)
  simp only [Handler.step, chatProtocolAnnounceUserJoined, State.session_setSession_self]
  exact ⟨rfl, hstage.1⟩

/-- A turn of the loop, when its broadcasts to all clients find only sessions that have shaken
hands. -/
theorem tame_loop (hstage : Stage (sys.server.session c).handshakeState
    (received sys.server c) .loop)
    (hwait : clientSessionIsActive (sys.server.session c) = true → ∀ bytes,
      (clientSessionReceiveMessage sys.server c input.chunk).2 = some bytes → bytes ≠ [] →
      ∀ senderId, Announces (sys.server.session c) c (parse (CString.ofBuffer bytes)) senderId →
        ∀ d, Reached sys.server senderId d →
          (sys.server.session d).handshakeState = .established) :
    Tame sys.server c ((⟨c, .loop⟩ : Handler).step libc sys.server input).1
      ((⟨c, .loop⟩ : Handler).step libc sys.server input).2 := by
  obtain ⟨hstate, hbegun⟩ := hstage
  have hpc := Handler.loop_next libc sys.server c input
  have hown : (((⟨c, .loop⟩ : Handler).step libc sys.server input).1.session c).active = true →
      (((⟨c, .loop⟩ : Handler).step libc sys.server input).1.session c).socketFd =
          (sys.server.session c).socketFd ∧
        (((⟨c, .loop⟩ : Handler).step libc sys.server input).1.session c).handshakeState =
          .established := by
    intro hactive'
    have hspared := (Handler.loop_spared libc sys.server c input c).of_active hactive'
    exact ⟨hspared.2.1, hspared.2.2.trans hstate⟩
  rcases handlerTurn_cases libc input.env sys.server c input.chunk with
    ⟨heq, _⟩ | ⟨hup, ⟨_, heq⟩ | ⟨bytes, hbytes, hne, heq⟩⟩
  · have hserver : ((⟨c, .loop⟩ : Handler).step libc sys.server input).1 = sys.server := by
      simp only [Handler.step, heq]
    rw [hserver] at hown ⊢
    exact tame_texts h hactive (P := fun _ => False) (Sends.nothing rfl) (fun _ => False.elim)
      hstate hbegun hown (fun _ => hpc) h.table (fun i d hmember => Or.inr hmember)
  · have hserver : ((⟨c, .loop⟩ : Handler).step libc sys.server input).1 =
        (clientSessionReceiveMessage sys.server c input.chunk).1 := by
      simp only [Handler.step, heq]
    rw [hserver] at hown ⊢
    refine tame_texts h hactive (P := fun _ => False) (Sends.nothing (trace_receiveMessage _ _ _))
      (fun _ => False.elim) hstate hbegun hown (fun _ => hpc) ?_ (fun i d hmember => Or.inr ?_)
    · rw [roomManager_receiveMessage]
      exact h.table
    · rw [roomManager_receiveMessage] at hmember
      exact hmember
  · have hserver : ((⟨c, .loop⟩ : Handler).step libc sys.server input).1 =
        (perform libc input.env (clientSessionReceiveMessage sys.server c input.chunk).1 c
          (parse (CString.ofBuffer bytes))).1 := by
      simp only [Handler.step, heq]
    rw [hserver] at hown ⊢
    have htable : TableOk
        (clientSessionReceiveMessage sys.server c input.chunk).1.roomManager := by
      rw [roomManager_receiveMessage]
      exact h.table
    have hout := outcome_perform libc input.env
      (clientSessionReceiveMessage sys.server c input.chunk).1 c (parse (CString.ofBuffer bytes))
    have hsends := sends_received libc input c h.table (parse (CString.ofBuffer bytes))
    refine tame_texts h hactive hsends ?_ hstate hbegun hown (fun _ => hpc)
      (htable.outcome hout) ?_
    · intro d hcase
      rcases hcase with rfl | ⟨hd, i, hmember⟩ | ⟨senderId, hannounces, hreached⟩
      · exact ⟨hactive, hstate⟩
      · exact ⟨hd, h.members i d hmember hd⟩
      · exact ⟨hreached.1, hwait hup bytes hbytes hne senderId hannounces d hreached⟩
    · intro i d hmember
      have hbefore := member_of_outcome htable hout hmember
      rw [roomManager_receiveMessage] at hbefore
      exact hbefore

theorem tame_exiting (hwait : ∀ d, Reached sys.server c d →
      (sys.server.session d).handshakeState = .established) :
    Tame sys.server c ((⟨c, .exiting⟩ : Handler).step libc sys.server input).1
      ((⟨c, .exiting⟩ : Handler).step libc sys.server input).2 := by
  have hgone : ((clientManagerRemoveClient (input.env.sendFails 0) sys.server c).session
      c).active = false := by
    rw [session_remove, if_pos ⟨hactive, Or.inl rfl⟩]
    rfl
  have hstill : ∀ {P : Prop}, ((clientManagerRemoveClient (input.env.sendFails 0) sys.server
      c).session c).active = true → P := by
    intro P hactive'
    rw [hgone] at hactive'
    cases hactive'
  obtain ⟨es, htrace, hes⟩ := (sends_remove sys.server (input.env.sendFails 0) c).unharmed
    h.fds.distinct fun d hd => ⟨hd.2.1, hwait d hd.2⟩
  refine ⟨⟨es, htrace, fun d _ => hes d, fun _ payload ok hsend => Or.inl ?_⟩, hstill, ?_, ?_,
    fun _ _ => hstill⟩
  · exact (hes c hactive _ hsend).2 payload ok rfl
  · simp only [Handler.step, roomManager_remove]
    exact h.table
  · intro i d hmember
    simp only [Handler.step, roomManager_remove] at hmember
    exact Or.inr hmember

omit hactive

theorem Shaken.stage {n : Nat} {pc : Pc} (hlive : Live sys n c pc)
    (hactive : (sys.server.session c).active = true) :
    Stage (sys.server.session c).handshakeState (received sys.server c) pc := by
  obtain ⟨pc', hlive', hstage⟩ := h.stages c hactive
  rw [h.own n _ ⟨c, pc, hlive, hactive, rfl⟩] at hlive'
  obtain rfl := (Handler.mk.inj (Option.some.inj (hlive.1.symm.trans hlive'.1))).2
  exact hstage

/-- No step of a handler harms the handshake of another client when its broadcasts wait. -/
theorem tame_step {n : Nat} {pc : Pc} (hlive : Live sys n c pc)
    (hwait : BroadcastsWait sys (.handler n input)) :
    Tame sys.server c ((⟨c, pc⟩ : Handler).step libc sys.server input).1
      ((⟨c, pc⟩ : Handler).step libc sys.server input).2 := by
  cases hactive : (sys.server.session c).active with
  | false => exact tame_dead h input hactive
  | true =>
    have hstage := h.stage hlive hactive
    cases pc with
    | awaitSyn => exact tame_awaitSyn h input hactive hstage
    | sendSynAck clientSeq => exact tame_sendSynAck h input hactive hstage
    | awaitAck clientSeq seqNum => exact tame_awaitAck h input hactive hstage
    | welcome => exact tame_welcome h input hactive hstage
    | loop =>
      apply tame_loop h input hactive hstage
      intro hup bytes hbytes hne senderId hannounces
      exact hwait senderId ⟨c, hactive, Or.inr ⟨hlive, hup, bytes, hbytes, hne, hannounces⟩⟩
    | exiting =>
      exact tame_exiting h input hactive (hwait c ⟨c, hactive, Or.inl ⟨hlive, rfl⟩⟩)
    | gone => exact absurd rfl hlive.2

end Tame

/-- During its handshake a session is sent a SYN-ACK at most. -/
def OnlySynAckIn (s : State) (es : List Event) : Prop :=
  ∀ c, (s.session c).active = true → (s.session c).handshakeState ≠ .established →
    ∀ payload ok, .send (s.session c).socketFd payload ok ∈ es →
      ∃ seqNum clientSeq, payload = .packet (synAckPacket seqNum clientSeq)

theorem onlySynAckIn_of_unharmed {s : State} {es : List Event}
    (h : ∀ d, (s.session d).active = true → Unharmed (s.session d) es) : OnlySynAckIn s es :=
  fun c hactive hstate payload ok hsend =>
    absurd ((h c hactive _ hsend).2 payload ok rfl) hstate

section Step
variable {libc : Libc} {sys : System} (h : Shaken sys)
include h

theorem Shaken.handler {n : Nat} {input : Input}
    (hwait : BroadcastsWait sys (.handler n input)) :
    Shaken (sys.step libc (.handler n input)) ∧ ∃ es,
      (sys.step libc (.handler n input)).server.trace = sys.server.trace ++ es ∧
        OnlySynAckIn sys.server es := by
  have hnothing : Shaken sys ∧ ∃ es, sys.server.trace = sys.server.trace ++ es ∧
      OnlySynAckIn sys.server es := ⟨h, [], by simp, by simp [OnlySynAckIn]⟩
  cases hn : sys.handlers[n]? with
  | none =>
    rw [System.step_no_handler hn]
    exact hnothing
  | some handler =>
    obtain ⟨c, pc⟩ := handler
    by_cases hpc : pc = .gone
    · rw [System.step_gone hn hpc]
      exact hnothing
    · have hlive : Live sys n c pc := ⟨hn, hpc⟩
      have htame : Tame sys.server c ((⟨c, pc⟩ : Handler).step libc sys.server input).1
          ((⟨c, pc⟩ : Handler).step libc sys.server input).2 := tame_step h input hlive hwait
      have hown : HandlersOwn (sys.step libc (.handler n input)) := h.own.handler n input
      rw [System.step_handler hn] at hown ⊢
      obtain ⟨es, htrace, hothers, honly⟩ := htame.events
      refine ⟨⟨hown, h.fds.handler_step, htame.table, ?_, ?_⟩, es, htrace, ?_⟩
      · intro i d hmember hactive
        by_cases hdc : d = c
        · subst hdc
          exact htame.member_own i hmember hactive
        · rcases Handler.step_session libc sys.server ⟨c, pc⟩ input d with
            ⟨hdead, _⟩ | ⟨hsame, _, hstate⟩
          · exact absurd hactive (by simp [hdead])
          · refine (hstate hdc).trans (h.members i d ?_ (hsame ▸ hactive))
            exact (htame.members i d hmember).resolve_left hdc
      · intro d hactive
        have hbefore := Handler.active_of_step hactive
        by_cases hdc : d = c
        · subst hdc
          have hstage := htame.stage hactive
          rw [h.own n _ ⟨d, pc, hlive, hbefore, rfl⟩]
          refine ⟨_, ⟨?_, hstage.ne_gone⟩, hstage⟩
          exact List.getElem?_set_self hlive.lt_length
        · obtain ⟨pc', hlive', hstage⟩ := h.stages d hbefore
          have hne : n ≠ sys.occupant d := by
            intro heq
            rw [← heq] at hlive'
            exact hdc (Handler.mk.inj (Option.some.inj (hlive'.1.symm.trans hn))).1
          refine ⟨pc', ⟨?_, hlive'.2⟩, ?_⟩
          · rw [List.getElem?_set_ne hne]
            exact hlive'.1
          · rcases Handler.step_session libc sys.server ⟨c, pc⟩ input d with
              ⟨hdead, _⟩ | ⟨_, hfd, hstate⟩
            · exact absurd hactive (by simp [hdead])
            · exact hstage.unharmed (hothers d hdc hbefore) htrace hfd (hstate hdc)
      · intro d hactive hstate payload ok hsend
        by_cases hdc : d = c
        · subst hdc
          exact (honly hactive payload ok hsend).resolve_left hstate
        · exact absurd ((hothers d hdc hactive _ hsend).2 payload ok rfl) hstate

/-- An accepted connection leaves the handlers of the others what they are. -/
theorem Shaken.stages_append (handler : Handler) (n : Nat) {i d : Slot} (hdi : d ≠ i)
    (hactive : (sys.server.session d).active = true) :
    ∃ pc, Live { sys with handlers := sys.handlers ++ [handler] }
        (Function.update sys.occupant i n d) d pc ∧
      Stage (sys.server.session d).handshakeState (received sys.server d) pc := by
  obtain ⟨pc, hlive, hstage⟩ := h.stages d hactive
  refine ⟨pc, ⟨?_, hlive.2⟩, hstage⟩
  rw [Function.update_of_ne hdi, List.getElem?_append_left hlive.lt_length]
  exact hlive.1

omit h

theorem unharmed_accept {clientSocket : Int} (hunused : Unused sys.server clientSocket) {d : Slot}
    (hd : (sys.server.session d).active = true) :
    Unharmed (sys.server.session d) [.accept clientSocket] := by
  intro e he
  rw [List.mem_singleton.mp he]
  exact ⟨fun heq => hunused.2 d hd (Event.accept.inj heq).symm, by simp⟩

include h

/-- A refused connection only changes the server, and no live session. -/
theorem Shaken.refuse {clientSocket : Int} (hunused : Unused sys.server clientSocket)
    {s : State} {es : List Event} (hown : HandlersOwn { sys with server := s })
    (hrooms : s.roomManager = sys.server.roomManager)
    (hkept : ∀ d, s.session d = sys.server.session d ∨ (sys.server.session d).active = false ∧
      (s.session d).active = false ∧ (s.session d).socketFd = -1)
    (htrace : s.trace = sys.server.trace ++ es)
    (hes : ∀ e ∈ es, e = .accept clientSocket ∨ ∃ fd, e = .close fd) :
    Shaken { sys with server := s } ∧ OnlySynAckIn sys.server es := by
  have hlive : ∀ d, (s.session d).active = true → s.session d = sys.server.session d := by
    intro d hd
    rcases hkept d with hsame | ⟨_, hdead, _⟩
    · exact hsame
    · rw [hd] at hdead
      cases hdead
  have hunharmed : ∀ d, (sys.server.session d).active = true →
      Unharmed (sys.server.session d) es := by
    intro d hd e he
    rcases hes e he with rfl | ⟨fd, rfl⟩
    · exact unharmed_accept hunused hd _ (List.mem_singleton.mpr rfl)
    · exact ⟨by simp, by simp⟩
  refine ⟨⟨hown, ?_, ?_, ?_, ?_⟩, onlySynAckIn_of_unharmed hunharmed⟩
  · exact h.fds.refused hkept
  · rw [hrooms]
    exact h.table
  · intro k d hmember hactive
    have hsame := hlive d hactive
    dsimp only at hmember hactive ⊢
    rw [hsame] at hactive ⊢
    rw [hrooms] at hmember
    exact h.members k d hmember hactive
  · intro d hactive
    have hsame := hlive d hactive
    dsimp only at hactive ⊢
    rw [hsame] at hactive
    obtain ⟨pc, hlive', hstage⟩ := h.stages d hactive
    exact ⟨pc, hlive', hstage.unharmed (hunharmed d hactive) htrace (by rw [hsame])
      (by rw [hsame])⟩

/-- A connection that gets a slot nobody uses any more starts its handshake there. -/
theorem Shaken.serve {clientSocket : Int} (hunused : Unused sys.server clientSocket) {i : Slot}
    {n : Nat} (hn : n = sys.handlers.length)
    (hunlisted : ∀ k, ¬ Member sys.server.roomManager k (i : Int))
    (hown : HandlersOwn
      { server := added (sys.server.emit [.accept clientSocket]) clientSocket i
        handlers := sys.handlers ++ [⟨i, .awaitSyn⟩]
        occupant := Function.update sys.occupant i n }) :
    Shaken
      { server := added (sys.server.emit [.accept clientSocket]) clientSocket i
        handlers := sys.handlers ++ [⟨i, .awaitSyn⟩]
        occupant := Function.update sys.occupant i n } := by
  refine ⟨hown, h.fds.added hunused _ i, h.table, ?_, ?_⟩
  · intro k d hmember hactive
    have hdi : d ≠ i := by
      intro heq
      subst heq
      exact hunlisted k hmember
    dsimp only at hactive ⊢
    rw [session_added_of_ne hdi] at hactive ⊢
    exact h.members k d hmember hactive
  · intro d hactive
    by_cases hdi : d = i
    · subst hdi
      have hnew : (added (sys.server.emit [.accept clientSocket]) clientSocket d).session d =
          newSession (sys.server.emit [.accept clientSocket]) clientSocket d := by
        rw [session_added, if_pos rfl]
      refine ⟨.awaitSyn, ⟨by simp [hn], by simp⟩, ?_, ?_⟩
      · simp [hnew, newSession, clientSessionInitialize]
      · rw [received, hnew]
        simp [added, inbox_append, arrive, newSession, clientSessionInitialize]
    · dsimp only at hactive
      rw [session_added_of_ne hdi] at hactive
      obtain ⟨pc, hlive, hstage⟩ := h.stages_append ⟨i, .awaitSyn⟩ n hdi hactive
      exact ⟨pc, hlive, hstage.unharmed (unharmed_accept hunused hactive) rfl
        (by rw [session_added_of_ne hdi]) (by rw [session_added_of_ne hdi])⟩

/-- A connection for which no thread could be started says farewell to the others at once. -/
theorem Shaken.drop {clientSocket : Int} (hunused : Unused sys.server clientSocket) {i : Slot}
    {n : Nat} (hfree : (sys.server.session i).active = false) (fails : Slot → Bool)
    (hwait : ∀ d, Reached sys.server i d →
      (sys.server.session d).handshakeState = .established)
    (hown : HandlersOwn
      { server := clientManagerRemoveClient fails
          (added (sys.server.emit [.accept clientSocket]) clientSocket i) i
        handlers := sys.handlers ++ [⟨i, .gone⟩]
        occupant := Function.update sys.occupant i n }) :
    Shaken
      { server := clientManagerRemoveClient fails
          (added (sys.server.emit [.accept clientSocket]) clientSocket i) i
        handlers := sys.handlers ++ [⟨i, .gone⟩]
        occupant := Function.update sys.occupant i n } ∧
      ∃ es, (clientManagerRemoveClient fails
        (added (sys.server.emit [.accept clientSocket]) clientSocket i) i).trace =
          sys.server.trace ++ es ∧ OnlySynAckIn sys.server es := by
  have hfds := h.fds.added hunused [.accept clientSocket] i
  have hne : ∀ d, (sys.server.session d).active = true → d ≠ i := by
    intro d hd heq
    subst heq
    rw [hfree] at hd
    cases hd
  obtain ⟨es, htrace, hes⟩ := (sends_remove
    (added (sys.server.emit [.accept clientSocket]) clientSocket i) fails i).unharmed
    hfds.distinct fun d hd => by
      have hdi : d ≠ i := fun heq' => hd.2.2 (by rw [heq'])
      have hreached := hd.2
      rw [Reached, session_added_of_ne hdi] at hreached
      rw [session_added_of_ne hdi]
      exact ⟨hreached.1, hwait d hreached⟩
  have hunharmed : ∀ d, (sys.server.session d).active = true →
      Unharmed (sys.server.session d) (.accept clientSocket :: es) := by
    intro d hd
    have hrest := hes d (by rw [session_added_of_ne (hne d hd)]; exact hd)
    rw [session_added_of_ne (hne d hd)] at hrest
    exact (unharmed_accept hunused hd).append hrest
  have htrace' : (clientManagerRemoveClient fails
      (added (sys.server.emit [.accept clientSocket]) clientSocket i) i).trace =
        sys.server.trace ++ (.accept clientSocket :: es) := by
    rw [htrace]
    exact List.append_assoc _ _ _
  refine ⟨⟨hown, ?_, ?_, ?_, ?_⟩, _, htrace', onlySynAckIn_of_unharmed hunharmed⟩
  · exact hfds.remove fails i
  · simp only [roomManager_remove]
    exact h.table
  · intro k d hmember hactive
    simp only [roomManager_remove] at hmember
    obtain ⟨_, hsame⟩ := session_dropped _ clientSocket i hactive
    rw [State.session_emit] at hsame
    dsimp only at hactive ⊢
    rw [hsame] at hactive ⊢
    exact h.members k d hmember hactive
  · intro d hactive
    obtain ⟨hdi, hsame⟩ := session_dropped _ clientSocket i hactive
    rw [State.session_emit] at hsame
    dsimp only at hactive
    rw [hsame] at hactive
    obtain ⟨pc, hlive, hstage⟩ := h.stages_append ⟨i, .gone⟩ n hdi hactive
    exact ⟨pc, hlive, hstage.unharmed (hunharmed d hactive) htrace' (by rw [hsame])
      (by rw [hsame])⟩

theorem Shaken.accept {clientSocket : Int} {created started : Bool} {env : Env}
    (hunused : Unused sys.server clientSocket)
    (hclean : CleanSlots sys (.accept clientSocket created started env))
    (hwait : BroadcastsWait sys (.accept clientSocket created started env)) :
    Shaken (sys.accept clientSocket created started env) ∧ ∃ es,
      (sys.accept clientSocket created started env).server.trace = sys.server.trace ++ es ∧
        OnlySynAckIn sys.server es := by
  have hown := (handlersOwn_accept_iff h.own hunused created started env).mpr hclean.1
  rcases sys.accept_cases clientSocket created started env with
    ⟨s, heq, _, hrooms, hkept, es, htrace, hes⟩ | ⟨hcreated, i, hfree, heq⟩
  · rw [heq] at hown ⊢
    obtain ⟨hshaken, honly⟩ := h.refuse hunused hown hrooms hkept htrace hes
    exact ⟨hshaken, es, htrace, honly⟩
  · cases started with
    | true =>
      simp only [if_true] at heq
      rw [heq] at hown ⊢
      exact ⟨h.serve hunused rfl (hclean.2 i ⟨hunused, hcreated, rfl, hfree⟩) hown,
        [.accept clientSocket], rfl,
        onlySynAckIn_of_unharmed fun d hd => unharmed_accept hunused hd⟩
    | false =>
      simp only [Bool.false_eq_true, if_false] at heq
      rw [heq] at hown ⊢
      exact h.drop hunused hfree.1 _ (hwait i ⟨hunused, hcreated, rfl, i, hfree, rfl⟩) hown

end Step

end TcpChat.Server

import TcpChat.Server.HandlerSteps

/-!
# What the server sends unasked

Clients that only come and go are sent SYN-ACKs, the welcome message and the farewells to others,
and nothing else.
-/

namespace TcpChat.Server

open Base Base.XorCodec
set_option autoImplicit false

/-- What is sent to a client that nobody speaks to. -/
def Greeting : Payload → Prop
  | .packet packet => ∃ seqNum clientSeq, packet = synAckPacket seqNum clientSeq
  | .text message => message = welcomeMsg ∨ ∃ nickname : CString, nickname.length < maxNicknameLen ∧
      message = ("*** " ++ nickname ++ " left the chat ***\n" : CString).take (bufferSize - 1)

def NamesShort (s : State) : Prop := ∀ d, (s.session d).nickname.length < maxNicknameLen

/-- From `s` to `s'` only greetings are sent, and nicknames still fit their buffers. -/
structure Greets (s s' : State) : Prop where
  names : NamesShort s'
  sent : ∃ es, s'.trace = s.trace ++ es ∧
    ∀ fd payload ok, .send fd payload ok ∈ es → Greeting payload

section Greets
variable {s s' t : State} {c : Slot} {v : ClientSession}

theorem Greets.refl (h : NamesShort s) : Greets s s :=
  ⟨h, [], by simp, fun _ _ _ he => absurd he List.not_mem_nil⟩

theorem Greets.trans (h : Greets s t) (h' : Greets t s') : Greets s s' := by
  obtain ⟨es, htrace, hes⟩ := h.sent
  obtain ⟨es', htrace', hes'⟩ := h'.sent
  refine ⟨h'.names, es ++ es', by rw [htrace', htrace, List.append_assoc], ?_⟩
  intro fd payload ok he
  rcases List.mem_append.mp he with he | he
  · exact hes fd payload ok he
  · exact hes' fd payload ok he

/-- A step that sends nothing, as far as nicknames and the trace go. -/
theorem Greets.silent (h : NamesShort s)
    (hnames : ∀ d, (s'.session d).nickname = (s.session d).nickname ∨
      (s'.session d).nickname.length < maxNicknameLen) (htrace : s'.trace = s.trace) :
    Greets s s' := by
  refine ⟨fun d => ?_, [], by simp [htrace], fun _ _ _ he => absurd he List.not_mem_nil⟩
  rcases hnames d with hsame | hshort
  · rw [hsame]
    exact h d
  · exact hshort

theorem Greets.congr (h : Greets s t) (hsession : s'.session = t.session)
    (htrace : s'.trace = t.trace) : Greets s s' := by
  refine ⟨fun d => ?_, ?_⟩
  · rw [hsession]
    exact h.names d
  · rw [htrace]
    exact h.sent

theorem Greets.set (h : NamesShort s) (hv : v.nickname.length < maxNicknameLen) :
    Greets s (s.setSession c v) := by
  refine Greets.silent h (fun d => ?_) (State.trace_setSession ..)
  rw [State.session_setSession]
  split
  · exact Or.inr hv
  · exact Or.inl rfl

theorem Greets.emit (h : NamesShort s) {es : List Event}
    (hes : ∀ fd payload ok, .send fd payload ok ∈ es → Greeting payload) :
    Greets s (s.emit es) := ⟨h, es, rfl, hes⟩

theorem length_setNickname_lt (session : ClientSession) (nickname : CString) :
    (clientSessionSetNickname session nickname).nickname.length < maxNicknameLen := by
  simp only [clientSessionSetNickname, CString.length_take, maxNicknameLen]
  omega

theorem greets_broadcast (h : NamesShort s) (fails : Slot → Bool) {message : CString}
    (hmessage : Greeting (.text message)) (senderId : Int) :
    Greets s (clientManagerBroadcastMessage fails s message senderId) := by
  refine ⟨fun d => ?_, _, trace_broadcast .., ?_⟩
  · rw [session_broadcast]
    split
    · exact Nat.zero_lt_succ 31
    · exact h d
  · intro fd payload ok he
    rcases mem_broadcastEvents he with ⟨_, hclose⟩ | ⟨d, _, hsend⟩
    · cases hclose
    · cases hsend
      exact hmessage

theorem length_newSession_lt (s : State) (socketFd : Int) (i : Slot) :
    (newSession s socketFd i).nickname.length < maxNicknameLen := by
  simp only [newSession, clientSessionInitialize, CString.length_take, maxNicknameLen]
  omega

theorem greets_cleanup (h : NamesShort s) (c : Slot) : Greets s (clientSessionCleanup s c) := by
  refine ⟨fun d => ?_, _, trace_clientSessionCleanup .., ?_⟩
  · rw [session_clientSessionCleanup]
    split
    · exact Nat.zero_lt_succ 31
    · exact h d
  · intro fd payload ok he
    split at he
    · exact absurd (List.mem_singleton.mp he) nofun
    · exact absurd he List.not_mem_nil

theorem greets_remove (h : NamesShort s) (fails : Slot → Bool) (c : Slot) :
    Greets s (clientManagerRemoveClient fails s c) := by
  by_cases hactive : (s.session c).active = true
  · rw [remove_of_active _ _ _ hactive]
    have hclosed : Greets s (removed s c) :=
      (greets_cleanup h c).congr (funext fun d => by
        rw [session_removed, session_clientSessionCleanup]) rfl
    exact hclosed.trans (greets_broadcast hclosed.names _ (Or.inr ⟨_, h c, rfl⟩) _)
  · rw [remove_of_inactive _ _ _ (Bool.eq_false_iff.mpr hactive)]
    exact Greets.refl h

end Greets

section Handshake
variable {s : State} (h : NamesShort s) (c : Slot)
include h

theorem greets_setHandshakeState (handshakeState : HandshakeState) :
    Greets s (setHandshakeState s c handshakeState) := Greets.set h (h c)

theorem greets_receiveSyn (received : Option HandshakePacket) :
    Greets s (handshakeReceiveSyn s c received).1 := by
  have hidle := greets_setHandshakeState h c .idle
  have hfailed := greets_setHandshakeState hidle.names c .failed
  have hreceived := greets_setHandshakeState hidle.names c .synReceived
  unfold handshakeReceiveSyn
  dsimp only
  split
  · exact hidle.trans hfailed
  · split
    · exact hidle.trans hfailed
    · apply (hidle.trans hreceived).trans
      split
      · exact Greets.set hreceived.names (length_setNickname_lt _ _)
      · exact Greets.refl hreceived.names

theorem greets_sendSynAck (fails : Slot → Bool) (seqNum clientSeq : UInt32) :
    Greets s (handshakeSendSynAck fails s c seqNum clientSeq).1 := by
  have hsent : Greets s (s.emit [.send (s.session c).socketFd
      (.packet (synAckPacket seqNum clientSeq)) (!fails c)]) := by
    apply Greets.emit h
    intro fd payload ok he
    cases List.mem_singleton.mp he
    exact ⟨seqNum, clientSeq, rfl⟩
  unfold handshakeSendSynAck
  dsimp only
  split
  · exact hsent.trans (greets_setHandshakeState hsent.names c .failed)
  · exact hsent

theorem greets_receiveAck (seqNum : UInt32) (received : Option HandshakePacket) :
    Greets s (handshakeReceiveAck s c seqNum received).1 := by
  unfold handshakeReceiveAck
  split
  · exact greets_setHandshakeState h c .failed
  · split
    · exact greets_setHandshakeState h c .failed
    · split
      · exact greets_setHandshakeState h c .failed
      · exact Greets.set h (h c)

end Handshake

theorem receiveMessage_of_short (s : State) (c : Slot) {received : Option (List UInt8)}
    (hshort : ∀ chunk, received = some chunk → chunk.length < 16) :
    (clientSessionReceiveMessage s c received).2 = none := by
  cases received with
  | none => rfl
  | some chunk =>
    have hlen := hshort chunk rfl
    cases chunk with
    | nil => rfl
    | cons b bs =>
      unfold clientSessionReceiveMessage serverDecryptMessage
      dsimp only
      split
      · split
        · rfl
        · simp only [decryptData, if_pos hlen]
      · rfl

section Step
variable {libc : Libc}

/-- A handler that reads no message greets. -/
theorem Handler.greets {s : State} (hnames : NamesShort s) (h : Handler) {input : Input}
    (hshort : ∀ chunk, input.chunk = some chunk → chunk.length < 16) :
    Greets s (h.step libc s input).1 := by
  obtain ⟨c, pc⟩ := h
  cases pc with
  | awaitSyn => exact greets_receiveSyn hnames c _
  | sendSynAck clientSeq => exact greets_sendSynAck hnames c _ _ _
  | awaitAck clientSeq seqNum => exact greets_receiveAck hnames c _ _
  | welcome =>
    have hwelcome : Greets s (chatProtocolSendWelcomeMessage input.env s c) := by
      apply Greets.emit hnames
      intro fd payload ok he
      cases List.mem_singleton.mp he
      exact Or.inl rfl
    exact hwelcome.trans (Greets.set hwelcome.names (hwelcome.names c))
  | loop =>
    have hsilent : Greets s (clientSessionReceiveMessage s c input.chunk).1 :=
      Greets.silent hnames (fun d => Or.inl (by rw [session_receiveMessage]))
        (trace_receiveMessage ..)
    have hnone := receiveMessage_of_short s c hshort
    rcases handlerTurn_cases libc input.env s c input.chunk with
      ⟨heq, _⟩ | ⟨_, ⟨_, heq⟩ | ⟨bytes, hbytes, _⟩⟩
    · simp only [Handler.step, heq]
      exact Greets.refl hnames
    · simp only [Handler.step, heq]
      exact hsilent
    · rw [hnone] at hbytes
      cases hbytes
  | exiting => exact greets_remove hnames _ c
  | gone => exact Greets.refl hnames

theorem System.accept_greets {sys : System} (hnames : NamesShort sys.server)
    (clientSocket : Int) (created started : Bool) (env : Env) :
    Greets sys.server (sys.accept clientSocket created started env).server := by
  have haccepted : Greets sys.server (sys.server.emit [.accept clientSocket]) :=
    Greets.emit hnames fun _ _ _ he => absurd (List.mem_singleton.mp he) nofun
  have hsome : ∀ i : Slot, clientManagerGetSession (i : Int) = some i := fun i =>
    clientManagerGetSession_eq_some_iff.mpr rfl
  have hnone : clientManagerGetSession (-1) = none := rfl
  unfold System.accept serverAcceptClient
  rcases add_cases (sys.server.emit [.accept clientSocket]) clientSocket created with
    ⟨_, heq⟩ | ⟨i, _, ⟨_, heq⟩ | ⟨_, heq⟩⟩
  · rw [heq]
    simp only [if_pos (by omega : (-1 : Int) < 0), hnone]
    exact haccepted.trans (Greets.emit haccepted.names fun _ _ _ he =>
      absurd (List.mem_singleton.mp he) nofun)
  · rw [heq]
    simp only [if_neg (by omega : ¬ (i : Int) < 0), hsome]
    have hadded : Greets sys.server
        (added (sys.server.emit [.accept clientSocket]) clientSocket i) := by
      refine haccepted.trans (Greets.silent haccepted.names (fun d => ?_) rfl)
      rw [session_added]
      split
      · exact Or.inr (length_newSession_lt _ _ _)
      · exact Or.inl rfl
    split
    · exact hadded
    · exact hadded.trans (greets_remove hadded.names _ i)
  · rw [heq]
    simp only [if_pos (by omega : (-1 : Int) < 0), hnone]
    have hset : Greets sys.server ((sys.server.emit [.accept clientSocket]).setSession i
        (newSession (sys.server.emit [.accept clientSocket]) clientSocket i)) :=
      haccepted.trans (Greets.set haccepted.names (length_newSession_lt _ _ _))
    have hsecured : Greets sys.server (((sys.server.emit [.accept clientSocket]).setSession i
        (newSession (sys.server.emit [.accept clientSocket]) clientSocket i)).setSecurity
          { sys.server.securityManager with
            contexts := Function.update sys.server.securityManager.contexts i none }) :=
      hset.congr rfl rfl
    have hcleaned := hsecured.trans (greets_cleanup hsecured.names i)
    exact hcleaned.trans (Greets.emit hcleaned.names fun _ _ _ he =>
      absurd (List.mem_singleton.mp he) nofun)

theorem System.step_greets {sys : System} (hnames : NamesShort sys.server) {label : Label}
    (hshort : ∀ n input, label = .handler n input →
      ∀ chunk, input.chunk = some chunk → chunk.length < 16) :
    Greets sys.server (sys.step libc label).server := by
  apply System.step_server label (Greets.refl hnames)
  · intro clientSocket created started env _ _
    exact System.accept_greets hnames _ _ _ _
  · intro n h input hlabel
    exact h.greets hnames (hshort n input hlabel)

theorem namesShort_start (memory : State) : NamesShort (System.start memory).server :=
  fun _ => Nat.zero_lt_succ 31

end Step

end TcpChat.Server

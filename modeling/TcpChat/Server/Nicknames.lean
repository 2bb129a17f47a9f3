import TcpChat.Server.HandlerSteps

/-!
# Where nicknames come from

A nickname is the default one of a new session, or it was taken from a SYN or asked for with
`/nick`. Nothing else writes it while the session lives.
-/

namespace TcpChat.Server

open Base Base.Runs
set_option autoImplicit false

/-- The nickname of a new session. -/
def defaultNickname (socketFd : Int) : CString :=
  ("User" ++ CString.ofInt socketFd : CString).take (maxNicknameLen - 1)

/-- The handler for slot `d` waits for a SYN, and receives one whose nickname fits. -/
def TakesNickname (sys : System) (label : Label) (d : Slot) (nickname : CString) : Prop :=
  ∃ n input packet, label = .handler n input ∧ sys.handlers[n]? = some ⟨d, .awaitSyn⟩ ∧
    receivedBy (sys.server.session d) input.packet = some packet ∧
    packet.type = handshakeTypeSyn ∧ packet.nicknameString = nickname ∧
    0 < nickname.length ∧ nickname.length < maxNicknameLen

/-- How a live session comes by its nickname in one step. -/
inductive NicknameFrom (sys : System) (label : Label) (d : Slot) : CString → Prop where
  | kept (h : (sys.server.session d).active = true) :
    NicknameFrom sys label d (sys.server.session d).nickname
  | syn {nickname : CString} (h : TakesNickname sys label d nickname) :
    NicknameFrom sys label d nickname
  | asked {newNickname : CString} (h : (cleanNickname newNickname).length ≠ 0) :
    NicknameFrom sys label d (cleanNickname newNickname)
  | given {socketFd : Int} (h : 0 ≤ socketFd) :
    NicknameFrom sys label d (defaultNickname socketFd)

section Handler
variable {libc : Libc} {s : State} {input : Input} {c d : Slot}

/-- What a packet makes of a nickname while a SYN is awaited. -/
def synNickname (nickname : CString) : Option HandshakePacket → CString
  | none => nickname
  | some packet =>
    if packet.type = handshakeTypeSyn ∧ 0 < packet.nicknameString.length ∧
        packet.nicknameString.length < maxNicknameLen then packet.nicknameString
    else nickname

theorem nickname_receiveSyn (received : Option HandshakePacket) :
    ((handshakeReceiveSyn s c received).1.session d).nickname =
      if d = c then synNickname (s.session c).nickname received else (s.session d).nickname := by
  by_cases hd : d = c
  · subst hd
    rw [if_pos rfl]
    unfold handshakeReceiveSyn setHandshakeState synNickname
    dsimp only
    simp only [State.session_setSession_self, State.setSession_setSession]
    cases received with
    | none => simp
    | some packet =>
      by_cases htype : packet.type = handshakeTypeSyn
      · by_cases hlen : 0 < packet.nicknameString.length ∧
            packet.nicknameString.length < maxNicknameLen
        · have hwhole : packet.nicknameString.take (maxNicknameLen - 1) = packet.nicknameString :=
            CString.take_of_length_le (Nat.le_sub_one_of_lt hlen.2)
          simp [htype, hlen, clientSessionSetNickname, hwhole]
        · simp [htype, hlen]
      · simp [htype]
  · rw [if_neg hd]
    obtain ⟨v, _, ⟨_, heq⟩ | ⟨_, _, _, _, heq⟩⟩ := receiveSyn_cases s c received
    all_goals
      rw [heq, State.session_setSession_of_ne _ _ _ _ hd]

theorem nickname_setSession {v : ClientSession} (hv : v.nickname = (s.session c).nickname) :
    ((s.setSession c v).session d).nickname = (s.session d).nickname := by
  rw [State.session_setSession]
  split
  · rename_i hd
    rw [hd, hv]
  · rfl

theorem nickname_perform {env : Env} {r : Request}
    (hactive : ((perform libc env s c r).1.session d).active = true) :
    ((perform libc env s c r).1.session d).nickname = (s.session d).nickname ∨
      ∃ newNickname, (cleanNickname newNickname).length ≠ 0 ∧
        ((perform libc env s c r).1.session d).nickname = cleanNickname newNickname := by
  have hout := outcome_perform libc env s c r
  revert hactive
  -- The session is the one that the outcome puts in its place.
  generalize hsessions : (perform libc env s c r).1.session = sessions at hout
  generalize (perform libc env s c r).1.roomManager = rooms at hout
  intro hactive
  cases hout with
  | talk | createRefused | joinRefused => exact Or.inl rfl
  | announced =>
    dsimp only at hactive ⊢
    split
    · rename_i hevicted
      rw [if_pos hevicted] at hactive
      cases hactive
    · exact Or.inl rfl
  | renamed h =>
    dsimp only at hactive ⊢
    split
    · rename_i hdropped
      rw [if_pos hdropped] at hactive
      cases hactive
    · split
      · exact Or.inr ⟨_, h, CString.take_of_length_le
          (Nat.le_sub_one_of_lt (length_cleanNickname_lt _))⟩
      · exact Or.inl rfl
  | created | joined | left =>
    rw [Function.update_apply]
    split
    · rename_i hd
      rw [hd]
      exact Or.inl rfl
    · exact Or.inl rfl

/-- A handler renames a live session by a SYN for its own slot, or at the request of a client. -/
theorem Handler.nickname_cases (h : Handler)
    (hactive : ((h.step libc s input).1.session d).active = true) :
    ((h.step libc s input).1.session d).nickname = (s.session d).nickname ∨
    (h = ⟨d, .awaitSyn⟩ ∧ ((h.step libc s input).1.session d).nickname =
      synNickname (s.session d).nickname (receivedBy (s.session d) input.packet)) ∨
    ∃ newNickname, (cleanNickname newNickname).length ≠ 0 ∧
      ((h.step libc s input).1.session d).nickname = cleanNickname newNickname := by
  obtain ⟨c, pc⟩ := h
  cases pc with
  | awaitSyn =>
    have hname := @nickname_receiveSyn s c d (receivedBy (s.session c) input.packet)
    simp only [Handler.step]
    rw [hname]
    by_cases hd : d = c
    · subst hd
      exact Or.inr (Or.inl ⟨rfl, if_pos rfl⟩)
    · exact Or.inl (if_neg hd)
  | sendSynAck clientSeq =>
    rcases sendSynAck_cases s c (input.env.sendFails 0) input.seqNum clientSeq with
      ⟨_, heq⟩ | ⟨_, heq⟩
    · simp only [Handler.step, heq]
      exact Or.inl (nickname_setSession rfl)
    · simp only [Handler.step, heq]
      exact Or.inl rfl
  | awaitAck clientSeq seqNum =>
    rcases receiveAck_cases s c seqNum (receivedBy (s.session c) input.packet) with
      ⟨_, _, _, _, heq⟩ | ⟨_, heq⟩
    all_goals
      simp only [Handler.step, heq]
      exact Or.inl (nickname_setSession rfl)
  | welcome =>
    simp only [Handler.step, chatProtocolSendWelcomeMessage, sendMessageToClient_fst,
      chatProtocolAnnounceUserJoined]
    exact Or.inl (nickname_setSession rfl)
  | loop =>
    rcases handlerTurn_cases libc input.env s c input.chunk with
      ⟨heq, _⟩ | ⟨_, ⟨_, heq⟩ | ⟨bytes, _, _, heq⟩⟩
    · simp only [Handler.step, heq]
      exact Or.inl trivial
    · simp only [Handler.step, heq, session_receiveMessage]
      exact Or.inl trivial
    · simp only [Handler.step, heq] at hactive ⊢
      have hperform := nickname_perform hactive
      rw [session_receiveMessage] at hperform
      exact hperform.imp_right Or.inr
  | exiting =>
    simp only [Handler.step, session_remove] at hactive ⊢
    split
    · rename_i htaken
      rw [if_pos htaken] at hactive
      cases hactive
    · exact Or.inl rfl
  | gone => exact Or.inl rfl

end Handler

section Step
variable {libc : Libc} {sys : System} {label : Label} {d : Slot}

theorem NicknameFrom.handler {n : Nat} {input : Input}
    (hactive : ((sys.step libc (.handler n input)).server.session d).active = true) :
    NicknameFrom sys (.handler n input) d
      ((sys.step libc (.handler n input)).server.session d).nickname := by
  cases hn : sys.handlers[n]? with
  | none =>
    rw [System.step_no_handler hn] at hactive ⊢
    exact .kept hactive
  | some h =>
    rw [System.step_handler hn] at hactive ⊢
    have hbefore := Handler.active_of_step hactive
    rcases h.nickname_cases hactive with hsame | ⟨rfl, hsyn⟩ | ⟨newNickname, hne, hasked⟩
    · rw [hsame]
      exact .kept hbefore
    · rw [hsyn]
      cases hreceived : receivedBy (sys.server.session d) input.packet with
      | none => exact .kept hbefore
      | some packet =>
        unfold synNickname
        dsimp only
        split
        · rename_i hfits
          exact .syn ⟨n, input, packet, rfl, hn, hreceived, hfits.1, rfl, hfits.2⟩
        · exact .kept hbefore
    · rw [hasked]
      exact .asked hne

theorem NicknameFrom.accept {clientSocket : Int} (hunused : Unused sys.server clientSocket)
    (created started : Bool) (env : Env)
    (hactive : ((sys.accept clientSocket created started env).server.session d).active = true) :
    NicknameFrom sys label d
      ((sys.accept clientSocket created started env).server.session d).nickname := by
  have hadded : ∀ i, ((added (sys.server.emit [.accept clientSocket]) clientSocket i).session
      d).active = true → NicknameFrom sys label d
        ((added (sys.server.emit [.accept clientSocket]) clientSocket i).session d).nickname := by
    intro i hi
    rw [session_added] at hi ⊢
    split
    · exact .given hunused.1
    · rename_i hdi
      rw [if_neg hdi] at hi
      exact .kept hi
  rcases sys.accept_cases clientSocket created started env with
    ⟨s, heq, _, _, hkept, _⟩ | ⟨_, i, _, heq⟩
  · rw [heq] at hactive ⊢
    dsimp only at hactive ⊢
    rcases hkept d with hsame | ⟨_, hdead, _⟩
    · rw [hsame] at hactive ⊢
      exact .kept hactive
    · rw [hactive] at hdead
      cases hdead
  · rw [heq] at hactive ⊢
    cases started with
    | true => exact hadded i hactive
    | false =>
      simp only [Bool.false_eq_true, if_false, session_remove] at hactive ⊢
      split
      · rename_i htaken
        rw [if_pos htaken] at hactive
        cases hactive
      · rename_i hspared
        rw [if_neg hspared] at hactive
        exact hadded i hactive

/-- Whatever the step, a session that is live after it has its nickname from one of the four. -/
theorem nicknameFrom_step
    (hactive : ((sys.step libc label).server.session d).active = true) :
    NicknameFrom sys label d ((sys.step libc label).server.session d).nickname := by
  cases label with
  | handler n input => exact NicknameFrom.handler hactive
  | accept clientSocket created started env =>
    by_cases hunused : Unused sys.server clientSocket
    · rw [System.step_accept hunused] at hactive ⊢
      exact NicknameFrom.accept hunused created started env hactive
    · rw [System.step_no_accept hunused] at hactive ⊢
      exact .kept hactive

/-- What is asked for in a SYN becomes the nickname. -/
theorem TakesNickname.taken {nickname : CString} (h : TakesNickname sys label d nickname) :
    ((sys.step libc label).server.session d).nickname = nickname ∧
      ((sys.step libc label).server.session d).active = (sys.server.session d).active := by
  obtain ⟨n, input, packet, rfl, hn, hreceived, htype, rfl, hpos, hlt⟩ := h
  rw [System.step_handler hn]
  have hname := @nickname_receiveSyn sys.server d d (some packet)
  rw [if_pos rfl, synNickname, if_pos ⟨htype, hpos, hlt⟩] at hname
  constructor
  · simp only [Handler.step, hreceived]
    exact hname
  · simp only [Handler.step, hreceived]
    obtain ⟨v, hv, ⟨_, heq⟩ | ⟨_, _, _, _, heq⟩⟩ := receiveSyn_cases sys.server d (some packet)
    all_goals
      rw [heq, State.session_setSession_self]
      exact hv.active

end Step

end TcpChat.Server

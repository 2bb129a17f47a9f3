import TcpChat.Server.ClientSession

/-!
# The handshake, server side (server/src/handshake_protocol.c)

`handshake_perform_server_side` waits for the network twice, so it is cut into the three steps
its comments name. `none` stands for a packet that could not be received whole.
-/

namespace TcpChat.Server

open Base
set_option autoImplicit false

def setHandshakeState (s : State) (c : Slot) (handshakeState : HandshakeState) : State :=
  s.setSession c { s.session c with handshakeState := handshakeState }

/-- Step 1: receive SYN from client. The result is the client's sequence number. -/
def handshakeReceiveSyn (s : State) (c : Slot) (received : Option HandshakePacket) :
    State × Option UInt32 :=
  let s := setHandshakeState s c .idle
  match received with
  | none => (setHandshakeState s c .failed, none)
  | some synPacket =>
    if synPacket.type ≠ handshakeTypeSyn then (setHandshakeState s c .failed, none)
    else
      let s := setHandshakeState s c .synReceived
      let nickname := synPacket.nicknameString
      let s := if 0 < nickname.length ∧ nickname.length < maxNicknameLen then
        s.setSession c (clientSessionSetNickname (s.session c) nickname) else s
      (s, some synPacket.seqNum)

def synAckPacket (seqNum clientSeq : UInt32) : HandshakePacket :=
  { HandshakePacket.zero with
    type := handshakeTypeSynAck, seqNum := seqNum, ackNum := clientSeq + 1 }.setNickname "SERVER"

/-- Step 2: send SYN-ACK to client, under a sequence number taken from the clock. -/
def handshakeSendSynAck (fails : Slot → Bool) (s : State) (c : Slot) (seqNum clientSeq : UInt32) :
    State × Int :=
  let s := s.emit [.send (s.session c).socketFd (.packet (synAckPacket seqNum clientSeq)) (!fails c)]
  if fails c then (setHandshakeState s c .failed, -1) else (s, 0)

/-- Step 3: receive ACK from client. -/
def handshakeReceiveAck (s : State) (c : Slot) (seqNum : UInt32)
    (received : Option HandshakePacket) : State × Int :=
  match received with
  | none => (setHandshakeState s c .failed, -1)
  | some ackPacket =>
    if ackPacket.type ≠ handshakeTypeAck then (setHandshakeState s c .failed, -1)
    else if ackPacket.ackNum ≠ seqNum + 1 then (setHandshakeState s c .failed, -1)
    else
      (s.setSession c
        { s.session c with sequenceNumber := seqNum, handshakeState := .established }, 0)

/-- The handshake leaves alone what the rest of the server knows of a connection. -/
structure SameConnection (session session' : ClientSession) : Prop where
  active : session'.active = session.active
  socketFd : session'.socketFd = session.socketFd
  state : session'.state = session.state
  currentRoomId : session'.currentRoomId = session.currentRoomId

section Cases
variable (s : State) (c : Slot)

theorem receiveSyn_cases (received : Option HandshakePacket) :
    ∃ session', SameConnection (s.session c) session' ∧
      (session'.handshakeState = .failed ∧
          handshakeReceiveSyn s c received = (s.setSession c session', none) ∨
        session'.handshakeState = .synReceived ∧ ∃ synPacket, received = some synPacket ∧
          synPacket.type = handshakeTypeSyn ∧
          handshakeReceiveSyn s c received =
            (s.setSession c session', some synPacket.seqNum)) := by
  have hsame : ∀ handshakeState, SameConnection (s.session c)
      { s.session c with handshakeState := handshakeState } := fun _ => ⟨rfl, rfl, rfl, rfl⟩
  have hnamed : ∀ nickname, SameConnection (s.session c)
      (clientSessionSetNickname { s.session c with handshakeState := .synReceived } nickname) :=
    fun _ => ⟨rfl, rfl, rfl, rfl⟩
  unfold handshakeReceiveSyn setHandshakeState
  dsimp only
  simp only [State.session_setSession_self, State.setSession_setSession]
  split
  · exact ⟨_, hsame .failed, Or.inl ⟨rfl, rfl⟩⟩
  · rename_i synPacket
    split
    · exact ⟨_, hsame .failed, Or.inl ⟨rfl, rfl⟩⟩
    · rename_i htype
      rw [ne_eq, not_not] at htype
      split
      · exact ⟨_, hnamed _, Or.inr ⟨rfl, synPacket, rfl, htype, rfl⟩⟩
      · exact ⟨_, hsame .synReceived, Or.inr ⟨rfl, synPacket, rfl, htype, rfl⟩⟩

theorem sendSynAck_cases (fails : Slot → Bool) (seqNum clientSeq : UInt32) :
    (fails c = true ∧ handshakeSendSynAck fails s c seqNum clientSeq =
      ((s.emit [.send (s.session c).socketFd (.packet (synAckPacket seqNum clientSeq)) false])
        |>.setSession c { s.session c with handshakeState := .failed }, -1)) ∨
    (fails c = false ∧ handshakeSendSynAck fails s c seqNum clientSeq =
      (s.emit [.send (s.session c).socketFd (.packet (synAckPacket seqNum clientSeq)) true], 0)) := by
  unfold handshakeSendSynAck setHandshakeState
  dsimp only
  cases hfail : fails c with
  | true => exact Or.inl ⟨rfl, rfl⟩
  | false => exact Or.inr ⟨rfl, rfl⟩

/-- The handshake is completed exactly by an ACK of the right number. -/
theorem receiveAck_cases (seqNum : UInt32) (received : Option HandshakePacket) :
    (∃ ackPacket, received = some ackPacket ∧ ackPacket.type = handshakeTypeAck ∧
      ackPacket.ackNum = seqNum + 1 ∧ handshakeReceiveAck s c seqNum received =
        (s.setSession c
          { s.session c with sequenceNumber := seqNum, handshakeState := .established }, 0)) ∨
    ((∀ ackPacket, received = some ackPacket → ackPacket.type = handshakeTypeAck →
        ackPacket.ackNum ≠ seqNum + 1) ∧
      handshakeReceiveAck s c seqNum received =
        (s.setSession c { s.session c with handshakeState := .failed }, -1)) := by
  unfold handshakeReceiveAck
  split
  · exact Or.inr ⟨fun _ h => (Option.some_ne_none _ h.symm).elim, rfl⟩
  · rename_i ackPacket
    split
    · rename_i htype
      exact Or.inr ⟨fun _ h h' => absurd (Option.some.inj h ▸ h') htype, rfl⟩
    · rename_i htype
      rw [ne_eq, not_not] at htype
      split
      · rename_i hack
        exact Or.inr ⟨fun _ h _ => Option.some.inj h ▸ hack, rfl⟩
      · rename_i hack
        rw [ne_eq, not_not] at hack
        exact Or.inl ⟨ackPacket, rfl, htype, hack, rfl⟩

end Cases

end TcpChat.Server

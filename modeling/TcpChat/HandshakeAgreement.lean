import TcpChat.Base.Runs
import TcpChat.Client.HandshakeProtocol
import TcpChat.Server.HandshakeProtocol

/-!
# The handshake between one client and the server

`handshake_perform_client_side` and `handshake_perform_server_side` on the two ends of one
connection, cut at their calls of `send` and `recv`. The connection may break between any two
steps; from then on every `send` and `recv` may fail.
-/

namespace TcpChat.HandshakeAgreement

open Base Base.Runs
open Server (State Slot handshakeReceiveSyn handshakeSendSynAck handshakeReceiveAck synAckPacket)
open Client (synPacket ackPacket handshakeAnswer)
set_option autoImplicit false

/-- Where `handshake_perform_client_side` stands; the ACK is built from what was received. -/
inductive ClientPc where
  | sendSyn
  | receiveSynAck
  | sendAck (ack : HandshakePacket)
  | returned (result : Int)

/-- Where `handshake_perform_server_side` stands. -/
inductive ServerPc where
  | receiveSyn
  | sendSynAck (clientSeq : UInt32)
  | receiveAck
  | returned (result : Int)

/-- Both ends. A channel holds what one side has sent and the other has not yet read;
`accepted` is the SYN-ACK that the client went on with. -/
structure Peers where
  client : ClientPc
  server : ServerPc
  state : State
  clientSent : List HandshakePacket
  serverSent : List HandshakePacket
  clientRead : Nat
  serverRead : Nat
  accepted : Option HandshakePacket
  broken : Bool

/-- The session that serves the client, the client's nickname, and the sequence numbers that
`handshake_generate_sequence_number` gives on the two sides. -/
structure Setup where
  slot : Slot
  nickname : CString
  clientSeq : UInt32
  serverSeq : UInt32

/-- `ok` says whether a call on a broken connection still succeeds. -/
inductive Label where
  | client (ok : Bool)
  | server (ok : Bool)
  | breakConnection
  deriving DecidableEq

/-- What `handshake_receive_packet` gives after `read` packets: `none` while it waits, `some
none` when it fails. -/
def receive (broken ok : Bool) (sent : List HandshakePacket) (read : Nat) :
    Option (Option HandshakePacket) :=
  if broken && !ok then some none
  else match sent[read]? with
    | some packet => some (some packet)
    | none => if broken then some none else none

def clientStep (setup : Setup) (p : Peers) (ok : Bool) : Peers :=
  match p.client with
  | .sendSyn =>
    if p.broken && !ok then { p with client := .returned (-1) }
    else { p with
      client := .receiveSynAck
      clientSent := p.clientSent ++ [synPacket setup.nickname setup.clientSeq] }
  | .receiveSynAck =>
    match receive p.broken ok p.serverSent p.clientRead with
    | none => p
    | some received =>
      match handshakeAnswer setup.nickname setup.clientSeq received with
      | none => { p with client := .returned (-1) }
      | some ack => { p with
          client := .sendAck ack, clientRead := p.clientRead + 1, accepted := received }
  | .sendAck ack =>
    if p.broken && !ok then { p with client := .returned (-1) }
    else { p with client := .returned 0, clientSent := p.clientSent ++ [ack] }
  | .returned _ => p

def serverStep (setup : Setup) (p : Peers) (ok : Bool) : Peers :=
  match p.server with
  | .receiveSyn =>
    match receive p.broken ok p.clientSent p.serverRead with
    | none => p
    | some received =>
      let next := handshakeReceiveSyn p.state setup.slot received
      match next.2 with
      | none => { p with state := next.1, server := .returned (-1) }
      | some clientSeq => { p with
          state := next.1, server := .sendSynAck clientSeq, serverRead := p.serverRead + 1 }
  | .sendSynAck clientSeq =>
    let fails := p.broken && !ok
    let next := handshakeSendSynAck (fun _ => fails) p.state setup.slot setup.serverSeq clientSeq
    if next.2 < 0 then { p with state := next.1, server := .returned next.2 }
    else { p with
      state := next.1
      server := .receiveAck
      serverSent := p.serverSent ++ [synAckPacket setup.serverSeq clientSeq] }
  | .receiveAck =>
    match receive p.broken ok p.clientSent p.serverRead with
    | none => p
    | some received =>
      let next := handshakeReceiveAck p.state setup.slot setup.serverSeq received
      { p with state := next.1, server := .returned next.2, serverRead := p.serverRead + 1 }
  | .returned _ => p

def step (setup : Setup) (p : Peers) : Label → Peers
  | .client ok => clientStep setup p ok
  | .server ok => serverStep setup p ok
  | .breakConnection => { p with broken := true }

/-- Both functions have been called, nothing is sent yet. -/
def start (s : State) : Peers :=
  { client := .sendSyn
    server := .receiveSyn
    state := s
    clientSent := []
    serverSent := []
    clientRead := 0
    serverRead := 0
    accepted := none
    broken := false }

def ClientPc.remaining : ClientPc → Nat
  | .sendSyn => 3
  | .receiveSynAck => 2
  | .sendAck _ => 1
  | .returned _ => 0

def ServerPc.remaining : ServerPc → Nat
  | .receiveSyn => 3
  | .sendSynAck _ => 2
  | .receiveAck => 1
  | .returned _ => 0

/-- The steps that the two functions still have before them, at most. -/
def Peers.remaining (p : Peers) : Nat := p.client.remaining + p.server.remaining

/-- The session's nickname after the SYN: the first 31 bytes, or the old one for none. -/
def agreedNickname (old nickname : CString) : CString :=
  if nickname.length = 0 then old else nickname.take (maxNicknameLen - 1)

/-- What the server may rely on once it has ended in `HANDSHAKE_ESTABLISHED`. -/
structure Agreed (setup : Setup) (old : CString) (p : Peers) : Prop where
  client_returned : p.client = .returned 0
  synAck : ∃ synAck ack, p.serverSent = [synAck] ∧ p.accepted = some synAck ∧
    p.clientSent = [synPacket setup.nickname setup.clientSeq, ack] ∧
    ack.type = handshakeTypeAck ∧ ack.ackNum = synAck.seqNum + 1 ∧
    (p.state.session setup.slot).sequenceNumber + 1 = ack.ackNum
  nickname : (p.state.session setup.slot).nickname = agreedNickname old setup.nickname

/-- Both calls have returned 0. -/
def Succeeded (setup : Setup) (p : Peers) : Prop :=
  p.client = .returned 0 ∧ p.server = .returned 0 ∧
    (p.state.session setup.slot).handshakeState = .established

structure HandshakeOutcome (setup : Setup) (old : CString) (p : Peers) : Prop where
  established : ∀ result, p.server = .returned result →
    (p.state.session setup.slot).handshakeState = .established → Agreed setup old p
  failed : ∀ result, p.server = .returned result →
    (p.state.session setup.slot).handshakeState ≠ .established →
      (p.state.session setup.slot).handshakeState = .failed
  succeeds : p.broken = false → Succeeded setup p ∨
    ∃ l, l ≠ .breakConnection ∧ (step setup p l).remaining < p.remaining
  bounded : ∀ l, (step setup p l).remaining ≤ p.remaining

/-- The client holds the SYN-ACK that the server has sent. -/
def Answered (setup : Setup) (p : Peers) : Prop :=
  p.serverSent = [synAckPacket setup.serverSeq setup.clientSeq] ∧
    p.accepted = some (synAckPacket setup.serverSeq setup.clientSeq)

def ClientOk (setup : Setup) (p : Peers) : ClientPc → Prop
  | .sendSyn => p.clientSent = [] ∧ p.clientRead = 0
  | .receiveSynAck =>
    p.clientSent = [synPacket setup.nickname setup.clientSeq] ∧ p.clientRead = 0
  | .sendAck ack =>
    p.clientSent = [synPacket setup.nickname setup.clientSeq] ∧ Answered setup p ∧
      ack = ackPacket setup.nickname setup.clientSeq setup.serverSeq
  | .returned result =>
    (result = 0 ∧ Answered setup p ∧
      p.clientSent = [synPacket setup.nickname setup.clientSeq,
        ackPacket setup.nickname setup.clientSeq setup.serverSeq]) ∨
    (p.broken = true ∧
      (p.clientSent = [] ∨ p.clientSent = [synPacket setup.nickname setup.clientSeq]))

def ServerOk (setup : Setup) (old : CString) (p : Peers) : ServerPc → Prop
  | .receiveSyn => p.serverSent = [] ∧ p.serverRead = 0 ∧
    (p.state.session setup.slot).nickname = old
  | .sendSynAck clientSeq => p.serverSent = [] ∧ p.serverRead = 1 ∧ clientSeq = setup.clientSeq ∧
    (p.state.session setup.slot).nickname = agreedNickname old setup.nickname
  | .receiveAck =>
    p.serverSent = [synAckPacket setup.serverSeq setup.clientSeq] ∧ p.serverRead = 1 ∧
    (p.state.session setup.slot).nickname = agreedNickname old setup.nickname
  | .returned result =>
    (p.serverSent = [] ∨ p.serverSent = [synAckPacket setup.serverSeq setup.clientSeq]) ∧
    ((result = 0 ∧ (p.state.session setup.slot).handshakeState = .established ∧
      (p.state.session setup.slot).sequenceNumber = setup.serverSeq ∧
      (p.state.session setup.slot).nickname = agreedNickname old setup.nickname ∧
      p.clientSent = [synPacket setup.nickname setup.clientSeq,
        ackPacket setup.nickname setup.clientSeq setup.serverSeq]) ∨
    (p.broken = true ∧ (p.state.session setup.slot).handshakeState = .failed))

/-- Where both sides are tells what is in the channels. -/
structure InStep (setup : Setup) (old : CString) (p : Peers) : Prop where
  client : ClientOk setup p p.client
  server : ServerOk setup old p p.server

theorem receive_cases (broken ok : Bool) (sent : List HandshakePacket) (read : Nat) :
    (receive broken ok sent read = none ∧ broken = false) ∨
    (receive broken ok sent read = some none ∧ broken = true) ∨
    ∃ packet, sent[read]? = some packet ∧ receive broken ok sent read = some (some packet) := by
  unfold receive
  cases hget : sent[read]? with
  | none => cases broken <;> cases ok <;> simp
  | some packet => cases broken <;> cases ok <;> simp

theorem receive_of_whole {ok : Bool} {sent : List HandshakePacket} {read : Nat}
    {packet : HandshakePacket} (h : sent[read]? = some packet) :
    receive false ok sent read = some (some packet) := by
  simp [receive, h]

theorem answer_synAckPacket (setup : Setup) :
    handshakeAnswer setup.nickname setup.clientSeq
        (some (synAckPacket setup.serverSeq setup.clientSeq)) =
      some (ackPacket setup.nickname setup.clientSeq setup.serverSeq) := by
  simp [handshakeAnswer, synAckPacket, HandshakePacket.setNickname]

theorem nicknameString_synPacket (nickname : CString) (seqNum : UInt32) :
    (synPacket nickname seqNum).nicknameString = nickname.take (maxNicknameLen - 1) :=
  HandshakePacket.nicknameString_setNickname _ _

section Server
variable (s : State) (setup : Setup)

theorem receiveSyn_synPacket :
    (handshakeReceiveSyn s setup.slot (some (synPacket setup.nickname setup.clientSeq))).2 =
        some setup.clientSeq ∧
      ((handshakeReceiveSyn s setup.slot
          (some (synPacket setup.nickname setup.clientSeq))).1.session setup.slot).nickname =
        agreedNickname (s.session setup.slot).nickname setup.nickname := by
  have htype : (synPacket setup.nickname setup.clientSeq).type = handshakeTypeSyn := rfl
  unfold handshakeReceiveSyn agreedNickname
  simp only [htype, ne_eq, not_true_eq_false, if_false, nicknameString_synPacket,
    CString.length_take]
  refine ⟨rfl, ?_⟩
  by_cases hempty : setup.nickname.length = 0
  · rw [if_pos hempty, if_neg (by omega)]
    simp [Server.setHandshakeState]
  · have hlen : 0 < min (maxNicknameLen - 1) setup.nickname.length ∧
        min (maxNicknameLen - 1) setup.nickname.length < maxNicknameLen := by
      simp only [maxNicknameLen]
      omega
    rw [if_neg hempty, if_pos hlen]
    simp only [State.session_setSession_self, Server.clientSessionSetNickname]
    exact CString.take_of_length_le (by simp only [CString.length_take]; omega)

theorem receiveSyn_none :
    (handshakeReceiveSyn s setup.slot none).2 = none ∧
      ((handshakeReceiveSyn s setup.slot none).1.session setup.slot).handshakeState =
        .failed := by
  refine ⟨rfl, ?_⟩
  simp [handshakeReceiveSyn, Server.setHandshakeState]

theorem receiveAck_ackPacket :
    (handshakeReceiveAck s setup.slot setup.serverSeq
        (some (ackPacket setup.nickname setup.clientSeq setup.serverSeq))).2 = 0 ∧
      (handshakeReceiveAck s setup.slot setup.serverSeq
          (some (ackPacket setup.nickname setup.clientSeq setup.serverSeq))).1.session setup.slot =
        { s.session setup.slot with
          sequenceNumber := setup.serverSeq, handshakeState := .established } := by
  simp [handshakeReceiveAck, ackPacket, HandshakePacket.setNickname]

theorem receiveAck_none :
    (handshakeReceiveAck s setup.slot setup.serverSeq none).2 = -1 ∧
      ((handshakeReceiveAck s setup.slot setup.serverSeq none).1.session
        setup.slot).handshakeState = .failed := by
  refine ⟨rfl, ?_⟩
  simp [handshakeReceiveAck, Server.setHandshakeState]

end Server

section Steps
variable {setup : Setup} {old : CString} {p : Peers}

/-- What the server knows does not depend on how far the client is, once it has returned 0. -/
theorem ServerOk.of_client {p' : Peers} {pc : ServerPc} (h : ServerOk setup old p pc)
    (hstate : p'.state = p.state) (hsent : p'.serverSent = p.serverSent)
    (hread : p'.serverRead = p.serverRead) (hbroken : p'.broken = p.broken)
    (hgrows : p.clientSent = [synPacket setup.nickname setup.clientSeq,
        ackPacket setup.nickname setup.clientSeq setup.serverSeq] →
      p'.clientSent = p.clientSent) : ServerOk setup old p' pc := by
  cases pc with
  | receiveSyn | sendSynAck | receiveAck =>
    simp only [ServerOk, hstate, hsent, hread] at h ⊢
    exact h
  | returned result =>
    simp only [ServerOk, hstate, hsent, hbroken] at h ⊢
    obtain ⟨hout, ⟨hzero, hest, hseq, hnick, hfull⟩ | hfail⟩ := h
    · exact ⟨hout, Or.inl ⟨hzero, hest, hseq, hnick, (hgrows hfull).trans hfull⟩⟩
    · exact ⟨hout, Or.inr hfail⟩

theorem ServerOk.serverSent {pc : ServerPc} (h : ServerOk setup old p pc) :
    p.serverSent = [] ∨ p.serverSent = [synAckPacket setup.serverSeq setup.clientSeq] := by
  cases pc with
  | receiveSyn | sendSynAck => exact Or.inl h.1
  | receiveAck => exact Or.inr h.1
  | returned => exact h.1

theorem ClientOk.clientSent {pc : ClientPc} (h : ClientOk setup p pc) :
    p.clientSent = [] ∨ p.clientSent = [synPacket setup.nickname setup.clientSeq] ∨
      p.clientSent = [synPacket setup.nickname setup.clientSeq,
        ackPacket setup.nickname setup.clientSeq setup.serverSeq] := by
  cases pc with
  | sendSyn => exact Or.inl h.1
  | receiveSynAck | sendAck => exact Or.inr (Or.inl h.1)
  | returned =>
    rcases h with ⟨_, _, hfull⟩ | ⟨_, hnone | hone⟩
    · exact Or.inr (Or.inr hfull)
    · exact Or.inl hnone
    · exact Or.inr (Or.inl hone)

theorem InStep.clientStep (h : InStep setup old p) (ok : Bool) :
    InStep setup old (clientStep setup p ok) := by
  have hclient := h.client
  unfold HandshakeAgreement.clientStep
  cases hpc : p.client with
  | sendSyn =>
    rw [hpc] at hclient
    obtain ⟨hsent, hread⟩ := hclient
    dsimp only
    split
    · rename_i hfail
      rw [Bool.and_eq_true] at hfail
      exact ⟨Or.inr ⟨hfail.1, Or.inl hsent⟩, h.server⟩
    · refine ⟨⟨by rw [hsent]; rfl, hread⟩, h.server.of_client rfl rfl rfl rfl ?_⟩
      intro hfull
      rw [hsent] at hfull
      cases hfull
  | receiveSynAck =>
    rw [hpc] at hclient
    obtain ⟨hsent, hread⟩ := hclient
    dsimp only
    rcases receive_cases p.broken ok p.serverSent p.clientRead with
      ⟨hreceive, _⟩ | ⟨hreceive, hbroken⟩ | ⟨packet, hget, hreceive⟩
    · rw [hreceive]
      exact h
    · rw [hreceive]
      exact ⟨Or.inr ⟨hbroken, Or.inr hsent⟩, h.server⟩
    · rcases h.server.serverSent with hnone | hone
      · simp [hnone] at hget
      · rw [hone, hread] at hget
        cases hget
        rw [hreceive]
        dsimp only
        rw [answer_synAckPacket]
        exact ⟨⟨hsent, ⟨hone, rfl⟩, rfl⟩, h.server⟩
  | sendAck ack =>
    rw [hpc] at hclient
    obtain ⟨hsent, hanswered, rfl⟩ := hclient
    dsimp only
    split
    · rename_i hfail
      rw [Bool.and_eq_true] at hfail
      exact ⟨Or.inr ⟨hfail.1, Or.inr hsent⟩, h.server⟩
    · refine ⟨Or.inl ⟨rfl, hanswered, by rw [hsent]; rfl⟩, h.server.of_client rfl rfl rfl rfl ?_⟩
      intro hfull
      rw [hsent] at hfull
      cases hfull
  | returned result => exact h

theorem InStep.first_packet (h : InStep setup old p) {packet : HandshakePacket}
    (hget : p.clientSent[0]? = some packet) :
    packet = synPacket setup.nickname setup.clientSeq := by
  rcases h.client.clientSent with hsent | hsent | hsent
  all_goals
    rw [hsent] at hget
    cases hget
  · rfl
  · rfl

theorem InStep.second_packet (h : InStep setup old p) {packet : HandshakePacket}
    (hget : p.clientSent[1]? = some packet) :
    packet = ackPacket setup.nickname setup.clientSeq setup.serverSeq ∧
      p.clientSent = [synPacket setup.nickname setup.clientSeq,
        ackPacket setup.nickname setup.clientSeq setup.serverSeq] := by
  rcases h.client.clientSent with hsent | hsent | hsent
  all_goals
    rw [hsent] at hget
    cases hget
  exact ⟨rfl, hsent⟩

theorem InStep.serverReceivesSyn (h : InStep setup old p) (hpc : p.server = .receiveSyn)
    (ok : Bool) : InStep setup old (serverStep setup p ok) := by
  have hserver := h.server
  rw [hpc] at hserver
  obtain ⟨hout, hread, hnick⟩ := hserver
  unfold HandshakeAgreement.serverStep
  rw [hpc]
  dsimp only
  rcases receive_cases p.broken ok p.clientSent p.serverRead with
    ⟨hreceive, _⟩ | ⟨hreceive, hbroken⟩ | ⟨packet, hget, hreceive⟩
  · rw [hreceive]
    exact h
  · obtain ⟨hnone, hfailed⟩ := receiveSyn_none p.state setup
    rw [hreceive]
    dsimp only
    rw [hnone]
    exact ⟨h.client, ⟨Or.inl hout, Or.inr ⟨hbroken, hfailed⟩⟩⟩
  · rw [hread] at hget
    obtain ⟨hsome, hnamed⟩ := receiveSyn_synPacket p.state setup
    rw [hreceive, h.first_packet hget]
    dsimp only
    rw [hsome]
    refine ⟨h.client, ⟨hout, by dsimp only; omega, rfl, ?_⟩⟩
    rw [hnamed, hnick]

theorem InStep.serverSendsSynAck (h : InStep setup old p) {clientSeq : UInt32}
    (hpc : p.server = .sendSynAck clientSeq) (ok : Bool) :
    InStep setup old (serverStep setup p ok) := by
  have hserver := h.server
  rw [hpc] at hserver
  obtain ⟨hout, hread, rfl, hnick⟩ := hserver
  unfold HandshakeAgreement.serverStep
  rw [hpc]
  dsimp only
  rcases Server.sendSynAck_cases p.state setup.slot (fun _ => p.broken && !ok) setup.serverSeq
    setup.clientSeq with ⟨hfail, heq⟩ | ⟨_, heq⟩
  · rw [heq]
    rw [Bool.and_eq_true] at hfail
    dsimp only
    rw [if_pos (by omega)]
    exact ⟨h.client, ⟨Or.inl hout, Or.inr ⟨hfail.1, by simp⟩⟩⟩
  · rw [heq]
    dsimp only
    rw [if_neg (by omega)]
    refine ⟨?_, ⟨by rw [hout]; rfl, hread, hnick⟩⟩
    -- nobody has answered a SYN-ACK that was not sent
    have hclient := h.client
    cases hclientPc : p.client with
    | sendSyn | receiveSynAck =>
      rw [hclientPc] at hclient
      exact hclient
    | sendAck ack =>
      rw [hclientPc] at hclient
      exact absurd (hout.symm.trans hclient.2.1.1) (List.cons_ne_nil _ _).symm
    | returned result =>
      rw [hclientPc] at hclient
      rcases hclient with ⟨_, hanswered, _⟩ | hfailed
      · exact absurd (hout.symm.trans hanswered.1) (List.cons_ne_nil _ _).symm
      · exact Or.inr hfailed

theorem InStep.serverReceivesAck (h : InStep setup old p) (hpc : p.server = .receiveAck)
    (ok : Bool) : InStep setup old (serverStep setup p ok) := by
  have hserver := h.server
  rw [hpc] at hserver
  obtain ⟨hout, hread, hnick⟩ := hserver
  unfold HandshakeAgreement.serverStep
  rw [hpc]
  dsimp only
  rcases receive_cases p.broken ok p.clientSent p.serverRead with
    ⟨hreceive, _⟩ | ⟨hreceive, hbroken⟩ | ⟨packet, hget, hreceive⟩
  · rw [hreceive]
    exact h
  · rw [hreceive]
    exact ⟨h.client, ⟨Or.inr hout, Or.inr ⟨hbroken, (receiveAck_none p.state setup).2⟩⟩⟩
  · rw [hread] at hget
    obtain ⟨hack, hfull⟩ := h.second_packet hget
    obtain ⟨hzero, hsession⟩ := receiveAck_ackPacket p.state setup
    rw [hreceive, hack]
    refine ⟨h.client, ⟨Or.inr hout, Or.inl ⟨hzero, ?_, ?_, ?_, hfull⟩⟩⟩
    · rw [hsession]
    · rw [hsession]
    · rw [hsession]
      exact hnick

theorem InStep.serverStep (h : InStep setup old p) (ok : Bool) :
    InStep setup old (serverStep setup p ok) := by
  cases hpc : p.server with
  | receiveSyn => exact h.serverReceivesSyn hpc ok
  | sendSynAck clientSeq => exact h.serverSendsSynAck hpc ok
  | receiveAck => exact h.serverReceivesAck hpc ok
  | returned result =>
    unfold HandshakeAgreement.serverStep
    rw [hpc]
    exact h

theorem InStep.breakConnection (h : InStep setup old p) :
    InStep setup old { p with broken := true } := by
  obtain ⟨hclient, hserver⟩ := h
  constructor
  · cases hpc : p.client with
    | sendSyn | receiveSynAck | sendAck =>
      rw [hpc] at hclient
      exact hclient
    | returned result =>
      rw [hpc] at hclient
      rcases hclient with hdone | ⟨_, hsent⟩
      · exact Or.inl hdone
      · exact Or.inr ⟨rfl, hsent⟩
  · cases hpc : p.server with
    | receiveSyn | sendSynAck | receiveAck =>
      rw [hpc] at hserver
      exact hserver
    | returned result =>
      rw [hpc] at hserver
      obtain ⟨hout, hdone | ⟨_, hfailed⟩⟩ := hserver
      · exact ⟨hout, Or.inl hdone⟩
      · exact ⟨hout, Or.inr ⟨rfl, hfailed⟩⟩

theorem InStep.step (h : InStep setup old p) (l : Label) :
    InStep setup old (step setup p l) := by
  cases l with
  | client ok => exact h.clientStep ok
  | server ok => exact h.serverStep ok
  | breakConnection => exact h.breakConnection

theorem InStep.start (setup : Setup) (s : State) :
    InStep setup (s.session setup.slot).nickname (start s) :=
  ⟨⟨rfl, rfl⟩, ⟨rfl, rfl, rfl⟩⟩

/-- No step goes back: a side stays where it is or comes closer to its end. -/
theorem clientStep_remaining_le (setup : Setup) (p : Peers) (ok : Bool) :
    (clientStep setup p ok).remaining ≤ p.remaining := by
  unfold clientStep Peers.remaining
  cases hpc : p.client with
  | sendSyn =>
    dsimp only
    split <;> simp [ClientPc.remaining]
  | receiveSynAck =>
    dsimp only
    split
    · rw [hpc]
    · split <;> simp [ClientPc.remaining]
  | sendAck ack =>
    dsimp only
    split <;> simp [ClientPc.remaining]
  | returned result =>
    dsimp only
    rw [hpc]

theorem serverStep_remaining_le (setup : Setup) (p : Peers) (ok : Bool) :
    (serverStep setup p ok).remaining ≤ p.remaining := by
  unfold serverStep Peers.remaining
  cases hpc : p.server with
  | receiveSyn =>
    dsimp only
    split
    · rw [hpc]
    · split <;> simp [ServerPc.remaining]
  | sendSynAck clientSeq =>
    dsimp only
    split <;> simp [ServerPc.remaining]
  | receiveAck =>
    dsimp only
    split
    · rw [hpc]
    · simp [ServerPc.remaining]
  | returned result =>
    dsimp only
    rw [hpc]

theorem step_remaining_le (setup : Setup) (p : Peers) (l : Label) :
    (step setup p l).remaining ≤ p.remaining := by
  cases l with
  | client ok => exact clientStep_remaining_le setup p ok
  | server ok => exact serverStep_remaining_le setup p ok
  | breakConnection => exact Nat.le_refl _

/-- One of the two sides has a step to take that brings it closer to its end. -/
def CanGoOn (setup : Setup) (p : Peers) : Prop :=
  ∃ l, l ≠ .breakConnection ∧ (step setup p l).remaining < p.remaining

/-- On a whole connection the server goes on whenever it has something to read or to send. -/
theorem canGoOn_of_server (hwhole : p.broken = false)
    (hready : (p.server = .receiveSyn ∧ ∃ packet, p.clientSent[p.serverRead]? = some packet) ∨
      (∃ clientSeq, p.server = .sendSynAck clientSeq) ∨
      (p.server = .receiveAck ∧ ∃ packet, p.clientSent[p.serverRead]? = some packet)) :
    CanGoOn setup p := by
  refine ⟨.server true, by simp, ?_⟩
  unfold HandshakeAgreement.step serverStep Peers.remaining
  rcases hready with ⟨hpc, packet, hget⟩ | ⟨clientSeq, hpc⟩ | ⟨hpc, packet, hget⟩
  · rw [hpc, hwhole]
    dsimp only
    rw [receive_of_whole hget]
    dsimp only
    split <;> simp [ServerPc.remaining]
  · rw [hpc]
    dsimp only
    split <;> simp [ServerPc.remaining]
  · rw [hpc, hwhole]
    dsimp only
    rw [receive_of_whole hget]
    simp [ServerPc.remaining]

theorem canGoOn_of_client (hwhole : p.broken = false)
    (hready : p.client = .sendSyn ∨ (∃ ack, p.client = .sendAck ack) ∨
      (p.client = .receiveSynAck ∧ ∃ packet, p.serverSent[p.clientRead]? = some packet)) :
    CanGoOn setup p := by
  refine ⟨.client true, by simp, ?_⟩
  unfold HandshakeAgreement.step clientStep Peers.remaining
  rcases hready with hpc | ⟨ack, hpc⟩ | ⟨hpc, packet, hget⟩
  · rw [hpc, hwhole]
    simp [ClientPc.remaining]
  · rw [hpc, hwhole]
    simp [ClientPc.remaining]
  · rw [hpc, hwhole]
    dsimp only
    rw [receive_of_whole hget]
    dsimp only
    split <;> simp [ClientPc.remaining]

theorem InStep.agreed (h : InStep setup old p) {result : Int}
    (hreturned : p.server = .returned result)
    (hest : (p.state.session setup.slot).handshakeState = .established) :
    Agreed setup old p := by
  have hserver := h.server
  have hclient := h.client
  rw [hreturned] at hserver
  obtain ⟨_, ⟨_, _, hseq, hnick, hfull⟩ | ⟨_, hfailed⟩⟩ := hserver
  · have hdone : p.client = .returned 0 ∧ Answered setup p := by
      cases hpc : p.client with
      | sendSyn | receiveSynAck | sendAck =>
        rw [hpc] at hclient
        simp [ClientOk, hfull] at hclient
      | returned result =>
        rw [hpc] at hclient
        rcases hclient with ⟨rfl, hanswered, _⟩ | ⟨_, hnone | hone⟩
        · exact ⟨rfl, hanswered⟩
        · simp [hfull] at hnone
        · simp [hfull] at hone
    refine ⟨hdone.1, ⟨_, _, hdone.2.1, hdone.2.2, hfull, rfl, rfl, ?_⟩, hnick⟩
    rw [hseq]
    rfl
  · rw [hfailed] at hest
    cases hest

theorem InStep.failed (h : InStep setup old p) {result : Int}
    (hreturned : p.server = .returned result)
    (hnot : (p.state.session setup.slot).handshakeState ≠ .established) :
    (p.state.session setup.slot).handshakeState = .failed := by
  have hserver := h.server
  rw [hreturned] at hserver
  obtain ⟨_, ⟨_, hest, _⟩ | ⟨_, hfailed⟩⟩ := hserver
  · exact absurd hest hnot
  · exact hfailed

/-- While the connection holds, one of the two can go on until both have succeeded. -/
theorem InStep.succeeds (h : InStep setup old p) (hwhole : p.broken = false) :
    Succeeded setup p ∨ CanGoOn setup p := by
  have hclient := h.client
  have hserver := h.server
  cases hpc : p.client with
  | sendSyn => exact Or.inr (canGoOn_of_client hwhole (Or.inl hpc))
  | sendAck ack => exact Or.inr (canGoOn_of_client hwhole (Or.inr (Or.inl ⟨ack, hpc⟩)))
  | receiveSynAck =>
    rw [hpc] at hclient
    obtain ⟨hsent, hread⟩ := hclient
    rcases hserver.serverSent with hnone | hone
    · -- the server still owes the SYN-ACK
      apply Or.inr
      apply canGoOn_of_server hwhole
      cases hspc : p.server with
      | receiveSyn =>
        rw [hspc] at hserver
        exact Or.inl ⟨rfl, _, by rw [hsent, hserver.2.1]; rfl⟩
      | sendSynAck clientSeq => exact Or.inr (Or.inl ⟨clientSeq, rfl⟩)
      | receiveAck =>
        rw [hspc] at hserver
        simp [ServerOk, hnone] at hserver
      | returned result =>
        rw [hspc] at hserver
        simp [ServerOk, hsent, hwhole] at hserver
    · exact Or.inr (canGoOn_of_client hwhole
        (Or.inr (Or.inr ⟨hpc, _, by rw [hone, hread]; rfl⟩)))
  | returned result =>
    rw [hpc] at hclient
    rcases hclient with ⟨rfl, hanswered, hfull⟩ | ⟨hbroken, _⟩
    · cases hspc : p.server with
      | receiveSyn =>
        rw [hspc] at hserver
        exact Or.inr (canGoOn_of_server hwhole
          (Or.inl ⟨hspc, _, by rw [hfull, hserver.2.1]; rfl⟩))
      | sendSynAck clientSeq =>
        exact Or.inr (canGoOn_of_server hwhole (Or.inr (Or.inl ⟨clientSeq, hspc⟩)))
      | receiveAck =>
        rw [hspc] at hserver
        exact Or.inr (canGoOn_of_server hwhole
          (Or.inr (Or.inr ⟨hspc, _, by rw [hfull, hserver.2.1]; rfl⟩)))
      | returned result =>
        rw [hspc] at hserver
        obtain ⟨_, ⟨rfl, hest, _⟩ | ⟨hbroken, _⟩⟩ := hserver
        · exact Or.inl ⟨hpc, hspc, hest⟩
        · simp [hwhole] at hbroken
    · simp [hwhole] at hbroken

end Steps

/-- In whatever order the two sides run and wherever the connection breaks, a server that ends
established has agreed with its client, and without a break both sides succeed. -/
theorem handshake_agreement (setup : Setup) (s : State) (ls : List Label) :
    Always (step setup) (HandshakeOutcome setup (s.session setup.slot).nickname) (start s) ls := by
  have hinv : Always (step setup) (InStep setup (s.session setup.slot).nickname) (start s) ls :=
    always_of_invariant (fun p l h => h.step l) (InStep.start setup s) ls
  refine hinv.imp fun p h => ⟨?_, ?_, h.succeeds, step_remaining_le setup p⟩
  · exact fun result hreturned hest => h.agreed hreturned hest
  · exact fun result hreturned hnot => h.failed hreturned hnot

end TcpChat.HandshakeAgreement

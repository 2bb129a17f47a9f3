import TcpChat.Server.SecurityFoundation

/-!
# A client's session (server/src/client_session.c)
-/

namespace TcpChat.Server

open Base
set_option autoImplicit false

def clientSessionInitialize (session : ClientSession) (socketFd : Int) : ClientSession :=
  { session with
    socketFd := socketFd
    active := true
    handshakeState := .idle
    sequenceNumber := 0
    state := .connected
    clientId := -1
    currentRoomId := .empty
    nickname := ("User" ++ CString.ofInt socketFd : CString).take (maxNicknameLen - 1) }

/-- The session that a cleanup leaves; `client_id` keeps its value. -/
def ClientSession.cleaned (session : ClientSession) : ClientSession :=
  { session with
    socketFd := -1
    active := false
    handshakeState := .failed
    sequenceNumber := 0
    state := .connected
    nickname := .empty
    currentRoomId := .empty }

def clientSessionCleanup (s : State) (c : Slot) : State :=
  let session := s.session c
  (s.setSession c session.cleaned).emit
    (if session.socketFd ≥ 0 then [.close session.socketFd] else [])

def clientSessionSetNickname (session : ClientSession) (nickname : CString) : ClientSession :=
  { session with nickname := nickname.take (maxNicknameLen - 1) }

def clientSessionIsActive (session : ClientSession) : Bool :=
  session.active && decide (session.socketFd ≥ 0)

/-- `received` is what `recv` returned: no bytes when the peer has closed, `none` on an error.
The result is the text in the buffer, or `none` for a negative return value. -/
def clientSessionReceiveMessage (s : State) (c : Slot) (received : Option (List UInt8)) :
    State × Option (List UInt8) :=
  match received with
  | none | some [] => (s, none)
  | some bytes =>
    let (result, manager) := serverDecryptMessage s.securityManager (s.session c).clientId bytes
      (UInt64.ofNat (bufferSize - 1))
    (s.setSecurity manager, result)

end TcpChat.Server

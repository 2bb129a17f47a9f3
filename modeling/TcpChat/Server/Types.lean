import Mathlib.Logic.Function.Basic
import TcpChat.HandshakePacket

/-!
# The server's data model (server/include)

Arrays are functions on `Fin`, `int` flags are `Bool`, `int` counters are `Int`. What no
operation reads is left out: the peer address, the thread handle and `security_validated` of
a session, the creation time of a room. `trace` records the descriptors the kernel hands out
and what the program asks of them.
-/

namespace TcpChat.Server

open Base
set_option autoImplicit false

abbrev maxClients : Nat := 100
abbrev maxRooms : Nat := 50
abbrev maxClientsPerRoom : Nat := 20
def bufferSize : Nat := 1024
def maxRoomName : Nat := 64
def roomIdLength : Nat := 6

theorem toNat_lt_maxClients {clientId : Int} (h : 0 ≤ clientId ∧ clientId < maxClients) :
    clientId.toNat < maxClients := by
  omega

/-- The number of a session slot. -/
abbrev Slot := Fin maxClients

inductive ClientState where
  | connected
  | inLobby
  | inRoom
  deriving DecidableEq

inductive HandshakeState where
  | idle
  | synSent
  | synReceived
  | established
  | failed
  deriving DecidableEq

structure ClientSession where
  socketFd : Int
  nickname : CString
  active : Bool
  handshakeState : HandshakeState
  sequenceNumber : UInt32
  state : ClientState
  currentRoomId : CString
  clientId : Int
  deriving DecidableEq

structure ClientManager where
  clients : Slot → ClientSession
  clientCount : Int

structure Room where
  roomId : CString
  roomName : CString
  clientIds : Fin maxClientsPerRoom → Int
  clientCount : Int
  isActive : Bool

structure RoomManager where
  rooms : Fin maxRooms → Room
  roomCount : Int

/-- The fields of `encryption_context_t` that the server reads or counts in. -/
structure EncryptionContext where
  sessionKey : Fin 32 → UInt8
  keyRotationCounter : UInt64
  sequenceNumber : UInt32

structure SecurityManager where
  contexts : Slot → Option EncryptionContext
  numContexts : UInt32

/-- What is handed to `send`: the bytes of a C string or of a packet. -/
inductive Payload where
  | text (s : CString)
  | packet (p : HandshakePacket)
  deriving DecidableEq

/-- `ok` says whether the call to `send` succeeded. -/
inductive Event where
  | accept (fd : Int)
  | send (fd : Int) (payload : Payload) (ok : Bool)
  | close (fd : Int)
  deriving DecidableEq

structure State where
  clientManager : ClientManager
  roomManager : RoomManager
  securityManager : SecurityManager
  trace : List Event

/-- The parts of the C library and of the process that the server's choices depend on:
`rand seed k` is the value of the `k`-th call of `rand` after `srand(seed)`. -/
structure Libc where
  rand : UInt32 → Nat → Nat
  pid : Int

/-- What one atomic step meets in its environment. `sendFails k i` says that the `k`-th sending
routine of the step fails when it sends on slot `i`, `now` is the clock, `stack` is the memory
from `old_nickname` on before `/nick` writes to it. -/
structure Env where
  sendFails : Nat → Slot → Bool
  now : Int
  stack : List UInt8

namespace State

def session (s : State) (c : Slot) : ClientSession := s.clientManager.clients c

def setSession (s : State) (c : Slot) (session : ClientSession) : State :=
  { s with clientManager :=
    { s.clientManager with clients := Function.update s.clientManager.clients c session } }

def setRooms (s : State) (m : RoomManager) : State := { s with roomManager := m }

def setSecurity (s : State) (m : SecurityManager) : State := { s with securityManager := m }

/-- `client_count += n`. -/
def addClientCount (s : State) (n : Int) : State :=
  { s with clientManager := { s.clientManager with clientCount := s.clientManager.clientCount + n } }

def emit (s : State) (es : List Event) : State := { s with trace := s.trace ++ es }

section Projections
variable (s : State) (c d : Slot) (v : ClientSession) (m : RoomManager)
  (k : SecurityManager) (n : Int) (es : List Event)

@[simp] theorem session_setSession_self : (s.setSession c v).session c = v := by
  simp [session, setSession]

theorem session_setSession :
    (s.setSession c v).session d = if d = c then v else s.session d := by
  simp [session, setSession, Function.update_apply]

theorem session_setSession_of_ne (h : d ≠ c) : (s.setSession c v).session d = s.session d := by
  simp [session_setSession, h]

@[simp] theorem setSession_setSession (w : ClientSession) :
    (s.setSession c v).setSession c w = s.setSession c w := by
  simp [setSession, Function.update_idem]

/-- Writing back what is there changes nothing. -/
theorem setSession_session : s.setSession c (s.session c) = s := by
  simp [session, setSession, Function.update_eq_self]

theorem emit_nil : s.emit [] = s := by
  simp [emit]

@[simp] theorem roomManager_setSession : (s.setSession c v).roomManager = s.roomManager := rfl
@[simp] theorem securityManager_setSession :
    (s.setSession c v).securityManager = s.securityManager := rfl
@[simp] theorem trace_setSession : (s.setSession c v).trace = s.trace := rfl

@[simp] theorem session_setRooms : (s.setRooms m).session c = s.session c := rfl
@[simp] theorem roomManager_setRooms : (s.setRooms m).roomManager = m := rfl
@[simp] theorem clientManager_setRooms : (s.setRooms m).clientManager = s.clientManager := rfl
@[simp] theorem securityManager_setRooms :
    (s.setRooms m).securityManager = s.securityManager := rfl
@[simp] theorem trace_setRooms : (s.setRooms m).trace = s.trace := rfl

@[simp] theorem session_setSecurity : (s.setSecurity k).session c = s.session c := rfl
@[simp] theorem roomManager_setSecurity : (s.setSecurity k).roomManager = s.roomManager := rfl
@[simp] theorem clientManager_setSecurity :
    (s.setSecurity k).clientManager = s.clientManager := rfl
@[simp] theorem securityManager_setSecurity : (s.setSecurity k).securityManager = k := rfl
@[simp] theorem trace_setSecurity : (s.setSecurity k).trace = s.trace := rfl

@[simp] theorem session_addClientCount : (s.addClientCount n).session c = s.session c := rfl
@[simp] theorem roomManager_addClientCount :
    (s.addClientCount n).roomManager = s.roomManager := rfl
@[simp] theorem securityManager_addClientCount :
    (s.addClientCount n).securityManager = s.securityManager := rfl
@[simp] theorem trace_addClientCount : (s.addClientCount n).trace = s.trace := rfl

@[simp] theorem session_emit : (s.emit es).session c = s.session c := rfl
@[simp] theorem clientManager_emit : (s.emit es).clientManager = s.clientManager := rfl
@[simp] theorem roomManager_emit : (s.emit es).roomManager = s.roomManager := rfl
@[simp] theorem securityManager_emit : (s.emit es).securityManager = s.securityManager := rfl
@[simp] theorem trace_emit : (s.emit es).trace = s.trace ++ es := rfl

end Projections

end State

end TcpChat.Server

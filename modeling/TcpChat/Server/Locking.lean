import TcpChat.Base.LockOrder
import TcpChat.Server.Types

/-!
# What the server locks (server/src)

The functions that run while clients are served, reduced to the mutexes they lock and to their
writes to what the threads share. A branch may go either way, and a loop may run as often as it
likes. Each function is followed by what the check of the order says of it where it is called.
-/

namespace TcpChat.Server.Locking

open Base.LockOrder Base.LockOrder.Code
set_option autoImplicit false

/-- `g_logger_mutex`, the mutexes of the client manager, of the room manager and of its rooms, of
the security manager, and of the encryption contexts. -/
inductive Mutex where
  | clients
  | rooms
  | room (i : Fin maxRooms)
  | security
  | crypto (c : Slot)
  | logger
  deriving DecidableEq

/-- What the threads write: of the session slots, who is in them (the flags, the descriptors and
addresses, the ids and the count) and what the sessions have come to (the handshake, the nickname,
the state, the room and the thread); the table of the rooms; the security contexts with what is in
them; and the output of the logger. -/
inductive Shared where
  | slots
  | sessions
  | roomTable
  | contexts
  | logOutput

def Mutex.rank : Mutex → Nat
  | .clients | .rooms => 0
  | .room _ | .security => 1
  | .crypto _ => 2
  | .logger => 3

/-- The order in which a thread locks them. -/
def Before (k l : Mutex) : Prop := k.rank < l.rank

instance (k l : Mutex) : Decidable (Before k l) := inferInstanceAs (Decidable (_ < _))

/-- What a session has come to is written by its handler under no mutex. -/
def guardOf : Shared → Option Mutex
  | .slots => some .clients
  | .sessions => none
  | .roomTable => some .rooms
  | .contexts => some .security
  | .logOutput => some .logger

abbrev Section := Code Mutex Shared

/-- The thread holds the same behind the code as in front of it, and keeps to the rules. -/
abbrev Keeps (held : List Mutex) (p : Section) : Prop := check Before guardOf p held = some held

section Writes
variable {held : List Mutex}

theorem keeps_write {x : Shared} {l : Mutex} (hx : guardOf x = some l) (h : l ∈ held) :
    Keeps held (write x) := by
  refine check_write fun k hk => ?_
  rw [hx, Option.mem_some_iff] at hk
  exact hk ▸ h

@[simp] theorem keeps_slots (h : .clients ∈ held) : Keeps held (write .slots) := keeps_write rfl h

@[simp] theorem keeps_sessions : Keeps held (write .sessions) :=
  check_write fun _ h => absurd h (Option.not_mem_none _)

@[simp] theorem keeps_roomTable (h : .rooms ∈ held) : Keeps held (write .roomTable) :=
  keeps_write rfl h

@[simp] theorem keeps_contexts (h : .security ∈ held) : Keeps held (write .contexts) :=
  keeps_write rfl h

@[simp] theorem keeps_logOutput (h : .logger ∈ held) : Keeps held (write .logOutput) :=
  keeps_write rfl h

end Writes

/-- `logger_log`, or a level that is not logged. -/
def loggerLog : Section := opt (block [lock .logger, write .logOutput, unlock .logger])

theorem keeps_log {held : List Mutex} (h : ∀ k ∈ held, k.rank < 3) : Keeps held loggerLog := by
  have hfree : Mutex.logger ∉ held := by
    intro hlogger
    exact absurd (h _ hlogger) (by decide)
  have hlocked : Allows Before held .logger := h
  simp [Keeps, loggerLog, hlocked, hfree]

@[simp] theorem keeps_log_nil : Keeps [] loggerLog := keeps_log (by simp)

@[simp] theorem keeps_log_clients : Keeps [.clients] loggerLog := keeps_log (by decide)

@[simp] theorem keeps_log_rooms : Keeps [.rooms] loggerLog := keeps_log (by decide)

@[simp] theorem keeps_log_room (i : Fin maxRooms) : Keeps [.room i, .rooms] loggerLog :=
  keeps_log (by simp [Mutex.rank])

@[simp] theorem keeps_log_security : Keeps [.security, .clients] loggerLog := keeps_log (by decide)

/-! ## Rooms (server/src/room_manager.c) -/

def roomInitialize : Section := .alt loggerLog (block [write .roomTable, loggerLog])

def roomCleanup : Section := opt (write .roomTable)

def roomAddClient (i : Fin maxRooms) : Section :=
  .alt loggerLog (block [lock (.room i),
    .alt (block [loggerLog, unlock (.room i)])
      (.alt (block [loggerLog, unlock (.room i)])
        (.alt (block [write .roomTable, unlock (.room i)]) (unlock (.room i))))])

@[simp] theorem keeps_roomAddClient (i : Fin maxRooms) : Keeps [.rooms] (roomAddClient i) := by
  simp [Keeps, roomAddClient, Before, Mutex.rank]

def roomRemoveClient (i : Fin maxRooms) : Section :=
  .alt loggerLog (block [lock (.room i),
    .alt (block [write .roomTable, unlock (.room i)]) (unlock (.room i))])

@[simp] theorem keeps_roomRemoveClient (i : Fin maxRooms) :
    Keeps [.rooms] (roomRemoveClient i) := by
  simp [Keeps, roomRemoveClient, Before, Mutex.rank]

def roomManagerCreateRoom : Section :=
  .alt loggerLog (block [lock .rooms,
    .alt (block [loggerLog, unlock .rooms])
      (.alt (block [loggerLog, unlock .rooms])
        (.alt (block [loggerLog, unlock .rooms])
          (block [.any fun i => block [roomInitialize, roomAddClient i], write .roomTable,
            loggerLog, unlock .rooms])))])

@[simp] theorem keeps_createRoom : Keeps [] roomManagerCreateRoom := by
  simp [Keeps, roomManagerCreateRoom, roomInitialize]

def roomManagerJoinRoom : Section :=
  .alt loggerLog (block [lock .rooms,
    .alt (block [loggerLog, unlock .rooms])
      (block [.any roomAddClient, unlock .rooms, .alt loggerLog loggerLog])])

@[simp] theorem keeps_joinRoom : Keeps [] roomManagerJoinRoom := by
  simp [Keeps, roomManagerJoinRoom]

def roomManagerLeaveRoom : Section :=
  .alt loggerLog (block [lock .rooms,
    .alt (block [loggerLog, unlock .rooms])
      (block [.any fun i => block [roomRemoveClient i,
          opt (block [roomCleanup, write .roomTable, loggerLog])],
        unlock .rooms, opt loggerLog])])

@[simp] theorem keeps_leaveRoom : Keeps [] roomManagerLeaveRoom := by
  simp [Keeps, roomManagerLeaveRoom, roomCleanup]

/-- `send` is called under both mutexes. -/
def roomManagerBroadcastToRoom : Section :=
  .alt loggerLog (block [lock .rooms,
    .alt (block [loggerLog, unlock .rooms])
      (block [.any fun i => block [lock (.room i), unlock (.room i)], unlock .rooms, loggerLog])])

@[simp] theorem keeps_broadcastToRoom : Keeps [] roomManagerBroadcastToRoom := by
  simp [Keeps, roomManagerBroadcastToRoom, Before, Mutex.rank]

def roomManagerListRooms : Section := opt (block [lock .rooms, unlock .rooms])

@[simp] theorem keeps_listRooms : Keeps [] roomManagerListRooms := by
  simp [Keeps, roomManagerListRooms]

def roomManagerGetRoomUsers : Section :=
  opt (block [lock .rooms, .alt (unlock .rooms) (unlock .rooms)])

@[simp] theorem keeps_getRoomUsers : Keeps [] roomManagerGetRoomUsers := by
  simp [Keeps, roomManagerGetRoomUsers]

/-! ## Security contexts (server/src/security_foundation.c) -/

def detectHardwareSecurity : Section :=
  block [loggerLog, .alt loggerLog loggerLog]

def securityContextCreate : Section := opt (block [detectHardwareSecurity, loggerLog])

@[simp] theorem keeps_contextCreate : Keeps [.security, .clients] securityContextCreate := by
  simp [Keeps, securityContextCreate, detectHardwareSecurity]

/-- The level that is asked for is the lowest that is allowed, so nothing is logged of it. -/
def securityManagerAddClient : Section :=
  opt (block [opt loggerLog, lock .security, opt (block [loggerLog, write .contexts]),
    securityContextCreate, write .contexts,
    .alt (block [loggerLog, unlock .security])
      (block [write .contexts, unlock .security, loggerLog])])

@[simp] theorem keeps_securityAdd : Keeps [.clients] securityManagerAddClient := by
  simp [Keeps, securityManagerAddClient, Before, Mutex.rank]

def securityManagerRemoveClient : Section :=
  opt (block [lock .security, opt (block [write .contexts, loggerLog]), unlock .security])

@[simp] theorem keeps_securityRemove : Keeps [.clients] securityManagerRemoveClient := by
  simp [Keeps, securityManagerRemoveClient, Before, Mutex.rank]

def initEncryptionContext (c : Slot) : Section :=
  opt (block [lock (.crypto c), write .contexts, unlock (.crypto c)])

@[simp] theorem keeps_initEncryption (c : Slot) :
    Keeps [.security, .clients] (initEncryptionContext c) := by
  simp [Keeps, initEncryptionContext, Before, Mutex.rank]

def decryptData (c : Slot) : Section :=
  opt (opt (block [lock (.crypto c),
    .alt (unlock (.crypto c))
      (.alt (unlock (.crypto c)) (block [write .contexts, unlock (.crypto c)]))]))

@[simp] theorem keeps_decryptData (c : Slot) : Keeps [.security] (decryptData c) := by
  simp [Keeps, decryptData, Before, Mutex.rank]

def serverDecryptMessage : Section :=
  opt (block [lock .security,
    .alt (unlock .security) (block [.any decryptData, unlock .security])])

@[simp] theorem keeps_decryptMessage : Keeps [] serverDecryptMessage := by
  simp [Keeps, serverDecryptMessage]

/-! ## Sessions (server/src/client_session.c, server/src/client_manager.c) -/

def clientSessionInitialize : Section :=
  .alt loggerLog (block [write .slots, write .sessions, write .slots, write .sessions, loggerLog])

def clientSessionCleanup : Section :=
  opt (block [opt loggerLog, write .slots, write .sessions])

@[simp] theorem keeps_sessionCleanup : Keeps [.clients] clientSessionCleanup := by
  simp [Keeps, clientSessionCleanup]

def clientSessionSetNickname : Section :=
  .alt loggerLog (block [write .sessions, loggerLog])

def clientManagerAddNewClient : Section :=
  .alt loggerLog (block [lock .clients,
    .alt (block [unlock .clients, loggerLog])
      (block [clientSessionInitialize, write .slots,
        .alt (block [loggerLog, write .slots, unlock .clients, loggerLog])
          (block [securityManagerAddClient,
            .alt (block [loggerLog, clientSessionCleanup, unlock .clients])
              (block [loggerLog, lock .security,
                .alt (block [.any initEncryptionContext,
                    .alt (block [loggerLog, unlock .security, clientSessionCleanup,
                        unlock .clients])
                      (block [loggerLog, unlock .security, write .slots, unlock .clients,
                        loggerLog])])
                  (block [loggerLog, unlock .security, write .slots, unlock .clients,
                    loggerLog])])])])])

@[simp] theorem keeps_addNewClient : Keeps [] clientManagerAddNewClient := by
  simp [Keeps, clientManagerAddNewClient, clientSessionInitialize, Before, Mutex.rank]

/-- `send` is called under the mutex. -/
def clientManagerBroadcastMessage : Section :=
  opt (block [lock .clients,
    .many (opt (opt (block [loggerLog, write .slots, clientSessionCleanup, write .slots]))),
    unlock .clients, opt loggerLog])

@[simp] theorem keeps_broadcastMessage : Keeps [] clientManagerBroadcastMessage := by
  simp [Keeps, clientManagerBroadcastMessage]

def clientManagerRemoveClient : Section :=
  opt (block [lock .clients,
    .alt (block [loggerLog, opt (block [securityManagerRemoveClient, loggerLog]),
        clientSessionCleanup, write .slots, unlock .clients, clientManagerBroadcastMessage])
      (unlock .clients)])

@[simp] theorem keeps_removeClient : Keeps [] clientManagerRemoveClient := by
  simp [Keeps, clientManagerRemoveClient]

def clientManagerBroadcastUserList : Section :=
  opt (block [lock .clients, unlock .clients, loggerLog, clientManagerBroadcastMessage])

@[simp] theorem keeps_broadcastUserList : Keeps [] clientManagerBroadcastUserList := by
  simp [Keeps, clientManagerBroadcastUserList]

def clientSessionReceiveMessage : Section :=
  opt (.alt (.alt loggerLog loggerLog)
    (.alt loggerLog (block [serverDecryptMessage, .alt loggerLog loggerLog])))

@[simp] theorem keeps_receiveMessage : Keeps [] clientSessionReceiveMessage := by
  simp [Keeps, clientSessionReceiveMessage]

/-! ## Commands and messages (server/src/chat_protocol.c) -/

def chatProtocolSendMessageToClient : Section := opt loggerLog

@[simp] theorem keeps_sendMessage : Keeps [] chatProtocolSendMessageToClient := by
  simp [Keeps, chatProtocolSendMessageToClient]

def chatProtocolHandleCreateRoom : Section :=
  .alt loggerLog (.alt chatProtocolSendMessageToClient
    (block [opt roomManagerLeaveRoom, roomManagerCreateRoom,
      .alt chatProtocolSendMessageToClient
        (block [write .sessions, chatProtocolSendMessageToClient, loggerLog])]))

/-- The room is looked up once more for its name, under no mutex. -/
def chatProtocolHandleJoinRoom : Section :=
  .alt loggerLog (.alt chatProtocolSendMessageToClient
    (block [opt roomManagerLeaveRoom, roomManagerJoinRoom,
      .alt chatProtocolSendMessageToClient
        (block [write .sessions, chatProtocolSendMessageToClient, roomManagerBroadcastToRoom,
          loggerLog])]))

def chatProtocolHandleLeaveRoom : Section :=
  .alt loggerLog (.alt chatProtocolSendMessageToClient
    (block [roomManagerBroadcastToRoom, roomManagerLeaveRoom, write .sessions,
      chatProtocolSendMessageToClient, loggerLog]))

def chatProtocolHandleListRooms : Section :=
  .alt loggerLog (block [roomManagerListRooms, chatProtocolSendMessageToClient])

def chatProtocolHandleListUsers : Section :=
  .alt loggerLog (.alt chatProtocolSendMessageToClient
    (block [roomManagerGetRoomUsers, chatProtocolSendMessageToClient]))

def chatProtocolHandleNicknameChange : Section :=
  opt (.alt chatProtocolSendMessageToClient (.alt chatProtocolSendMessageToClient
    (block [clientSessionSetNickname, loggerLog, clientManagerBroadcastMessage,
      clientManagerBroadcastUserList])))

def relayKeyExchange : Section :=
  block [loggerLog, .alt roomManagerBroadcastToRoom clientManagerBroadcastMessage]

def relayE2eMessage : Section :=
  block [loggerLog, .alt roomManagerBroadcastToRoom chatProtocolSendMessageToClient]

def chatProtocolHandleCommand : Section :=
  opt (block [loggerLog,
    .alt chatProtocolHandleCreateRoom (.alt chatProtocolHandleJoinRoom
      (.alt chatProtocolHandleLeaveRoom (.alt chatProtocolHandleListRooms
        (.alt chatProtocolHandleNicknameChange (.alt chatProtocolHandleListUsers
          -- /help and /quit, the two relays, and what is none of the words
          (.alt chatProtocolSendMessageToClient (.alt loggerLog
            (.alt relayKeyExchange (.alt relayE2eMessage
              chatProtocolSendMessageToClient)))))))))])

def chatProtocolHandleMessage : Section :=
  opt (opt (.alt chatProtocolHandleCommand (.alt chatProtocolSendMessageToClient
    (block [loggerLog, roomManagerBroadcastToRoom]))))

@[simp] theorem keeps_handleCommand : Keeps [] chatProtocolHandleCommand := by
  simp [Keeps, chatProtocolHandleCommand, chatProtocolHandleCreateRoom, chatProtocolHandleJoinRoom,
    chatProtocolHandleLeaveRoom, chatProtocolHandleListRooms, chatProtocolHandleListUsers,
    chatProtocolHandleNicknameChange, clientSessionSetNickname, relayKeyExchange, relayE2eMessage]

@[simp] theorem keeps_handleMessage : Keeps [] chatProtocolHandleMessage := by
  simp [Keeps, chatProtocolHandleMessage]

def chatProtocolSendWelcomeMessage : Section :=
  opt (block [chatProtocolSendMessageToClient, loggerLog])

def chatProtocolAnnounceUserJoined : Section := opt (block [write .sessions, loggerLog])

/-! ## Handshake (server/src/handshake_protocol.c) -/

def handshakeSendPacket : Section := loggerLog

def handshakeReceivePacket : Section := .alt loggerLog (block [opt loggerLog, loggerLog])

def handshakeResetSocketTimeout : Section := opt loggerLog

/-- A step of the handshake fails. -/
def handshakeFailed : Section := block [loggerLog, write .sessions]

def handshakePerformServerSide : Section :=
  .alt loggerLog (block [loggerLog, write .sessions, loggerLog, handshakeReceivePacket,
    .alt handshakeFailed (.alt handshakeFailed
      (block [write .sessions, opt clientSessionSetNickname, loggerLog, handshakeSendPacket,
        .alt handshakeFailed (block [loggerLog, handshakeReceivePacket,
          .alt handshakeFailed (.alt handshakeFailed (.alt handshakeFailed
            (block [write .sessions, handshakeResetSocketTimeout, loggerLog])))])]))])

@[simp] theorem keeps_handshake : Keeps [] handshakePerformServerSide := by
  simp [Keeps, handshakePerformServerSide, handshakeReceivePacket, handshakeSendPacket,
    handshakeFailed, handshakeResetSocketTimeout, clientSessionSetNickname]

/-! ## Threads (server/src/server.c, server/src/client_session.c) -/

/-- What a thread of the server does in one go: a round of `server_accept_clients`, or a part of
`client_session_handler_thread`. -/
inductive Call where
  | accept
  | handshake
  | welcome
  | turn
  | exit

def Call.code : Call → Section
  | .accept =>
    -- an interrupted or failed `accept`, or a connection
    .alt (opt (block [opt loggerLog, loggerLog]))
      (block [loggerLog, clientManagerAddNewClient,
        .alt loggerLog
          -- `pthread_create` writes to the session, and may fail
          (block [write .sessions,
            .alt (block [loggerLog, clientManagerRemoveClient, loggerLog])
              (block [loggerLog, loggerLog])])])
  | .handshake =>
    .alt loggerLog (.alt loggerLog
      (block [loggerLog, handshakePerformServerSide,
        opt (block [loggerLog, clientManagerRemoveClient])]))
  | .welcome => block [chatProtocolSendWelcomeMessage, chatProtocolAnnounceUserJoined]
  | .turn => block [clientSessionReceiveMessage, opt (block [chatProtocolHandleMessage, opt loggerLog])]
  | .exit => block [loggerLog, clientManagerRemoveClient]

end TcpChat.Server.Locking

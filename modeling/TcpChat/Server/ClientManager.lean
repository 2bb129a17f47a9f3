import Mathlib.Data.List.FinRange
import TcpChat.Server.ClientSession

/-!
# The session table (server/src/client_manager.c)

Every function holds `manager->mutex` while it touches the table. In an argument `fails` the
environment says for which slots a `send` fails.
-/

namespace TcpChat.Server

open Base
set_option autoImplicit false

/-- The fields that are not listed keep what the memory held. -/
def clientManagerInitialize (manager : ClientManager) : ClientManager :=
  { clients := fun i =>
      { manager.clients i with
        active := false
        socketFd := -1
        nickname := .empty
        handshakeState := .idle
        sequenceNumber := 0 }
    clientCount := 0 }

/-- The key that `client_manager_add_new_client` writes to every new context, and that
`client_connect_to_server` starts from. -/
def sessionKey (j : Fin 32) : UInt8 := (0x42 + UInt8.ofNat j) ^^^ 0xAB

/-- `created` says whether the security context could be allocated. -/
def clientManagerAddNewClient (s : State) (socketFd : Int) (created : Bool) : State × Int :=
  match Fin.find? fun i => !(s.session i).active with
  | none => (s, -1)
  | some i =>
    let s := s.setSession i
      { clientSessionInitialize (s.session i) socketFd with clientId := (i : Int) }
    let (manager, result) := securityManagerAddClient s.securityManager i created
    if result < 0 then (clientSessionCleanup (s.setSecurity manager) i, -1)
    else
      let contexts := Function.update manager.contexts i
        ((manager.contexts i).map (initEncryptionContext · sessionKey))
      ((s.setSecurity { manager with contexts := contexts }).addClientCount 1, (i : Int))

/-- The loop body of `client_manager_broadcast_message` for slot `i`. -/
def broadcastStep (fails : Slot → Bool) (message : CString) (senderId : Int) (s : State)
    (i : Slot) : State :=
  let session := s.session i
  if session.active = true ∧ (i : Int) ≠ senderId then
    let s := s.emit [.send session.socketFd (.text message) (!fails i)]
    if fails i then
      (clientSessionCleanup (s.setSession i { session with active := false }) i).addClientCount (-1)
    else s
  else s

def clientManagerBroadcastMessage (fails : Slot → Bool) (s : State) (message : CString)
    (senderId : Int) : State :=
  (List.finRange maxClients).foldl (broadcastStep fails message senderId) s

def clientManagerRemoveClient (fails : Slot → Bool) (s : State) (c : Slot) : State :=
  let session := s.session c
  if session.active then
    let s := s.setSecurity (securityManagerRemoveClient s.securityManager c)
    let message := ("*** " ++ session.nickname ++ " left the chat ***\n" : CString).take
      (bufferSize - 1)
    let s := (clientSessionCleanup s c).addClientCount (-1)
    clientManagerBroadcastMessage fails s message c
  else s

/-- The text that `client_manager_broadcast_user_list` builds. `strcat` does not look at the
size of the buffer. -/
def userList (s : State) : CString :=
  let (list, userCount) := (List.finRange maxClients).foldl (fun (list, userCount) i =>
    if (s.session i).active then
      ((if userCount > 0 then list ++ ", " else list) ++ (s.session i).nickname, userCount + 1)
    else (list, userCount)) (("*** Online users: " : CString), 0)
  (if userCount = 0 then list ++ "None" else list) ++ " ***\n"

def clientManagerBroadcastUserList (fails : Slot → Bool) (s : State) : State :=
  clientManagerBroadcastMessage fails s (userList s) (-1)

end TcpChat.Server

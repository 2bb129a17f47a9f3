import TcpChat.Server.ClientManager
import TcpChat.Server.RoomManager

/-!
# Commands and messages (server/src/chat_protocol.c)

`c` is the slot of the session that a handler works for and the client id it is given. The
sending routines of one command are numbered for `Env.sendFails` in the order they run.
-/

namespace TcpChat.Server

open Base
set_option autoImplicit false

def chatProtocolSendMessageToClient (fails : Slot → Bool) (s : State) (c : Slot)
    (message : CString) : State × Int :=
  (s.emit [.send (s.session c).socketFd (.text message) (!fails c)], if fails c then -1 else 0)

/-- The test for being in a room that the handlers share. -/
def ClientSession.hasRoom (session : ClientSession) : Bool :=
  session.state == .inRoom && decide (0 < session.currentRoomId.length)

/-- `Leave current room if in one`: the session is left as it is. -/
def leaveCurrentRoom (s : State) (c : Slot) : State :=
  let session := s.session c
  if session.hasRoom then
    s.setRooms (roomManagerLeaveRoom s.roomManager session.currentRoomId c).1
  else s

def ClientSession.enterRoom (session : ClientSession) (roomId : CString) : ClientSession :=
  { session with currentRoomId := roomId.take roomIdLength, state := .inRoom }

def chatProtocolHandleCreateRoom (libc : Libc) (env : Env) (s : State) (c : Slot)
    (roomName : CString) : State × Int :=
  if roomName.length = 0 ∨ roomName.length ≥ maxRoomName then
    ((chatProtocolSendMessageToClient (env.sendFails 0) s c
      "Invalid room name. Must be 1-63 characters.\n").1, 0)
  else
    let s := leaveCurrentRoom s c
    let (rooms, created) := roomManagerCreateRoom libc env.now s.roomManager roomName c
    let s := s.setRooms rooms
    match created with
    | none => ((chatProtocolSendMessageToClient (env.sendFails 0) s c
        "Failed to create room. Server may be full.\n").1, 0)
    | some roomId =>
      let s := s.setSession c ((s.session c).enterRoom roomId)
      let successMsg := ("Room created successfully!\nRoom ID: " ++ roomId ++ "\nRoom Name: " ++
        roomName ++ "\nYou can now start chatting!\n" : CString).take (bufferSize - 1)
      ((chatProtocolSendMessageToClient (env.sendFails 0) s c successMsg).1, 0)

def chatProtocolHandleJoinRoom (env : Env) (s : State) (c : Slot) (roomId : CString) :
    State × Int :=
  if roomId.length ≠ roomIdLength then
    ((chatProtocolSendMessageToClient (env.sendFails 0) s c "Invalid room ID format.\n").1, 0)
  else
    let s := leaveCurrentRoom s c
    let (rooms, result) := roomManagerJoinRoom s.roomManager roomId c
    let s := s.setRooms rooms
    if result < 0 then
      ((chatProtocolSendMessageToClient (env.sendFails 0) s c
        "Room not found or room is full.\n").1, 0)
    else
      let s := s.setSession c ((s.session c).enterRoom roomId)
      let successMsg : CString := match roomManagerFindRoom s.roomManager roomId with
        | some room => "Joined room successfully!\nRoom: " ++ (s.roomManager.rooms room).roomName ++
            " (ID: " ++ roomId ++ ")\nYou can now start chatting!\n"
        | none => "Joined room " ++ roomId ++ " successfully!\nYou can now start chatting!\n"
      let s := (chatProtocolSendMessageToClient (env.sendFails 0) s c
        (successMsg.take (bufferSize - 1))).1
      let announcement := ("*** " ++ (s.session c).nickname ++ " joined the room ***\n" :
        CString).take (bufferSize - 1)
      ((roomManagerBroadcastToRoom (env.sendFails 1) s roomId announcement c).1, 0)

def chatProtocolHandleLeaveRoom (env : Env) (s : State) (c : Slot) : State × Int :=
  let session := s.session c
  if !session.hasRoom then
    ((chatProtocolSendMessageToClient (env.sendFails 0) s c
      "You are not currently in a room.\n").1, 0)
  else
    let announcement := ("*** " ++ session.nickname ++ " left the room ***\n" : CString).take
      (bufferSize - 1)
    let s := (roomManagerBroadcastToRoom (env.sendFails 0) s session.currentRoomId announcement
      c).1
    let s := s.setRooms (roomManagerLeaveRoom s.roomManager session.currentRoomId c).1
    let s := s.setSession c { s.session c with currentRoomId := .empty, state := .inLobby }
    ((chatProtocolSendMessageToClient (env.sendFails 1) s c
      ("Left room successfully.\n" ++
        "Use /create <name> or /join <room_id> to enter a new room.\n")).1, 0)

def chatProtocolHandleListRooms (env : Env) (s : State) (c : Slot) : State × Int :=
  ((chatProtocolSendMessageToClient (env.sendFails 0) s c
    (roomManagerListRooms s.roomManager (bufferSize * 2))).1, 0)

def chatProtocolHandleListUsers (env : Env) (s : State) (c : Slot) : State × Int :=
  let session := s.session c
  if !session.hasRoom then
    ((chatProtocolSendMessageToClient (env.sendFails 0) s c
      "You must be in a room to see user list.\n").1, 0)
  else
    ((chatProtocolSendMessageToClient (env.sendFails 0) s c
      (roomManagerGetRoomUsers s session.currentRoomId bufferSize)).1, 0)

/-- `strncpy(old_nickname, nickname, MAX_NICKNAME_LEN - 1)` over `stack`, read back by `%s`.
The copy pads with NUL, and writes no terminator after 31 characters. -/
def oldNickname (stack : List UInt8) (nickname : CString) : CString :=
  let copied := nickname.bytes.take (maxNicknameLen - 1)
  CString.ofBuffer (copied ++ List.replicate (maxNicknameLen - 1 - copied.length) 0 ++
    stack.drop (maxNicknameLen - 1))

/-- The nickname a `/nick` asks for, cut to the buffer and at the first blank. -/
def cleanNickname (newNickname : CString) : CString :=
  (newNickname.take (maxNicknameLen - 1)).upTo (· ∈ [10, 13, 32, 9])

def chatProtocolHandleNicknameChange (env : Env) (s : State) (c : Slot) (newNickname : CString) :
    State × Int :=
  let clean := cleanNickname newNickname
  if clean.length = 0 then
    ((chatProtocolSendMessageToClient (env.sendFails 0) s c
      "Error: Nickname cannot be empty.\n").1, 0)
  else if clean.length ≥ maxNicknameLen then
    ((chatProtocolSendMessageToClient (env.sendFails 0) s c "Error: Nickname too long.\n").1, 0)
  else
    let old := oldNickname env.stack (s.session c).nickname
    let s := s.setSession c (clientSessionSetNickname (s.session c) clean)
    let announcement := ("*** " ++ old ++ " is now known as " ++ (s.session c).nickname ++
      " ***\n" : CString).take (bufferSize - 1)
    let s := clientManagerBroadcastMessage (env.sendFails 0) s announcement (-1)
    (clientManagerBroadcastUserList (env.sendFails 1) s, 0)

def helpMsg : CString :=
  "Available commands:\n" ++
  "  /create <name>        - Create a new room\n" ++
  "  /join <room_id>       - Join an existing room\n" ++
  "  /leave                - Leave current room\n" ++
  "  /rooms                - List all rooms\n" ++
  "  /users or /list       - Show users in current room\n" ++
  "  /nick <nickname>      - Change your nickname\n" ++
  "  /help                 - Show this help message\n" ++
  "  /quit                 - Disconnect from chat\n"

def chatProtocolHandleCommand (libc : Libc) (env : Env) (s : State) (c : Slot)
    (command : CString) : State × Int :=
  let session := s.session c
  let relayMsg := command.take (bufferSize - 1)
  if command.startsWith "/create " then
    chatProtocolHandleCreateRoom libc env s c (command.drop 8)
  else if command.startsWith "/join " then chatProtocolHandleJoinRoom env s c (command.drop 6)
  else if command.startsWith "/leave" then chatProtocolHandleLeaveRoom env s c
  else if command.startsWith "/rooms" then chatProtocolHandleListRooms env s c
  else if command.startsWith "/nick " then
    chatProtocolHandleNicknameChange env s c (command.drop 6)
  else if command.startsWith "/users" || command.startsWith "/list" then
    chatProtocolHandleListUsers env s c
  else if command.startsWith "/help" then
    ((chatProtocolSendMessageToClient (env.sendFails 0) s c helpMsg).1, 0)
  else if command.startsWith "/quit" then (s, -1)
  else if command.startsWith "/keyexchange:" then
    if session.hasRoom then
      ((roomManagerBroadcastToRoom (env.sendFails 0) s session.currentRoomId relayMsg c).1, 0)
    else (clientManagerBroadcastMessage (env.sendFails 0) s relayMsg c, 0)
  else if command.startsWith "/e2emsg:" then
    if session.hasRoom then
      ((roomManagerBroadcastToRoom (env.sendFails 0) s session.currentRoomId relayMsg c).1, 0)
    else
      ((chatProtocolSendMessageToClient (env.sendFails 0) s c
        "You must be in a room to send E2E messages.\n").1, 0)
  else
    ((chatProtocolSendMessageToClient (env.sendFails 0) s c
      "Unknown command. Type /help for available commands.\n").1, 0)

/-- The first line of a message, cut to the buffer. -/
def cleanMessage (message : CString) : CString :=
  (message.take (bufferSize - 1)).upTo (· ∈ [10, 13])

def chatProtocolHandleMessage (libc : Libc) (env : Env) (s : State) (c : Slot)
    (message : CString) : State × Int :=
  let clean := cleanMessage message
  let session := s.session c
  if clean.length = 0 then (s, 0)
  else if clean.bytes.head? = some 47 then chatProtocolHandleCommand libc env s c clean
  else if !session.hasRoom then
    ((chatProtocolSendMessageToClient (env.sendFails 0) s c
      ("You must join a room before sending messages. " ++
        "Use /create <name> or /join <room_id>\n")).1, 0)
  else
    let formatted := (session.nickname ++ ": " ++ clean ++ "\n" : CString).take
      (bufferSize + maxNicknameLen + 10 - 1)
    ((roomManagerBroadcastToRoom (env.sendFails 0) s session.currentRoomId formatted c).1, 0)

def welcomeMsg : CString :=
  "=== Welcome to TCP Chat Server ===\n" ++
  "You are now connected to the chat room.\n" ++
  "Type /help for available commands.\n" ++
  "Type your messages to chat with other users.\n" ++
  "=====================================\n\n" ++
  "=== Room Selection Required ===\n" ++
  "Please choose an option:\n" ++
  "  /create <room_name> - Create a new room\n" ++
  "  /join <room_id>     - Join an existing room\n" ++
  "  /rooms              - List available rooms\n" ++
  "===============================\n"

def chatProtocolSendWelcomeMessage (env : Env) (s : State) (c : Slot) : State :=
  (chatProtocolSendMessageToClient (env.sendFails 0) s c welcomeMsg).1

/-- Nothing is sent: the announcement is only logged. -/
def chatProtocolAnnounceUserJoined (s : State) (c : Slot) : State :=
  s.setSession c { s.session c with state := .inLobby }

end TcpChat.Server

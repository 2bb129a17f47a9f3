import TcpChat.Server.ChatProtocol
import TcpChat.Server.SessionTable
import TcpChat.Server.RoomBroadcast

/-!
# What a message asks for

The chain of `strncmp` tests reads a request off the text alone. `Outcome` lists what a request
can do to the sessions and to the room table; everything about runs is derived from it.
-/

namespace TcpChat.Server

open Base
set_option autoImplicit false

inductive Request where
  | nothing
  | create (roomName : CString)
  | join (roomId : CString)
  | leave
  | rooms
  | nick (newNickname : CString)
  | users
  | help
  | quit
  | keyExchange (command : CString)
  | e2eMessage (command : CString)
  | unknown
  | chat (text : CString)
  deriving DecidableEq

def parseCommand (command : CString) : Request :=
  if command.startsWith "/create " then .create (command.drop 8)
  else if command.startsWith "/join " then .join (command.drop 6)
  else if command.startsWith "/leave" then .leave
  else if command.startsWith "/rooms" then .rooms
  else if command.startsWith "/nick " then .nick (command.drop 6)
  else if command.startsWith "/users" || command.startsWith "/list" then .users
  else if command.startsWith "/help" then .help
  else if command.startsWith "/quit" then .quit
  else if command.startsWith "/keyexchange:" then .keyExchange command
  else if command.startsWith "/e2emsg:" then .e2eMessage command
  else .unknown

def parse (message : CString) : Request :=
  let clean := cleanMessage message
  if clean.length = 0 then .nothing
  else if clean.bytes.head? = some 47 then parseCommand clean
  else .chat clean

/-- The text a request relays to the room of its sender. -/
def relayText (session : ClientSession) : Request → Option CString
  | .keyExchange command | .e2eMessage command => some (command.take (bufferSize - 1))
  | .chat text => some ((session.nickname ++ ": " ++ text ++ "\n" : CString).take
      (bufferSize + maxNicknameLen + 10 - 1))
  | _ => none

section Perform
variable (libc : Libc) (env : Env) (s : State) (c : Slot)

/-- Serving a request. -/
def perform : Request → State × Int
  | .nothing => (s, 0)
  | .create roomName => chatProtocolHandleCreateRoom libc env s c roomName
  | .join roomId => chatProtocolHandleJoinRoom env s c roomId
  | .leave => chatProtocolHandleLeaveRoom env s c
  | .rooms => chatProtocolHandleListRooms env s c
  | .nick newNickname => chatProtocolHandleNicknameChange env s c newNickname
  | .users => chatProtocolHandleListUsers env s c
  | .help => ((chatProtocolSendMessageToClient (env.sendFails 0) s c helpMsg).1, 0)
  | .quit => (s, -1)
  | .keyExchange command =>
    if (s.session c).hasRoom then
      ((roomManagerBroadcastToRoom (env.sendFails 0) s (s.session c).currentRoomId
        (command.take (bufferSize - 1)) c).1, 0)
    else (clientManagerBroadcastMessage (env.sendFails 0) s (command.take (bufferSize - 1)) c, 0)
  | .e2eMessage command =>
    if (s.session c).hasRoom then
      ((roomManagerBroadcastToRoom (env.sendFails 0) s (s.session c).currentRoomId
        (command.take (bufferSize - 1)) c).1, 0)
    else ((chatProtocolSendMessageToClient (env.sendFails 0) s c
      "You must be in a room to send E2E messages.\n").1, 0)
  | .unknown => ((chatProtocolSendMessageToClient (env.sendFails 0) s c
      "Unknown command. Type /help for available commands.\n").1, 0)
  | .chat text =>
    if (s.session c).hasRoom then
      ((roomManagerBroadcastToRoom (env.sendFails 0) s (s.session c).currentRoomId
        (((s.session c).nickname ++ ": " ++ text ++ "\n" : CString).take
          (bufferSize + maxNicknameLen + 10 - 1)) c).1, 0)
    else ((chatProtocolSendMessageToClient (env.sendFails 0) s c
      ("You must join a room before sending messages. " ++
        "Use /create <name> or /join <room_id>\n")).1, 0)

theorem handleCommand_eq (command : CString) :
    chatProtocolHandleCommand libc env s c command =
      perform libc env s c (parseCommand command) := by
  rw [parseCommand]
  simp only [apply_ite (perform libc env s c)]
  rfl

theorem handleMessage_eq (message : CString) :
    chatProtocolHandleMessage libc env s c message = perform libc env s c (parse message) := by
  unfold chatProtocolHandleMessage parse
  dsimp only
  by_cases hempty : (cleanMessage message).length = 0
  · rw [if_pos hempty, if_pos hempty]
    rfl
  · rw [if_neg hempty, if_neg hempty]
    by_cases hcommand : (cleanMessage message).bytes.head? = some 47
    · rw [if_pos hcommand, if_pos hcommand]
      exact handleCommand_eq libc env s c _
    · rw [if_neg hcommand, if_neg hcommand]
      cases hroom : (s.session c).hasRoom <;> simp [perform, hroom]

end Perform

/-- In a room, a request with a text to relay broadcasts it to that room and does no more. -/
theorem perform_relay (libc : Libc) (env : Env) {s : State} {c : Slot} {r : Request}
    {text : CString} (hroom : (s.session c).hasRoom = true)
    (htext : relayText (s.session c) r = some text) :
    (perform libc env s c r).1 = s.emit (textTo (env.sendFails 0) s text
      (roomTargets s (s.session c).currentRoomId c)) := by
  cases r with
  | keyExchange | e2eMessage | chat =>
    cases htext
    simp only [perform, if_pos hroom]
    exact roomManagerBroadcastToRoom_fst _ _ _ _ _
  | _ => cases htext

def ValidRoomName (roomName : CString) : Prop :=
  roomName.length ≠ 0 ∧ roomName.length < maxRoomName

instance (roomName : CString) : Decidable (ValidRoomName roomName) :=
  inferInstanceAs (Decidable (_ ∧ _))

/-- The request leaves the sessions and the rooms as they are. -/
def Quiet (session : ClientSession) : Request → Prop
  | .create roomName => ¬ ValidRoomName roomName
  | .join roomId => roomId.length ≠ roomIdLength
  | .leave => session.hasRoom = false
  | .nick newNickname => (cleanNickname newNickname).length = 0
  | .keyExchange _ => session.hasRoom = true
  | _ => True

/-- The sessions that a `/nick` takes down with its two broadcasts. -/
def Dropped (env : Env) (s : State) (d : Slot) : Prop :=
  (s.session d).active = true ∧ (env.sendFails 0 d = true ∨ env.sendFails 1 d = true)

instance (env : Env) (s : State) (d : Slot) : Decidable (Dropped env s d) :=
  inferInstanceAs (Decidable (_ ∧ _))

/-- The sessions and the rooms after a request of client `c`. -/
inductive Outcome (libc : Libc) (env : Env) (s : State) (c : Slot) :
    Request → (Slot → ClientSession) → RoomManager → Prop where
  | talk {r : Request} (h : Quiet (s.session c) r) : Outcome libc env s c r s.session s.roomManager
  | announced {command : CString} (h : (s.session c).hasRoom = false) :
    Outcome libc env s c (.keyExchange command)
      (fun d => if Evicted (env.sendFails 0) s c d then (s.session d).cleaned else s.session d)
      s.roomManager
  | renamed {newNickname : CString} (h : (cleanNickname newNickname).length ≠ 0) :
    Outcome libc env s c (.nick newNickname)
      (fun d => if Dropped env s d then (s.session d).cleaned
        else if d = c then clientSessionSetNickname (s.session c) (cleanNickname newNickname)
        else s.session d)
      s.roomManager
  | createRefused {roomName : CString} {rooms : RoomManager} (h : ValidRoomName roomName)
    (heq : roomManagerCreateRoom libc env.now (leaveCurrentRoom s c).roomManager roomName c =
      (rooms, none)) :
    Outcome libc env s c (.create roomName) s.session rooms
  | created {roomName roomId : CString} {rooms : RoomManager} (h : ValidRoomName roomName)
    (heq : roomManagerCreateRoom libc env.now (leaveCurrentRoom s c).roomManager roomName c =
      (rooms, some roomId)) :
    Outcome libc env s c (.create roomName)
      (Function.update s.session c ((s.session c).enterRoom roomId)) rooms
  | joinRefused {roomId : CString} {rooms : RoomManager} {result : Int}
    (h : roomId.length = roomIdLength)
    (heq : roomManagerJoinRoom (leaveCurrentRoom s c).roomManager roomId c = (rooms, result))
    (hresult : result < 0) :
    Outcome libc env s c (.join roomId) s.session rooms
  | joined {roomId : CString} {rooms : RoomManager} {result : Int}
    (h : roomId.length = roomIdLength)
    (heq : roomManagerJoinRoom (leaveCurrentRoom s c).roomManager roomId c = (rooms, result))
    (hresult : 0 ≤ result) :
    Outcome libc env s c (.join roomId)
      (Function.update s.session c ((s.session c).enterRoom roomId)) rooms
  | left (h : (s.session c).hasRoom = true) :
    Outcome libc env s c .leave
      (Function.update s.session c
        { s.session c with currentRoomId := .empty, state := .inLobby })
      (leaveCurrentRoom s c).roomManager

theorem length_cleanNickname_lt (newNickname : CString) :
    (cleanNickname newNickname).length < maxNicknameLen := by
  have hpre := (List.takeWhile_prefix (l := (newNickname.take (maxNicknameLen - 1)).bytes)
    fun b => !decide (b ∈ [10, 13, 32, 9])).length_le
  have htake := CString.length_take (maxNicknameLen - 1) newNickname
  simp only [cleanNickname, CString.upTo, CString.length, maxNicknameLen] at *
  omega

theorem setNickname_cleanNickname (session : ClientSession) (newNickname : CString) :
    clientSessionSetNickname session (cleanNickname newNickname) =
      { session with nickname := cleanNickname newNickname } := by
  have hshort := Nat.le_sub_one_of_lt (length_cleanNickname_lt newNickname)
  rw [clientSessionSetNickname, CString.take_of_length_le hshort]

/-- What everybody is told of a new nickname. -/
def nickAnnouncement (old new : CString) : CString :=
  "*** " ++ old ++ " is now known as " ++ new ++ " ***\n"

section Outcomes
variable (libc : Libc) (env : Env) (s : State) (c d : Slot)

@[simp] theorem sendMessageToClient_fst (fails : Slot → Bool) (message : CString) :
    (chatProtocolSendMessageToClient fails s c message).1 =
      s.emit [.send (s.session c).socketFd (.text message) (!fails c)] := rfl

/-- Leaving the current room changes the rooms only. -/
theorem leaveCurrentRoom_eq :
    leaveCurrentRoom s c = s.setRooms (leaveCurrentRoom s c).roomManager := by
  unfold leaveCurrentRoom
  dsimp only
  split
  · rfl
  · rfl

@[simp] theorem session_leaveCurrentRoom : (leaveCurrentRoom s c).session d = s.session d := by
  rw [leaveCurrentRoom_eq, State.session_setRooms]

theorem session_broadcastToRoom (fails : Slot → Bool) (roomId message : CString)
    (senderId : Int) :
    (roomManagerBroadcastToRoom fails s roomId message senderId).1.session = s.session := by
  rw [roomManagerBroadcastToRoom_fst]
  rfl

theorem roomManager_broadcastToRoom (fails : Slot → Bool) (roomId message : CString)
    (senderId : Int) :
    (roomManagerBroadcastToRoom fails s roomId message senderId).1.roomManager =
      s.roomManager := by
  rw [roomManagerBroadcastToRoom_fst]
  rfl

theorem Outcome.reply {libc : Libc} {env : Env} {s : State} {c : Slot} {r : Request}
    (h : Quiet (s.session c) r) (es : List Event) :
    Outcome libc env s c r (s.emit es).session (s.emit es).roomManager :=
  Outcome.talk h

theorem session_update (v : ClientSession) :
    (s.setSession c v).session = Function.update s.session c v := by
  funext d
  rw [State.session_setSession, Function.update_apply]

theorem outcome_create (roomName : CString) :
    Outcome libc env s c (.create roomName)
      (chatProtocolHandleCreateRoom libc env s c roomName).1.session
      (chatProtocolHandleCreateRoom libc env s c roomName).1.roomManager := by
  unfold chatProtocolHandleCreateRoom
  by_cases hname : ValidRoomName roomName
  · rw [if_neg (by rintro (h | h); exacts [hname.1 h, by have := hname.2; omega])]
    dsimp only
    cases heq : roomManagerCreateRoom libc env.now (leaveCurrentRoom s c).roomManager roomName c with
    | mk rooms created =>
      have hsession : ((leaveCurrentRoom s c).setRooms rooms).session = s.session := by
        funext d
        simp
      cases created with
      | none =>
        have hout := Outcome.createRefused hname heq
        rw [← hsession] at hout
        exact hout
      | some roomId =>
        have hout := Outcome.created hname heq
        rw [← hsession, ← session_update] at hout
        exact hout
  · rw [if_pos (by unfold ValidRoomName at hname; omega)]
    exact Outcome.talk hname

theorem outcome_join (roomId : CString) :
    Outcome libc env s c (.join roomId)
      (chatProtocolHandleJoinRoom env s c roomId).1.session
      (chatProtocolHandleJoinRoom env s c roomId).1.roomManager := by
  unfold chatProtocolHandleJoinRoom
  by_cases hlen : roomId.length = roomIdLength
  · rw [if_neg (not_not.mpr hlen)]
    dsimp only
    cases heq : roomManagerJoinRoom (leaveCurrentRoom s c).roomManager roomId c with
    | mk rooms result =>
      have hsession : ((leaveCurrentRoom s c).setRooms rooms).session = s.session := by
        funext d
        simp
      by_cases hresult : result < 0
      · rw [if_pos hresult]
        have hout := @Outcome.joinRefused libc env _ _ _ _ _ hlen heq hresult
        rw [← hsession] at hout
        exact hout
      · rw [if_neg hresult, session_broadcastToRoom, roomManager_broadcastToRoom]
        have hout := @Outcome.joined libc env _ _ _ _ _ hlen heq (Int.not_lt.mp hresult)
        rw [← hsession, ← session_update] at hout
        exact hout
  · rw [if_pos hlen]
    exact Outcome.talk hlen

theorem outcome_leave :
    Outcome libc env s c .leave (chatProtocolHandleLeaveRoom env s c).1.session
      (chatProtocolHandleLeaveRoom env s c).1.roomManager := by
  unfold chatProtocolHandleLeaveRoom
  cases hroom : (s.session c).hasRoom with
  | false =>
    rw [if_pos (by simp [hroom])]
    exact Outcome.talk hroom
  | true =>
    rw [if_neg (by simp [hroom])]
    have hout := @Outcome.left libc env _ _ hroom
    simp only [roomManagerBroadcastToRoom_fst]
    have hleft : (leaveCurrentRoom s c).roomManager =
        (roomManagerLeaveRoom s.roomManager (s.session c).currentRoomId c).1 := by
      rw [leaveCurrentRoom, if_pos hroom]
      rfl
    rw [hleft, ← session_update] at hout
    exact hout

/-- Two broadcasts from nobody in particular: whom the first one evicts, the second one skips. -/
theorem session_broadcast_broadcast (fails fails' : Slot → Bool) (message message' : CString) :
    (clientManagerBroadcastMessage fails' (clientManagerBroadcastMessage fails s message (-1))
      message' (-1)).session d =
      if (s.session d).active = true ∧ (fails d = true ∨ fails' d = true) then
        (s.session d).cleaned
      else s.session d := by
  have hsender : (d : Int) ≠ -1 := by omega
  rw [session_broadcast, session_broadcast]
  by_cases hfirst : Evicted fails s (-1) d
  · have hgone : ¬ Evicted fails' (clientManagerBroadcastMessage fails s message (-1)) (-1) d := by
      intro h
      have hactive := h.1.1
      rw [session_broadcast, if_pos hfirst] at hactive
      cases hactive
    rw [if_neg hgone, if_pos hfirst, if_pos ⟨hfirst.1.1, Or.inl hfirst.2⟩]
  · have hiff : Evicted fails' (clientManagerBroadcastMessage fails s message (-1)) (-1) d ↔
        (s.session d).active = true ∧ (fails d = true ∨ fails' d = true) := by
      simp only [Evicted, Reached, session_broadcast] at hfirst ⊢
      grind
    rw [if_neg hfirst]
    simp only [hiff]

theorem nicknameChange_of_empty {newNickname : CString} (h : (cleanNickname newNickname).length = 0) :
    chatProtocolHandleNicknameChange env s c newNickname =
      (s.emit [.send (s.session c).socketFd (.text "Error: Nickname cannot be empty.\n")
        (!env.sendFails 0 c)], 0) := by
  rw [chatProtocolHandleNicknameChange, if_pos h, sendMessageToClient_fst]

/-- The copy is shorter than the limit, so a nickname that is not empty is taken. -/
theorem nicknameChange_of_not_empty {newNickname : CString}
    (h : (cleanNickname newNickname).length ≠ 0) :
    chatProtocolHandleNicknameChange env s c newNickname =
      (clientManagerBroadcastUserList (env.sendFails 1)
        (clientManagerBroadcastMessage (env.sendFails 0)
          (s.setSession c (clientSessionSetNickname (s.session c) (cleanNickname newNickname)))
          ((nickAnnouncement (oldNickname env.stack (s.session c).nickname)
            (cleanNickname newNickname)).take (bufferSize - 1)) (-1)), 0) := by
  have hshort := Nat.not_le.mpr (length_cleanNickname_lt newNickname)
  rw [chatProtocolHandleNicknameChange, if_neg h, if_neg hshort]
  dsimp only
  rw [State.session_setSession_self, setNickname_cleanNickname]
  rfl

theorem outcome_nick (newNickname : CString) :
    Outcome libc env s c (.nick newNickname)
      (chatProtocolHandleNicknameChange env s c newNickname).1.session
      (chatProtocolHandleNicknameChange env s c newNickname).1.roomManager := by
  by_cases hempty : (cleanNickname newNickname).length = 0
  · rw [nicknameChange_of_empty env s c hempty]
    exact Outcome.talk hempty
  · rw [nicknameChange_of_not_empty env s c hempty]
    simp only [clientManagerBroadcastUserList, roomManager_broadcast, State.roomManager_setSession]
    have hout := @Outcome.renamed libc env s c _ hempty
    convert hout using 1
    funext d
    rw [session_broadcast_broadcast]
    by_cases hd : d = c
    · subst hd
      simp only [State.session_setSession_self, if_true, Dropped]
      rfl
    · simp only [State.session_setSession_of_ne _ _ _ _ hd, if_neg hd, Dropped]

theorem outcome_perform (r : Request) :
    Outcome libc env s c r (perform libc env s c r).1.session
      (perform libc env s c r).1.roomManager := by
  cases r with
  | create roomName => exact outcome_create libc env s c roomName
  | join roomId => exact outcome_join libc env s c roomId
  | leave => exact outcome_leave libc env s c
  | nick newNickname => exact outcome_nick libc env s c newNickname
  | users =>
    unfold perform chatProtocolHandleListUsers
    dsimp only
    split <;> exact Outcome.reply (by trivial) _
  | keyExchange command =>
    unfold perform
    cases hroom : (s.session c).hasRoom with
    | true =>
      dsimp only
      rw [if_pos rfl, session_broadcastToRoom, roomManager_broadcastToRoom]
      exact Outcome.talk hroom
    | false =>
      dsimp only
      rw [if_neg Bool.false_ne_true, roomManager_broadcast]
      have hout := @Outcome.announced libc env _ _ command hroom
      convert hout using 1
      funext d
      rw [session_broadcast]
  | e2eMessage command =>
    unfold perform
    dsimp only
    split
    · rw [session_broadcastToRoom, roomManager_broadcastToRoom]
      exact Outcome.talk trivial
    · exact Outcome.reply (by trivial) _
  | chat text =>
    unfold perform
    dsimp only
    split
    · rw [session_broadcastToRoom, roomManager_broadcastToRoom]
      exact Outcome.talk trivial
    · exact Outcome.reply (by trivial) _
  | nothing => exact Outcome.talk trivial
  | quit => exact Outcome.talk trivial
  | rooms => exact Outcome.reply (by trivial) _
  | help => exact Outcome.reply (by trivial) _
  | unknown => exact Outcome.reply (by trivial) _

end Outcomes

end TcpChat.Server

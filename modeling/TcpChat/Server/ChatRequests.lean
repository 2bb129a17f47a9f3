import TcpChat.KeyDelivery
import TcpChat.Server.Wording

/-!
# Requests to the chat service

What each request of a client is to the service, and that the handlers do what the service does:
the same moves, the same notices, to the same clients.
-/

namespace TcpChat.Server

open Base
set_option autoImplicit false

/-- What a request asks of the service. -/
def Request.asks (libc : Libc) (env : Env) : Request → ChatRequest CString CString
  | .nothing | .quit => .ignore
  | .create roomName =>
    if roomName.length ≠ 0 ∧ roomName.length < maxRoomName then
      .create (roomGenerateId libc env.now) roomName
    else .reject .badTitle
  | .join roomId => if roomId.length = roomIdLength then .join roomId else .reject .badKey
  | .leave => .leave
  | .rooms => .rooms
  | .nick newNickname =>
    if (cleanNickname newNickname).length = 0 then .reject .emptyName
    else .rename (cleanNickname newNickname)
  | .users => .users
  | .help => .help
  | .keyExchange command => .publish (command.take (bufferSize - 1))
  | .e2eMessage command => .post (command.take (bufferSize - 1))
  | .unknown => .reject .unknown
  | .chat text => .say text

/-- From `s` to `s'` the server has done what the service does. -/
structure Serves (s s' : State) (out : ChatState × Told) : Prop where
  agrees : Agrees s' out.1
  delivers : ∃ es, s'.trace = s.trace ++ es ∧ Reaches Wording s es out.2

theorem Serves.of_tables {s s' t : State} {out : ChatState × Told} (h : Serves s' t out)
    (hsession : s'.session = s.session) (htrace : s'.trace = s.trace) : Serves s t out := by
  obtain ⟨es, hes, hreaches⟩ := h.delivers
  rw [htrace] at hes
  refine ⟨h.agrees, es, hes, hreaches.congr fun d => ?_⟩
  rw [hsession]
  exact ⟨rfl, rfl⟩

/-- The request is one that both tables of the server take alike. -/
structure Granted (libc : Libc) (env : Env) (s : State) (c : Slot) (r : Request) : Prop where
  sends : ∀ k d, env.sendFails k d = false
  fresh : ∀ roomName, r = .create roomName → ValidRoomName roomName →
    FreshId libc env.now (leaveCurrentRoom s c).roomManager
  moves : (s.session c).hasRoom = true → AsksForOpenRoom s c r
  fits : FitsBuffers env s c r

section Tables
variable {s s' : State} (hsession : s'.session = s.session)
  (hrooms : s'.roomManager = s.roomManager)
include hsession hrooms

theorem leaveCurrentRoom_of_tables (c : Slot) :
    (leaveCurrentRoom s' c).roomManager = (leaveCurrentRoom s c).roomManager := by
  unfold leaveCurrentRoom
  dsimp only
  rw [hsession, hrooms]
  cases (s.session c).hasRoom
  · exact hrooms
  · rfl

theorem Granted.of_tables {libc : Libc} {env : Env} {c : Slot} {r : Request}
    (h : Granted libc env s c r) : Granted libc env s' c r := by
  refine ⟨h.sends, fun roomName hr hname => ?_, fun hroom => ?_, h.fits.of_tables hsession hrooms⟩
  · rw [leaveCurrentRoom_of_tables hsession hrooms]
    exact h.fresh roomName hr hname
  · rw [hsession] at hroom
    have hmoves := h.moves hroom
    cases r with
    | create | join =>
      simp only [AsksForOpenRoom, Member, hrooms] at hmoves ⊢
      exact hmoves
    | _ => exact trivial

end Tables

section Asks
variable (libc : Libc) (env : Env)

theorem asks_create {roomName : CString} (h : ValidRoomName roomName) :
    (Request.create roomName).asks libc env = .create (roomGenerateId libc env.now) roomName :=
  if_pos h

theorem asks_create_of_invalid {roomName : CString} (h : ¬ ValidRoomName roomName) :
    (Request.create roomName).asks libc env = .reject .badTitle := if_neg h

theorem asks_join {roomId : CString} (h : roomId.length = roomIdLength) :
    (Request.join roomId).asks libc env = .join roomId := if_pos h

theorem asks_join_of_malformed {roomId : CString} (h : roomId.length ≠ roomIdLength) :
    (Request.join roomId).asks libc env = .reject .badKey := if_neg h

theorem asks_nick {newNickname : CString} (h : (cleanNickname newNickname).length ≠ 0) :
    (Request.nick newNickname).asks libc env = .rename (cleanNickname newNickname) := if_neg h

theorem asks_nick_of_empty {newNickname : CString} (h : (cleanNickname newNickname).length = 0) :
    (Request.nick newNickname).asks libc env = .reject .emptyName := if_pos h

end Asks

section Replies
variable {s : State} {a : ChatState} (h : Agrees s a) (hfds : FdsDistinct s) {c : Slot}
  (hc : (s.session c).active = true) (fails : Slot → Bool)
include h hfds hc

theorem serves_reply {x : Notice Slot CString CString} {text : CString} (hx : Wording x text) :
    Serves s (chatProtocolSendMessageToClient fails s c text).1 (a, Chat.only c x) :=
  ⟨⟨h.sessions, h.rooms⟩, _, rfl, reaches_reply hfds fails hc hx⟩

omit hc in
theorem reaches_peers {k : CString} {x : Notice Slot CString CString} {text : CString}
    (hx : Wording x text) :
    Reaches Wording s (textTo fails s text (roomTargets s k c)) (a.toPeers c k x) := by
  have hmem : ∀ d, d ∈ roomTargets s k c ↔ d ≠ c ∧ a.room d = some k := by
    intro d
    rw [h.mem_roomTargets_iff, ne_eq, ne_eq, Int.natCast_inj, Fin.ext_iff]
  refine reaches_textTo hfds fails hx (nodup_roomTargets h.rooms.table.table k c) ?_ ?_ ?_
  · intro d hd
    exact h.active_of_room ((hmem d).mp hd).2
  · intro d hd
    exact if_pos ((hmem d).mp hd)
  · intro d hd
    exact if_neg fun hin => hd ((hmem d).mpr hin)

omit hc in
theorem serves_peers {k : CString} {x : Notice Slot CString CString} {text : CString}
    (hx : Wording x text) :
    Serves s (roomManagerBroadcastToRoom fails s k text c).1 (a, a.toPeers c k x) := by
  rw [roomManagerBroadcastToRoom_fst]
  exact ⟨⟨h.sessions, h.rooms⟩, _, rfl, reaches_peers h hfds fails hx⟩

end Replies

section Handlers
variable {libc : Libc} {env : Env} {s : State} {c : Slot} {rooms : RoomManager}

/-- The state in which a client is told of its new room. -/
def entered (s : State) (c : Slot) (rooms : RoomManager) (k : CString) : State :=
  ((leaveCurrentRoom s c).setRooms rooms).setSession c
    ((((leaveCurrentRoom s c).setRooms rooms).session c).enterRoom k)

theorem session_entered (s : State) (c : Slot) (rooms : RoomManager) (k : CString) :
    (entered s c rooms k).session = Function.update s.session c ((s.session c).enterRoom k) := by
  rw [entered, session_update, State.session_setRooms, session_leaveCurrentRoom]
  congr 1
  funext d
  rw [State.session_setRooms, session_leaveCurrentRoom]

theorem trace_entered (s : State) (c : Slot) (rooms : RoomManager) (k : CString) :
    (entered s c rooms k).trace = s.trace := by
  rw [entered, State.trace_setSession, State.trace_setRooms, leaveCurrentRoom_eq,
    State.trace_setRooms]

theorem fields_entered (s : State) (c d : Slot) (rooms : RoomManager) (k : CString) :
    ((entered s c rooms k).session d).active = (s.session d).active ∧
      ((entered s c rooms k).session d).socketFd = (s.session d).socketFd ∧
      ((entered s c rooms k).session d).nickname = (s.session d).nickname := by
  rw [session_entered, Function.update_apply]
  split
  · rename_i hd
    rw [hd]
    exact ⟨rfl, rfl, rfl⟩
  · exact ⟨rfl, rfl, rfl⟩

theorem createRoom_of_created {roomName k : CString} (hvalid : ValidRoomName roomName)
    (heq : roomManagerCreateRoom libc env.now (leaveCurrentRoom s c).roomManager roomName c =
      (rooms, some k)) :
    (chatProtocolHandleCreateRoom libc env s c roomName).1 = (entered s c rooms k).emit
      [.send (s.session c).socketFd (.text (("Room created successfully!\nRoom ID: " ++ k ++
        "\nRoom Name: " ++ roomName ++ "\nYou can now start chatting!\n" : CString).take
          (bufferSize - 1))) (!env.sendFails 0 c)] := by
  have hfd := (fields_entered s c c rooms k).2.1
  unfold chatProtocolHandleCreateRoom
  rw [if_neg (by unfold ValidRoomName at hvalid; omega), ← hfd]
  simp only [heq]
  rfl

theorem createRoom_of_refused {roomName : CString} (hvalid : ValidRoomName roomName)
    (heq : roomManagerCreateRoom libc env.now (leaveCurrentRoom s c).roomManager roomName c =
      (rooms, none)) :
    (chatProtocolHandleCreateRoom libc env s c roomName).1 =
      (chatProtocolSendMessageToClient (env.sendFails 0) ((leaveCurrentRoom s c).setRooms rooms) c
        "Failed to create room. Server may be full.\n").1 := by
  unfold chatProtocolHandleCreateRoom
  rw [if_neg (by unfold ValidRoomName at hvalid; omega)]
  simp only [heq]

/-- A client that has joined hears of its room, and then the others hear of the client. -/
theorem joinRoom_of_joined {k : CString} (hlen : k.length = roomIdLength)
    (heq : roomManagerJoinRoom (leaveCurrentRoom s c).roomManager k c = (rooms, 0))
    {i : Fin maxRooms} (hi : roomManagerFindRoom rooms k = some i) :
    (chatProtocolHandleJoinRoom env s c k).1 = (entered s c rooms k).emit
      ([.send (s.session c).socketFd (.text (("Joined room successfully!\nRoom: " ++
          (rooms.rooms i).roomName ++ " (ID: " ++ k ++ ")\nYou can now start chatting!\n" :
            CString).take (bufferSize - 1))) (!env.sendFails 0 c)] ++
        textTo (env.sendFails 1) (entered s c rooms k)
          (("*** " ++ (s.session c).nickname ++ " joined the room ***\n" : CString).take
            (bufferSize - 1)) (roomTargets (entered s c rooms k) k c)) := by
  have hfields := (fields_entered s c c rooms k).2
  unfold chatProtocolHandleJoinRoom
  rw [if_neg (not_not.mpr hlen), ← hfields.1, ← hfields.2]
  simp only [heq, lt_irrefl, if_false, State.roomManager_setSession, State.roomManager_setRooms, hi]
  rw [roomManagerBroadcastToRoom_fst]
  simp only [sendMessageToClient_fst, State.emit, List.append_assoc]
  rfl

theorem joinRoom_of_refused {k : CString} (hlen : k.length = roomIdLength)
    (heq : roomManagerJoinRoom (leaveCurrentRoom s c).roomManager k c = (rooms, -1)) :
    (chatProtocolHandleJoinRoom env s c k).1 =
      (chatProtocolSendMessageToClient (env.sendFails 0) ((leaveCurrentRoom s c).setRooms rooms) c
        "Room not found or room is full.\n").1 := by
  unfold chatProtocolHandleJoinRoom
  rw [if_neg (not_not.mpr hlen)]
  simp only [heq]
  rfl

/-- The others hear that the client leaves before it does. -/
theorem leaveRoom_of_hasRoom (hroom : (s.session c).hasRoom = true) :
    (chatProtocolHandleLeaveRoom env s c).1.session = Function.update s.session c
        { s.session c with currentRoomId := .empty, state := .inLobby } ∧
      (chatProtocolHandleLeaveRoom env s c).1.roomManager = (leaveCurrentRoom s c).roomManager ∧
      (chatProtocolHandleLeaveRoom env s c).1.trace = s.trace ++
        (textTo (env.sendFails 0) s
            (("*** " ++ (s.session c).nickname ++ " left the room ***\n" : CString).take
              (bufferSize - 1)) (roomTargets s (s.session c).currentRoomId c) ++
          [.send (s.session c).socketFd (.text ("Left room successfully.\n" ++
            "Use /create <name> or /join <room_id> to enter a new room.\n"))
            (!env.sendFails 1 c)]) := by
  have hout := outcome_leave countingLibc env s c
  have htrace : (chatProtocolHandleLeaveRoom env s c).1.trace = s.trace ++ (textTo (env.sendFails 0) s
      (("*** " ++ (s.session c).nickname ++ " left the room ***\n" : CString).take
        (bufferSize - 1)) (roomTargets s (s.session c).currentRoomId c) ++
      [.send (s.session c).socketFd (.text ("Left room successfully.\n" ++
        "Use /create <name> or /join <room_id> to enter a new room.\n"))
        (!env.sendFails 1 c)]) := by
    unfold chatProtocolHandleLeaveRoom
    rw [if_neg (by simp [hroom])]
    simp only [roomManagerBroadcastToRoom_fst, sendMessageToClient_fst, State.trace_emit,
      State.trace_setSession, State.trace_setRooms, State.session_setSession_self,
      List.append_assoc]
    rfl
  refine ⟨?_, ?_, htrace⟩
  all_goals
    generalize (chatProtocolHandleLeaveRoom env s c).1.session = sessions,
      (chatProtocolHandleLeaveRoom env s c).1.roomManager = rooms at hout
    cases hout with
    | talk hquiet =>
      rw [hquiet] at hroom
      cases hroom
    | left => rfl

end Handlers

section Moves
variable {libc : Libc} {env : Env} {s : State} {a : ChatState} (h : Agrees s a) (hs : Steady s)
  {c : Slot} (hc : (s.session c).active = true)
include h hc

theorem Agrees.left_name : ((a.leave c).name c).isSome = true := (h.active_iff c).mp hc

omit h hc in
theorem room_left (a : ChatState) (c : Slot) : (a.leave c).room c = none :=
  Function.update_self ..

/-- A client in a room that asks for a new one it can get is granted it by the service. -/
theorem Agrees.create_granted {roomName : CString} (hroom : (s.session c).hasRoom = true)
    (hvalid : ValidRoomName roomName) (hasks : AsksForOpenRoom s c (.create roomName)) :
    (a.leave c).openRooms.card < maxRooms := by
  have hcount := (h.leaveCurrent hc).roomCount_eq
  have hspace : CreateGranted s c := by
    rcases hasks hvalid with hspace | ⟨i, hmember, hone⟩
    · exact Or.inl hspace
    · have hid : (s.roomManager.rooms i).roomId = (s.session c).currentRoomId :=
        Option.some.inj ((((h.member_iff i c).mp hmember).2).symm.trans
          (h.room_of_hasRoom hc hroom))
      exact Or.inr ⟨i, ownRoom_of_member h.rooms.table.distinct hroom hmember hid, hone⟩
  have hlt := (roomCount_left_lt_iff h.rooms.table.table).mpr hspace
  omega

omit hc in
theorem Agrees.join_granted {roomId : CString} (hlen : roomId.length = roomIdLength)
    (hasks : AsksForOpenRoom s c (.join roomId)) :
    roomId ∈ (a.leave c).openRooms ∧ ((a.leave c).members roomId).card < maxClientsPerRoom := by
  obtain ⟨i, hi, rfl, hin, hout⟩ := hasks hlen
  have hcount := h.rooms.clientCount_eq hi
  have hpos := (h.rooms.table.table.room_ok i).occupied_iff.mp hi
  have hle := Slots.occupancy_le entryUsed (s.roomManager.rooms i).clientIds
  have hoccupied := (h.rooms.table.table.room_ok i).count_eq
  have hmember : Member s.roomManager i (c : Int) ↔
      c ∈ a.members (s.roomManager.rooms i).roomId := by
    rw [h.member_iff, Chat.mem_members_iff, and_iff_right hi]
  rw [hmember] at hin hout
  have hcard : 0 < ((a.leave c).members (s.roomManager.rooms i).roomId).card ∧
      ((a.leave c).members (s.roomManager.rooms i).roomId).card < maxClientsPerRoom := by
    rw [Chat.members_leave]
    by_cases hmem : c ∈ a.members (s.roomManager.rooms i).roomId
    · have hmore := hin hmem
      rw [Finset.card_erase_of_mem hmem]
      omega
    · have hspace := hout hmem
      rw [Finset.erase_eq_of_notMem hmem]
      omega
  obtain ⟨d, hd⟩ := Finset.card_pos.mp hcard.1
  exact ⟨(a.leave c).mem_openRooms_iff.mpr ⟨d, (a.leave c).mem_members_iff.mp hd⟩, hcard.2⟩

theorem agrees_entered {rooms : RoomManager} {k : CString} (hk : k.length = roomIdLength)
    {b : ChatState} (hrooms : RoomsAgree rooms b) (hname : b.name = a.name)
    (hroom : b.room = ((a.leave c).enter c k).room) : Agrees (entered s c rooms k) b := by
  refine ⟨?_, hrooms⟩
  have hsessions := h.sessions.enter hc hk
  rw [session_entered]
  exact ⟨fun d => by rw [hname]; exact hsessions.name d, fun d => by rw [hroom]; exact hsessions.room d⟩

include hs

omit h hc hs in
theorem TableShape.leaveCurrent (h : TableShape s.roomManager) (c : Slot) :
    TableShape (leaveCurrentRoom s c).roomManager :=
  leaveCurrentRoom_keeps h fun roomId => h.step (.leave roomId c)

omit h hc in
theorem fds_entered (rooms : RoomManager) (k : CString) : FdsDistinct (entered s c rooms k) := by
  intro d e hd he heq
  rw [(fields_entered s c d rooms k).1] at hd
  rw [(fields_entered s c e rooms k).1] at he
  rw [(fields_entered s c d rooms k).2.1, (fields_entered s c e rooms k).2.1] at heq
  exact hs.fds d e hd he heq

theorem serves_create {roomName : CString}
    (hfresh : ValidRoomName roomName → FreshId libc env.now (leaveCurrentRoom s c).roomManager)
    (hmoves : (s.session c).hasRoom = true → AsksForOpenRoom s c (.create roomName)) :
    Serves s (chatProtocolHandleCreateRoom libc env s c roomName).1
      (a.serve c maxRooms maxClientsPerRoom (s.session c).nickname
        ((Request.create roomName).asks libc env)) := by
  by_cases hvalid : ValidRoomName roomName
  · rw [asks_create libc env hvalid, Chat.serve]
    rcases (h.leaveCurrent hc).create (h.left_name hc) (room_left a c) hvalid (hfresh hvalid) with
      ⟨hspace, rooms, heq, hrooms⟩ | ⟨hfull, heq⟩
    · have hid := length_roomGenerateId libc env.now
      have hagrees := agrees_entered h hc hid hrooms rfl rfl
      rw [createRoom_of_created hvalid heq, if_pos hspace, take_created hid hvalid.2]
      exact ⟨⟨hagrees.sessions, hagrees.rooms⟩, _, congrArg (· ++ _) (trace_entered s c rooms _),
        reaches_reply hs.fds (env.sendFails 0) hc rfl⟩
    · have hroom : (s.session c).hasRoom = false := by
        by_contra hin
        rw [Bool.not_eq_false] at hin
        exact hfull (h.create_granted hc hin hvalid (hmoves hin))
      rw [createRoom_of_refused hvalid heq, if_neg hfull, leaveCurrentRoom_of_not_hasRoom hroom]
      exact serves_reply h hs.fds hc (env.sendFails 0) rfl
  · unfold chatProtocolHandleCreateRoom
    rw [if_pos (by unfold ValidRoomName at hvalid; omega), asks_create_of_invalid libc env hvalid]
    exact serves_reply h hs.fds hc (env.sendFails 0) rfl

theorem serves_join {roomId : CString}
    (hmoves : (s.session c).hasRoom = true → AsksForOpenRoom s c (.join roomId)) :
    Serves s (chatProtocolHandleJoinRoom env s c roomId).1
      (a.serve c maxRooms maxClientsPerRoom (s.session c).nickname
        ((Request.join roomId).asks libc env)) := by
  by_cases hlen : roomId.length = roomIdLength
  · rw [asks_join libc env hlen, Chat.serve]
    rcases (h.leaveCurrent hc).join (h.left_name hc) (room_left a c) roomId with
      ⟨hopen, rooms, heq, hrooms⟩ | ⟨hclosed, heq⟩
    · have hagrees := agrees_entered h hc hlen hrooms rfl rfl
      have hroom : ((a.leave c).enter c roomId).room c = some roomId := by
        have hname := h.left_name hc
        simp only [Chat.enter, hname, if_true, Function.update_self]
      obtain ⟨i, hi, hactive, hid⟩ := hrooms.find hroom
      have htitle : (rooms.rooms i).roomName = a.title roomId := hrooms.title_of_find hi
      have hshape : TableShape rooms := by
        have hjoined := (hs.shape.leaveCurrent c).step (.join roomId c)
        rw [RoomOp.step, RoomOp.call, heq] at hjoined
        exact hjoined
      have hshort : (a.title roomId).length ≤ maxRoomName - 1 :=
        htitle ▸ (hshape.room_shape i).roomName_le
      have hpeers : ∀ d, ((a.leave c).enter c roomId).toPeers c roomId
          (.entered (s.session c).nickname) d =
            a.toPeers c roomId (.entered (s.session c).nickname) d := by
        intro d
        by_cases hdc : d = c
        · simp [Chat.toPeers, hdc]
        · simp [Chat.toPeers, Chat.enter, Chat.leave, hdc]
      have hnews : Reaches Wording (entered s c rooms roomId) _ (((a.leave c).enter c roomId).toPeers
          c roomId (.entered (s.session c).nickname)) :=
        reaches_peers hagrees (fds_entered hs rooms roomId) (env.sendFails 1) rfl
      rw [joinRoom_of_joined hlen heq hi, if_pos hopen, htitle, take_joined hlen hshort,
        take_announcement (by decide) (hs.names c)]
      refine ⟨⟨hagrees.sessions, hagrees.rooms⟩, _, congrArg (· ++ _) (trace_entered s c rooms _),
        (reaches_reply hs.fds (env.sendFails 0) hc rfl).append ?_⟩
      rw [← funext hpeers]
      exact hnews.congr fun d => ⟨(fields_entered s c d rooms roomId).1,
        (fields_entered s c d rooms roomId).2.1⟩
    · have hroom : (s.session c).hasRoom = false := by
        by_contra hin
        rw [Bool.not_eq_false] at hin
        exact hclosed (h.join_granted hlen (hmoves hin))
      rw [joinRoom_of_refused hlen heq, if_neg hclosed, leaveCurrentRoom_of_not_hasRoom hroom]
      exact serves_reply h hs.fds hc (env.sendFails 0) rfl
  · unfold chatProtocolHandleJoinRoom
    rw [if_pos hlen, asks_join_of_malformed libc env hlen]
    exact serves_reply h hs.fds hc (env.sendFails 0) rfl

theorem serves_leave :
    Serves s (chatProtocolHandleLeaveRoom env s c).1
      (a.serve c maxRooms maxClientsPerRoom (s.session c).nickname .leave) := by
  cases hroom : (s.session c).hasRoom with
  | false =>
    unfold chatProtocolHandleLeaveRoom
    rw [if_pos (by simp [hroom]), Chat.serve, h.room_of_not_hasRoom hroom]
    exact serves_reply h hs.fds hc (env.sendFails 0) rfl
  | true =>
    have hin := h.room_of_hasRoom hc hroom
    obtain ⟨hsession, hrooms, htrace⟩ := @leaveRoom_of_hasRoom env _ _ hroom
    rw [take_announcement (by decide) (hs.names c)] at htrace
    have hnews : Reaches Wording s _ (a.toPeers c (s.session c).currentRoomId
        (.gone (s.session c).nickname)) := reaches_peers h hs.fds (env.sendFails 0) rfl
    rw [Chat.serve, hin]
    refine ⟨⟨?_, ?_⟩, _, htrace, hnews.append (reaches_reply hs.fds (env.sendFails 1) hc rfl)⟩
    · rw [hsession]
      exact h.sessions.leave hc
    · rw [hrooms]
      exact h.leaveCurrent hc

end Moves

section Lists
variable {env : Env} {s : State} {a : ChatState} (h : Agrees s a) (hs : Steady s) {c : Slot}
  (hc : (s.session c).active = true)
include h hs hc

theorem serves_users :
    Serves s (chatProtocolHandleListUsers env s c).1
      (a.serve c maxRooms maxClientsPerRoom (s.session c).nickname .users) := by
  unfold chatProtocolHandleListUsers
  dsimp only
  cases hroom : (s.session c).hasRoom with
  | false =>
    have hx : Wording (.refused .usersOutside) "You must be in a room to see user list.\n" := rfl
    rw [if_pos (by decide), Chat.serve, h.room_of_not_hasRoom hroom]
    exact serves_reply h hs.fds hc (env.sendFails 0) hx
  | true =>
    have hin := h.room_of_hasRoom hc hroom
    rw [if_neg (by decide), Chat.serve, hin]
    exact serves_reply h hs.fds hc (env.sendFails 0) (wording_users h hs hin)

theorem serves_rooms (hfits : LinesFit s.roomManager) :
    Serves s (chatProtocolHandleListRooms env s c).1
      (a.serve c maxRooms maxClientsPerRoom (s.session c).nickname .rooms) :=
  serves_reply h hs.fds hc (env.sendFails 0) (wording_rooms h hs hfits)

end Lists

section Broadcasts
variable {env : Env} {s : State} {a : ChatState} {c : Slot} {fails : Slot → Bool}
  (hfails : ∀ d, fails d = false)

include hfails in
/-- While no send fails a broadcast leaves every session as it is. -/
theorem session_broadcast_of_calm (message : CString) (senderId : Int) :
    (clientManagerBroadcastMessage fails s message senderId).session = s.session := by
  funext d
  have hkept : ¬ Evicted fails s senderId d := by
    intro hevicted
    have hfailed := hevicted.2
    rw [hfails d] at hfailed
    cases hfailed
  rw [session_broadcast, if_neg hkept]

include hfails in
theorem trace_broadcast_of_calm (message : CString) (senderId : Int) :
    (clientManagerBroadcastMessage fails s message senderId).trace = s.trace ++
      textTo fails s message ((List.finRange maxClients).filter fun d => Reached s senderId d) := by
  rw [trace_broadcast, KeyDelivery.flatMap_broadcastEvents hfails]

/-- Everybody the broadcast reaches hears it. -/
theorem reaches_reached (hfds : FdsDistinct s) {senderId : Int} {told : Told}
    {x : Notice Slot CString CString} {text : CString} (hx : Wording x text)
    (htold : ∀ d, told d = if Reached s senderId d then [x] else []) :
    Reaches Wording s (textTo fails s text
      ((List.finRange maxClients).filter fun d => Reached s senderId d)) told := by
  have hmem : ∀ d, d ∈ (List.finRange maxClients).filter (fun d => Reached s senderId d) ↔
      Reached s senderId d := by
    intro d
    simp only [List.mem_filter, List.mem_finRange, true_and, decide_eq_true_eq]
  refine reaches_textTo hfds fails hx ((List.nodup_finRange _).filter _) ?_ ?_ ?_
  · intro d hd
    exact ((hmem d).mp hd).1
  · intro d hd
    rw [htold, if_pos ((hmem d).mp hd)]
  · intro d hd
    rw [htold, if_neg fun hreached => hd ((hmem d).mpr hreached)]

theorem toOthers_eq (h : SessionsAgree s.session a) (x : Notice Slot CString CString) (d : Slot) :
    a.toOthers c x d = if Reached s c d then [x] else [] := by
  have hne : (d : Int) ≠ (c : Int) ↔ d ≠ c := by
    rw [ne_eq, ne_eq, Fin.ext_iff]
    omega
  rw [Chat.toOthers, h.name]
  cases hd : (s.session d).active <;> simp [Reached, hd, hne]

theorem toAll_eq (h : SessionsAgree s.session a) (x : Notice Slot CString CString) (d : Slot) :
    a.toAll [x] d = if Reached s (-1) d then [x] else [] := by
  have hne : (d : Int) ≠ -1 := by omega
  rw [Chat.toAll, h.name]
  cases hd : (s.session d).active <;> simp [Reached, hd, hne]

include hfails in
theorem serves_others (h : Agrees s a) (hfds : FdsDistinct s) {x : Notice Slot CString CString}
    {text : CString} (hx : Wording x text) :
    Serves s (clientManagerBroadcastMessage fails s text c) (a, a.toOthers c x) := by
  refine ⟨⟨?_, ?_⟩, _, trace_broadcast_of_calm hfails text c,
    reaches_reached hfds hx (toOthers_eq h.sessions x)⟩
  · rw [session_broadcast_of_calm hfails]
    exact h.sessions
  · rw [roomManager_broadcast]
    exact h.rooms

theorem toAll_cons (x y : Notice Slot CString CString) :
    a.toAll [x, y] = fun d => a.toAll [x] d ++ a.toAll [y] d := by
  funext d
  unfold Chat.toAll
  split <;> rfl

/-- The announcement goes to everybody, and then the names of everybody. -/
theorem serves_announced (h : Agrees s a) (hfds : FdsDistinct s)
    (hcalm : ∀ k d, env.sendFails k d = false) (hfit : NicknamesFit s)
    {x : Notice Slot CString CString} {text : CString} (hx : Wording x text) :
    Serves s (announced env s text) (a, a.toAll [x, .online a.name]) := by
  have hsame := session_broadcast_of_calm (s := s) (hcalm 0) text (-1)
  have hrooms := roomManager_broadcast (env.sendFails 0) text (-1) s
  have htrace := trace_broadcast_of_calm (s := s) (hcalm 0) text (-1)
  rw [announced, clientManagerBroadcastUserList, toAll_cons]
  generalize clientManagerBroadcastMessage (env.sendFails 0) s text (-1) = t at hsame hrooms htrace
  have hagrees : SessionsAgree t.session a := by
    rw [hsame]
    exact h.sessions
  have hfds' : FdsDistinct t := by
    unfold FdsDistinct
    rw [hsame]
    exact hfds
  have hx' : Wording (.online a.name) (userList t) := by
    have hfit' : NicknamesFit t := by
      rw [NicknamesFit, onlineNicknames, hsame]
      exact hfit
    refine ⟨?_, ((userListOk_iff t).mpr hfit').fits⟩
    rw [userList_eq, ← inOrder_name hagrees]
  have hlist := trace_broadcast_of_calm (s := t) (hcalm 1) (userList t) (-1)
  rw [htrace, List.append_assoc] at hlist
  refine ⟨⟨?_, ?_⟩, _, hlist, (reaches_reached hfds hx (toAll_eq h.sessions x)).append
    ((reaches_reached hfds' hx' (toAll_eq hagrees _)).congr fun d => ?_)⟩
  · rw [session_broadcast_of_calm (hcalm 1)]
    exact hagrees
  · rw [roomManager_broadcast, hrooms]
    exact h.rooms
  · rw [hsame]
    exact ⟨rfl, rfl⟩

theorem serves_nick (h : Agrees s a) (hs : Steady s) (hc : (s.session c).active = true)
    (hcalm : ∀ k d, env.sendFails k d = false) (libc : Libc) {newNickname : CString}
    (hfits : FitsBuffers env s c (.nick newNickname)) :
    Serves s (chatProtocolHandleNicknameChange env s c newNickname).1
      (a.serve c maxRooms maxClientsPerRoom (s.session c).nickname
        ((Request.nick newNickname).asks libc env)) := by
  by_cases hempty : (cleanNickname newNickname).length = 0
  · have hx : Wording (.refused .emptyName) "Error: Nickname cannot be empty.\n" := rfl
    rw [nicknameChange_of_empty env s c hempty, asks_nick_of_empty libc env hempty]
    exact serves_reply h hs.fds hc (env.sendFails 0) hx
  · obtain ⟨hterminated, hfit⟩ := hfits hempty
    have hagrees : SessionsAgree (renamed s c (cleanNickname newNickname)).session
        (a.rename c (cleanNickname newNickname)) := by
      rw [renamed, session_update]
      exact h.sessions.rename hc _
    have hfields : ∀ d, ((renamed s c (cleanNickname newNickname)).session d).active =
        (s.session d).active ∧ ((renamed s c (cleanNickname newNickname)).session d).socketFd =
          (s.session d).socketFd := by
      intro d
      rw [renamed, State.session_setSession]
      split
      · rename_i hd
        rw [hd]
        exact ⟨rfl, rfl⟩
      · exact ⟨rfl, rfl⟩
    have hfds : FdsDistinct (renamed s c (cleanNickname newNickname)) := by
      intro d e hd he heq
      rw [(hfields d).1] at hd
      rw [(hfields e).1] at he
      rw [(hfields d).2, (hfields e).2] at heq
      exact hs.fds d e hd he heq
    have hwording : Wording (.renamed (s.session c).nickname (cleanNickname newNickname))
        ((nickAnnouncement (oldNickname env.stack (s.session c).nickname)
          (cleanNickname newNickname)).take (bufferSize - 1)) := by
      have hshort := Nat.le_sub_one_of_lt (hs.names c)
      rw [Wording, take_nickAnnouncement_eq_iff hshort
        (Nat.le_sub_one_of_lt (length_cleanNickname_lt _)), oldNickname_eq_iff _ hshort]
      exact hterminated
    rw [nicknameChange_eq_announced env s c hempty, asks_nick libc env hempty, Chat.serve]
    have hserved := serves_announced ⟨hagrees, h.rooms.congr rfl rfl⟩ hfds hcalm hfit hwording
    obtain ⟨es, htrace, hreaches⟩ := hserved.delivers
    dsimp only at hreaches ⊢
    exact ⟨hserved.agrees, es, htrace, hreaches.congr hfields⟩

/-- Whoever the others are, they are reached in the same way. -/
theorem textTo_reached_congr {t : State} {c : Slot}
    (hother : ∀ d, d ≠ c → t.session d = s.session d) (text : CString) :
    textTo fails t text ((List.finRange maxClients).filter fun d => Reached t c d) =
      textTo fails s text ((List.finRange maxClients).filter fun d => Reached s c d) := by
  have hne : ∀ {d : Slot}, (d : Int) ≠ (c : Int) → d ≠ c := fun h heq => h (by rw [heq])
  have hthere : ∀ d, Reached t c d ↔ Reached s c d := fun d => by
    rw [Reached, Reached]
    apply and_congr_left
    intro hd
    rw [hother d (hne hd)]
  simp only [hthere]
  apply List.map_congr_left
  intro d hd
  rw [hother d (hne (of_decide_eq_true (List.mem_filter.mp hd).2).2)]

include hfails in
/-- The session of a client that is removed is cleaned, and the others are told. -/
theorem remove_of_calm {c : Slot} (hc : (s.session c).active = true) :
    (clientManagerRemoveClient fails s c).session =
        Function.update s.session c (s.session c).cleaned ∧
      (clientManagerRemoveClient fails s c).roomManager = s.roomManager ∧
      (clientManagerRemoveClient fails s c).trace = s.trace ++
        ((if 0 ≤ (s.session c).socketFd then [.close (s.session c).socketFd] else []) ++
          textTo fails s (farewell s c)
            ((List.finRange maxClients).filter fun d => Reached s c d)) := by
  have hsession : (removed s c).session = Function.update s.session c (s.session c).cleaned := by
    funext d
    rw [session_removed, Function.update_apply]
  have htrace := trace_broadcast_of_calm (s := removed s c) hfails (farewell s c) c
  have hsent := @textTo_reached_congr s fails (removed s c) c
    (fun d hd => by rw [hsession, Function.update_of_ne hd]) (farewell s c)
  rw [hsent, removed, State.trace_addClientCount, trace_clientSessionCleanup, List.append_assoc,
    ← removed] at htrace
  rw [remove_of_active _ _ _ hc, roomManager_broadcast, session_broadcast_of_calm hfails]
  exact ⟨hsession, rfl, htrace⟩

include hfails in
/-- A client in no room that is removed has departed. -/
theorem serves_remove (h : Agrees s a) (hs : Steady s) {c : Slot}
    (hc : (s.session c).active = true) (hroom : a.room c = none) :
    Serves s (clientManagerRemoveClient fails s c)
      (a.depart c, a.toOthers c (.bye (s.session c).nickname)) := by
  obtain ⟨hsession, hrooms, htrace⟩ := remove_of_calm hfails hc
  have hx : Wording (.bye (s.session c).nickname) (farewell s c) :=
    take_announcement (by decide) (hs.names c)
  refine ⟨⟨?_, ?_⟩, _, htrace, (Reaches.nobody ?_).append
    (reaches_reached hs.fds hx (toOthers_eq h.sessions _))⟩
  · rw [hsession]
    exact h.sessions.update rfl rfl
  · rw [hrooms]
    exact h.rooms.congr (Chat.room_depart hroom) rfl
  · intro fd payload ok he
    split at he <;> simp at he

end Broadcasts

section Perform
variable {libc : Libc} {env : Env} {s : State} {a : ChatState} (h : Agrees s a) (hs : Steady s)
include h hs

/-- Whatever a client asks for, it gets from the server what it would get from the service. -/
theorem serves_perform {c : Slot} (hc : (s.session c).active = true) {r : Request}
    (hgranted : Granted libc env s c r)
    (hchat : ∀ text, r = .chat text → text.length < bufferSize) :
    Serves s (perform libc env s c r).1
      (a.serve c maxRooms maxClientsPerRoom (s.session c).nickname (r.asks libc env)) := by
  have hreply : ∀ {x : Notice Slot CString CString} {text : CString}, Wording x text →
      Serves s (chatProtocolSendMessageToClient (env.sendFails 0) s c text).1 (a, Chat.only c x) :=
    fun hx => serves_reply h hs.fds hc (env.sendFails 0) hx
  have hpeers : ∀ {k : CString} {x : Notice Slot CString CString} {text : CString},
      Wording x text →
      Serves s (roomManagerBroadcastToRoom (env.sendFails 0) s k text c).1 (a, a.toPeers c k x) :=
    fun hx => serves_peers h hs.fds (env.sendFails 0) hx
  have hsilent : Serves s s (a, Chat.nobody) :=
    ⟨h, [], (List.append_nil _).symm, Reaches.nobody fun _ _ _ => List.not_mem_nil⟩
  cases r with
  | nothing | quit => exact hsilent
  | create roomName => exact serves_create h hs hc (hgranted.fresh roomName rfl) hgranted.moves
  | join roomId => exact serves_join h hs hc hgranted.moves
  | leave => exact serves_leave h hs hc
  | rooms => exact serves_rooms h hs hc hgranted.fits
  | nick newNickname => exact serves_nick h hs hc hgranted.sends libc hgranted.fits
  | users => exact serves_users h hs hc
  | help => exact hreply (x := .help) rfl
  | unknown => exact hreply (x := .refused .unknown) rfl
  | keyExchange command =>
    have hx : Wording (.frame (command.take (bufferSize - 1))) (command.take (bufferSize - 1)) := rfl
    cases hroom : (s.session c).hasRoom with
    | false =>
      rw [perform, if_neg (by simp [hroom]), Request.asks, Chat.serve, h.room_of_not_hasRoom hroom]
      dsimp only
      exact serves_others (hgranted.sends 0) h hs.fds hx
    | true =>
      rw [perform, if_pos hroom, Request.asks, Chat.serve, h.room_of_hasRoom hc hroom]
      exact hpeers hx
  | e2eMessage command =>
    have hx : Wording (.frame (command.take (bufferSize - 1))) (command.take (bufferSize - 1)) := rfl
    cases hroom : (s.session c).hasRoom with
    | false =>
      rw [perform, if_neg (by simp [hroom]), Request.asks, Chat.serve, h.room_of_not_hasRoom hroom]
      exact hreply (x := .refused .postOutside) rfl
    | true =>
      rw [perform, if_pos hroom, Request.asks, Chat.serve, h.room_of_hasRoom hc hroom]
      exact hpeers hx
  | chat text =>
    cases hroom : (s.session c).hasRoom with
    | false =>
      rw [perform, if_neg (by simp [hroom]), Request.asks, Chat.serve, h.room_of_not_hasRoom hroom]
      exact hreply (x := .refused .sayOutside) rfl
    | true =>
      have hx : Wording (.line (s.session c).nickname text)
          ((s.session c).nickname ++ ": " ++ text ++ "\n") := rfl
      rw [perform, if_pos hroom, Request.asks, Chat.serve, h.room_of_hasRoom hc hroom,
        take_line (hs.names c) (hchat text rfl)]
      exact hpeers hx

end Perform

end TcpChat.Server

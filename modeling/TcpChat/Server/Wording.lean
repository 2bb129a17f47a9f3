import TcpChat.Listings
import TcpChat.NicknameChange
import TcpChat.Server.ChatState
import TcpChat.Server.Deliveries
import TcpChat.Server.Greetings
import TcpChat.UserList

/-!
# How the server puts it

The text of every notice of the chat service. Inside their bounds names and titles are never cut,
so the texts are given without the sizes of the buffers. Lists, and an old nickname that is copied,
may be too long; `FitsBuffers` says when they are not.
-/

namespace TcpChat.Server

open Base
set_option autoImplicit false

def refusalText : Refusal → CString
  | .badTitle => "Invalid room name. Must be 1-63 characters.\n"
  | .badKey => "Invalid room ID format.\n"
  | .emptyName => "Error: Nickname cannot be empty.\n"
  | .unknown => "Unknown command. Type /help for available commands.\n"
  | .noSpace => "Failed to create room. Server may be full.\n"
  | .noRoom => "Room not found or room is full.\n"
  | .leaveOutside => "You are not currently in a room.\n"
  | .usersOutside => "You must be in a room to see user list.\n"
  | .postOutside => "You must be in a room to send E2E messages.\n"
  | .sayOutside => "You must join a room before sending messages. " ++
      "Use /create <name> or /join <room_id>\n"

def roomText (roomId roomName : CString) (users : Nat) : CString :=
  "ID: " ++ roomId ++ " | Name: " ++ roomName ++ " | Users: " ++ CString.ofInt users ++ "\n"

/-- The names in the order of the slots. -/
def inOrder (names : Slot → Option CString) : List CString :=
  (List.finRange maxClients).filterMap names

/-- How the server puts a notice. The rooms and the members of a room are listed in some order;
the list of everybody is put together without a check, and has to fit its buffer. -/
def Wording : Notice Slot CString CString → CString → Prop
  | .welcome, text => text = welcomeMsg
  | .refused why, text => text = refusalText why
  | .created k title, text => text = "Room created successfully!\nRoom ID: " ++ k ++
      "\nRoom Name: " ++ title ++ "\nYou can now start chatting!\n"
  | .joined k title, text => text = "Joined room successfully!\nRoom: " ++ title ++ " (ID: " ++ k ++
      ")\nYou can now start chatting!\n"
  | .left, text => text = "Left room successfully.\n" ++
      "Use /create <name> or /join <room_id> to enter a new room.\n"
  | .help, text => text = helpMsg
  | .rooms keys title size, text => ∃ l : List CString, l.Nodup ∧ (∀ k, k ∈ l ↔ k ∈ keys) ∧
      text = "=== Active Rooms ===\n" ++
        (if l = [] then ("No active rooms\n" : CString)
          else CString.concat (l.map fun k => roomText k (title k) (size k))) ++
        "==================\n"
  | .users title names, text => ∃ l : List CString, l.Perm (inOrder names) ∧
      text = "=== Users in Room " ++ title ++ " ===\n" ++
        CString.concat (l.map fun nickname => "- " ++ nickname ++ "\n") ++
        "======================\n"
  | .online names, text => text = "*** Online users: " ++ listed (inOrder names) ++ " ***\n" ∧
      text.length < bufferSize
  | .entered name, text => text = "*** " ++ name ++ " joined the room ***\n"
  | .gone name, text => text = "*** " ++ name ++ " left the room ***\n"
  | .renamed old new, text => text = nickAnnouncement old new
  | .bye name, text => text = "*** " ++ name ++ " left the chat ***\n"
  | .line name message, text => text = name ++ ": " ++ message ++ "\n"
  | .frame message, text => text = message

/-- What the server writes in answer to the request fits the buffers: the reply to `/rooms` has
room for every line, and at a `/nick` the copy of the old nickname is terminated and the list of
everybody is not too long. -/
def FitsBuffers (env : Env) (s : State) (c : Slot) : Request → Prop
  | .rooms => LinesFit s.roomManager
  | .nick newNickname => (cleanNickname newNickname).length ≠ 0 →
    Terminated env.stack (s.session c).nickname ∧
      NicknamesFit (renamed s c (cleanNickname newNickname))
  | _ => True

instance (env : Env) (s : State) (c : Slot) (r : Request) : Decidable (FitsBuffers env s c r) :=
  match r with
  | .rooms => inferInstanceAs (Decidable (LinesFit _))
  | .nick _ => inferInstanceAs (Decidable (_ → _ ∧ _))
  | .create _ | .join _ | .leave | .users | .keyExchange _ | .e2eMessage _ | .chat _ | .nothing
  | .quit | .help | .unknown => isTrue trivial

theorem FitsBuffers.of_tables {env : Env} {s s' : State} {c : Slot} {r : Request}
    (hsession : s'.session = s.session) (hrooms : s'.roomManager = s.roomManager)
    (h : FitsBuffers env s c r) : FitsBuffers env s' c r := by
  cases r with
  | rooms =>
    rw [FitsBuffers, hrooms]
    exact h
  | nick newNickname =>
    intro hne
    obtain ⟨hterminated, hfit⟩ := h hne
    simp only [NicknamesFit, onlineNicknames, renamed, session_update, hsession] at hfit ⊢
    exact ⟨hterminated, hfit⟩
  | _ => trivial

/-- What the texts and their addresses depend on. -/
structure Steady (s : State) : Prop where
  fds : FdsDistinct s
  names : NamesShort s
  shape : TableShape s.roomManager

theorem Steady.of_tables {s s' : State} (h : Steady s) (hsession : s'.session = s.session)
    (hrooms : s'.roomManager = s.roomManager) : Steady s' := by
  refine ⟨?_, fun d => ?_, ?_⟩
  · rw [FdsDistinct, hsession]
    exact h.fds
  · rw [hsession]
    exact h.names d
  · rw [hrooms]
    exact h.shape

section Texts

theorem take_short {text : CString} (h : text.length < bufferSize) :
    text.take (bufferSize - 1) = text := CString.take_of_length_le (Nat.le_sub_one_of_lt h)

theorem take_created {k title : CString} (hk : k.length = roomIdLength)
    (htitle : title.length < maxRoomName) :
    ("Room created successfully!\nRoom ID: " ++ k ++ "\nRoom Name: " ++ title ++
      "\nYou can now start chatting!\n" : CString).take (bufferSize - 1) =
    "Room created successfully!\nRoom ID: " ++ k ++ "\nRoom Name: " ++ title ++
      "\nYou can now start chatting!\n" := by
  have hfront : (CString.ofString "Room created successfully!\nRoom ID: ").length = 36 := by decide
  have hmiddle : (CString.ofString "\nRoom Name: ").length = 12 := by decide
  have hback : (CString.ofString "\nYou can now start chatting!\n").length = 29 := by decide
  apply take_short
  simp only [CString.length_append, hfront, hmiddle, hback, hk, roomIdLength, maxRoomName,
    bufferSize] at *
  omega

theorem take_joined {k title : CString} (hk : k.length = roomIdLength)
    (htitle : title.length ≤ maxRoomName - 1) :
    ("Joined room successfully!\nRoom: " ++ title ++ " (ID: " ++ k ++
      ")\nYou can now start chatting!\n" : CString).take (bufferSize - 1) =
    "Joined room successfully!\nRoom: " ++ title ++ " (ID: " ++ k ++
      ")\nYou can now start chatting!\n" := by
  have hfront : (CString.ofString "Joined room successfully!\nRoom: ").length = 32 := by decide
  have hmiddle : (CString.ofString " (ID: ").length = 6 := by decide
  have hback : (CString.ofString ")\nYou can now start chatting!\n").length = 30 := by decide
  apply take_short
  simp only [CString.length_append, hfront, hmiddle, hback, hk, roomIdLength, maxRoomName,
    bufferSize] at *
  omega

/-- The announcements around a nickname. -/
theorem take_announcement {back : String} (hback : (CString.ofString back).length ≤ 64)
    {nickname : CString} (h : nickname.length < maxNicknameLen) :
    ("*** " ++ nickname ++ CString.ofString back : CString).take (bufferSize - 1) =
      "*** " ++ nickname ++ CString.ofString back := by
  have hfront : (CString.ofString "*** ").length = 4 := by decide
  apply take_short
  simp only [CString.length_append, hfront, maxNicknameLen, bufferSize] at *
  omega

theorem take_line {nickname text : CString} (h : nickname.length < maxNicknameLen)
    (htext : text.length < bufferSize) :
    (nickname ++ ": " ++ text ++ "\n" : CString).take (bufferSize + maxNicknameLen + 10 - 1) =
      nickname ++ ": " ++ text ++ "\n" := by
  have hcolon : (CString.ofString ": ").length = 2 := by decide
  have hend : (CString.ofString "\n").length = 1 := by decide
  apply CString.take_of_length_le
  simp only [CString.length_append, hcolon, hend, maxNicknameLen, bufferSize] at *
  omega

end Texts

section Lists
variable {s : State} {a : ChatState} (h : Agrees s a) (hs : Steady s)
include h hs

theorem wording_rooms (hfits : LinesFit s.roomManager) :
    Wording (.rooms a.openRooms a.title fun k => (a.members k).card)
      (roomManagerListRooms s.roomManager (bufferSize * 2)) := by
  have hactive : ∀ i ∈ (List.finRange maxRooms).filter fun i => (s.roomManager.rooms i).isActive,
      (s.roomManager.rooms i).isActive = true := fun i hi => (List.mem_filter.mp hi).2
  have hlines : roomLines s.roomManager =
      (((List.finRange maxRooms).filter fun i => (s.roomManager.rooms i).isActive).map
        fun i => (s.roomManager.rooms i).roomId).map
          fun k => roomText k (a.title k) (a.members k).card := by
    rw [List.map_map]
    apply List.map_congr_left
    intro i hi
    rw [roomLine, h.rooms.clientCount_eq (hactive i hi), ← h.rooms.title i (hactive i hi)]
    rfl
  refine ⟨((List.finRange maxRooms).filter fun i => (s.roomManager.rooms i).isActive).map
    fun i => (s.roomManager.rooms i).roomId, ?_, fun k => ?_, ?_⟩
  · apply List.Nodup.map_on _ ((List.nodup_finRange maxRooms).filter _)
    intro i hi j hj heq
    exact h.rooms.table.distinct i j (hactive i hi) (hactive j hj) heq
  · rw [← Chat.keys_groups, ← Groups.keys_map slotId, h.rooms.table.holds.keys_iff]
    simp only [List.mem_map, List.mem_filter, List.mem_finRange, true_and]
  · rw [(listed_iff hs.shape).mpr hfits, fullRoomList, hlines]
    simp only [List.map_eq_nil_iff]

omit h hs in
theorem inOrder_name (h : SessionsAgree s.session a) : inOrder a.name = onlineNicknames s := by
  rw [inOrder, onlineNicknames, ← List.filterMap_eq_map, List.filterMap_filter]
  apply List.filterMap_congr
  intro d _
  rw [h.name]
  rfl

omit hs in
/-- The names of the members of a room, by slots and as the room lists them. -/
theorem perm_inOrder (k : CString) :
    ((roomTargets s k (-1)).map fun d => (s.session d).nickname).Perm
      (inOrder fun v => if a.room v = some k then a.name v else none) := by
  have hnames : inOrder (fun v => if a.room v = some k then a.name v else none) =
      ((List.finRange maxClients).filter fun v => a.room v = some k).map
        fun d => (s.session d).nickname := by
    rw [inOrder, ← List.filterMap_eq_map, List.filterMap_filter]
    apply List.filterMap_congr
    intro v _
    by_cases hv : a.room v = some k
    · simp only [hv, decide_true, if_true, Function.comp_apply]
      exact h.name_of_active (h.active_of_room hv)
    · simp [hv]
  rw [hnames]
  apply List.Perm.map
  rw [List.perm_ext_iff_of_nodup (nodup_roomTargets h.rooms.table.table k (-1))
    ((List.nodup_finRange _).filter _)]
  intro d
  rw [h.mem_roomTargets_iff, List.mem_filter]
  simp only [List.mem_finRange, true_and, decide_eq_true_eq]
  exact and_iff_right (by omega)

theorem wording_users {k : CString} {d : Slot} (hd : a.room d = some k) :
    Wording (.users (a.title k) fun v => if a.room v = some k then a.name v else none)
      (roomManagerGetRoomUsers s k bufferSize) := by
  obtain ⟨r, hr, hactive, hid⟩ := h.rooms.find hd
  have hshort : ∀ d, (s.session d).active = true → (s.session d).nickname.length ≤ 31 :=
    fun d _ => Nat.le_of_lt_succ (hs.names d)
  have htargets : roomTargets s k (-1) = (List.finRange maxClientsPerRoom).filterMap
      (broadcastTarget s (s.roomManager.rooms r) (-1)) := by
    unfold roomTargets
    rw [hr]
  refine ⟨_, perm_inOrder h k, ?_⟩
  have htext := (getRoomUsers_eq (hs.shape.room_shape r) hshort hr rfl).1
  rw [usersHeader, userLines_eq, ← htargets, h.rooms.title_of_find hr] at htext
  rw [htext, List.map_map]
  rfl

end Lists

end TcpChat.Server

import TcpChat.Base.Appends
import TcpChat.RoomIdentity
import TcpChat.RoomInvariant

/-!
# The lists of rooms and of users

The reply to `/rooms` is built in a buffer of 2048 bytes that does not hold 50 rooms; the reply
to `/users` always fits the 1024 bytes it is given.
-/

namespace TcpChat.Server

open Base Base.Runs Base.Slots
set_option autoImplicit false

/-- A room as the operations of the table leave it, whatever they are called with. -/
structure RoomShape (room : Room) : Prop where
  roomId_le : room.roomId.length ≤ roomIdLength
  roomName_le : room.roomName.length ≤ maxRoomName - 1
  count_eq : room.clientCount = (occupancy entryUsed room.clientIds : Int)

structure TableShape (manager : RoomManager) : Prop where
  room_shape : ∀ i, RoomShape (manager.rooms i)
  count_ok : CountOk manager

section Shape
variable {room : Room}

theorem occupancy_free : occupancy entryUsed (fun _ : Fin maxClientsPerRoom => -1) = 0 := by
  rw [occupancy_eq_zero_iff]
  intro j
  rfl

theorem RoomShape.opened (room : Room) (roomId roomName : CString) :
    RoomShape (roomInitialize room roomId roomName) := by
  refine ⟨?_, ?_, ?_⟩
  · rw [roomInitialize, CString.length_take]
    exact Nat.min_le_left _ _
  · rw [roomInitialize, CString.length_take]
    exact Nat.min_le_left _ _
  · rw [roomInitialize, occupancy_free]
    rfl

theorem RoomShape.cleanup (room : Room) : RoomShape (roomCleanup room) := by
  refine ⟨Nat.zero_le _, Nat.zero_le _, ?_⟩
  rw [roomCleanup, occupancy_free]
  rfl

/-- An entry is written and the counter follows. -/
theorem RoomShape.update (h : RoomShape room) {j : Fin maxClientsPerRoom} {clientId count : Int}
    (hcount : count + (if entryUsed (room.clientIds j) = true then 1 else 0) =
      room.clientCount + if entryUsed clientId = true then 1 else 0) :
    RoomShape { room with
      clientIds := Function.update room.clientIds j clientId, clientCount := count } := by
  refine ⟨h.roomId_le, h.roomName_le, ?_⟩
  have hoccupancy := occupancy_update entryUsed room.clientIds j clientId
  have hbefore := h.count_eq
  dsimp only
  split_ifs at hcount hoccupancy <;> omega

theorem RoomShape.add (h : RoomShape room) (clientId : Int) :
    RoomShape (roomAddClient room clientId).1 := by
  unfold roomAddClient
  split
  · exact h
  · rename_i hid
    split
    · exact h
    · split
      · exact h
      · split
        · rename_i j hj
          have hfree : room.clientIds j = -1 := by simpa using (Fin.find?_eq_some_iff.mp hj).1
          have hused : entryUsed clientId = true := (entryUsed_iff clientId).mpr (by omega)
          apply h.update
          rw [hfree, if_pos hused, if_neg (by decide), Int.add_zero]
        · exact h

theorem RoomShape.remove (h : RoomShape room) (clientId : Int) :
    RoomShape (roomRemoveClient room clientId).1 := by
  rcases roomRemoveClient_cases room clientId with ⟨hid, j, hj, heq⟩ | ⟨_, heq⟩
  · have hused : entryUsed (room.clientIds j) = true := (entryUsed_iff _).mpr (by omega)
    rw [heq]
    apply h.update
    rw [if_pos hused, if_neg (by decide)]
    omega
  · rw [heq]
    exact h

theorem RoomShape.count_bounds (h : RoomShape room) :
    0 ≤ room.clientCount ∧ room.clientCount ≤ maxClientsPerRoom := by
  have hcount := h.count_eq
  have hle := occupancy_le entryUsed room.clientIds
  omega

end Shape

section Table
variable {manager : RoomManager}

theorem TableShape.initial (memory : RoomManager) :
    TableShape (roomManagerInitialize memory) := by
  refine ⟨fun i => ⟨Nat.zero_le _, Nat.zero_le _, ?_⟩, (TableOk.initial memory).count_eq⟩
  rw [roomManagerInitialize, occupancy_free]
  rfl

theorem TableShape.step (h : TableShape manager) (op : RoomOp) :
    TableShape (op.step manager) := by
  have hset : ∀ (i : Fin maxRooms) (room : Room), RoomShape room →
      ∀ k, RoomShape (Function.update manager.rooms i room k) := by
    intro i room hroom
    exact (Function.forall_update_iff manager.rooms fun _ room => RoomShape room).mpr
      ⟨hroom, fun k _ => h.room_shape k⟩
  cases op with
  | create libc now roomName creatorClientId =>
    rw [RoomOp.step, RoomOp.call]
    rcases roomManagerCreateRoom_cases h.count_ok libc now roomName creatorClientId with
      ⟨_, i, hfree, _, heq⟩ | ⟨_, heq⟩
    · rw [heq]
      refine ⟨hset i _ ((RoomShape.opened _ _ _).add _), h.count_ok.openRoom hfree ?_⟩
      rw [(roomAddClient_frame _ _).2]
      rfl
    · rw [heq]
      exact h
  | join roomId clientId =>
    refine ⟨?_, h.count_ok.join roomId clientId⟩
    rw [RoomOp.step, RoomOp.call]
    cases hfind : roomManagerFindRoom manager roomId with
    | none =>
      rw [roomManagerJoinRoom_of_not_found hfind]
      exact h.room_shape
    | some i =>
      rw [roomManagerJoinRoom_of_found hfind]
      exact hset i _ ((h.room_shape i).add clientId)
  | leave roomId clientId =>
    refine ⟨?_, h.count_ok.leave roomId clientId⟩
    rw [RoomOp.step, RoomOp.call]
    cases hfind : roomManagerFindRoom manager roomId with
    | none =>
      rw [roomManagerLeaveRoom_of_not_found hfind]
      exact h.room_shape
    | some i =>
      rw [roomManagerLeaveRoom_of_found hfind]
      split
      · exact hset i _ (RoomShape.cleanup _)
      · exact hset i _ ((h.room_shape i).remove clientId)

/-- The operations keep the shape, with any arguments. -/
theorem tableShape_run (memory : RoomManager) (ops : List RoomOp) :
    Always RoomOp.step TableShape (roomManagerInitialize memory) ops :=
  always_of_invariant (fun _ op h => h.step op) (TableShape.initial memory) ops

end Table

section Append
variable {size : Nat} {dst src : CString}

/-- What fits is appended whole. -/
theorem strncatWithin_of_fits (hsize : size < 2 ^ 64) (h : dst.length + src.length < size) :
    strncatWithin size dst src = dst ++ src := by
  have hroom : src.length ≤ sizeSub (sizeSub size dst.length) 1 := by
    unfold sizeSub
    omega
  rw [strncatWithin, CString.take_of_length_le hroom]

/-- What does not fit is cut, with a byte left for the terminator. -/
theorem length_strncatWithin (hsize : size < 2 ^ 64) (h : dst.length < size) :
    (strncatWithin size dst src).length = dst.length + min (size - dst.length - 1) src.length := by
  have hroom : sizeSub (sizeSub size dst.length) 1 = size - dst.length - 1 := by
    unfold sizeSub
    omega
  rw [strncatWithin, CString.length_append, CString.length_take, hroom]

end Append

section Rooms
variable {manager : RoomManager} {room : Room}

/-- The line of a room. -/
def roomLine (room : Room) : CString :=
  "ID: " ++ room.roomId ++ " | Name: " ++ room.roomName ++ " | Users: " ++
    CString.ofInt room.clientCount ++ "\n"

/-- The lines of the active rooms, in the order of their slots. -/
def roomLines (manager : RoomManager) : List CString :=
  ((List.finRange maxRooms).filter fun i => (manager.rooms i).isActive).map fun i =>
    roomLine (manager.rooms i)

/-- The reply that leaves nothing out. -/
def fullRoomList (manager : RoomManager) : CString :=
  "=== Active Rooms ===\n" ++
    (if roomLines manager = [] then ("No active rooms\n" : CString)
      else CString.concat (roomLines manager)) ++
    "==================\n"

/-- The reply to `/rooms` lists every room. -/
structure ListsEveryRoom (manager : RoomManager) : Prop where
  listed : roomManagerListRooms manager (bufferSize * 2) = fullRoomList manager
  replied : ∀ env s c, s.roomManager = manager →
    chatProtocolHandleListRooms env s c =
      (s.emit [.send (s.session c).socketFd (.text (fullRoomList manager))
        (!env.sendFails 0 c)], 0)

/-- The lines of all rooms but the last leave the text below the limit of the loop, and all of
them leave room for the closing line. -/
def LinesFit (manager : RoomManager) : Prop :=
  (roomLines manager = [] ∨ 21 + (CString.concat (roomLines manager).dropLast).length < 1948) ∧
    21 + (CString.concat (roomLines manager)).length ≤ 2028

instance (manager : RoomManager) : Decidable (LinesFit manager) :=
  inferInstanceAs (Decidable ((_ ∨ _) ∧ _))

theorem length_roomLine (h : RoomShape room) :
    0 < (roomLine room).length ∧ (roomLine room).length ≤ 95 := by
  have hid : room.roomId.length ≤ 6 := h.roomId_le
  have hname : room.roomName.length ≤ 63 := h.roomName_le
  have htwo : ∀ n : Fin 21, (CString.ofInt n).length ≤ 2 := by decide +kernel
  have hcount : (CString.ofInt room.clientCount).length ≤ 2 := by
    obtain ⟨hlow, hhigh⟩ := h.count_bounds
    obtain ⟨n, hn⟩ := Int.eq_ofNat_of_zero_le hlow
    have hsmall : n < 21 := by
      rw [hn] at hhigh
      exact Nat.lt_succ_of_le (Int.ofNat_le.mp hhigh)
    rw [hn]
    exact htwo ⟨n, hsmall⟩
  have hopen : (CString.ofString "ID: ").length = 4 := by decide
  have hmid : (CString.ofString " | Name: ").length = 9 := by decide
  have husers : (CString.ofString " | Users: ").length = 10 := by decide
  have hend : (CString.ofString "\n").length = 1 := by decide
  rw [roomLine, CString.length_append, CString.length_append, CString.length_append,
    CString.length_append, CString.length_append, CString.length_append, hopen, hmid, husers, hend]
  omega

theorem roomInfo_eq (h : RoomShape room) : roomInfo room = roomLine room :=
  CString.take_of_length_le (Nat.le_trans (length_roomLine h).2 (by decide))

/-- The loop appends line after line until the text has 1948 bytes. -/
theorem listRoomsLoop_eq (h : TableShape manager) (slots : List (Fin maxRooms))
    (buffer : CString) :
    listRoomsLoop manager 2048 slots buffer = CString.appendWhile 1948
      ((slots.filter fun i => (manager.rooms i).isActive).map fun i => roomLine (manager.rooms i))
      buffer := by
  induction slots generalizing buffer with
  | nil => rfl
  | cons i slots ih =>
    have hlimit : sizeSub 2048 100 = 1948 := by decide
    rw [listRoomsLoop, hlimit]
    by_cases hroom : buffer.length < 1948
    · rw [if_pos hroom]
      dsimp only
      cases hactive : (manager.rooms i).isActive with
      | true =>
        have hline := length_roomLine (h.room_shape i)
        rw [if_pos rfl, roomInfo_eq (h.room_shape i),
          strncatWithin_of_fits (by decide) (by omega), ih,
          List.filter_cons_of_pos (p := fun i => (manager.rooms i).isActive) hactive, List.map_cons,
          CString.appendWhile, if_pos hroom]
      | false =>
        rw [if_neg Bool.false_ne_true, ih,
          List.filter_cons_of_neg (p := fun i => (manager.rooms i).isActive) (by simp [hactive])]
    · rw [if_neg hroom, CString.appendWhile_of_le (Nat.not_lt.mp hroom)]

theorem roomLines_eq_nil_iff (h : TableShape manager) :
    roomLines manager = [] ↔ manager.roomCount = 0 := by
  have hcount : manager.roomCount = (occupancy Room.isActive manager.rooms : Int) := h.count_ok
  rw [hcount, roomLines, List.map_eq_nil_iff, List.filter_eq_nil_iff]
  have hzero : occupancy Room.isActive manager.rooms = 0 ↔
      ∀ i, (manager.rooms i).isActive = false := occupancy_eq_zero_iff manager.rooms
  constructor
  · intro hnone
    have hfree : ∀ i, (manager.rooms i).isActive = false := by
      intro i
      simpa using hnone i (List.mem_finRange i)
    rw [hzero.mpr hfree]
    rfl
  · intro hnone i _
    rw [hzero.mp (Int.ofNat_eq_zero.mp hnone) i]
    exact Bool.false_ne_true

theorem listRooms_eq (h : TableShape manager) :
    roomManagerListRooms manager (bufferSize * 2) = strncatWithin 2048
      (if roomLines manager = [] then "=== Active Rooms ===\n" ++ "No active rooms\n"
        else CString.appendWhile 1948 (roomLines manager) "=== Active Rooms ===\n")
      "==================\n" := by
  have hheader : ("=== Active Rooms ===\n" : CString).take (2048 - 1) = "=== Active Rooms ===\n" :=
    CString.take_of_length_le (by decide)
  have hsize : bufferSize * 2 = 2048 := rfl
  unfold roomManagerListRooms
  dsimp only
  rw [hsize, hheader]
  by_cases hnone : roomLines manager = []
  · have hbody : strncatWithin 2048 "=== Active Rooms ===\n" "No active rooms\n" =
        "=== Active Rooms ===\n" ++ "No active rooms\n" :=
      strncatWithin_of_fits (by decide) (by decide)
    rw [if_pos hnone, if_pos ((roomLines_eq_nil_iff h).mp hnone), hbody]
  · rw [if_neg hnone, if_neg (fun hzero => hnone ((roomLines_eq_nil_iff h).mpr hzero)),
      listRoomsLoop_eq h]
    rfl

theorem length_roomLines (h : TableShape manager) :
    ∀ line ∈ roomLines manager, 0 < line.length ∧ line.length ≤ 95 := by
  intro line hline
  obtain ⟨i, _, rfl⟩ := List.mem_map.mp hline
  exact length_roomLine (h.room_shape i)

/-- The reply is complete exactly when the lines fit. -/
theorem listed_iff (h : TableShape manager) :
    roomManagerListRooms manager (bufferSize * 2) = fullRoomList manager ↔ LinesFit manager := by
  have hheader : (CString.ofString "=== Active Rooms ===\n").length = 21 := by decide
  have hclosing : (CString.ofString "==================\n").length = 19 := by decide
  rw [listRooms_eq h, fullRoomList, LinesFit]
  by_cases hnone : roomLines manager = []
  · rw [if_pos hnone, if_pos hnone, hnone]
    refine iff_of_true (strncatWithin_of_fits (by decide) (by decide)) ⟨Or.inl rfl, by decide⟩
  rw [if_neg hnone, if_neg hnone]
  have hlines := length_roomLines h
  have hpos : ∀ line ∈ roomLines manager, 0 < line.length := fun line hline => (hlines line hline).1
  have hwhole := @CString.appendWhile_eq_iff 1948 _ (CString.ofString "=== Active Rooms ===\n") hpos
  rw [hheader] at hwhole
  constructor
  · intro heq
    -- no text is longer than it should be, so both parts of this one have their full length
    have hlength := congrArg CString.length heq
    have hbuffer := @CString.length_appendWhile_le 1948 95 _
      (CString.ofString "=== Active Rooms ===\n") (fun line hline => (hlines line hline).2)
      (by rw [hheader]; decide)
    have htotal := CString.length_appendWhile_le_total 1948 (roomLines manager)
      "=== Active Rooms ===\n"
    rw [length_strncatWithin (by decide) (by omega), CString.length_append, CString.length_append,
      hclosing, hheader] at hlength
    rw [hheader] at htotal
    have hfull := @CString.appendWhile_eq_of_length 1948 _
      (CString.ofString "=== Active Rooms ===\n") hpos (by rw [hheader]; omega)
    exact ⟨hwhole.mp hfull, by omega⟩
  · intro hfit
    rw [hwhole.mpr hfit.1, strncatWithin_of_fits (by decide)]
    rw [CString.length_append, hclosing, hheader]
    omega

theorem listsEveryRoom_iff (h : TableShape manager) :
    ListsEveryRoom manager ↔ LinesFit manager := by
  rw [← listed_iff h]
  constructor
  · exact fun hlists => hlists.listed
  · intro hlisted
    refine ⟨hlisted, fun env s c hs => ?_⟩
    rw [chatProtocolHandleListRooms, hs, hlisted]
    rfl

end Rooms

/-- In every state of the room table the reply to `/rooms` is complete exactly when the lines of
the rooms fit. -/
theorem roomList_complete_iff (memory : RoomManager) (ops : List RoomOp) :
    Always RoomOp.step (fun manager => ListsEveryRoom manager ↔ LinesFit manager)
      (roomManagerInitialize memory) ops :=
  (tableShape_run memory ops).imp fun _ h => listsEveryRoom_iff h

section Users
variable {s : State}

/-- The session behind an entry of a room, if it is active. -/
def entrySession (s : State) (clientId : Int) : Option ClientSession :=
  ((clientManagerGetSession clientId).map s.session).filter fun session => session.active

/-- The line of a member. -/
def userLine (session : ClientSession) : CString := "- " ++ session.nickname ++ "\n"

/-- One line for each entry whose session is active, in the order of the entries. -/
def userLines (s : State) (room : Room) : List CString :=
  (List.finRange maxClientsPerRoom).filterMap fun j =>
    (entrySession s (room.clientIds j)).map userLine

def usersHeader (room : Room) : CString := "=== Users in Room " ++ room.roomName ++ " ===\n"

/-- The text in the buffer after `k` of the members have been appended. -/
def usersBuffer (s : State) (room : Room) (size k : Nat) : CString :=
  (((List.finRange maxClientsPerRoom).filterMap (broadcastTarget s room (-1))).take k).foldl
    (fun buffer c => strncatWithin size buffer (userInfo (s.session c)))
    ((usersHeader room).take (size - 1))

/-- The text for a room is complete and terminated, and whenever something is appended the size
that is left is a number. -/
structure ListsEveryUser (s : State) (roomId : CString) : Prop where
  complete : ∃ r, roomManagerFindRoom s.roomManager roomId = some r ∧
    roomManagerGetRoomUsers s roomId bufferSize =
      usersHeader (s.roomManager.rooms r) ++
        CString.concat (userLines s (s.roomManager.rooms r)) ++ "======================\n" ∧
    ∀ k, (usersBuffer s (s.roomManager.rooms r) bufferSize k).length + 1 ≤ bufferSize
  terminated : (roomManagerGetRoomUsers s roomId bufferSize).length < bufferSize

theorem entrySession_eq (s : State) (room : Room) (j : Fin maxClientsPerRoom) :
    entrySession s (room.clientIds j) = (broadcastTarget s room (-1) j).map s.session := by
  rw [entrySession, broadcastTarget, Option.filter_map]
  by_cases hfree : room.clientIds j = -1
  · rw [hfree]
    rfl
  · rw [if_pos ⟨hfree, hfree⟩]
    rfl

theorem userLines_eq (s : State) (room : Room) :
    userLines s room = ((List.finRange maxClientsPerRoom).filterMap
      (broadcastTarget s room (-1))).map fun c => userLine (s.session c) := by
  rw [userLines, List.map_filterMap]
  congr 1
  funext j
  rw [entrySession_eq, Option.map_map]
  rfl

theorem length_userLines_le (s : State) (room : Room) :
    (userLines s room).length ≤ maxClientsPerRoom := by
  have h := List.length_filterMap_le
    (fun j => (entrySession s (room.clientIds j)).map userLine) (List.finRange maxClientsPerRoom)
  rwa [List.length_finRange] at h

theorem length_userLine {session : ClientSession} (h : session.nickname.length ≤ 31) :
    (userLine session).length ≤ 34 := by
  have hopen : (CString.ofString "- ").length = 2 := by decide
  have hend : (CString.ofString "\n").length = 1 := by decide
  rw [userLine, CString.length_append, CString.length_append, hopen, hend]
  omega

theorem length_usersHeader {room : Room} (h : RoomShape room) :
    (usersHeader room).length ≤ 86 := by
  have hname : room.roomName.length ≤ 63 := h.roomName_le
  have hopen : (CString.ofString "=== Users in Room ").length = 18 := by decide
  have hend : (CString.ofString " ===\n").length = 5 := by decide
  rw [usersHeader, CString.length_append, CString.length_append, hopen, hend]
  omega

/-- A loop of bounded appends that all fit. -/
theorem foldl_strncatWithin {α : Type} {size bound : Nat} (hsize : size < 2 ^ 64)
    (line : α → CString) (items : List α) (hline : ∀ x ∈ items, (line x).length ≤ bound)
    (buffer : CString) (h : buffer.length + items.length * bound < size) :
    items.foldl (fun buffer x => strncatWithin size buffer (line x)) buffer =
      buffer ++ CString.concat (items.map line) ∧
    (buffer ++ CString.concat (items.map line)).length ≤
      buffer.length + items.length * bound := by
  induction items generalizing buffer with
  | nil =>
    rw [List.foldl_nil, List.map_nil, CString.concat_nil, CString.append_empty]
    exact ⟨rfl, Nat.le_add_right _ _⟩
  | cons x items ih =>
    have hx := hline x List.mem_cons_self
    rw [List.length_cons, Nat.succ_mul] at h
    have hnext : (buffer ++ line x).length ≤ buffer.length + bound := by
      rw [CString.length_append]
      omega
    obtain ⟨hfold, hlength⟩ := ih (fun y hy => hline y (List.mem_cons_of_mem x hy))
      (buffer ++ line x) (by omega)
    rw [List.foldl_cons, strncatWithin_of_fits hsize (by omega), hfold, List.map_cons,
      CString.concat_cons, ← CString.append_assoc, List.length_cons, Nat.succ_mul]
    exact ⟨rfl, by omega⟩

section Fits
variable {room : Room} (hroom : RoomShape room)
  (hnicknames : ∀ d, (s.session d).active = true → (s.session d).nickname.length ≤ 31)
include hroom hnicknames

omit hroom in
/-- Who is shown is active, and his line is not cut. -/
theorem userInfo_eq {j : Fin maxClientsPerRoom} {c : Slot}
    (hc : broadcastTarget s room (-1) j = some c) :
    userInfo (s.session c) = userLine (s.session c) ∧ (userLine (s.session c)).length ≤ 34 := by
  have hactive : (s.session c).active = true := by
    unfold broadcastTarget at hc
    dsimp only at hc
    split at hc
    · exact (Option.filter_eq_some_iff.mp hc).2
    · cases hc
  have hlength := length_userLine (hnicknames c hactive)
  exact ⟨CString.take_of_length_le (Nat.le_trans hlength (by decide)), hlength⟩

/-- The buffer after some of the members holds the header and their lines. -/
theorem usersBuffer_eq (k : Nat) :
    usersBuffer s room bufferSize k =
        usersHeader room ++ CString.concat ((userLines s room).take k) ∧
      (usersBuffer s room bufferSize k).length ≤ 766 := by
  have hheader := length_usersHeader hroom
  have hwhole : (usersHeader room).take (bufferSize - 1) = usersHeader room :=
    CString.take_of_length_le (Nat.le_trans hheader (by decide))
  have hmembers : ((List.finRange maxClientsPerRoom).filterMap
      (broadcastTarget s room (-1))).length ≤ 20 := by
    rw [← List.length_map (f := fun c => userLine (s.session c)), ← userLines_eq]
    exact length_userLines_le s room
  have hline : ∀ c ∈ (List.finRange maxClientsPerRoom).filterMap (broadcastTarget s room (-1)),
      userInfo (s.session c) = userLine (s.session c) ∧
        (userLine (s.session c)).length ≤ 34 := by
    intro c hc
    obtain ⟨j, _, hj⟩ := List.mem_filterMap.mp hc
    exact userInfo_eq hnicknames hj
  rw [userLines_eq, ← List.map_take, usersBuffer, hwhole]
  generalize (List.finRange maxClientsPerRoom).filterMap (broadcastTarget s room (-1)) =
    members at hmembers hline
  have htaken : (members.take k).length ≤ 20 :=
    Nat.le_trans (List.length_take_le' k members) hmembers
  have hsame : (members.take k).map (fun c => userInfo (s.session c)) =
      (members.take k).map fun c => userLine (s.session c) := by
    apply List.map_congr_left
    intro c hc
    exact (hline c (List.mem_of_mem_take hc)).1
  obtain ⟨hfold, hlength⟩ := @foldl_strncatWithin _ bufferSize 34 (by decide)
    (fun c => userInfo (s.session c)) (members.take k) (by
      intro c hc
      obtain ⟨heq, hle⟩ := hline c (List.mem_of_mem_take hc)
      rw [heq]
      exact hle) (usersHeader room) (by rw [bufferSize]; omega)
  rw [hfold, ← hsame]
  exact ⟨rfl, by omega⟩

/-- The text is the header, the lines and the closing line. -/
theorem getRoomUsers_eq {roomId : CString} {r : Fin maxRooms}
    (hfind : roomManagerFindRoom s.roomManager roomId = some r)
    (hr : s.roomManager.rooms r = room) :
    roomManagerGetRoomUsers s roomId bufferSize =
        usersHeader room ++ CString.concat (userLines s room) ++ "======================\n" ∧
      (roomManagerGetRoomUsers s roomId bufferSize).length < bufferSize := by
  have hclosing : (CString.ofString "======================\n").length = 23 := by decide
  have htext : roomManagerGetRoomUsers s roomId bufferSize =
      strncatWithin bufferSize (usersBuffer s room bufferSize (userLines s room).length)
        "======================\n" := by
    unfold roomManagerGetRoomUsers usersBuffer
    simp only [hfind, hr]
    rw [userLines_eq, List.length_map, List.take_length]
    rfl
  obtain ⟨hbuffer, hlength⟩ := usersBuffer_eq hroom hnicknames (userLines s room).length
  rw [List.take_length] at hbuffer
  have hsize : bufferSize = 1024 := rfl
  rw [htext, strncatWithin_of_fits (by decide) (by omega), CString.length_append, hclosing]
  exact ⟨by rw [hbuffer], by omega⟩

end Fits

/-- In every state of the room table, with any sessions whose nicknames fit, the list of users
is complete for the id of every active room. -/
theorem userList_complete_in_room (memory : RoomManager) (ops : List RoomOp) :
    Always RoomOp.step (fun manager => ∀ s : State, s.roomManager = manager →
      (∀ d, (s.session d).active = true → (s.session d).nickname.length ≤ 31) →
      ∀ i, (manager.rooms i).isActive = true → ListsEveryUser s (manager.rooms i).roomId)
      (roomManagerInitialize memory) ops := by
  refine (tableShape_run memory ops).imp ?_
  intro manager h s hs hnicknames i hactive
  subst hs
  cases hfind : roomManagerFindRoom s.roomManager (s.roomManager.rooms i).roomId with
  | none =>
    exact absurd ⟨hactive, rfl⟩ ((roomManagerFindRoom_eq_none_iff _ _).mp hfind i)
  | some r =>
    obtain ⟨htext, hterminated⟩ := getRoomUsers_eq (h.room_shape r) hnicknames hfind rfl
    refine ⟨⟨r, hfind, htext, fun k => ?_⟩, hterminated⟩
    have hlength := (usersBuffer_eq (h.room_shape r) hnicknames k).2
    have hsize : bufferSize = 1024 := rfl
    omega

/-- A room with two members. -/
def twoMembers : RoomManager :=
  run RoomOp.step (roomManagerInitialize zeroedMemory.roomManager)
    [.create countingLibc 0 "den" 0, .join "CDEFGH" 1]

/-- Two clients, in slots `c` and `d`, and their room. -/
def denOfTwo (c d : Slot) : State :=
  (run (Op.step countingLibc) (start zeroedMemory)
    [.connect 5 true, .enterLobby c, .connect 6 true, .enterLobby d]).setRooms twoMembers

theorem two_members_listed :
    (twoMembers.rooms 0).isActive = true ∧
      (∀ d, ((denOfTwo 0 1).session d).active = true →
        ((denOfTwo 0 1).session d).nickname.length ≤ 31) ∧
      ListsEveryUser (denOfTwo 0 1) (twoMembers.rooms 0).roomId := by
  have hactive : (twoMembers.rooms 0).isActive = true := by decide +kernel
  have hnicknames : ∀ d, ((denOfTwo 0 1).session d).active = true →
      ((denOfTwo 0 1).session d).nickname.length ≤ 31 := by decide +kernel
  have hrooms : (denOfTwo 0 1).roomManager = twoMembers := State.roomManager_setRooms _ _
  have hlists := (userList_complete_in_room zeroedMemory.roomManager
    [.create countingLibc 0 "den" 0, .join "CDEFGH" 1]).last
  rw [← twoMembers] at hlists
  exact ⟨hactive, hnicknames, hlists (denOfTwo 0 1) hrooms hnicknames 0 hactive⟩

end Users

section Overflow

/-- A name that is as long as names can be. -/
def longName : CString := "the_room_of_the_friends_of_long_names_that_are_as_long_as_can_be"

/-- The 22nd room is missing. -/
theorem long_names_missing :
    ¬ ∀ (memory : RoomManager) (ops : List RoomOp),
      Always RoomOp.step ListsEveryRoom (roomManagerInitialize memory) ops := by
  intro h
  have hlists := (h zeroedMemory.roomManager
    (List.replicate 22 (.create repeatingLibc 0 longName 3))).last
  have hshape := (tableShape_run zeroedMemory.roomManager
    (List.replicate 22 (.create repeatingLibc 0 longName 3))).last
  exact absurd ((listsEveryRoom_iff hshape).mp hlists).2 (by decide +kernel)

end Overflow

end TcpChat.Server

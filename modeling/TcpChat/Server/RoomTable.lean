import TcpChat.Base.Slots
import TcpChat.Server.RoomManager

/-!
# The room table and its invariant

A room caches the number of its members, the manager the number of active rooms. `TableOk`
says that both counters are right and that an active room is never empty. Every operation is
described once, by the cases its outcome can be, and all else is derived from these cases.
-/

namespace TcpChat.Server

open Base
open Base.Slots
set_option autoImplicit false

/-- `clientId` stands in an entry of the room. -/
def Lists (room : Room) (clientId : Int) : Prop := ∃ j, room.clientIds j = clientId

instance (room : Room) (clientId : Int) : Decidable (Lists room clientId) :=
  inferInstanceAs (Decidable (∃ j, room.clientIds j = clientId))

/-- An entry other than -1 is taken. -/
def entryUsed (clientId : Int) : Bool := clientId != -1

structure RoomOk (room : Room) : Prop where
  count_eq : room.clientCount = (occupancy entryUsed room.clientIds : Int)
  entry_nonneg : ∀ j, room.clientIds j = -1 ∨ 0 ≤ room.clientIds j
  entries_distinct : ∀ j k, room.clientIds j = room.clientIds k → room.clientIds j ≠ -1 → j = k
  occupied_iff : room.isActive = true ↔ 0 < room.clientCount

structure TableOk (manager : RoomManager) : Prop where
  room_ok : ∀ i, RoomOk (manager.rooms i)
  count_eq : manager.roomCount = (occupancy Room.isActive manager.rooms : Int)

/-- `clientId` is a member of the active room in slot `i`. -/
def Member (manager : RoomManager) (i : Fin maxRooms) (clientId : Int) : Prop :=
  (manager.rooms i).isActive = true ∧ Lists (manager.rooms i) clientId

instance (manager : RoomManager) (i : Fin maxRooms) (clientId : Int) :
    Decidable (Member manager i clientId) :=
  inferInstanceAs (Decidable (_ ∧ _))

theorem roomHasClient_iff {room : Room} {clientId : Int} (h : 0 ≤ clientId) :
    roomHasClient room clientId = true ↔ Lists room clientId := by
  rw [roomHasClient, if_neg (by omega), Fin.isSome_find?_iff]
  simp only [beq_iff_eq, Lists]

theorem RoomOk.free_entry {room : Room} (ok : RoomOk room)
    (h : room.clientCount < maxClientsPerRoom) : ∃ j, room.clientIds j = -1 := by
  rw [ok.count_eq] at h
  obtain ⟨j, hj⟩ := exists_free_of_occupancy_lt (Int.ofNat_lt.mp h)
  exact ⟨j, by simpa [entryUsed] using hj⟩

theorem RoomOk.not_lists_of_inactive {room : Room} (ok : RoomOk room)
    (h : room.isActive = false) {clientId : Int} (hid : 0 ≤ clientId) :
    ¬ Lists room clientId := by
  intro hall
  obtain ⟨j, hj⟩ := hall
  have hnone : ¬ 0 < room.clientCount := fun hpos => by simp [ok.occupied_iff.mpr hpos] at h
  have hpos : 0 < occupancy entryUsed room.clientIds :=
    (occupancy_pos_iff _).mpr ⟨j, by simp [entryUsed]; omega⟩
  rw [ok.count_eq] at hnone
  omega

/-- The room with `clientId` written to the free entry `j`. -/
def Room.insert (room : Room) (j : Fin maxClientsPerRoom) (clientId : Int) : Room :=
  { room with
    clientIds := Function.update room.clientIds j clientId
    clientCount := room.clientCount + 1 }

/-- The room with entry `j` freed. -/
def Room.erase (room : Room) (j : Fin maxClientsPerRoom) : Room :=
  { room with
    clientIds := Function.update room.clientIds j (-1)
    clientCount := room.clientCount - 1 }

/-- Adding takes a free entry, or refuses and changes nothing. The trailing failure of the
loop is never reached. -/
theorem roomAddClient_cases {room : Room} (ok : RoomOk room) (clientId : Int) :
    (0 ≤ clientId ∧ ¬ Lists room clientId ∧ room.clientCount < maxClientsPerRoom ∧
      ∃ j, room.clientIds j = -1 ∧ roomAddClient room clientId = (room.insert j clientId, 0)) ∨
    ((clientId < 0 ∨ Lists room clientId ∨ maxClientsPerRoom ≤ room.clientCount) ∧
      roomAddClient room clientId = (room, -1)) := by
  unfold roomAddClient
  by_cases hneg : clientId < 0
  · exact Or.inr ⟨Or.inl hneg, if_pos hneg⟩
  rw [if_neg hneg]
  by_cases hhas : Lists room clientId
  · exact Or.inr ⟨Or.inr (Or.inl hhas), if_pos ((roomHasClient_iff (by omega)).mpr hhas)⟩
  rw [if_neg (fun h => hhas ((roomHasClient_iff (by omega)).mp h))]
  by_cases hfull : room.clientCount ≥ maxClientsPerRoom
  · exact Or.inr ⟨Or.inr (Or.inr hfull), if_pos hfull⟩
  rw [if_neg hfull]
  refine Or.inl ⟨by omega, hhas, by omega, ?_⟩
  split
  · rename_i j hj
    have hfree := (Fin.find?_eq_some_iff.mp hj).1
    exact ⟨j, by simpa using hfree, rfl⟩
  · rename_i hnone
    obtain ⟨j, hj⟩ := ok.free_entry (by omega)
    have hnot := Fin.find?_eq_none_iff.mp hnone j
    simp [hj] at hnot

/-- Removing frees an entry of the client, or finds none and changes nothing. -/
theorem roomRemoveClient_cases (room : Room) (clientId : Int) :
    (0 ≤ clientId ∧ ∃ j, room.clientIds j = clientId ∧
      roomRemoveClient room clientId = (room.erase j, 0)) ∨
    ((clientId < 0 ∨ ¬ Lists room clientId) ∧
      roomRemoveClient room clientId = (room, -1)) := by
  unfold roomRemoveClient
  by_cases hneg : clientId < 0
  · exact Or.inr ⟨Or.inl hneg, if_pos hneg⟩
  rw [if_neg hneg]
  split
  · rename_i j hj
    have hfound := (Fin.find?_eq_some_iff.mp hj).1
    exact Or.inl ⟨by omega, j, by simpa using hfound, rfl⟩
  · rename_i hnone
    refine Or.inr ⟨Or.inr ?_, rfl⟩
    intro h
    obtain ⟨j, hj⟩ := h
    have hnot := Fin.find?_eq_none_iff.mp hnone j
    simp [hj] at hnot

theorem roomAddClient_frame (room : Room) (clientId : Int) :
    (roomAddClient room clientId).1.roomId = room.roomId ∧
      (roomAddClient room clientId).1.isActive = room.isActive := by
  unfold roomAddClient
  split_ifs <;> first | exact ⟨rfl, rfl⟩ | (split <;> exact ⟨rfl, rfl⟩)

theorem roomRemoveClient_frame (room : Room) (clientId : Int) :
    (roomRemoveClient room clientId).1.roomId = room.roomId ∧
      (roomRemoveClient room clientId).1.isActive = room.isActive := by
  rcases roomRemoveClient_cases room clientId with ⟨_, j, _, heq⟩ | ⟨_, heq⟩
  · rw [heq]
    exact ⟨rfl, rfl⟩
  · rw [heq]
    exact ⟨rfl, rfl⟩

theorem RoomOk.insert {room : Room} (ok : RoomOk room) (hactive : room.isActive = true)
    {j : Fin maxClientsPerRoom} {clientId : Int} (hfree : room.clientIds j = -1)
    (hid : 0 ≤ clientId) (hnew : ¬ Lists room clientId) : RoomOk (room.insert j clientId) := by
  have hcount := occupancy_update entryUsed room.clientIds j clientId
  have hused : entryUsed clientId = true := by
    simp only [entryUsed, bne_iff_ne]
    omega
  rw [hfree, if_neg (by decide), if_pos hused] at hcount
  have hpos := ok.occupied_iff.mp hactive
  constructor
  · simp only [Room.insert]
    rw [ok.count_eq]
    omega
  · intro k
    by_cases hk : k = j
    · subst hk
      exact Or.inr (by simpa [Room.insert] using hid)
    · simpa [Room.insert, Function.update_of_ne hk] using ok.entry_nonneg k
  · intro k l
    simp only [Room.insert, Function.update_apply]
    split <;> split
    · rename_i hk hl
      exact fun _ _ => hk.trans hl.symm
    · exact fun heq _ => absurd ⟨l, heq.symm⟩ hnew
    · exact fun heq _ => absurd ⟨k, heq⟩ hnew
    · exact ok.entries_distinct k l
  · simp only [Room.insert, hactive, true_iff]
    omega

/-- Freeing an entry keeps everything but the tie between activity and a positive count: the
caller closes the room when the count reaches zero. -/
theorem RoomOk.erase {room : Room} (ok : RoomOk room) {j : Fin maxClientsPerRoom}
    (hused : room.clientIds j ≠ -1) (hmore : room.clientCount ≠ 1) : RoomOk (room.erase j) := by
  have hcount := occupancy_update entryUsed room.clientIds j (-1)
  have hin : entryUsed (room.clientIds j) = true := by simpa [entryUsed] using hused
  rw [if_pos hin, if_neg (by decide)] at hcount
  constructor
  · simp only [Room.erase]
    rw [ok.count_eq]
    omega
  · intro k
    by_cases hk : k = j
    · subst hk
      exact Or.inl (by simp [Room.erase])
    · simpa [Room.erase, Function.update_of_ne hk] using ok.entry_nonneg k
  · intro k l
    simp only [Room.erase, Function.update_apply]
    split
    · exact fun _ hne => absurd rfl hne
    · split
      · exact fun heq hne => absurd heq hne
      · exact ok.entries_distinct k l
  · have hiff := ok.occupied_iff
    simp only [Room.erase, hiff]
    omega

theorem RoomOk.lists_insert_iff {room : Room} {j : Fin maxClientsPerRoom} {clientId d : Int}
    (hfree : room.clientIds j = -1) (hd : 0 ≤ d) :
    Lists (room.insert j clientId) d ↔ d = clientId ∨ Lists room d := by
  simp only [Lists, Room.insert]
  constructor
  · intro h
    obtain ⟨k, hk⟩ := h
    by_cases hkj : k = j
    · subst hkj
      exact Or.inl (by simpa using hk.symm)
    · exact Or.inr ⟨k, by simpa [Function.update_of_ne hkj] using hk⟩
  · intro h
    rcases h with rfl | ⟨k, hk⟩
    · exact ⟨j, by simp⟩
    · have hkj : k ≠ j := by
        intro heq
        subst heq
        omega
      exact ⟨k, by simpa [Function.update_of_ne hkj] using hk⟩

theorem RoomOk.lists_erase_iff {room : Room} (ok : RoomOk room) {j : Fin maxClientsPerRoom}
    {d : Int} (hd : 0 ≤ d) :
    Lists (room.erase j) d ↔ d ≠ room.clientIds j ∧ Lists room d := by
  simp only [Lists, Room.erase]
  constructor
  · intro h
    obtain ⟨k, hk⟩ := h
    have hkj : k ≠ j := by
      intro hsame
      subst hsame
      simp at hk
      omega
    rw [Function.update_of_ne hkj] at hk
    refine ⟨?_, k, hk⟩
    intro heq
    exact hkj (ok.entries_distinct k j (hk.trans heq) (by omega))
  · intro h
    obtain ⟨hne, k, hk⟩ := h
    have hkj : k ≠ j := by
      intro hsame
      subst hsame
      exact hne hk.symm
    exact ⟨k, by rw [Function.update_of_ne hkj]; exact hk⟩

theorem roomManagerFindRoom_eq_some_iff (manager : RoomManager) (roomId : CString)
    (i : Fin maxRooms) :
    roomManagerFindRoom manager roomId = some i ↔
      ((manager.rooms i).isActive = true ∧ (manager.rooms i).roomId = roomId) ∧
        ∀ j < i, ¬ ((manager.rooms j).isActive = true ∧ (manager.rooms j).roomId = roomId) := by
  rw [roomManagerFindRoom, Fin.find?_eq_some_iff]
  simp only [Bool.and_eq_true, beq_iff_eq, Bool.eq_false_iff, ne_eq]

theorem roomManagerFindRoom_eq_none_iff (manager : RoomManager) (roomId : CString) :
    roomManagerFindRoom manager roomId = none ↔
      ∀ i, ¬ ((manager.rooms i).isActive = true ∧ (manager.rooms i).roomId = roomId) := by
  rw [roomManagerFindRoom, Fin.find?_eq_none_iff]
  simp

theorem found_active {manager : RoomManager} {roomId : CString} {i : Fin maxRooms}
    (h : roomManagerFindRoom manager roomId = some i) : (manager.rooms i).isActive = true :=
  ((roomManagerFindRoom_eq_some_iff manager roomId i).mp h).1.1

theorem found_roomId {manager : RoomManager} {roomId : CString} {i : Fin maxRooms}
    (h : roomManagerFindRoom manager roomId = some i) : (manager.rooms i).roomId = roomId :=
  ((roomManagerFindRoom_eq_some_iff manager roomId i).mp h).1.2

/-- No two active rooms have the same id. -/
def DistinctIds (manager : RoomManager) : Prop :=
  ∀ i j, (manager.rooms i).isActive = true → (manager.rooms j).isActive = true →
    (manager.rooms i).roomId = (manager.rooms j).roomId → i = j

theorem DistinctIds.find {manager : RoomManager} (h : DistinctIds manager) {i : Fin maxRooms}
    (hi : (manager.rooms i).isActive = true) :
    roomManagerFindRoom manager (manager.rooms i).roomId = some i := by
  rw [roomManagerFindRoom_eq_some_iff]
  refine ⟨⟨hi, rfl⟩, ?_⟩
  intro j hj hall
  obtain ⟨hactive, hid⟩ := hall
  exact absurd (h j i hactive hi hid) (Fin.ne_of_lt hj)

def RoomManager.setRoom (manager : RoomManager) (i : Fin maxRooms) (room : Room) : RoomManager :=
  { manager with rooms := Function.update manager.rooms i room }

/-- The table with a room opened in slot `i`, or closed there. -/
def RoomManager.openRoom (manager : RoomManager) (i : Fin maxRooms) (room : Room) :
    RoomManager :=
  { rooms := Function.update manager.rooms i room, roomCount := manager.roomCount + 1 }

def RoomManager.closeRoom (manager : RoomManager) (i : Fin maxRooms) : RoomManager :=
  { rooms := Function.update manager.rooms i (roomCleanup (manager.rooms i))
    roomCount := manager.roomCount - 1 }

/-- A newly created room: its creator is its only member. -/
def newRoom (roomId roomName : CString) (creatorClientId : Int) : Room :=
  { roomId := roomId.take roomIdLength
    roomName := roomName.take (maxRoomName - 1)
    clientIds := Function.update (fun _ => -1) 0 creatorClientId
    clientCount := 1
    isActive := true }

theorem roomAddClient_initial (room : Room) (roomId roomName : CString) {creatorClientId : Int}
    (h : 0 ≤ creatorClientId) :
    (roomAddClient (roomInitialize room roomId roomName) creatorClientId).1 =
      newRoom roomId roomName creatorClientId := by
  have hnot : ¬ roomHasClient (roomInitialize room roomId roomName) creatorClientId = true := by
    rw [roomHasClient_iff h]
    intro hall
    obtain ⟨j, hj⟩ := hall
    simp only [roomInitialize] at hj
    omega
  have hfind : (Fin.find? fun i => (roomInitialize room roomId roomName).clientIds i == -1) =
      some 0 := by
    rw [Fin.find?_eq_some_iff]
    exact ⟨by simp [roomInitialize], fun j hj => absurd hj (Fin.not_lt_zero j)⟩
  have hroom : ¬ (roomInitialize room roomId roomName).clientCount ≥ maxClientsPerRoom := by
    simp [roomInitialize]
  rw [roomAddClient, if_neg (by omega), if_neg hnot, if_neg hroom, hfind]
  rfl

/-- A create fails exactly when the counter says the table is full; the `no available slot`
branch is never reached. -/
theorem roomManagerCreateRoom_cases {manager : RoomManager}
    (hcount : manager.roomCount = (occupancy Room.isActive manager.rooms : Int)) (libc : Libc)
    (now : Int) (roomName : CString) (creatorClientId : Int) :
    (manager.roomCount < maxRooms ∧ ∃ i, (manager.rooms i).isActive = false ∧
      (Fin.find? fun k => !(manager.rooms k).isActive) = some i ∧
      roomManagerCreateRoom libc now manager roomName creatorClientId =
        (manager.openRoom i (roomAddClient (roomInitialize (manager.rooms i)
          (roomGenerateId libc now) roomName) creatorClientId).1,
          some (roomGenerateId libc now))) ∨
    (maxRooms ≤ manager.roomCount ∧
      roomManagerCreateRoom libc now manager roomName creatorClientId = (manager, none)) := by
  unfold roomManagerCreateRoom
  by_cases hfull : manager.roomCount ≥ maxRooms
  · exact Or.inr ⟨hfull, if_pos hfull⟩
  rw [if_neg hfull]
  refine Or.inl ⟨by omega, ?_⟩
  split
  · rename_i hnone
    rw [hcount] at hfull
    have hspace : occupancy Room.isActive manager.rooms < maxRooms := by omega
    obtain ⟨i, hi⟩ := exists_free_of_occupancy_lt hspace
    have hnot := Fin.find?_eq_none_iff.mp hnone i
    simp [hi] at hnot
  · rename_i i hi
    have hfree := (Fin.find?_eq_some_iff.mp hi).1
    exact ⟨i, by simpa using hfree, hi, rfl⟩

theorem roomManagerJoinRoom_of_found {manager : RoomManager} {roomId : CString} {i : Fin maxRooms}
    (h : roomManagerFindRoom manager roomId = some i) (clientId : Int) :
    roomManagerJoinRoom manager roomId clientId =
      (manager.setRoom i (roomAddClient (manager.rooms i) clientId).1,
        (roomAddClient (manager.rooms i) clientId).2) := by
  unfold roomManagerJoinRoom
  rw [h]
  rfl

theorem roomManagerJoinRoom_of_not_found {manager : RoomManager} {roomId : CString}
    (h : roomManagerFindRoom manager roomId = none) (clientId : Int) :
    roomManagerJoinRoom manager roomId clientId = (manager, -1) := by
  unfold roomManagerJoinRoom
  rw [h]

theorem roomManagerLeaveRoom_of_not_found {manager : RoomManager} {roomId : CString}
    (h : roomManagerFindRoom manager roomId = none) (clientId : Int) :
    roomManagerLeaveRoom manager roomId clientId = (manager, -1) := by
  unfold roomManagerLeaveRoom
  rw [h]

theorem roomManagerLeaveRoom_of_found {manager : RoomManager} {roomId : CString}
    {i : Fin maxRooms} (h : roomManagerFindRoom manager roomId = some i) (clientId : Int) :
    roomManagerLeaveRoom manager roomId clientId =
      if (roomRemoveClient (manager.rooms i) clientId).1.clientCount = 0 then
        ({ rooms := Function.update manager.rooms i
             (roomCleanup (roomRemoveClient (manager.rooms i) clientId).1)
           roomCount := manager.roomCount - 1 }, (roomRemoveClient (manager.rooms i) clientId).2)
      else (manager.setRoom i (roomRemoveClient (manager.rooms i) clientId).1,
        (roomRemoveClient (manager.rooms i) clientId).2) := by
  unfold roomManagerLeaveRoom
  rw [h]
  rfl

theorem roomManagerJoinRoom_cases {manager : RoomManager} (ok : TableOk manager)
    (roomId : CString) (clientId : Int) :
    (∃ i, roomManagerFindRoom manager roomId = some i ∧ 0 ≤ clientId ∧
      ¬ Lists (manager.rooms i) clientId ∧ (manager.rooms i).clientCount < maxClientsPerRoom ∧
      ∃ j, (manager.rooms i).clientIds j = -1 ∧
        roomManagerJoinRoom manager roomId clientId =
          (manager.setRoom i ((manager.rooms i).insert j clientId), 0)) ∨
    ((∀ i, roomManagerFindRoom manager roomId = some i → clientId < 0 ∨
        Lists (manager.rooms i) clientId ∨ maxClientsPerRoom ≤ (manager.rooms i).clientCount) ∧
      roomManagerJoinRoom manager roomId clientId = (manager, -1)) := by
  cases hfind : roomManagerFindRoom manager roomId with
  | none =>
    exact Or.inr ⟨fun i hi => absurd hi (by simp), roomManagerJoinRoom_of_not_found hfind _⟩
  | some i =>
    rw [roomManagerJoinRoom_of_found hfind]
    rcases roomAddClient_cases (ok.room_ok i) clientId with
      ⟨hid, hnew, hroom, j, hfree, hadd⟩ | ⟨hwhy, hadd⟩
    · rw [hadd]
      exact Or.inl ⟨i, rfl, hid, hnew, hroom, j, hfree, rfl⟩
    · rw [hadd]
      refine Or.inr ⟨?_, by simp [RoomManager.setRoom]⟩
      intro k hk
      cases hk
      exact hwhy

/-- A join that is refused changes nothing. -/
theorem TableOk.of_join_refused {manager rooms : RoomManager} (ok : TableOk manager)
    {roomId : CString} {clientId result : Int}
    (heq : roomManagerJoinRoom manager roomId clientId = (rooms, result)) (h : result < 0) :
    rooms = manager := by
  rcases roomManagerJoinRoom_cases ok roomId clientId with
    ⟨_, _, _, _, _, _, _, heq'⟩ | ⟨_, heq'⟩
  · cases heq.symm.trans heq'
    omega
  · cases heq.symm.trans heq'
    rfl

/-- Who has joined has got a free entry of the room. -/
theorem TableOk.of_join {manager rooms : RoomManager} (ok : TableOk manager) {roomId : CString}
    {clientId result : Int}
    (heq : roomManagerJoinRoom manager roomId clientId = (rooms, result)) (h : 0 ≤ result) :
    ∃ i j, roomManagerFindRoom manager roomId = some i ∧ (manager.rooms i).clientIds j = -1 ∧
      rooms = manager.setRoom i ((manager.rooms i).insert j clientId) := by
  rcases roomManagerJoinRoom_cases ok roomId clientId with
    ⟨i, hi, _, _, _, j, hfree, heq'⟩ | ⟨_, heq'⟩
  · cases heq.symm.trans heq'
    exact ⟨i, j, hi, hfree, rfl⟩
  · cases heq.symm.trans heq'
    omega

section JoinResult
variable {manager rooms : RoomManager} (ok : TableOk manager) {roomId : CString} {c : Slot}
  {result : Int}
include ok

theorem TableOk.join_granted (heq : roomManagerJoinRoom manager roomId c = (rooms, result))
    (h : 0 ≤ result) :
    ∃ i, roomManagerFindRoom manager roomId = some i ∧ ¬ Lists (manager.rooms i) c ∧
      (manager.rooms i).clientCount < maxClientsPerRoom := by
  rcases roomManagerJoinRoom_cases ok roomId c with
    ⟨i, hi, _, hnew, hroom, _⟩ | ⟨_, heq'⟩
  · exact ⟨i, hi, hnew, hroom⟩
  · cases heq.symm.trans heq'
    omega

theorem TableOk.join_refused (heq : roomManagerJoinRoom manager roomId c = (rooms, result))
    (h : result < 0) :
    ¬ ∃ i, roomManagerFindRoom manager roomId = some i ∧ ¬ Lists (manager.rooms i) c ∧
      (manager.rooms i).clientCount < maxClientsPerRoom := by
  rcases roomManagerJoinRoom_cases ok roomId c with
    ⟨_, _, _, _, _, _, _, heq'⟩ | ⟨hwhy, _⟩
  · cases heq.symm.trans heq'
    omega
  · rintro ⟨i, hi, hnew, hroom⟩
    rcases hwhy i hi with hneg | hlists | hfull
    · omega
    · exact hnew hlists
    · omega

end JoinResult

theorem roomManagerLeaveRoom_cases {manager : RoomManager} (ok : TableOk manager)
    (roomId : CString) (clientId : Int) :
    (∃ i j, roomManagerFindRoom manager roomId = some i ∧ 0 ≤ clientId ∧
      (manager.rooms i).clientIds j = clientId ∧
      ((manager.rooms i).clientCount ≠ 1 ∧ roomManagerLeaveRoom manager roomId clientId =
          (manager.setRoom i ((manager.rooms i).erase j), 0) ∨
        (manager.rooms i).clientCount = 1 ∧ roomManagerLeaveRoom manager roomId clientId =
          (manager.closeRoom i, 0))) ∨
    ((∀ i, roomManagerFindRoom manager roomId = some i →
        clientId < 0 ∨ ¬ Lists (manager.rooms i) clientId) ∧
      roomManagerLeaveRoom manager roomId clientId = (manager, -1)) := by
  cases hfind : roomManagerFindRoom manager roomId with
  | none =>
    exact Or.inr ⟨fun i hi => absurd hi (by simp), roomManagerLeaveRoom_of_not_found hfind _⟩
  | some i =>
    rw [roomManagerLeaveRoom_of_found hfind]
    rcases roomRemoveClient_cases (manager.rooms i) clientId with
      ⟨hid, j, hj, hremove⟩ | ⟨hwhy, hremove⟩
    · rw [hremove]
      refine Or.inl ⟨i, j, rfl, hid, hj, ?_⟩
      by_cases hlast : (manager.rooms i).clientCount = 1
      · rw [if_pos (by simp [Room.erase, hlast])]
        exact Or.inr ⟨hlast, rfl⟩
      · rw [if_neg (by simp only [Room.erase]; omega)]
        exact Or.inl ⟨hlast, rfl⟩
    · rw [hremove]
      have hpos := (ok.room_ok i).occupied_iff.mp (found_active hfind)
      rw [if_neg (by dsimp only; omega)]
      refine Or.inr ⟨?_, by simp [RoomManager.setRoom]⟩
      intro k hk
      cases hk
      exact hwhy

section Views
variable {manager : RoomManager} {i k : Fin maxRooms} {room : Room} {d : Int}

theorem member_setRoom_iff (hactive : room.isActive = (manager.rooms i).isActive) :
    Member (manager.setRoom i room) k d ↔
      (k = i ∧ (manager.rooms i).isActive = true ∧ Lists room d) ∨
        (k ≠ i ∧ Member manager k d) := by
  by_cases hk : k = i
  · subst hk
    simp [Member, RoomManager.setRoom, hactive]
  · simp [Member, RoomManager.setRoom, hk]

theorem member_insert_iff (hactive : (manager.rooms i).isActive = true)
    {j : Fin maxClientsPerRoom} (hfree : (manager.rooms i).clientIds j = -1) {clientId : Int}
    (hd : 0 ≤ d) :
    Member (manager.setRoom i ((manager.rooms i).insert j clientId)) k d ↔
      (k = i ∧ d = clientId) ∨ Member manager k d := by
  have hkeep : ((manager.rooms i).insert j clientId).isActive = (manager.rooms i).isActive := rfl
  rw [member_setRoom_iff hkeep, RoomOk.lists_insert_iff hfree hd]
  by_cases hk : k = i
  · subst hk
    simp [Member, hactive]
  · simp [hk]

theorem member_openRoom_iff (ok : TableOk manager) (hfree : (manager.rooms i).isActive = false)
    {roomId roomName : CString} {clientId : Int} (hd : 0 ≤ d) :
    Member (manager.openRoom i (newRoom roomId roomName clientId)) k d ↔
      (k = i ∧ d = clientId) ∨ Member manager k d := by
  by_cases hk : k = i
  · subst hk
    have hnot : ¬ Member manager k d := fun h =>
      (ok.room_ok k).not_lists_of_inactive hfree hd h.2
    simp only [hnot, or_false, true_and]
    simp only [Member, RoomManager.openRoom, Function.update_self, newRoom, true_and, Lists]
    constructor
    · intro hall
      obtain ⟨j, hj⟩ := hall
      by_cases hj0 : j = 0
      · subst hj0
        simpa using hj.symm
      · rw [Function.update_of_ne hj0] at hj
        omega
    · intro heq
      subst heq
      exact ⟨0, by simp⟩
  · simp [Member, RoomManager.openRoom, hk]

theorem member_closeRoom_iff :
    Member (manager.closeRoom i) k d ↔ k ≠ i ∧ Member manager k d := by
  by_cases hk : k = i
  · subst hk
    simp [Member, RoomManager.closeRoom, roomCleanup]
  · simp [Member, RoomManager.closeRoom, hk]

theorem TableOk.setRoom (ok : TableOk manager) (hroom : RoomOk room)
    (hactive : room.isActive = (manager.rooms i).isActive) : TableOk (manager.setRoom i room) := by
  constructor
  · intro k
    by_cases hk : k = i
    · subst hk
      simpa [RoomManager.setRoom] using hroom
    · simpa [RoomManager.setRoom, hk] using ok.room_ok k
  · have hcount := occupancy_update Room.isActive manager.rooms i room
    rw [hactive] at hcount
    simp only [RoomManager.setRoom]
    rw [ok.count_eq]
    omega

theorem RoomOk.newRoom {roomId roomName : CString} {clientId : Int} (h : 0 ≤ clientId) :
    RoomOk (newRoom roomId roomName clientId) := by
  have hcount := occupancy_update entryUsed (n := maxClientsPerRoom) (fun _ => -1) 0
    clientId
  have hempty : occupancy entryUsed (fun _ : Fin maxClientsPerRoom => (-1 : Int)) = 0 :=
    (occupancy_eq_zero_iff _).mpr fun _ => by decide
  have hused : entryUsed clientId = true := by
    simp only [entryUsed, bne_iff_ne]
    omega
  rw [hempty, if_neg (by decide), if_pos hused] at hcount
  constructor
  · simp only [TcpChat.Server.newRoom]
    omega
  · intro j
    simp only [TcpChat.Server.newRoom, Function.update_apply]
    split
    · exact Or.inr h
    · exact Or.inl rfl
  · intro j l
    simp only [TcpChat.Server.newRoom, Function.update_apply]
    split <;> split
    · rename_i hj hl
      exact fun _ _ => hj.trans hl.symm
    · exact fun heq _ => absurd heq (by omega)
    · exact fun _ hne => absurd rfl hne
    · exact fun _ hne => absurd rfl hne
  · simp [TcpChat.Server.newRoom]

theorem TableOk.openRoom (ok : TableOk manager) (hfree : (manager.rooms i).isActive = false)
    {roomId roomName : CString} {clientId : Int} (h : 0 ≤ clientId) :
    TableOk (manager.openRoom i (TcpChat.Server.newRoom roomId roomName clientId)) := by
  constructor
  · intro k
    by_cases hk : k = i
    · subst hk
      simpa [RoomManager.openRoom] using RoomOk.newRoom h
    · simpa [RoomManager.openRoom, hk] using ok.room_ok k
  · have hcount := occupancy_update Room.isActive manager.rooms i
      (TcpChat.Server.newRoom roomId roomName clientId)
    have hopen : (TcpChat.Server.newRoom roomId roomName clientId).isActive = true := rfl
    rw [hfree, if_neg (by decide), if_pos hopen] at hcount
    simp only [RoomManager.openRoom]
    rw [ok.count_eq]
    omega

theorem RoomOk.cleanup (room : Room) : RoomOk (roomCleanup room) := by
  constructor
  · have hempty : occupancy entryUsed (fun _ : Fin maxClientsPerRoom => (-1 : Int)) = 0 :=
      (occupancy_eq_zero_iff _).mpr fun _ => by decide
    simp [roomCleanup, hempty]
  · exact fun _ => Or.inl rfl
  · exact fun _ _ _ hne => absurd rfl hne
  · simp [roomCleanup]

theorem TableOk.closeRoom (ok : TableOk manager) (hactive : (manager.rooms i).isActive = true) :
    TableOk (manager.closeRoom i) := by
  constructor
  · intro k
    by_cases hk : k = i
    · subst hk
      simpa [RoomManager.closeRoom] using RoomOk.cleanup _
    · simpa [RoomManager.closeRoom, hk] using ok.room_ok k
  · have hcount := occupancy_update Room.isActive manager.rooms i
      (roomCleanup (manager.rooms i))
    rw [hactive, if_pos rfl, if_neg (by simp [roomCleanup])] at hcount
    simp only [RoomManager.closeRoom]
    rw [ok.count_eq]
    omega

end Views

theorem TableOk.initial (manager : RoomManager) : TableOk (roomManagerInitialize manager) := by
  constructor
  · intro i
    exact RoomOk.cleanup (manager.rooms i)
  · have hempty : occupancy Room.isActive (roomManagerInitialize manager).rooms = 0 :=
      (occupancy_eq_zero_iff _).mpr fun _ => rfl
    rw [hempty]
    rfl

section Operations
variable {manager : RoomManager} (ok : TableOk manager)
include ok

theorem TableOk.create (libc : Libc) (now : Int) (roomName : CString) {clientId : Int}
    (h : 0 ≤ clientId) :
    TableOk (roomManagerCreateRoom libc now manager roomName clientId).1 := by
  rcases roomManagerCreateRoom_cases ok.count_eq libc now roomName clientId with
    ⟨_, i, hfree, _, heq⟩ | ⟨_, heq⟩
  · rw [heq, roomAddClient_initial _ _ _ h]
    exact ok.openRoom hfree h
  · rw [heq]
    exact ok

theorem TableOk.join (roomId : CString) (clientId : Int) :
    TableOk (roomManagerJoinRoom manager roomId clientId).1 := by
  rcases roomManagerJoinRoom_cases ok roomId clientId with
    ⟨i, hi, hid, hnew, _, j, hfree, heq⟩ | ⟨_, heq⟩
  · rw [heq]
    exact ok.setRoom ((ok.room_ok i).insert (found_active hi) hfree hid hnew) rfl
  · rw [heq]
    exact ok

theorem TableOk.leave (roomId : CString) (clientId : Int) :
    TableOk (roomManagerLeaveRoom manager roomId clientId).1 := by
  rcases roomManagerLeaveRoom_cases ok roomId clientId with
    ⟨i, j, hi, hid, hj, ⟨hmore, heq⟩ | ⟨_, heq⟩⟩ | ⟨_, heq⟩
  · rw [heq]
    exact ok.setRoom ((ok.room_ok i).erase (by omega) hmore) rfl
  · rw [heq]
    exact ok.closeRoom (found_active hi)
  · rw [heq]
    exact ok

/-- Leaving takes the client out of the room that the id finds, and out of no other. -/
theorem member_leave_iff (roomId : CString) {clientId d : Int} (hd : 0 ≤ d) (k : Fin maxRooms) :
    Member (roomManagerLeaveRoom manager roomId clientId).1 k d ↔
      Member manager k d ∧ ¬ (d = clientId ∧ roomManagerFindRoom manager roomId = some k) := by
  rcases roomManagerLeaveRoom_cases ok roomId clientId with
    ⟨i, j, hi, hid, hj, hcases⟩ | ⟨hwhy, heq⟩
  · have hfind : roomManagerFindRoom manager roomId = some k ↔ k = i := by
      rw [hi]
      exact ⟨fun h => (Option.some.inj h).symm, fun h => by rw [h]⟩
    rcases hcases with ⟨_, heq⟩ | ⟨hone, heq⟩
    · have hactive := found_active hi
      have hkeep : ((manager.rooms i).erase j).isActive = (manager.rooms i).isActive := rfl
      rw [heq, member_setRoom_iff hkeep, (ok.room_ok i).lists_erase_iff hd, hj, hfind]
      by_cases hk : k = i
      · subst hk
        simp [Member, hactive, and_comm]
      · simp [hk]
    · -- the last member: the room is closed, and nobody else was in it
      rw [heq, member_closeRoom_iff, hfind]
      by_cases hk : k = i
      · subst hk
        have honly : Member manager k d → d = clientId := by
          intro hmember
          have hlists := (RoomOk.lists_erase_iff (ok.room_ok k) (j := j) hd)
          by_contra hne
          obtain ⟨l, hl⟩ := hlists.mpr ⟨by rw [hj]; exact hne, hmember.2⟩
          have hcount := occupancy_update entryUsed (manager.rooms k).clientIds j (-1)
          rw [if_pos (by simp [entryUsed]; omega), if_neg (by decide)] at hcount
          have hzero := (ok.room_ok k).count_eq
          have hpos : 0 < occupancy entryUsed ((manager.rooms k).erase j).clientIds :=
            (occupancy_pos_iff _).mpr ⟨l, by simp [entryUsed]; omega⟩
          simp only [Room.erase] at hpos
          omega
        simp only [ne_eq, not_true_eq_false, false_and, and_true, false_iff, not_and, not_not]
        exact honly
      · simp [hk]
  · rw [heq]
    constructor
    · intro hmember
      refine ⟨hmember, ?_⟩
      intro hall
      obtain ⟨rfl, hfind⟩ := hall
      rcases hwhy k hfind with hneg | hnot
      · omega
      · exact hnot hmember.2
    · exact And.left

end Operations

end TcpChat.Server

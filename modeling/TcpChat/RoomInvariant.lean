import TcpChat.Base.Groups
import TcpChat.Server.Operations

/-!
# The room table on its own

The room manager as a machine whose steps are calls of its three operations, with any names,
any id strings and any client ids. The ids drawn for new rooms are free to repeat.
-/

namespace TcpChat.Server

open Base Base.Runs Base.Slots
set_option autoImplicit false

inductive RoomOp where
  | create (libc : Libc) (now : Int) (roomName : CString) (creatorClientId : Int)
  | join (roomId : CString) (clientId : Int)
  | leave (roomId : CString) (clientId : Int)

/-- A call, with what the caller gets back. -/
def RoomOp.call (manager : RoomManager) : RoomOp → RoomManager × GroupReply CString
  | .create libc now roomName creatorClientId =>
    ((roomManagerCreateRoom libc now manager roomName creatorClientId).1,
      .created (roomManagerCreateRoom libc now manager roomName creatorClientId).2)
  | .join roomId clientId =>
    ((roomManagerJoinRoom manager roomId clientId).1,
      .code (roomManagerJoinRoom manager roomId clientId).2)
  | .leave roomId clientId =>
    ((roomManagerLeaveRoom manager roomId clientId).1,
      .code (roomManagerLeaveRoom manager roomId clientId).2)

def RoomOp.step (manager : RoomManager) (op : RoomOp) : RoomManager := (op.call manager).1

/-- Every id comes out as `AAAAAA`. -/
def repeatingLibc : Libc := ⟨fun _ _ => 0, 0⟩

/-- The creator of a room is a client. -/
def RoomOp.CreatorValid : RoomOp → Prop
  | .create _ _ _ creatorClientId => 0 ≤ creatorClientId
  | _ => True

/-- The loop of `room_add_client` runs to its end: every check has passed, no entry is free. -/
def AddFallsThrough (room : Room) (clientId : Int) : Prop :=
  0 ≤ clientId ∧ roomHasClient room clientId = false ∧ room.clientCount < maxClientsPerRoom ∧
    (Fin.find? fun i => room.clientIds i == -1) = none

/-- The branch `No available room slots` of `room_manager_create_room`. -/
def NoRoomSlot (manager : RoomManager) : Prop :=
  manager.roomCount < maxRooms ∧ (Fin.find? fun i => !(manager.rooms i).isActive) = none

structure ActiveRoomOk (room : Room) : Prop where
  count_eq : room.clientCount = (Finset.univ.filter fun j => room.clientIds j ≠ -1).card
  count_pos : 1 ≤ room.clientCount
  count_le : room.clientCount ≤ maxClientsPerRoom
  entries_distinct : ∀ j k, room.clientIds j ≠ -1 → room.clientIds j = room.clientIds k → j = k
  entries_nonneg : ∀ j, room.clientIds j ≠ -1 → 0 ≤ room.clientIds j

/-- The counters, the entries and the flags of the table say the same, and the operations
never meet the branches that only a wrong counter could lead to. -/
structure RoomTableInvariant (manager : RoomManager) : Prop where
  count_eq : manager.roomCount =
    (Finset.univ.filter fun i => (manager.rooms i).isActive = true).card
  count_le : manager.roomCount ≤ maxRooms
  active : ∀ i, (manager.rooms i).isActive = true → ActiveRoomOk (manager.rooms i)
  inactive : ∀ i, (manager.rooms i).isActive = false →
    (manager.rooms i).clientCount = 0 ∧ ∀ j, (manager.rooms i).clientIds j = -1
  room_slot : ¬ NoRoomSlot manager
  add_creator : ∀ i roomId roomName clientId,
    ¬ AddFallsThrough (roomInitialize (manager.rooms i) roomId roomName) clientId
  add_joining : ∀ roomId i, roomManagerFindRoom manager roomId = some i →
    ∀ clientId, ¬ AddFallsThrough (manager.rooms i) clientId

theorem entryUsed_iff (clientId : Int) : entryUsed clientId = true ↔ clientId ≠ -1 := by
  simp [entryUsed]

theorem occupancy_entryUsed (room : Room) :
    occupancy entryUsed room.clientIds =
      (Finset.univ.filter fun j => room.clientIds j ≠ -1).card := by
  simp only [occupancy, entryUsed_iff]

theorem RoomOk.active {room : Room} (ok : RoomOk room) (h : room.isActive = true) :
    ActiveRoomOk room := by
  have hpos := ok.occupied_iff.mp h
  have hle := occupancy_le entryUsed room.clientIds
  have hcount := ok.count_eq
  constructor
  · rw [hcount, occupancy_entryUsed]
  · omega
  · omega
  · intro j k hj heq
    exact ok.entries_distinct j k heq hj
  · intro j hj
    exact (ok.entry_nonneg j).resolve_left hj

theorem RoomOk.inactive {room : Room} (ok : RoomOk room) (h : room.isActive = false) :
    room.clientCount = 0 ∧ ∀ j, room.clientIds j = -1 := by
  have hnot : ¬ 0 < room.clientCount := by
    intro hpos
    rw [ok.occupied_iff.mpr hpos] at h
    cases h
  have hcount := ok.count_eq
  have hzero : occupancy entryUsed room.clientIds = 0 := by omega
  refine ⟨by omega, fun j => ?_⟩
  have hfree := (occupancy_eq_zero_iff _).mp hzero j
  simpa [entryUsed] using hfree

theorem RoomOk.not_fallsThrough {room : Room} (ok : RoomOk room) (clientId : Int) :
    ¬ AddFallsThrough room clientId := by
  intro h
  obtain ⟨_, _, hspace, hnone⟩ := h
  obtain ⟨j, hj⟩ := ok.free_entry hspace
  have hnot := Fin.find?_eq_none_iff.mp hnone j
  simp [hj] at hnot

theorem not_fallsThrough_roomInitialize (room : Room) (roomId roomName : CString)
    (clientId : Int) : ¬ AddFallsThrough (roomInitialize room roomId roomName) clientId := by
  intro h
  obtain ⟨_, _, _, hnone⟩ := h
  have hnot := Fin.find?_eq_none_iff.mp hnone 0
  simp [roomInitialize] at hnot

theorem TableOk.not_noRoomSlot {manager : RoomManager} (ok : TableOk manager) :
    ¬ NoRoomSlot manager := by
  intro h
  obtain ⟨hspace, hnone⟩ := h
  rw [ok.count_eq] at hspace
  obtain ⟨i, hi⟩ := exists_free_of_occupancy_lt (Int.ofNat_lt.mp hspace)
  have hnot := Fin.find?_eq_none_iff.mp hnone i
  simp [hi] at hnot

theorem TableOk.invariant {manager : RoomManager} (ok : TableOk manager) :
    RoomTableInvariant manager := by
  have hcount := ok.count_eq
  have hle := occupancy_le Room.isActive manager.rooms
  constructor
  · exact hcount
  · omega
  · exact fun i hi => (ok.room_ok i).active hi
  · exact fun i hi => (ok.room_ok i).inactive hi
  · exact ok.not_noRoomSlot
  · exact fun i roomId roomName clientId =>
      not_fallsThrough_roomInitialize (manager.rooms i) roomId roomName clientId
  · exact fun roomId i _ clientId => (ok.room_ok i).not_fallsThrough clientId

theorem TableOk.call {manager : RoomManager} (ok : TableOk manager) (op : RoomOp)
    (h : op.CreatorValid) : TableOk (op.step manager) := by
  cases op with
  | create libc now roomName creatorClientId => exact ok.create libc now roomName h
  | join roomId clientId => exact ok.join roomId clientId
  | leave roomId clientId => exact ok.leave roomId clientId

/-- The invariant holds after any calls in any order. -/
theorem roomTable_invariant (memory : RoomManager) (ops : List RoomOp)
    (h : ∀ op ∈ ops, op.CreatorValid) :
    Always RoomOp.step RoomTableInvariant (roomManagerInitialize memory) ops := by
  have hvalid : EachStep RoomOp.step (fun _ op => op.CreatorValid)
      (roomManagerInitialize memory) ops := by
    intro pre op hpre
    exact h op (hpre.subset (List.mem_append_right pre List.mem_cons_self))
  have hok : Always RoomOp.step TableOk (roomManagerInitialize memory) ops :=
    always_of_eachStep (fun manager op ok hop => ok.call op hop) (TableOk.initial memory) hvalid
  exact hok.imp fun manager ok => ok.invariant

/-- Two rooms under one id, a second member, a stranger who leaves, and a room that closes. -/
theorem roomTable_invariant_five :
    Always RoomOp.step RoomTableInvariant (roomManagerInitialize zeroedMemory.roomManager)
      [.create repeatingLibc 0 "den" 3, .create repeatingLibc 0 "pit" 4, .join "AAAAAA" 5,
        .leave "AAAAAA" (-1), .leave "AAAAAA" 5] :=
  roomTable_invariant zeroedMemory.roomManager _ (by
    intro op hop
    simp only [List.mem_cons, List.not_mem_nil, or_false] at hop
    rcases hop with rfl | rfl | rfl | rfl | rfl <;> simp [RoomOp.CreatorValid])

end TcpChat.Server

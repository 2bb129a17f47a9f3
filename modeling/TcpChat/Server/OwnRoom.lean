import TcpChat.Server.Membership

/-!
# A client's own room

`/create` and `/join` first take the client out of the room that its session names. What that
leaves of the room table decides whether the client gets what it asks for.
-/

namespace TcpChat.Server

open Base Base.Slots
set_option autoImplicit false

/-- The room that the client's session names, if the client is in it. -/
def ownRoom (s : State) (c : Slot) : Option (Fin maxRooms) :=
  if (s.session c).hasRoom then
    (roomManagerFindRoom s.roomManager (s.session c).currentRoomId).filter fun i =>
      Lists (s.roomManager.rooms i) c
  else none

/-- Nobody else is in the client's own room. -/
def AloneIn (s : State) (c : Slot) (i : Fin maxRooms) : Prop :=
  ownRoom s c = some i ∧ (s.roomManager.rooms i).clientCount = 1

instance (s : State) (c : Slot) (i : Fin maxRooms) : Decidable (AloneIn s c i) :=
  inferInstanceAs (Decidable (_ ∧ _))

/-- There is room for one more, or will be when the client's own room is closed. -/
def CreateGranted (s : State) (c : Slot) : Prop :=
  s.roomManager.roomCount < maxRooms ∨ ∃ i, AloneIn s c i

instance (s : State) (c : Slot) : Decidable (CreateGranted s c) :=
  inferInstanceAs (Decidable (_ ∨ _))

/-- A room of that id that is still open when the client has left its own. -/
def StaysOpen (s : State) (c : Slot) (roomId : CString) (i : Fin maxRooms) : Prop :=
  (s.roomManager.rooms i).isActive = true ∧ ¬ AloneIn s c i ∧
    (s.roomManager.rooms i).roomId = roomId

instance (s : State) (c : Slot) (roomId : CString) (i : Fin maxRooms) :
    Decidable (StaysOpen s c roomId i) :=
  inferInstanceAs (Decidable (_ ∧ _))

/-- The first such room is the client's own, or one that it is not in and that is not full. -/
def JoinGranted (s : State) (c : Slot) (roomId : CString) : Prop :=
  ∃ i, StaysOpen s c roomId i ∧ (∀ j < i, ¬ StaysOpen s c roomId j) ∧
    (ownRoom s c = some i ∨ ¬ Lists (s.roomManager.rooms i) c ∧
      (s.roomManager.rooms i).clientCount < maxClientsPerRoom)

instance (s : State) (c : Slot) (roomId : CString) : Decidable (JoinGranted s c roomId) :=
  inferInstanceAs (Decidable (∃ _, _ ∧ _))

/-- The request lets the client into a room. -/
def EntersRoom (s : State) (c : Slot) : Request → Prop
  | .create roomName => ValidRoomName roomName ∧ CreateGranted s c
  | .join roomId => roomId.length = roomIdLength ∧ JoinGranted s c roomId
  | _ => False

instance (s : State) (c : Slot) (r : Request) : Decidable (EntersRoom s c r) :=
  match r with
  | .create _ | .join _ => inferInstanceAs (Decidable (_ ∧ _))
  | .leave | .nick _ | .users | .keyExchange _ | .e2eMessage _ | .chat _ | .nothing | .quit
  | .rooms | .help | .unknown => isFalse id

theorem AloneIn.eq_of_own {s : State} {c : Slot} {i k : Fin maxRooms} (h : AloneIn s c k)
    (hown : ownRoom s c = some i) : k = i :=
  Option.some.inj (h.1.symm.trans hown)

theorem not_aloneIn_of_none {s : State} {c : Slot} (hnone : ownRoom s c = none)
    (k : Fin maxRooms) : ¬ AloneIn s c k := by
  intro halone
  rw [halone.1] at hnone
  cases hnone

theorem ownRoom_of_found {s : State} {c : Slot} (hroom : (s.session c).hasRoom = true)
    {i : Fin maxRooms}
    (hi : roomManagerFindRoom s.roomManager (s.session c).currentRoomId = some i)
    (hlists : Lists (s.roomManager.rooms i) c) : ownRoom s c = some i := by
  rw [ownRoom, if_pos hroom, hi]
  exact Option.filter_some_pos (decide_eq_true hlists)

theorem ownRoom_of_member {s : State} {c : Slot} (hdistinct : DistinctIds s.roomManager)
    (hroom : (s.session c).hasRoom = true) {i : Fin maxRooms}
    (hmember : Member s.roomManager i (c : Int))
    (hid : (s.roomManager.rooms i).roomId = (s.session c).currentRoomId) :
    ownRoom s c = some i := by
  apply ownRoom_of_found hroom
  · rw [← hid]
    exact hdistinct.find hmember.1
  · exact hmember.2

section Leaving
variable {s : State} {c : Slot} (ok : TableOk s.roomManager)
include ok

/-- Leaving does nothing, frees the client's entry, or closes the room. -/
theorem leaveCurrentRoom_cases :
    (ownRoom s c = none ∧ (leaveCurrentRoom s c).roomManager = s.roomManager) ∨
    ∃ i j, ownRoom s c = some i ∧ (s.roomManager.rooms i).isActive = true ∧
      (s.roomManager.rooms i).clientIds j = (c : Int) ∧
      (¬ AloneIn s c i ∧ (leaveCurrentRoom s c).roomManager =
          s.roomManager.setRoom i ((s.roomManager.rooms i).erase j) ∨
        AloneIn s c i ∧ (leaveCurrentRoom s c).roomManager = s.roomManager.closeRoom i) := by
  cases hroom : (s.session c).hasRoom with
  | false =>
    rw [leaveCurrentRoom_of_not_hasRoom hroom]
    exact Or.inl ⟨if_neg (Bool.eq_false_iff.mp hroom), rfl⟩
  | true =>
    rw [leaveCurrentRoom_of_hasRoom hroom]
    rcases roomManagerLeaveRoom_cases ok (s.session c).currentRoomId c with
      ⟨i, j, hi, _, hj, hcases⟩ | ⟨hwhy, heq⟩
    · have hown := ownRoom_of_found hroom hi ⟨j, hj⟩
      refine Or.inr ⟨i, j, hown, found_active hi, hj, ?_⟩
      rcases hcases with ⟨hmore, heq⟩ | ⟨hone, heq⟩
      · exact Or.inl ⟨fun halone => hmore halone.2, by rw [heq]⟩
      · exact Or.inr ⟨⟨hown, hone⟩, by rw [heq]⟩
    · refine Or.inl ⟨?_, by rw [heq]⟩
      rw [ownRoom, if_pos hroom, Option.filter_eq_none_iff]
      intro i hi hlists
      rcases hwhy i hi with hneg | hnot
      · omega
      · exact hnot (of_decide_eq_true hlists)

theorem leaveCurrentRoom_same_iff :
    (leaveCurrentRoom s c).roomManager = s.roomManager ↔ ownRoom s c = none := by
  rcases leaveCurrentRoom_cases ok with
    ⟨hnone, heq⟩ | ⟨i, j, hown, _, _, ⟨_, heq⟩ | ⟨halone, heq⟩⟩
  · exact iff_of_true heq hnone
  · rw [heq, hown]
    refine iff_of_false (fun hsame => ?_) (Option.some_ne_none i)
    have hcount := congrArg (fun manager => (manager.rooms i).clientCount) hsame
    simp only [RoomManager.setRoom, Function.update_self, Room.erase] at hcount
    omega
  · rw [heq, hown]
    refine iff_of_false (fun hsame => ?_) (Option.some_ne_none i)
    have hcount := congrArg RoomManager.roomCount hsame
    simp only [RoomManager.closeRoom] at hcount
    omega

theorem roomCount_left_lt_iff :
    (leaveCurrentRoom s c).roomManager.roomCount < maxRooms ↔ CreateGranted s c := by
  have hle := occupancy_le Room.isActive s.roomManager.rooms
  have hcount := ok.count_eq
  unfold CreateGranted
  rcases leaveCurrentRoom_cases ok with
    ⟨hnone, heq⟩ | ⟨i, j, hown, _, _, ⟨hmore, heq⟩ | ⟨halone, heq⟩⟩
  · rw [heq]
    refine (or_iff_left fun hall => ?_).symm
    obtain ⟨k, hk⟩ := hall
    exact not_aloneIn_of_none hnone k hk
  · rw [heq]
    refine (or_iff_left fun hall => ?_).symm
    obtain ⟨k, hk⟩ := hall
    obtain rfl : k = i := hk.eq_of_own hown
    exact hmore hk
  · rw [heq]
    refine iff_of_true ?_ (Or.inr ⟨i, halone⟩)
    simp only [RoomManager.closeRoom]
    omega

/-- Which rooms are found once the client has left. -/
theorem open_left_iff (roomId : CString) (k : Fin maxRooms) :
    (((leaveCurrentRoom s c).roomManager.rooms k).isActive = true ∧
      ((leaveCurrentRoom s c).roomManager.rooms k).roomId = roomId) ↔ StaysOpen s c roomId k := by
  unfold StaysOpen
  rcases leaveCurrentRoom_cases ok with
    ⟨hnone, heq⟩ | ⟨i, j, hown, hactive, _, ⟨hmore, heq⟩ | ⟨halone, heq⟩⟩
  · have hnot := not_aloneIn_of_none hnone k
    rw [heq]
    simp only [hnot, not_false_eq_true, true_and]
  · have hnot : ¬ AloneIn s c k := by
      intro halone
      obtain rfl : k = i := halone.eq_of_own hown
      exact hmore halone
    rw [heq]
    simp only [hnot, not_false_eq_true, true_and]
    by_cases hk : k = i
    · subst hk
      simp only [RoomManager.setRoom, Function.update_self, Room.erase]
    · simp only [RoomManager.setRoom, Function.update_of_ne hk]
  · rw [heq]
    by_cases hk : k = i
    · subst hk
      simp [RoomManager.closeRoom, roomCleanup, halone]
    · have hnot : ¬ AloneIn s c k := fun h => hk (h.eq_of_own hown)
      simp only [RoomManager.closeRoom, Function.update_of_ne hk, hnot, not_false_eq_true, true_and]

/-- Whether a room that stayed open takes the client in. -/
theorem takes_left_iff {roomId : CString} {k : Fin maxRooms} (hopen : StaysOpen s c roomId k) :
    (¬ Lists ((leaveCurrentRoom s c).roomManager.rooms k) c ∧
        ((leaveCurrentRoom s c).roomManager.rooms k).clientCount < maxClientsPerRoom) ↔
      (ownRoom s c = some k ∨ ¬ Lists (s.roomManager.rooms k) c ∧
        (s.roomManager.rooms k).clientCount < maxClientsPerRoom) := by
  rcases leaveCurrentRoom_cases ok with
    ⟨hnone, heq⟩ | ⟨i, j, hown, _, hj, ⟨_, heq⟩ | ⟨halone, heq⟩⟩
  · rw [heq, hnone]
    exact (or_iff_right (Option.some_ne_none k).symm).symm
  · rw [heq, hown]
    by_cases hk : k = i
    · subst hk
      simp only [RoomManager.setRoom, Function.update_self, true_or, iff_true]
      have hcount := (ok.room_ok k).count_eq
      have hle := occupancy_le entryUsed (s.roomManager.rooms k).clientIds
      constructor
      · rw [(ok.room_ok k).lists_erase_iff (by omega), hj]
        exact fun hlists => hlists.1 rfl
      · simp only [Room.erase]
        omega
    · have hne : some i ≠ some k := fun h => hk (Option.some.inj h).symm
      simp only [RoomManager.setRoom, Function.update_of_ne hk, hne, false_or]
  · have hk : k ≠ i := by
      intro heq
      subst heq
      exact hopen.2.1 halone
    have hne : some i ≠ some k := fun h => hk (Option.some.inj h).symm
    rw [heq, hown]
    simp only [RoomManager.closeRoom, Function.update_of_ne hk, hne, false_or]

theorem joinGranted_iff (roomId : CString) :
    (∃ i, roomManagerFindRoom (leaveCurrentRoom s c).roomManager roomId = some i ∧
        ¬ Lists ((leaveCurrentRoom s c).roomManager.rooms i) c ∧
        ((leaveCurrentRoom s c).roomManager.rooms i).clientCount < maxClientsPerRoom) ↔
      JoinGranted s c roomId := by
  unfold JoinGranted
  apply exists_congr
  intro i
  rw [roomManagerFindRoom_eq_some_iff, open_left_iff ok, and_assoc]
  simp only [open_left_iff ok]
  apply and_congr_right
  intro hopen
  rw [takes_left_iff ok hopen]

/-- The room table lets the client in exactly if what is there now says so. -/
theorem admits_iff (r : Request) : Admits s c r ↔ EntersRoom s c r := by
  cases r with
  | create roomName => exact and_congr_right fun _ => roomCount_left_lt_iff ok
  | join roomId => exact and_congr_right fun _ => joinGranted_iff ok roomId
  | _ => exact Iff.rfl

end Leaving

end TcpChat.Server

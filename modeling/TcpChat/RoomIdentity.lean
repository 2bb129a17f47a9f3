import TcpChat.Base.Runs
import TcpChat.Server.RoomIds

/-!
# Identity of rooms

The generator seeds `rand` from the clock at every call, so an id is a function of the second
in which the room is created. A run keeps its ids apart exactly when the draws are apart.
-/

namespace TcpChat.Server

open Base Base.Runs Base.Slots
set_option autoImplicit false

/-- The calls on the room table, with the clock as `room_manager_create_room` reads it. -/
inductive RoomCall where
  | create (now : Int) (roomName : CString) (creatorClientId : Int)
  | join (roomId : CString) (clientId : Int)
  | leave (roomId : CString) (clientId : Int)

/-- The room table, and for every slot the clock time its last id was drawn at. -/
structure RoomHistory where
  manager : RoomManager
  drawnAt : Fin maxRooms → Int

def RoomHistory.start (memory : RoomManager) : RoomHistory :=
  { manager := roomManagerInitialize memory, drawnAt := fun _ => 0 }

def RoomCall.step (libc : Libc) (h : RoomHistory) : RoomCall → RoomHistory
  | .create now roomName creatorClientId =>
    let created := roomManagerCreateRoom libc now h.manager roomName creatorClientId
    { manager := created.1
      drawnAt := match created.2, Fin.find? fun i => !(h.manager.rooms i).isActive with
        | some _, some i => Function.update h.drawnAt i now
        | _, _ => h.drawnAt }
  | .join roomId clientId => { h with manager := (roomManagerJoinRoom h.manager roomId clientId).1 }
  | .leave roomId clientId =>
    { h with manager := (roomManagerLeaveRoom h.manager roomId clientId).1 }

/-- The id a create returns finds the room that the create opened. -/
def FindsCreated (libc : Libc) (h : RoomHistory) : RoomCall → Prop
  | .create now roomName creatorClientId => ∀ roomId,
    (roomManagerCreateRoom libc now h.manager roomName creatorClientId).2 = some roomId →
    roomManagerFindRoom (roomManagerCreateRoom libc now h.manager roomName creatorClientId).1
      roomId = Fin.find? fun i => !(h.manager.rooms i).isActive
  | _ => True

/-- The numbers that `rand() % 36` gives for an id drawn at `now`. -/
def draw (libc : Libc) (now : Int) (k : Nat) : Nat :=
  libc.rand (UInt32.ofInt (now + libc.pid)) k % 36

/-- A create that has room in the table draws at a time whose six numbers are not those of the
time at which an active room was created. -/
def DrawsApart (libc : Libc) (h : RoomHistory) : RoomCall → Prop
  | .create now _ _ => h.manager.roomCount < maxRooms →
    ∀ i, (h.manager.rooms i).isActive = true →
      ∃ k < roomIdLength, draw libc now k ≠ draw libc (h.drawnAt i) k
  | _ => True

theorem charset_getD_inj {k l : Nat} (hk : k < 36) (hl : l < 36)
    (h : charset.getD k 0 = charset.getD l 0) : k = l := by
  have hnodup : charset.Nodup := by decide
  have hlen := charset_length
  rw [List.getD_eq_getElem?_getD, List.getD_eq_getElem?_getD,
    List.getElem?_eq_getElem (by omega), List.getElem?_eq_getElem (by omega)] at h
  exact (List.Nodup.getElem_inj_iff hnodup).mp h

theorem roomGenerateId_eq_iff (libc : Libc) (now later : Int) :
    roomGenerateId libc now = roomGenerateId libc later ↔
      ∀ k < roomIdLength, draw libc now k = draw libc later k := by
  rw [CString.ext_iff, bytes_roomGenerateId, bytes_roomGenerateId, List.map_inj_left]
  simp only [List.mem_range, charset_length]
  constructor
  · intro h k hk
    exact charset_getD_inj (Nat.mod_lt _ (by omega)) (Nat.mod_lt _ (by omega)) (h k hk)
  · intro h k hk
    exact congrArg (charset.getD · 0) (h k hk)

/-- The cached number of rooms is right. -/
def CountOk (manager : RoomManager) : Prop :=
  manager.roomCount = (occupancy Room.isActive manager.rooms : Int)

section Counts
variable (roomId : CString) (clientId : Int) {manager : RoomManager}

theorem CountOk.join (h : CountOk manager) :
    CountOk (roomManagerJoinRoom manager roomId clientId).1 := by
  cases hfind : roomManagerFindRoom manager roomId with
  | none =>
    rw [roomManagerJoinRoom_of_not_found hfind]
    exact h
  | some i =>
    rw [roomManagerJoinRoom_of_found hfind]
    have hcount := occupancy_update Room.isActive manager.rooms i
      (roomAddClient (manager.rooms i) clientId).1
    rw [(roomAddClient_frame (manager.rooms i) clientId).2] at hcount
    simp only [CountOk, RoomManager.setRoom] at h ⊢
    omega

theorem CountOk.leave (h : CountOk manager) :
    CountOk (roomManagerLeaveRoom manager roomId clientId).1 := by
  cases hfind : roomManagerFindRoom manager roomId with
  | none =>
    rw [roomManagerLeaveRoom_of_not_found hfind]
    exact h
  | some i =>
    rw [roomManagerLeaveRoom_of_found hfind]
    split
    · have hcount := occupancy_update Room.isActive manager.rooms i
        (roomCleanup (roomRemoveClient (manager.rooms i) clientId).1)
      rw [if_pos (found_active hfind), if_neg (by simp [roomCleanup])] at hcount
      simp only [CountOk] at h ⊢
      omega
    · have hcount := occupancy_update Room.isActive manager.rooms i
        (roomRemoveClient (manager.rooms i) clientId).1
      rw [(roomRemoveClient_frame (manager.rooms i) clientId).2] at hcount
      simp only [CountOk, RoomManager.setRoom] at h ⊢
      omega

theorem CountOk.openRoom (h : CountOk manager) {i : Fin maxRooms} {room : Room}
    (hfree : (manager.rooms i).isActive = false) (hactive : room.isActive = true) :
    CountOk (manager.openRoom i room) := by
  have hcount := occupancy_update Room.isActive manager.rooms i room
  rw [if_neg (by simp [hfree]), if_pos hactive] at hcount
  simp only [CountOk, RoomManager.openRoom] at h ⊢
  omega

end Counts

theorem CountOk.create_cases {manager : RoomManager} (h : CountOk manager) (libc : Libc)
    (now : Int) (roomName : CString) (creatorClientId : Int) :
    (manager.roomCount < maxRooms ∧ ∃ i room, (manager.rooms i).isActive = false ∧
      (Fin.find? fun k => !(manager.rooms k).isActive) = some i ∧
      room.isActive = true ∧ room.roomId = roomGenerateId libc now ∧
      roomManagerCreateRoom libc now manager roomName creatorClientId =
        (manager.openRoom i room, some (roomGenerateId libc now))) ∨
    (maxRooms ≤ manager.roomCount ∧
      roomManagerCreateRoom libc now manager roomName creatorClientId = (manager, none)) := by
  rcases roomManagerCreateRoom_cases h libc now roomName creatorClientId with
    ⟨hroom, i, hfree, hfind, heq⟩ | hfull
  · have hframe := roomAddClient_frame (roomInitialize (manager.rooms i)
      (roomGenerateId libc now) roomName) creatorClientId
    refine Or.inl ⟨hroom, i, _, hfree, hfind, hframe.2, ?_, heq⟩
    rw [hframe.1]
    exact take_roomGenerateId libc now
  · exact Or.inr hfull

/-- Every active room has the id drawn at its recorded time. -/
structure HistoryOk (libc : Libc) (h : RoomHistory) : Prop where
  count : CountOk h.manager
  drawn : ∀ i, (h.manager.rooms i).isActive = true →
    (h.manager.rooms i).roomId = roomGenerateId libc (h.drawnAt i)

theorem HistoryOk.start (libc : Libc) (memory : RoomManager) :
    HistoryOk libc (RoomHistory.start memory) :=
  ⟨(TableOk.initial memory).count_eq, fun _ hi => absurd hi Bool.false_ne_true⟩

theorem HistoryOk.within {libc : Libc} {h : RoomHistory} (ok : HistoryOk libc h)
    {manager : RoomManager} (hcount : CountOk manager) (hsub : IdsWithin manager h.manager) :
    HistoryOk libc { h with manager := manager } := by
  refine ⟨hcount, fun i hi => ?_⟩
  obtain ⟨hactive, hid⟩ := hsub i hi
  exact hid.trans (ok.drawn i hactive)

theorem HistoryOk.step {libc : Libc} {h : RoomHistory} (ok : HistoryOk libc h) (call : RoomCall) :
    HistoryOk libc (call.step libc h) := by
  cases call with
  | create now roomName creatorClientId =>
    rcases ok.count.create_cases libc now roomName creatorClientId with
      ⟨_, i, room, hfree, hfind, hactive, hid, heq⟩ | ⟨hfull, heq⟩
    · simp only [RoomCall.step, heq, hfind]
      refine ⟨ok.count.openRoom hfree hactive, fun k hk => ?_⟩
      by_cases hki : k = i
      · subst hki
        simpa [RoomManager.openRoom] using hid
      · simp only [RoomManager.openRoom, Function.update_of_ne hki] at hk ⊢
        exact ok.drawn k hk
    · simp only [RoomCall.step, heq]
      exact ok
  | join roomId clientId => exact ok.within (ok.count.join _ _) (idsWithin_join _ _ _)
  | leave roomId clientId => exact ok.within (ok.count.leave _ _) (idsWithin_leave _ _ _)

/-- A call keeps the ids distinct exactly when its draw is apart from those in use. -/
theorem distinctIds_step_iff {libc : Libc} {h : RoomHistory} (ok : HistoryOk libc h)
    (hdistinct : DistinctIds h.manager) (call : RoomCall) :
    DistinctIds (call.step libc h).manager ↔ DrawsApart libc h call := by
  cases call with
  | create now roomName creatorClientId =>
    rcases ok.count.create_cases libc now roomName creatorClientId with
      ⟨hroom, i, room, hfree, _, hactive, hid, heq⟩ | ⟨hfull, heq⟩
    · have hiff := distinctIds_openRoom_iff hdistinct hfree hactive
      simp only [RoomCall.step, heq, DrawsApart, hroom, true_implies]
      rw [hiff]
      refine forall_congr' fun k => forall_congr' fun hk => ?_
      rw [hid, ok.drawn k hk, ne_comm, Ne, roomGenerateId_eq_iff]
      push Not
      rfl
    · simp only [RoomCall.step, heq, DrawsApart]
      apply iff_of_true hdistinct
      intro hroom
      omega
  | join roomId clientId => exact iff_of_true (hdistinct.within (idsWithin_join _ _ _)) trivial
  | leave roomId clientId => exact iff_of_true (hdistinct.within (idsWithin_leave _ _ _)) trivial

theorem findsCreated_of_drawsApart {libc : Libc} {h : RoomHistory} (ok : HistoryOk libc h)
    (hdistinct : DistinctIds h.manager) {call : RoomCall} (hapart : DrawsApart libc h call) :
    FindsCreated libc h call := by
  have hnext := (distinctIds_step_iff ok hdistinct call).mpr hapart
  cases call with
  | create now roomName creatorClientId =>
    rcases ok.count.create_cases libc now roomName creatorClientId with
      ⟨_, i, room, _, hfind, hactive, hid, heq⟩ | ⟨_, heq⟩
    · simp only [RoomCall.step, heq] at hnext
      intro roomId hroomId
      rw [heq] at hroomId ⊢
      have hself : (h.manager.openRoom i room).rooms i = room := Function.update_self ..
      have hfound := hnext.find (i := i) (by rw [hself]; exact hactive)
      rw [hself, hid, Option.some.inj hroomId] at hfound
      exact hfound.trans hfind.symm
    · intro roomId hroomId
      rw [heq] at hroomId
      cases hroomId
  | join roomId clientId => trivial
  | leave roomId clientId => trivial

/-- In a run of creates, joins and leaves the ids name the rooms exactly when no create draws
the six numbers of a room that is still open, as it does in the same second. -/
theorem idsNameRooms_iff_drawsApart (libc : Libc) (memory : RoomManager)
    (calls : List RoomCall) :
    Always (RoomCall.step libc) (fun h => IdsNameRooms h.manager) (RoomHistory.start memory) calls ∧
      EachStep (RoomCall.step libc) (FindsCreated libc) (RoomHistory.start memory) calls ↔
    EachStep (RoomCall.step libc) (DrawsApart libc) (RoomHistory.start memory) calls := by
  have hstart := HistoryOk.start libc memory
  have hempty : DistinctIds (RoomHistory.start memory).manager :=
    fun _ _ hi => absurd hi Bool.false_ne_true
  have hiff : Always (RoomCall.step libc) (fun h => IdsNameRooms h.manager)
      (RoomHistory.start memory) calls ↔
      EachStep (RoomCall.step libc) (DrawsApart libc) (RoomHistory.start memory) calls := by
    simp only [idsNameRooms_iff]
    exact always_iff_eachStep (I := HistoryOk libc) (H := fun _ _ => True)
      (fun h call ok _ _ _ => ok.step call)
      (fun h call ok hdistinct _ => distinctIds_step_iff ok hdistinct call) hstart hempty
      (fun _ _ _ => trivial)
  refine ⟨fun h => hiff.mp h.1, fun h => ⟨hiff.mpr h, ?_⟩⟩
  intro pre call hpre
  have hreach := List.IsPrefix.trans (List.prefix_append pre [call]) hpre
  have hinv : Always (RoomCall.step libc) (HistoryOk libc) (RoomHistory.start memory) calls :=
    always_of_invariant (fun _ call ok => ok.step call) hstart calls
  have ok := hinv pre hreach
  have hdistinct := (idsNameRooms_iff _).mp (hiff.mpr h pre hreach)
  exact findsCreated_of_drawsApart ok hdistinct (h pre call hpre)

/-- The sample implementation of `rand` in the C standard. -/
def sampleRand (seed : UInt32) (k : Nat) : Nat :=
  ((fun next => (next * 1103515245 + 12345) % 2 ^ 32)^[k + 1] seed.toNat / 65536) % 32768

/-- Two clients create a room in the same second. -/
theorem ids_collide_in_a_second :
    ¬ ∀ (libc : Libc) (memory : RoomManager) (calls : List RoomCall),
      Always (RoomCall.step libc) (fun h => IdsNameRooms h.manager)
        (RoomHistory.start memory) calls ∧
      EachStep (RoomCall.step libc) (FindsCreated libc) (RoomHistory.start memory) calls := by
  intro hall
  have h := (hall ⟨sampleRand, 4242⟩
    { rooms := fun _ => ⟨.empty, .empty, fun _ => 0, 0, false⟩, roomCount := 0 }
    [.create 1700000000 "general" 0, .create 1700000000 "random" 1]).1.last.distinct
  exact absurd (h 0 1 (by decide +kernel) (by decide +kernel) (by decide +kernel)) (by decide)

end TcpChat.Server

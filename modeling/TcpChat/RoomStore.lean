import TcpChat.Base.Simulation
import TcpChat.RoomInvariant

/-!
# The room table as a store

What the room manager is for: a finite map from room ids to sets of clients. While a drawn id
is never that of an active room, the table of slots behaves as this map, reply by reply.
-/

namespace TcpChat.Server

open Base Base.Runs Base.Slots Base.Simulation
set_option autoImplicit false

/-- The map holds the ids of the active rooms, each with the clients that the room lists. -/
structure Holds (manager : RoomManager) (store : Groups CString Int) : Prop where
  keys_iff : ∀ k, k ∈ store.keys ↔
    ∃ i, (manager.rooms i).isActive = true ∧ (manager.rooms i).roomId = k
  members_iff : ∀ i, (manager.rooms i).isActive = true →
    ∀ d, d ∈ store.members (manager.rooms i).roomId ↔ 0 ≤ d ∧ Lists (manager.rooms i) d

/-- What relates the table to the map it stands for. -/
structure Represents (manager : RoomManager) (store : Groups CString Int) : Prop where
  table : TableOk manager
  distinct : DistinctIds manager
  holds : Holds manager store

/-- The call as an operation on the map. The id of a new room is the one that is drawn. -/
def RoomOp.groupOp : RoomOp → GroupOp CString Int
  | .create libc now _ creatorClientId => .create (roomGenerateId libc now) creatorClientId
  | .join roomId clientId => .join roomId clientId
  | .leave roomId clientId => .leave roomId clientId

/-- The call is for a client, and an id drawn in it is not that of an active room. -/
def RoomOp.Regular (manager : RoomManager) : RoomOp → Prop
  | .create libc now _ creatorClientId =>
    0 ≤ creatorClientId ∧ FreshId libc now manager
  | .join _ clientId | .leave _ clientId => 0 ≤ clientId

/-- A step of the map: at most 50 rooms, at most 20 clients in each. -/
abbrev storeStep : Groups CString Int → GroupOp CString Int →
    Groups CString Int × GroupReply CString :=
  Groups.step maxRooms maxClientsPerRoom

section Holds
variable {manager : RoomManager} {store : Groups CString Int} {i : Fin maxRooms}

theorem Holds.initial (memory : RoomManager) : Holds (roomManagerInitialize memory) .empty := by
  have hnone : ∀ i, ((roomManagerInitialize memory).rooms i).isActive ≠ true :=
    fun _ => Bool.false_ne_true
  constructor
  · intro k
    simp [hnone]
  · intro i hi
    exact absurd hi (hnone i)

/-- Slot `i` is rewritten, and `k` is or becomes the id of no other room: the map changes
at `k` alone. -/
theorem Holds.update (h : Holds manager store) {room : Room} {count : Int} {k : CString}
    {ms : Finset Int}
    (hslot : (manager.rooms i).isActive = true → (manager.rooms i).roomId = k)
    (hother : ∀ l, l ≠ i → (manager.rooms l).isActive = true → (manager.rooms l).roomId ≠ k)
    (hactive : room.isActive = true ↔ ms.Nonempty)
    (hroom : room.isActive = true →
      room.roomId = k ∧ ∀ d, d ∈ ms ↔ 0 ≤ d ∧ Lists room d) :
    Holds { rooms := Function.update manager.rooms i room, roomCount := count }
      (store.set k ms) := by
  constructor
  · intro l
    rw [Groups.mem_keys_set_iff, h.keys_iff]
    constructor
    · intro hl
      rcases hl with ⟨rfl, hms⟩ | ⟨hne, j, hj, hid⟩
      · have hopen := hactive.mpr hms
        exact ⟨i, by simpa using hopen, by simpa using (hroom hopen).1⟩
      · have hji : j ≠ i := by
          intro heq
          rw [heq] at hj hid
          exact hne (hid.symm.trans (hslot hj))
        exact ⟨j, by simpa [hji] using hj, by simpa [hji] using hid⟩
    · intro hl
      obtain ⟨j, hj, hid⟩ := hl
      by_cases hji : j = i
      · rw [hji] at hj hid
        simp only [Function.update_self] at hj hid
        exact Or.inl ⟨hid.symm.trans (hroom hj).1, hactive.mp hj⟩
      · simp only [Function.update_of_ne hji] at hj hid
        exact Or.inr ⟨hid ▸ hother j hji hj, j, hj, hid⟩
  · intro j hj d
    by_cases hji : j = i
    · rw [hji] at hj ⊢
      simp only [Function.update_self] at hj ⊢
      rw [(hroom hj).1, Groups.members_set, if_pos rfl]
      exact (hroom hj).2 d
    · simp only [Function.update_of_ne hji] at hj ⊢
      rw [Groups.members_set, if_neg (hother j hji hj)]
      exact h.members_iff j hj d

end Holds

section Counts
variable {manager : RoomManager} {store : Groups CString Int}

theorem Represents.card_keys (h : Represents manager store) :
    manager.roomCount = store.keys.card := by
  have hkeys : store.keys = (Finset.univ.filter fun i => (manager.rooms i).isActive = true).image
      fun i => (manager.rooms i).roomId := by
    ext k
    rw [h.holds.keys_iff]
    simp only [Finset.mem_image, Finset.mem_filter, Finset.mem_univ, true_and]
  have hinj : Set.InjOn (fun i => (manager.rooms i).roomId)
      (Finset.univ.filter fun i => (manager.rooms i).isActive = true) := by
    intro i hi j hj heq
    simp only [Finset.coe_filter, Finset.mem_univ, true_and, Set.mem_ofPred_eq] at hi hj
    exact h.distinct i j hi hj heq
  rw [hkeys, Finset.card_image_of_injOn hinj, h.table.count_eq]
  rfl

theorem Represents.card_members (h : Represents manager store) {i : Fin maxRooms}
    (hi : (manager.rooms i).isActive = true) :
    (manager.rooms i).clientCount = (store.members (manager.rooms i).roomId).card := by
  have ok := h.table.room_ok i
  have hmembers : store.members (manager.rooms i).roomId =
      (Finset.univ.filter fun j => (manager.rooms i).clientIds j ≠ -1).image
        (manager.rooms i).clientIds := by
    ext d
    rw [h.holds.members_iff i hi]
    simp only [Finset.mem_image, Finset.mem_filter, Finset.mem_univ, true_and, Lists]
    constructor
    · intro hd
      obtain ⟨hpos, j, hj⟩ := hd
      exact ⟨j, by omega, hj⟩
    · intro hd
      obtain ⟨j, hused, hj⟩ := hd
      have hnonneg := (ok.entry_nonneg j).resolve_left hused
      exact ⟨by omega, j, hj⟩
  have hinj : Set.InjOn (manager.rooms i).clientIds
      (Finset.univ.filter fun j => (manager.rooms i).clientIds j ≠ -1) := by
    intro j hj k _ heq
    simp only [Finset.coe_filter, Finset.mem_univ, true_and, Set.mem_ofPred_eq] at hj
    exact ok.entries_distinct j k heq hj
  rw [hmembers, Finset.card_image_of_injOn hinj, ok.count_eq, occupancy_entryUsed]

theorem Represents.find (h : Represents manager store) {k : CString} (hk : k ∈ store.keys) :
    ∃ i, roomManagerFindRoom manager k = some i ∧ (manager.rooms i).isActive = true ∧
      (manager.rooms i).roomId = k := by
  obtain ⟨i, hi, rfl⟩ := (h.holds.keys_iff k).mp hk
  exact ⟨i, h.distinct.find hi, hi, rfl⟩

theorem Represents.found_mem (h : Represents manager store) {k : CString} {i : Fin maxRooms}
    (hi : roomManagerFindRoom manager k = some i) : k ∈ store.keys :=
  (h.holds.keys_iff k).mpr ⟨i, found_active hi, found_roomId hi⟩

theorem Represents.id_ne (h : Represents manager store) {k : CString} {i : Fin maxRooms}
    (hi : roomManagerFindRoom manager k = some i) :
    ∀ l, l ≠ i → (manager.rooms l).isActive = true → (manager.rooms l).roomId ≠ k := by
  intro l hl hactive heq
  exact hl (h.distinct l i hactive (found_active hi) (heq.trans (found_roomId hi).symm))

end Counts

theorem lists_newRoom_iff {roomId roomName : CString} {clientId d : Int} (hd : 0 ≤ d) :
    Lists (newRoom roomId roomName clientId) d ↔ d = clientId := by
  simp only [Lists, newRoom]
  constructor
  · intro h
    obtain ⟨j, hj⟩ := h
    by_cases hj0 : j = 0
    · rw [hj0, Function.update_self] at hj
      exact hj.symm
    · rw [Function.update_of_ne hj0] at hj
      omega
  · intro h
    exact ⟨0, by rw [Function.update_self, h]⟩

section Steps
variable {manager : RoomManager} {store : Groups CString Int} (h : Represents manager store)
include h

theorem Represents.create (libc : Libc) (now : Int) (roomName : CString) {clientId : Int}
    (hid : 0 ≤ clientId) (hfresh : FreshId libc now manager) :
    Represents (RoomOp.create libc now roomName clientId |>.call manager).1
        (storeStep store (.create (roomGenerateId libc now) clientId)).1 ∧
      (RoomOp.create libc now roomName clientId |>.call manager).2 =
        (storeStep store (.create (roomGenerateId libc now) clientId)).2 := by
  have hcard := h.card_keys
  have htable := h.table.create libc now roomName hid
  simp only [RoomOp.call]
  rcases roomManagerCreateRoom_cases h.table.count_eq libc now roomName clientId with
    ⟨hspace, i, hfree, _, heq⟩ | ⟨hfull, heq⟩
  · rw [heq, roomAddClient_initial _ _ _ hid] at htable ⊢
    rw [storeStep, Groups.step_create (by omega)]
    have hnew := hfresh hspace
    have hroomId : (newRoom (roomGenerateId libc now) roomName clientId).roomId =
        roomGenerateId libc now := take_roomGenerateId libc now
    refine ⟨⟨htable, ?_, ?_⟩, rfl⟩
    · rw [distinctIds_openRoom_iff h.distinct hfree rfl, hroomId]
      exact hnew
    · refine h.holds.update (by simp [hfree]) (fun l _ hl => hnew l hl) ?_ ?_
      · simp [newRoom]
      · intro _
        refine ⟨hroomId, fun d => ?_⟩
        rw [Finset.mem_singleton]
        constructor
        · intro hd
          exact ⟨hd ▸ hid, (lists_newRoom_iff (hd ▸ hid)).mpr hd⟩
        · intro hd
          exact (lists_newRoom_iff hd.1).mp hd.2
  · rw [heq, storeStep, Groups.step_create_of_full (by omega)]
    exact ⟨h, rfl⟩

theorem Represents.join (roomId : CString) {clientId : Int} (hid : 0 ≤ clientId) :
    Represents (RoomOp.join roomId clientId |>.call manager).1
        (storeStep store (.join roomId clientId)).1 ∧
      (RoomOp.join roomId clientId |>.call manager).2 =
        (storeStep store (.join roomId clientId)).2 := by
  have htable := h.table.join roomId clientId
  simp only [RoomOp.call]
  rcases roomManagerJoinRoom_cases h.table roomId clientId with
    ⟨i, hi, _, hnew, hspace, j, hfree, heq⟩ | ⟨hwhy, heq⟩
  · have hactive := found_active hi
    have hroomId := found_roomId hi
    have hcard := h.card_members hactive
    have hmembers := h.holds.members_iff i hactive
    rw [hroomId] at hcard hmembers
    have hout : clientId ∉ store.members roomId := fun hin => hnew ((hmembers clientId).mp hin).2
    rw [heq] at htable ⊢
    rw [storeStep, Groups.step_join ⟨h.found_mem hi, hout, by omega⟩]
    refine ⟨⟨htable, h.distinct.within (idsWithin_update fun _ => ⟨hactive, rfl⟩), ?_⟩, rfl⟩
    refine h.holds.update (fun _ => hroomId) (h.id_ne hi) ?_ ?_
    · simp [Room.insert, hactive]
    · intro _
      refine ⟨hroomId, fun d => ?_⟩
      rw [Finset.mem_insert, hmembers]
      constructor
      · intro hd
        rcases hd with rfl | ⟨hpos, hlists⟩
        · exact ⟨hid, (RoomOk.lists_insert_iff hfree hid).mpr (Or.inl rfl)⟩
        · exact ⟨hpos, (RoomOk.lists_insert_iff hfree hpos).mpr (Or.inr hlists)⟩
      · intro hd
        rcases (RoomOk.lists_insert_iff hfree hd.1).mp hd.2 with heq' | hlists
        · exact Or.inl heq'
        · exact Or.inr ⟨hd.1, hlists⟩
  · have hrefused : ¬ (roomId ∈ store.keys ∧ clientId ∉ store.members roomId ∧
        (store.members roomId).card < maxClientsPerRoom) := by
      intro hall
      obtain ⟨hkey, hout, hspace⟩ := hall
      obtain ⟨i, hi, hactive, rfl⟩ := h.find hkey
      have hcard := h.card_members hactive
      rcases hwhy i hi with hneg | hlists | hfull
      · omega
      · exact hout ((h.holds.members_iff i hactive clientId).mpr ⟨hid, hlists⟩)
      · omega
    rw [heq, storeStep, Groups.step_join_of_refused hrefused]
    exact ⟨h, rfl⟩

theorem Represents.leave (roomId : CString) {clientId : Int} (hid : 0 ≤ clientId) :
    Represents (RoomOp.leave roomId clientId |>.call manager).1
        (storeStep store (.leave roomId clientId)).1 ∧
      (RoomOp.leave roomId clientId |>.call manager).2 =
        (storeStep store (.leave roomId clientId)).2 := by
  have htable := h.table.leave roomId clientId
  have hdistinct := h.distinct.within (idsWithin_leave manager roomId clientId)
  simp only [RoomOp.call]
  rcases roomManagerLeaveRoom_cases h.table roomId clientId with
    ⟨i, j, hi, _, hj, hcases⟩ | ⟨hwhy, heq⟩
  · have hactive := found_active hi
    have hroomId := found_roomId hi
    have hcard := h.card_members hactive
    have hmembers := h.holds.members_iff i hactive
    rw [hroomId] at hcard hmembers
    have hin : clientId ∈ store.members roomId := (hmembers clientId).mpr ⟨hid, j, hj⟩
    have hless := Finset.card_erase_of_mem hin
    rw [storeStep, Groups.step_leave hin]
    rcases hcases with ⟨hmore, heq⟩ | ⟨hone, heq⟩
    · rw [heq] at htable hdistinct ⊢
      refine ⟨⟨htable, hdistinct, ?_⟩, rfl⟩
      refine h.holds.update (fun _ => hroomId) (h.id_ne hi) ?_ ?_
      · have hpos := Finset.card_pos.mpr ⟨clientId, hin⟩
        rw [← Finset.card_pos]
        simp only [Room.erase, hactive, true_iff]
        omega
      · intro _
        refine ⟨hroomId, fun d => ?_⟩
        rw [Finset.mem_erase, hmembers]
        constructor
        · intro hd
          exact ⟨hd.2.1, ((h.table.room_ok i).lists_erase_iff hd.2.1).mpr
            ⟨hj ▸ hd.1, hd.2.2⟩⟩
        · intro hd
          obtain ⟨hne, hlists⟩ := ((h.table.room_ok i).lists_erase_iff hd.1).mp hd.2
          exact ⟨hj ▸ hne, hd.1, hlists⟩
    · -- the last member: the room is closed, the map drops the id
      rw [heq] at htable hdistinct ⊢
      refine ⟨⟨htable, hdistinct, ?_⟩, rfl⟩
      refine h.holds.update (fun _ => hroomId) (h.id_ne hi) ?_ (fun hopen => ?_)
      · have hempty : (store.members roomId).erase clientId = ∅ := by
          apply Finset.card_eq_zero.mp
          omega
        simp [roomCleanup, hempty]
      · simp [roomCleanup] at hopen
  · have hout : clientId ∉ store.members roomId := by
      intro hin
      obtain ⟨i, hi, hactive, rfl⟩ := h.find (Groups.mem_keys_of_mem hin)
      rcases hwhy i hi with hneg | hnot
      · omega
      · exact hnot ((h.holds.members_iff i hactive clientId).mp hin).2
    rw [heq, storeStep, Groups.step_leave_of_absent hout]
    exact ⟨h, rfl⟩

/-- One call keeps the table in step with the map, and the caller is told the same. -/
theorem Represents.call (op : RoomOp) (hop : op.Regular manager) :
    Represents (op.call manager).1 (storeStep store op.groupOp).1 ∧
      (op.call manager).2 = (storeStep store op.groupOp).2 := by
  cases op with
  | create libc now roomName creatorClientId => exact h.create libc now roomName hop.1 hop.2
  | join roomId clientId => exact h.join roomId hop
  | leave roomId clientId => exact h.leave roomId hop

end Steps

theorem Represents.initial (memory : RoomManager) :
    Represents (roomManagerInitialize memory) .empty :=
  ⟨TableOk.initial memory, fun _ _ hi => absurd hi Bool.false_ne_true, Holds.initial memory⟩

/-- Through any calls that draw unused ids the table of slots stays the map, and every reply
is the reply of the map. -/
theorem rooms_refine_groups (memory : RoomManager) (ops : List RoomOp)
    (h : EachStep RoomOp.step (fun manager op => op.Regular manager)
      (roomManagerInitialize memory) ops) :
    Represents (run RoomOp.step (roomManagerInitialize memory) ops)
        (run (fun store op => (storeStep store op).1) .empty (ops.map RoomOp.groupOp)) ∧
      replies (fun manager op => op.call manager) (roomManagerInitialize memory) ops =
        replies storeStep .empty (ops.map RoomOp.groupOp) :=
  simulates (fun _ _ op hrep hop => hrep.call op hop) (Represents.initial memory) h

/-- Two rooms, a second member in the first one, which is then left by both. -/
theorem rooms_refine_groups_six :
    replies (fun manager op => RoomOp.call manager op)
        (roomManagerInitialize zeroedMemory.roomManager)
        [.create countingLibc 0 "den" 3, .create countingLibc 1 "pit" 4, .join "456789" 5,
          .leave "456789" 3, .leave "456789" 5, .join "456789" 5] =
      replies storeStep .empty
        [.create (roomGenerateId countingLibc 0) 3, .create (roomGenerateId countingLibc 1) 4,
          .join "456789" 5, .leave "456789" 3, .leave "456789" 5, .join "456789" 5] := by
  refine (rooms_refine_groups zeroedMemory.roomManager
    [.create countingLibc 0 "den" 3, .create countingLibc 1 "pit" 4, .join "456789" 5,
      .leave "456789" 3, .leave "456789" 5, .join "456789" 5] ?_).2
  simp only [eachStep_cons, eachStep_nil, and_true]
  refine ⟨⟨by decide, fun _ i hi => ?_⟩, ⟨by decide, fun _ i hi => ?_⟩, ?_⟩
  · exact absurd hi Bool.false_ne_true
  · revert i
    decide +kernel
  · simp only [RoomOp.Regular]
    omega

end TcpChat.Server

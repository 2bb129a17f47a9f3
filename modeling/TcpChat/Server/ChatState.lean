import TcpChat.PostingRights
import TcpChat.RoomStore
import TcpChat.Base.Chat

/-!
# The chat behind the tables

The session table and the room table each say who is in which room. `Agrees` reads both as the
state of one chat service, in which a user is in at most one room by construction.
-/

namespace TcpChat.Server

open Base
set_option autoImplicit false

abbrev ChatState := Chat Slot CString CString

/-- A slot as a client id. -/
def slotId : Slot ↪ Int := ⟨fun c => (c : Int), fun c d h => Fin.ext (by dsimp only at h; omega)⟩

structure SessionsAgree (sessions : Slot → ClientSession) (a : ChatState) : Prop where
  name : ∀ c, a.name c = if (sessions c).active then some (sessions c).nickname else none
  room : ∀ c, a.room c =
    if (sessions c).active && (sessions c).hasRoom then some (sessions c).currentRoomId else none

structure RoomsAgree (manager : RoomManager) (a : ChatState) : Prop where
  title : ∀ i, (manager.rooms i).isActive = true →
    a.title (manager.rooms i).roomId = (manager.rooms i).roomName
  table : Represents manager (a.groups.map slotId)

structure Agrees (s : State) (a : ChatState) : Prop where
  sessions : SessionsAgree s.session a
  rooms : RoomsAgree s.roomManager a

section Views
variable {manager : RoomManager} {a : ChatState} (h : RoomsAgree manager a)
include h

theorem RoomsAgree.lists_iff {i : Fin maxRooms} (hi : (manager.rooms i).isActive = true)
    (d : Slot) :
    Lists (manager.rooms i) (d : Int) ↔ a.room d = some (manager.rooms i).roomId := by
  have hmembers := h.table.holds.members_iff i hi (slotId d)
  rw [Groups.members_map, Finset.mem_map', Chat.members_groups, Chat.mem_members_iff] at hmembers
  rw [hmembers]
  exact (and_iff_right (Int.natCast_nonneg _)).symm

/-- A room that somebody is in is found under its id. -/
theorem RoomsAgree.find {d : Slot} {k : CString} (hd : a.room d = some k) :
    ∃ i, roomManagerFindRoom manager k = some i ∧ (manager.rooms i).isActive = true ∧
      (manager.rooms i).roomId = k :=
  h.table.find (a.mem_openRooms_iff.mpr ⟨d, hd⟩)

theorem RoomsAgree.roomCount_eq : manager.roomCount = a.openRooms.card := h.table.card_keys

theorem RoomsAgree.clientCount_eq {i : Fin maxRooms} (hi : (manager.rooms i).isActive = true) :
    (manager.rooms i).clientCount = (a.members (manager.rooms i).roomId).card := by
  rw [h.table.card_members hi, Groups.members_map, Finset.card_map]
  rfl

theorem RoomsAgree.title_of_find {k : CString} {i : Fin maxRooms}
    (hi : roomManagerFindRoom manager k = some i) :
    (manager.rooms i).roomName = a.title k := by
  rw [← h.title i (found_active hi), found_roomId hi]

omit h in
theorem RoomsAgree.congr {b : ChatState} (h : RoomsAgree manager a) (hroom : b.room = a.room)
    (htitle : b.title = a.title) : RoomsAgree manager b := by
  refine ⟨fun i hi => ?_, ?_⟩
  · rw [htitle]
    exact h.title i hi
  · rw [Chat.groups_congr hroom]
    exact h.table

end Views

section Targets
variable {s : State} {a : ChatState} (h : Agrees s a)
include h

omit h in
/-- Nothing but the two tables is read. -/
theorem Agrees.of_tables {s' : State} (h : Agrees s a) (hsession : s'.session = s.session)
    (hrooms : s'.roomManager = s.roomManager) : Agrees s' a := by
  constructor
  · rw [hsession]
    exact h.sessions
  · rw [hrooms]
    exact h.rooms

theorem Agrees.name_of_active {c : Slot} (hc : (s.session c).active = true) :
    a.name c = some (s.session c).nickname := by
  rw [h.sessions.name, if_pos hc]

theorem Agrees.active_iff (c : Slot) : (s.session c).active = true ↔ (a.name c).isSome = true := by
  rw [h.sessions.name]
  cases (s.session c).active <;> simp

theorem Agrees.room_of_hasRoom {c : Slot} (hc : (s.session c).active = true)
    (hroom : (s.session c).hasRoom = true) : a.room c = some (s.session c).currentRoomId := by
  rw [h.sessions.room, hc, hroom]
  rfl

theorem Agrees.room_of_not_hasRoom {c : Slot} (hroom : (s.session c).hasRoom = false) :
    a.room c = none := by
  rw [h.sessions.room, hroom, Bool.and_false]
  rfl

theorem Agrees.active_of_room {c : Slot} {k : CString} (hc : a.room c = some k) :
    (s.session c).active = true := by
  rw [h.active_iff]
  exact a.online c (by rw [hc]; rfl)

/-- A broadcast to a room reaches those who are in it, its sender left out. -/
theorem Agrees.mem_roomTargets_iff (k : CString) (senderId : Int) (d : Slot) :
    d ∈ roomTargets s k senderId ↔ (d : Int) ≠ senderId ∧ a.room d = some k := by
  rw [Server.mem_roomTargets_iff]
  constructor
  · intro hd
    obtain ⟨r, hr, hlists, hne, _⟩ := hd
    rw [h.rooms.lists_iff (found_active hr), found_roomId hr] at hlists
    exact ⟨hne, hlists⟩
  · intro hd
    obtain ⟨hne, hroom⟩ := hd
    obtain ⟨r, hr, hactive, hid⟩ := h.rooms.find hroom
    refine ⟨r, hr, ?_, hne, h.active_of_room hroom⟩
    rw [h.rooms.lists_iff hactive, hid]
    exact hroom

/-- Who is in a room stands in it, and nobody else does. -/
theorem Agrees.member_iff (i : Fin maxRooms) (c : Slot) :
    Member s.roomManager i (c : Int) ↔ (s.roomManager.rooms i).isActive = true ∧
      a.room c = some (s.roomManager.rooms i).roomId :=
  and_congr_right fun hi => h.rooms.lists_iff hi c

end Targets

section Sessions
variable {sessions : Slot → ClientSession} {a : ChatState} (h : SessionsAgree sessions a)
  {c : Slot}
include h

/-- The session of `c` is rewritten, and `b` differs from `a` at `c` alone. -/
theorem SessionsAgree.update {b : ChatState} {v : ClientSession}
    (hname : b.name = Function.update a.name c (if v.active then some v.nickname else none))
    (hroom : b.room = Function.update a.room c
      (if v.active && v.hasRoom then some v.currentRoomId else none)) :
    SessionsAgree (Function.update sessions c v) b := by
  constructor
  · intro d
    rw [hname, Function.update_apply, Function.update_apply]
    split
    · rfl
    · exact h.name d
  · intro d
    rw [hroom, Function.update_apply, Function.update_apply]
    split
    · rfl
    · exact h.room d

theorem SessionsAgree.leave (hc : (sessions c).active = true) :
    SessionsAgree (Function.update sessions c
      { sessions c with currentRoomId := .empty, state := .inLobby }) (a.leave c) := by
  apply h.update
  · have hname := h.name c
    rw [if_pos hc] at hname
    dsimp only
    rw [if_pos hc, ← hname, Function.update_eq_self]
    rfl
  · have hroom : ({ sessions c with currentRoomId := .empty, state := .inLobby } :
        ClientSession).hasRoom = false := rfl
    rw [hroom, Bool.and_false]
    rfl

theorem SessionsAgree.enter (hc : (sessions c).active = true) {k : CString}
    (hk : k.length = roomIdLength) :
    SessionsAgree (Function.update sessions c ((sessions c).enterRoom k))
      ((a.leave c).enter c k) := by
  have hwhole : k.take roomIdLength = k := CString.take_of_length_le (Nat.le_of_eq hk)
  have hname := h.name c
  rw [if_pos hc] at hname
  apply h.update
  · simp only [ClientSession.enterRoom, hc, if_true]
    rw [← hname, Function.update_eq_self]
    rfl
  · have hroom : ((sessions c).enterRoom k).hasRoom = true := by
      change (true && decide (0 < (k.take roomIdLength).length)) = true
      rw [hwhole, hk]
      rfl
    rw [hroom]
    simp only [ClientSession.enterRoom, hc, hwhole, Chat.enter, Chat.leave, hname, Option.isSome_some,
      if_true, Bool.and_true, Function.update_idem]

theorem SessionsAgree.rename (hc : (sessions c).active = true) (nickname : CString) :
    SessionsAgree (Function.update sessions c { sessions c with nickname := nickname })
      (a.rename c nickname) := by
  apply h.update
  · dsimp only
    rw [if_pos hc]
    rfl
  · change a.room = Function.update a.room c (if (sessions c).active && (sessions c).hasRoom then
      some (sessions c).currentRoomId else none)
    rw [← h.room c, Function.update_eq_self]

end Sessions

section Leave
variable {s : State} {a : ChatState} (h : Agrees s a) {c : Slot}
  (hc : (s.session c).active = true)
include h hc

/-- Leaving the current room takes the user out of its group. -/
theorem Agrees.leaveCurrent : RoomsAgree (leaveCurrentRoom s c).roomManager (a.leave c) := by
  constructor
  · have htitle := h.rooms.title
    intro i hi
    change a.title _ = _
    rcases leaveCurrentRoom_cases h.rooms.table.table with
      ⟨_, heq⟩ | ⟨k, j, _, hk, _, ⟨_, heq⟩ | ⟨_, heq⟩⟩
    · rw [heq] at hi ⊢
      exact htitle i hi
    · rw [heq] at hi ⊢
      by_cases hik : i = k
      · subst hik
        simp only [RoomManager.setRoom, Function.update_self, Room.erase]
        exact htitle i hk
      · simp only [RoomManager.setRoom, Function.update_of_ne hik] at hi ⊢
        exact htitle i hi
    · rw [heq] at hi ⊢
      by_cases hik : i = k
      · subst hik
        simp [RoomManager.closeRoom, roomCleanup] at hi
      · simp only [RoomManager.closeRoom, Function.update_of_ne hik] at hi ⊢
        exact htitle i hi
  · cases hroom : (s.session c).hasRoom with
    | false =>
      rw [leaveCurrentRoom_of_not_hasRoom hroom, Chat.leave_of_outside (h.room_of_not_hasRoom hroom)]
      exact h.rooms.table
    | true =>
      have hin := h.room_of_hasRoom hc hroom
      have hmember : (c : Int) ∈ (a.groups.map slotId).members (s.session c).currentRoomId :=
        (Finset.mem_map' slotId).mpr (a.mem_members_iff.mpr hin)
      have hleft := (h.rooms.table.leave (s.session c).currentRoomId (Int.natCast_nonneg c)).1
      rw [storeStep, Groups.step_leave hmember, Groups.members_map] at hleft
      rw [leaveCurrentRoom_of_hasRoom hroom, Chat.groups_leave hin, ← Groups.set_map,
        Finset.map_erase]
      exact hleft

end Leave

section Enter
variable {manager : RoomManager} {b : ChatState} (h : RoomsAgree manager b) {c : Slot}
  (hname : (b.name c).isSome = true) (hroom : b.room c = none)
include h hname hroom

/-- A user in no room that asks for a new one gets it exactly when there is space. -/
theorem RoomsAgree.create {libc : Libc} {now : Int} {roomName : CString}
    (hvalid : ValidRoomName roomName) (hfresh : FreshId libc now manager) :
    (b.openRooms.card < maxRooms ∧ ∃ rooms,
      roomManagerCreateRoom libc now manager roomName c =
        (rooms, some (roomGenerateId libc now)) ∧
      RoomsAgree rooms ((b.enter c (roomGenerateId libc now)).entitle (roomGenerateId libc now)
        roomName)) ∨
    (¬ b.openRooms.card < maxRooms ∧
      roomManagerCreateRoom libc now manager roomName c = (manager, none)) := by
  have hcount := h.roomCount_eq
  have hid : (0 : Int) ≤ c := Int.natCast_nonneg c
  rcases roomManagerCreateRoom_cases h.table.table.count_eq libc now roomName c with
    ⟨hspace, i, hfree, _, heq⟩ | ⟨hfull, heq⟩
  · rw [roomAddClient_initial _ _ _ hid] at heq
    have hnew := hfresh hspace
    have hshort : roomName.take (maxRoomName - 1) = roomName :=
      CString.take_of_length_le (Nat.le_sub_one_of_lt hvalid.2)
    refine Or.inl ⟨by omega, _, heq, fun k hk => ?_, ?_⟩
    · change Function.update b.title _ _ _ = _
      by_cases hki : k = i
      · subst hki
        simp only [RoomManager.openRoom, Function.update_self, newRoom, take_roomGenerateId, hshort]
      · simp only [RoomManager.openRoom, Function.update_of_ne hki] at hk ⊢
        rw [Function.update_of_ne (hnew k hk)]
        exact h.title k hk
    · have hempty : b.members (roomGenerateId libc now) = ∅ := by
        rw [Finset.eq_empty_iff_forall_notMem]
        intro d hd
        obtain ⟨k, _, hk, hidk⟩ := h.find (b.mem_members_iff.mp hd)
        exact hnew k hk hidk
      have hcreated := (h.table.create libc now roomName hid hfresh).1
      rw [storeStep, Groups.step_create (by rw [Groups.keys_map, Chat.keys_groups]; omega)]
        at hcreated
      simp only [RoomOp.call, heq] at hcreated
      have htitled : ((b.enter c (roomGenerateId libc now)).entitle (roomGenerateId libc now)
          roomName).groups = (b.enter c (roomGenerateId libc now)).groups := Chat.groups_congr rfl
      rw [htitled, Chat.groups_enter hname hroom, ← Groups.set_map, hempty, insert_empty_eq,
        Finset.map_singleton]
      exact hcreated
  · exact Or.inr ⟨by omega, heq⟩

/-- A user in no room that asks for an open room gets in exactly when it is not full. -/
theorem RoomsAgree.join (k : CString) :
    ((k ∈ b.openRooms ∧ (b.members k).card < maxClientsPerRoom) ∧ ∃ rooms,
      roomManagerJoinRoom manager k c = (rooms, 0) ∧ RoomsAgree rooms (b.enter c k)) ∨
    (¬ (k ∈ b.openRooms ∧ (b.members k).card < maxClientsPerRoom) ∧
      roomManagerJoinRoom manager k c = (manager, -1)) := by
  have hid : (0 : Int) ≤ c := Int.natCast_nonneg c
  have hout : slotId c ∉ (b.groups.map slotId).members k := by
    rw [Groups.members_map, Finset.mem_map', Chat.members_groups, Chat.mem_members_iff, hroom]
    exact fun heq => by cases heq
  obtain ⟨htable, hreply⟩ := h.table.join k hid
  by_cases hopen : k ∈ b.openRooms ∧ (b.members k).card < maxClientsPerRoom
  · have hgranted : k ∈ (b.groups.map slotId).keys ∧ (c : Int) ∉ (b.groups.map slotId).members k ∧
        ((b.groups.map slotId).members k).card < maxClientsPerRoom :=
      ⟨hopen.1, hout, by rw [Groups.members_map, Finset.card_map]; exact hopen.2⟩
    rw [storeStep, Groups.step_join hgranted] at htable hreply
    have hresult : (roomManagerJoinRoom manager k c).2 = 0 := GroupReply.code.inj hreply
    refine Or.inl ⟨hopen, (roomManagerJoinRoom manager k c).1, Prod.ext rfl hresult, ?_, ?_⟩
    · obtain ⟨i, j, hi, _, heq⟩ := h.table.table.of_join (Prod.mk.eta (p := roomManagerJoinRoom
        manager k c)).symm (Int.le_of_eq hresult.symm)
      intro l hl
      change b.title _ = _
      rw [heq] at hl ⊢
      by_cases hli : l = i
      · subst hli
        simp only [RoomManager.setRoom, Function.update_self, Room.insert]
        exact h.title l (found_active hi)
      · simp only [RoomManager.setRoom, Function.update_of_ne hli] at hl ⊢
        exact h.title l hl
    · rw [Chat.groups_enter hname hroom, ← Groups.set_map, Finset.map_insert]
      exact htable
  · have hrefused : ¬ (k ∈ (b.groups.map slotId).keys ∧
        (c : Int) ∉ (b.groups.map slotId).members k ∧
        ((b.groups.map slotId).members k).card < maxClientsPerRoom) := by
      intro hall
      obtain ⟨hkey, _, hspace⟩ := hall
      rw [Groups.members_map, Finset.card_map] at hspace
      exact hopen ⟨hkey, hspace⟩
    rw [storeStep, Groups.step_join_of_refused hrefused] at hreply
    have hresult : (roomManagerJoinRoom manager k c).2 = -1 := GroupReply.code.inj hreply
    have hsame := h.table.table.of_join_refused (Prod.mk.eta (p := roomManagerJoinRoom
      manager k c)).symm (by omega)
    exact Or.inr ⟨hopen, Prod.ext hsame hresult⟩

end Enter

end TcpChat.Server

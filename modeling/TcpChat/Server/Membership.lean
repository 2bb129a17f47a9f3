import TcpChat.Server.Operations

/-!
# Who is in which room

`RoomsOk` is what the room table keeps by itself while generated ids are fresh. `Entered` ties
it to the sessions: whoever stands in a room has entered it.
-/

namespace TcpChat.Server

open Base
set_option autoImplicit false

structure RoomsOk (manager : RoomManager) : Prop where
  table : TableOk manager
  distinct : DistinctIds manager
  long : ∀ i, (manager.rooms i).isActive = true → (manager.rooms i).roomId.length = roomIdLength

/-- Every slot number in an active room is that of an active session in this very room. -/
def Entered (sessions : Slot → ClientSession) (manager : RoomManager) : Prop :=
  ∀ i clientId, Member manager i clientId → clientId ≠ -1 →
    ∃ c : Slot, clientId = (c : Int) ∧ (sessions c).active = true ∧
      (sessions c).state = .inRoom ∧ (sessions c).currentRoomId = (manager.rooms i).roomId

theorem TableOk.mem_nonneg {manager : RoomManager} (ok : TableOk manager) {i : Fin maxRooms}
    {clientId : Int} (h : Member manager i clientId) (hne : clientId ≠ -1) : 0 ≤ clientId := by
  obtain ⟨j, hj⟩ := h.2
  rcases (ok.room_ok i).entry_nonneg j with hfree | hused <;> omega

theorem RoomsOk.initial (manager : RoomManager) : RoomsOk (roomManagerInitialize manager) :=
  ⟨TableOk.initial manager, fun _ _ hi => absurd hi Bool.false_ne_true,
    fun _ hi => absurd hi Bool.false_ne_true⟩

section Rooms
variable {manager : RoomManager} (ok : RoomsOk manager)
include ok

theorem RoomsOk.within {manager' : RoomManager} (htable : TableOk manager')
    (hsub : IdsWithin manager' manager) : RoomsOk manager' := by
  refine ⟨htable, ok.distinct.within hsub, fun i hi => ?_⟩
  obtain ⟨hactive, hid⟩ := hsub i hi
  rw [hid]
  exact ok.long i hactive

theorem RoomsOk.leave (roomId : CString) (clientId : Int) :
    RoomsOk (roomManagerLeaveRoom manager roomId clientId).1 :=
  ok.within (ok.table.leave roomId clientId) (idsWithin_leave _ _ _)

theorem RoomsOk.join (roomId : CString) (clientId : Int) :
    RoomsOk (roomManagerJoinRoom manager roomId clientId).1 :=
  ok.within (ok.table.join roomId clientId) (idsWithin_join _ _ _)

theorem RoomsOk.create_cases (libc : Libc) (now : Int) (roomName : CString) (c : Slot)
    (hfresh : FreshId libc now manager) :
    (manager.roomCount < maxRooms ∧ ∃ i, (manager.rooms i).isActive = false ∧
      roomManagerCreateRoom libc now manager roomName c =
        (manager.openRoom i (newRoom (roomGenerateId libc now) roomName c),
          some (roomGenerateId libc now)) ∧
      RoomsOk (manager.openRoom i (newRoom (roomGenerateId libc now) roomName c))) ∨
    (maxRooms ≤ manager.roomCount ∧
      roomManagerCreateRoom libc now manager roomName c = (manager, none)) := by
  have hc : (0 : Int) ≤ c := by omega
  rcases roomManagerCreateRoom_cases ok.table.count_eq libc now roomName c with
    ⟨hroom, i, hfree, _, heq⟩ | hfull
  · rw [roomAddClient_initial _ _ _ hc] at heq
    refine Or.inl ⟨hroom, i, hfree, heq, ok.table.openRoom hfree hc, ?_, ?_⟩
    · apply (distinctIds_openRoom_iff ok.distinct hfree rfl).mpr
      rw [newRoom, take_roomGenerateId]
      exact hfresh hroom
    · intro k hk
      by_cases hki : k = i
      · subst hki
        simp [RoomManager.openRoom, newRoom, take_roomGenerateId, length_roomGenerateId]
      · simp only [RoomManager.openRoom, Function.update_of_ne hki] at hk ⊢
        exact ok.long k hk
  · exact Or.inr hfull

/-- A table that takes no further room is left as it is. -/
theorem RoomsOk.of_create_none {rooms : RoomManager} {libc : Libc} {now : Int}
    {roomName : CString} {c : Slot} (hfresh : FreshId libc now manager)
    (heq : roomManagerCreateRoom libc now manager roomName c = (rooms, none)) :
    rooms = manager ∧ maxRooms ≤ manager.roomCount := by
  rcases ok.create_cases libc now roomName c hfresh with ⟨_, i, _, heq', _⟩ | ⟨hfull, heq'⟩
  · cases heq.symm.trans heq'
  · cases heq.symm.trans heq'
    exact ⟨rfl, hfull⟩

/-- A room that has been created is in a slot that was free. -/
theorem RoomsOk.of_create_some {rooms : RoomManager} {libc : Libc} {now : Int}
    {roomName roomId : CString} {c : Slot} (hfresh : FreshId libc now manager)
    (heq : roomManagerCreateRoom libc now manager roomName c = (rooms, some roomId)) :
    manager.roomCount < maxRooms ∧ roomId = roomGenerateId libc now ∧
      ∃ i, (manager.rooms i).isActive = false ∧
        rooms = manager.openRoom i (newRoom (roomGenerateId libc now) roomName c) := by
  rcases ok.create_cases libc now roomName c hfresh with ⟨hspace, i, hfree, heq', _⟩ | ⟨_, heq'⟩
  · cases heq.symm.trans heq'
    exact ⟨hspace, rfl, i, hfree, rfl⟩
  · cases heq.symm.trans heq'

/-- With an id of six characters a session in a room passes the test for being in one. -/
theorem RoomsOk.hasRoom {i : Fin maxRooms} (hi : (manager.rooms i).isActive = true)
    {session : ClientSession} (hstate : session.state = .inRoom)
    (hid : session.currentRoomId = (manager.rooms i).roomId) : session.hasRoom = true := by
  have hlen := ok.long i hi
  simp [ClientSession.hasRoom, hstate, hid, hlen, roomIdLength]

theorem RoomsOk.create (libc : Libc) (now : Int) (roomName : CString) (c : Slot)
    (hfresh : FreshId libc now manager) :
    RoomsOk (roomManagerCreateRoom libc now manager roomName c).1 := by
  rcases ok.create_cases libc now roomName c hfresh with ⟨_, i, _, heq, hok⟩ | ⟨_, heq⟩
  · rw [heq]
    exact hok
  · rw [heq]
    exact ok

end Rooms

section Leave
variable {s : State} {c : Slot}

theorem leaveCurrentRoom_of_hasRoom (h : (s.session c).hasRoom = true) :
    (leaveCurrentRoom s c).roomManager =
      (roomManagerLeaveRoom s.roomManager (s.session c).currentRoomId c).1 := by
  rw [leaveCurrentRoom, if_pos h]
  rfl

theorem leaveCurrentRoom_of_not_hasRoom (h : (s.session c).hasRoom = false) :
    leaveCurrentRoom s c = s := by
  rw [leaveCurrentRoom, if_neg (by simp [h])]

/-- What `room_manager_leave_room` keeps is kept when the current room is left. -/
theorem leaveCurrentRoom_keeps {P : RoomManager → Prop} (h : P s.roomManager)
    (hleave : ∀ roomId, P (roomManagerLeaveRoom s.roomManager roomId c).1) :
    P (leaveCurrentRoom s c).roomManager := by
  cases hroom : (s.session c).hasRoom with
  | true =>
    rw [leaveCurrentRoom_of_hasRoom hroom]
    exact hleave _
  | false =>
    rw [leaveCurrentRoom_of_not_hasRoom hroom]
    exact h

theorem idsWithin_leaveCurrentRoom :
    IdsWithin (leaveCurrentRoom s c).roomManager s.roomManager := by
  apply leaveCurrentRoom_keeps (P := fun manager => IdsWithin manager s.roomManager)
  · exact idsWithin_refl _
  · exact fun roomId => idsWithin_leave _ _ _

variable (ok : RoomsOk s.roomManager)
include ok

theorem RoomsOk.leaveCurrent : RoomsOk (leaveCurrentRoom s c).roomManager :=
  leaveCurrentRoom_keeps ok fun roomId => ok.leave roomId c

/-- Leaving the current room takes the client out of every room, and nobody else. -/
theorem member_leaveCurrentRoom_iff (h : Entered s.session s.roomManager) {d : Int} (hd : 0 ≤ d)
    (i : Fin maxRooms) :
    Member (leaveCurrentRoom s c).roomManager i d ↔
      d ≠ c ∧ Member s.roomManager i d := by
  cases hroom : (s.session c).hasRoom with
  | true =>
    rw [leaveCurrentRoom_of_hasRoom hroom, member_leave_iff ok.table _ hd]
    constructor
    · intro hall
      obtain ⟨hmember, hnot⟩ := hall
      refine ⟨fun hdc => hnot ⟨hdc, ?_⟩, hmember⟩
      obtain ⟨c', hc', _, _, hid⟩ := h i d hmember (by omega)
      have hcc : c' = c := Fin.ext (by omega)
      rw [hcc] at hid
      rw [hid]
      exact ok.distinct.find hmember.1
    · intro hall
      obtain ⟨hne, hmember⟩ := hall
      exact ⟨hmember, fun hdc => hne hdc.1⟩
  | false =>
    rw [leaveCurrentRoom_of_not_hasRoom hroom]
    refine ⟨fun hmember => ⟨fun hdc => ?_, hmember⟩, And.right⟩
    obtain ⟨c', hc', _, hstate, hid⟩ := h i d hmember (by omega)
    have hcc : c' = c := Fin.ext (by omega)
    rw [hcc] at hstate hid
    rw [ok.hasRoom hmember.1 hstate hid] at hroom
    cases hroom

/-- After the client has left its room, its own session no longer matters. -/
theorem Entered.leave (h : Entered s.session s.roomManager) {sessions : Slot → ClientSession}
    (hothers : ∀ d, d ≠ c → sessions d = s.session d) :
    Entered sessions (leaveCurrentRoom s c).roomManager := by
  intro i clientId hmember hne
  have hid := ok.leaveCurrent.table.mem_nonneg hmember hne
  obtain ⟨hnc, hmember'⟩ := (member_leaveCurrentRoom_iff ok h hid i).mp hmember
  obtain ⟨d, hd, hactive, hstate, hroomId⟩ := h i clientId hmember' hne
  have hdc : d ≠ c := by
    intro heq
    subst heq
    exact hnc hd
  rw [← hothers d hdc] at hactive hstate hroomId
  exact ⟨d, hd, hactive, hstate,
    hroomId.trans (idsWithin_leaveCurrentRoom i hmember.1).2.symm⟩

end Leave

theorem Entered.member_unique {sessions : Slot → ClientSession} {manager : RoomManager}
    (h : Entered sessions manager) (hdistinct : DistinctIds manager) {i k : Fin maxRooms}
    {clientId : Int} (hi : Member manager i clientId) (hk : Member manager k clientId)
    (hne : clientId ≠ -1) : i = k := by
  obtain ⟨c, hc, _, _, hidi⟩ := h i clientId hi hne
  obtain ⟨d, hd, _, _, hidk⟩ := h k clientId hk hne
  have hcd : c = d := Fin.ext (by omega)
  subst hcd
  exact hdistinct i k hi.1 hk.1 (hidi.symm.trans hidk)

section Enter
variable {manager : RoomManager} {sessions : Slot → ClientSession} {c : Slot} {i : Fin maxRooms}

theorem Entered.openRoom (ok : RoomsOk manager) (h : Entered sessions manager)
    (hactive : (sessions c).active = true)
    (hstate : (sessions c).state = .inRoom) (hfree : (manager.rooms i).isActive = false)
    {roomId roomName : CString} (hid : (sessions c).currentRoomId = roomId.take roomIdLength) :
    Entered sessions (manager.openRoom i (newRoom roomId roomName c)) := by
  intro k clientId hmember hne
  have hc : (0 : Int) ≤ c := by omega
  have hnonneg := (ok.table.openRoom hfree hc).mem_nonneg hmember hne
  rcases (member_openRoom_iff ok.table hfree hnonneg).mp hmember with ⟨rfl, hclient⟩ | hold
  · exact ⟨c, hclient, hactive, hstate, by simpa [RoomManager.openRoom, newRoom] using hid⟩
  · obtain ⟨d, hd⟩ := h k clientId hold hne
    have hki : k ≠ i := by
      intro heq
      subst heq
      simp [Member, hfree] at hold
    refine ⟨d, ?_⟩
    simpa [RoomManager.openRoom, Function.update_of_ne hki] using hd

theorem Entered.insert (h : Entered sessions manager) (hactive : (sessions c).active = true)
    (hstate : (sessions c).state = .inRoom) {j : Fin maxClientsPerRoom}
    (hfree : (manager.rooms i).clientIds j = -1)
    (hid : (sessions c).currentRoomId = (manager.rooms i).roomId) :
    Entered sessions (manager.setRoom i ((manager.rooms i).insert j c)) := by
  intro k clientId hmember hne
  have hkeep : ((manager.rooms i).insert j (c : Int)).isActive = (manager.rooms i).isActive := rfl
  have hroomId : ((manager.setRoom i ((manager.rooms i).insert j c)).rooms k).roomId =
      (manager.rooms k).roomId := by
    by_cases hk : k = i
    · subst hk
      simp [RoomManager.setRoom, Room.insert]
    · simp [RoomManager.setRoom, hk]
  rw [hroomId]
  rcases (member_setRoom_iff hkeep).mp hmember with ⟨rfl, hopen, hlists⟩ | ⟨_, hold⟩
  · by_cases hclient : clientId = c
    · exact ⟨c, hclient, hactive, hstate, hid⟩
    · have hold : Lists (manager.rooms k) clientId := by
        obtain ⟨l, hl⟩ := hlists
        by_cases hlj : l = j
        · subst hlj
          exact absurd (by simpa [Room.insert] using hl.symm) hclient
        · exact ⟨l, by simpa [Room.insert, hlj] using hl⟩
      exact h k clientId ⟨hopen, hold⟩ hne
  · exact h k clientId hold hne

end Enter

/-- Taking sessions down keeps `Entered` exactly when none of them stands in an active room. -/
theorem entered_down_iff {sessions sessions' : Slot → ClientSession} {manager : RoomManager}
    (h : Entered sessions manager) {down : Slot → Prop}
    (hdown : ∀ d, down d → (sessions' d).active = false)
    (hkept : ∀ d, ¬ down d → (sessions d).active = true → (sessions d).state = .inRoom →
      (sessions' d).active = true ∧ (sessions' d).state = .inRoom ∧
        (sessions' d).currentRoomId = (sessions d).currentRoomId) :
    Entered sessions' manager ↔ ∀ d, down d → ∀ i, ¬ Member manager i (d : Int) := by
  constructor
  · intro h' d hd i hmember
    obtain ⟨c, hc, hactive, _⟩ := h' i d hmember (by omega)
    have hcd : c = d := Fin.ext (by omega)
    rw [hcd, hdown d hd] at hactive
    cases hactive
  · intro hout i clientId hmember hne
    obtain ⟨c, rfl, hactive, hstate, hid⟩ := h i clientId hmember hne
    obtain ⟨hactive', hstate', hid'⟩ := hkept c (fun hc => hout c hc i hmember) hactive hstate
    exact ⟨c, rfl, hactive', hstate', hid'.trans hid⟩

/-- Whoever is a member has an active session, and entering a room does not make it so. -/
theorem Entered.active_of_update {sessions : Slot → ClientSession} {manager : RoomManager}
    {c : Slot} {v : ClientSession} {i : Fin maxRooms}
    (h : Entered (Function.update sessions c v) manager) (hmember : Member manager i (c : Int))
    (hv : v.active = (sessions c).active) : (sessions c).active = true := by
  obtain ⟨d, hd, hactive, _⟩ := h i c hmember (by omega)
  obtain rfl : d = c := Fin.ext (by omega)
  rw [Function.update_self] at hactive
  exact hv.symm.trans hactive

theorem Entered.congr {sessions sessions' : Slot → ClientSession} {manager : RoomManager}
    (h : Entered sessions manager)
    (hkept : ∀ d, (sessions d).active = true → (sessions d).state = .inRoom →
      (sessions' d).active = true ∧ (sessions' d).state = .inRoom ∧
        (sessions' d).currentRoomId = (sessions d).currentRoomId) :
    Entered sessions' manager :=
  (@entered_down_iff _ _ _ h (fun _ => False) (fun _ => False.elim)
    (fun d _ => hkept d)).mpr fun _ => False.elim

/-- No session that the operation tears down stands in an active room. -/
def OutsideRooms (s : State) (op : Op) : Prop :=
  ∀ d, TearsDown s op d → ∀ i, ¬ Member s.roomManager i (d : Int)

/-- The request takes the client out of its room, to let it into another. -/
def AsksForRoom : Request → Prop
  | .create roomName => ValidRoomName roomName
  | .join roomId => roomId.length = roomIdLength
  | _ => False

instance (r : Request) : Decidable (AsksForRoom r) :=
  match r with
  | .create _ => inferInstanceAs (Decidable (ValidRoomName _))
  | .join _ => inferInstanceAs (Decidable (_ = _))
  | .leave | .nick _ | .users | .keyExchange _ | .e2eMessage _ | .chat _ | .nothing | .quit
  | .rooms | .help | .unknown => isFalse id

/-- What is left of the room table when client `c` is out of its room lets it in. -/
def Admits (s : State) (c : Slot) : Request → Prop
  | .create roomName => ValidRoomName roomName ∧
    (leaveCurrentRoom s c).roomManager.roomCount < maxRooms
  | .join roomId => roomId.length = roomIdLength ∧
    ∃ i, roomManagerFindRoom (leaveCurrentRoom s c).roomManager roomId = some i ∧
      ¬ Lists ((leaveCurrentRoom s c).roomManager.rooms i) c ∧
      ((leaveCurrentRoom s c).roomManager.rooms i).clientCount < maxClientsPerRoom
  | _ => False

section Request
variable {libc : Libc} {env : Env} {s : State} {c : Slot} {r : Request}
  {sessions : Slot → ClientSession} {rooms : RoomManager} (ok : RoomsOk s.roomManager)
  (hfresh : ∀ roomName, r = .create roomName → ValidRoomName roomName →
    FreshId libc env.now (leaveCurrentRoom s c).roomManager)
include ok hfresh

theorem RoomsOk.outcome (h : Outcome libc env s c r sessions rooms) : RoomsOk rooms := by
  have hleft : RoomsOk (leaveCurrentRoom s c).roomManager := ok.leaveCurrent
  cases h with
  | talk | announced | renamed => exact ok
  | @createRefused roomName _ hname heq | @created roomName _ _ hname heq =>
    have hcreate := hleft.create libc env.now roomName c (hfresh _ rfl hname)
    rw [heq] at hcreate
    exact hcreate
  | @joinRefused roomId _ _ _ heq | @joined roomId _ _ _ heq =>
    have hjoin := hleft.join roomId c
    rw [heq] at hjoin
    exact hjoin
  | left => exact hleft

/-- A request keeps `Entered` exactly when it evicts nobody out of a room, and lets nobody in
whose session has been torn down. -/
theorem entered_outcome_iff (hentered : Entered s.session s.roomManager)
    (h : Outcome libc env s c r sessions rooms) :
    Entered sessions rooms ↔
      (∀ d, Evicts env s c r d → ∀ i, ¬ Member s.roomManager i (d : Int)) ∧
        (Admits s c r → (s.session c).active = true) := by
  have hleft : RoomsOk (leaveCurrentRoom s c).roomManager := ok.leaveCurrent
  have hothers : ∀ v d, d ≠ c → Function.update s.session c v d = s.session d :=
    fun v d hd => Function.update_of_ne hd v s.session
  cases h with
  | talk hquiet =>
    refine iff_of_true hentered ⟨fun d hd => ?_, fun hadmits => ?_⟩
    · cases r <;> simp_all [Evicts, Quiet]
    · cases r <;> simp_all [Admits, Quiet]
  | announced hroom =>
    simp only [Evicts, Admits, hroom, true_and, false_implies, and_true]
    refine entered_down_iff hentered (fun d hd => ?_) (fun d hd => ?_)
    · rw [if_pos hd]
      rfl
    · rw [if_neg hd]
      exact fun h1 h2 => ⟨h1, h2, rfl⟩
  | renamed hname =>
    simp only [Evicts, Admits, ne_eq, hname, not_false_eq_true, true_and, false_implies, and_true]
    refine entered_down_iff hentered (fun d hd => ?_) (fun d hd => ?_)
    · rw [if_pos hd]
      rfl
    · rw [if_neg hd]
      split
      · rename_i hdc
        subst hdc
        exact fun h1 h2 => ⟨h1, h2, rfl⟩
      · exact fun h1 h2 => ⟨h1, h2, rfl⟩
  | @createRefused roomName _ hname heq =>
    obtain ⟨hsame, hfull⟩ := hleft.of_create_none (hfresh _ rfl hname) heq
    refine iff_of_true ?_ ⟨fun _ => False.elim, fun hadmits => absurd hadmits.2 (by omega)⟩
    rw [hsame]
    exact hentered.leave ok fun _ _ => rfl
  | @created roomName roomId _ hname heq =>
    obtain ⟨hspace, rfl, i, hfree, rfl⟩ := hleft.of_create_some (hfresh _ rfl hname) heq
    have hin : Member ((leaveCurrentRoom s c).roomManager.openRoom i
        (newRoom (roomGenerateId libc env.now) roomName c)) i (c : Int) :=
      (member_openRoom_iff hleft.table hfree (by omega)).mpr (Or.inl ⟨rfl, rfl⟩)
    constructor
    · intro hentered'
      exact ⟨fun _ => False.elim, fun _ => hentered'.active_of_update hin rfl⟩
    · intro hactive
      refine (hentered.leave ok (hothers _)).openRoom hleft ?_ ?_ hfree ?_
      · rw [Function.update_self]
        exact hactive.2 ⟨hname, hspace⟩
      · rw [Function.update_self]
        rfl
      · rw [Function.update_self]
        rfl
  | joinRefused hlen heq hresult =>
    refine iff_of_true ?_ ⟨fun _ => False.elim, fun hadmits => ?_⟩
    · rw [hleft.table.of_join_refused heq hresult]
      exact hentered.leave ok fun _ _ => rfl
    · exact absurd hadmits.2 (hleft.table.join_refused heq hresult)
  | joined hlen heq hresult =>
    obtain ⟨i, j, hi, hfree, rfl⟩ := hleft.table.of_join heq hresult
    have hin : Member ((leaveCurrentRoom s c).roomManager.setRoom i
        (((leaveCurrentRoom s c).roomManager.rooms i).insert j c)) i (c : Int) :=
      (member_insert_iff (found_active hi) hfree (by omega)).mpr (Or.inl ⟨rfl, rfl⟩)
    constructor
    · intro hentered'
      exact ⟨fun _ => False.elim, fun _ => hentered'.active_of_update hin rfl⟩
    · intro hactive
      refine (hentered.leave ok (hothers _)).insert ?_ ?_ hfree ?_
      · rw [Function.update_self]
        exact hactive.2 ⟨hlen, hleft.table.join_granted heq hresult⟩
      · rw [Function.update_self]
        rfl
      · rw [Function.update_self, found_roomId hi]
        exact CString.take_of_length_le (by omega)
  | left _ =>
    exact iff_of_true (hentered.leave ok (hothers _)) ⟨fun _ => False.elim, False.elim⟩

/-- Where a request leaves the members: the client is moved to a room, or taken out of all, or
nobody moves. -/
theorem member_outcome (hentered : Entered s.session s.roomManager)
    (h : Outcome libc env s c r sessions rooms) :
    (Admits s c r ∧ AsksForRoom r ∧ ∃ i, ∀ k (d : Int), 0 ≤ d →
      (Member rooms k d ↔ (k = i ∧ d = c) ∨ (d ≠ c ∧ Member s.roomManager k d))) ∨
    (¬ Admits s c r ∧ ∀ k (d : Int), 0 ≤ d →
      (Member rooms k d ↔ d ≠ c ∧ Member s.roomManager k d)) ∨
    (¬ Admits s c r ∧ ¬ AsksForRoom r ∧ rooms = s.roomManager) := by
  have hleft : RoomsOk (leaveCurrentRoom s c).roomManager := ok.leaveCurrent
  have hmember : ∀ k (d : Int), 0 ≤ d → (Member (leaveCurrentRoom s c).roomManager k d ↔
      d ≠ c ∧ Member s.roomManager k d) := fun k d hd => member_leaveCurrentRoom_iff ok hentered hd k
  cases h with
  | talk hquiet =>
    refine Or.inr (Or.inr ⟨?_, ?_, rfl⟩)
    · cases r <;> simp_all [Admits, Quiet]
    · cases r <;> simp_all [AsksForRoom, Quiet]
  | announced | renamed => exact Or.inr (Or.inr ⟨id, id, rfl⟩)
  | @createRefused roomName _ hname heq =>
    obtain ⟨rfl, hfull⟩ := hleft.of_create_none (hfresh _ rfl hname) heq
    exact Or.inr (Or.inl ⟨fun hadmits => absurd hadmits.2 (by omega), hmember⟩)
  | @created roomName roomId _ hname heq =>
    obtain ⟨hspace, rfl, i, hfree, rfl⟩ := hleft.of_create_some (hfresh _ rfl hname) heq
    refine Or.inl ⟨⟨hname, hspace⟩, hname, i, fun k d hd => ?_⟩
    rw [member_openRoom_iff hleft.table hfree hd, hmember k d hd]
  | joinRefused hlen heq hresult =>
    refine Or.inr (Or.inl ⟨fun hadmits => ?_, ?_⟩)
    · exact absurd hadmits.2 (hleft.table.join_refused heq hresult)
    · rw [hleft.table.of_join_refused heq hresult]
      exact hmember
  | joined hlen heq hresult =>
    have hgranted := hleft.table.join_granted heq hresult
    obtain ⟨i, j, hi, hfree, rfl⟩ := hleft.table.of_join heq hresult
    refine Or.inl ⟨⟨hlen, hgranted⟩, hlen, i, fun k d hd => ?_⟩
    rw [member_insert_iff (found_active hi) hfree hd, hmember k d hd]
  | left _ => exact Or.inr (Or.inl ⟨id, hmember⟩)

end Request

section Step
variable {libc : Libc} {s : State}

theorem outcome_message (env : Env) (c : Slot) (line : CString) :
    Outcome libc env s c (parse line) (chatProtocolHandleMessage libc env s c line).1.session
      (chatProtocolHandleMessage libc env s c line).1.roomManager := by
  rw [handleMessage_eq]
  exact outcome_perform libc env s c (parse line)

theorem freshIds_message {c : Slot} {line : CString} {env : Env}
    (h : FreshIds libc s (.message c line env)) (hserved : Served s c) (roomName : CString)
    (hparse : parse line = .create roomName) (hname : ValidRoomName roomName) :
    FreshId libc env.now (leaveCurrentRoom s c).roomManager := by
  simp only [FreshIds, hparse] at h
  exact h hserved hname

variable (ok : RoomsOk s.roomManager)
include ok

theorem RoomsOk.step (op : Op) (hfresh : FreshIds libc s op) :
    RoomsOk (op.step libc s).roomManager := by
  cases op with
  | connect socketFd created =>
    simp only [Op.step]
    split
    · rw [(accept_cases s socketFd created).2]
      exact ok
    · exact ok
  | enterLobby c =>
    simp only [Op.step]
    split <;> exact ok
  | message c line env =>
    simp only [Op.step]
    split
    · rename_i hserved
      exact ok.outcome (freshIds_message hfresh hserved) (outcome_message env c line)
    · exact ok
  | disconnect c env =>
    simp only [Op.step, roomManager_remove]
    exact ok

/-- An operation keeps `Entered` exactly when all it tears down is outside the rooms. -/
theorem entered_step_iff (op : Op) (hfresh : FreshIds libc s op)
    (hentered : Entered s.session s.roomManager) :
    Entered (op.step libc s).session (op.step libc s).roomManager ↔ OutsideRooms s op := by
  cases op with
  | connect socketFd created =>
    refine iff_of_true ?_ fun _ => False.elim
    simp only [Op.step]
    split
    · obtain ⟨hsessions, hrooms⟩ := accept_cases s socketFd created
      rw [hrooms]
      have hfree : ∀ i v, (s.session i).active = false →
          Entered (Function.update s.session i v) s.roomManager := by
        intro i v hi
        apply hentered.congr
        intro d hactive hstate
        have hdi : d ≠ i := by
          intro hsame
          subst hsame
          simp [hi] at hactive
        rw [Function.update_of_ne hdi]
        exact ⟨hactive, hstate, rfl⟩
      rcases hsessions with heq | ⟨i, hi, heq | heq⟩
      · rw [heq]
        exact hentered
      · rw [heq]
        exact hfree i _ hi
      · rw [heq]
        exact hfree i _ hi
    · exact hentered
  | enterLobby c =>
    refine iff_of_true ?_ fun _ => False.elim
    simp only [Op.step]
    split
    · rename_i hc
      apply hentered.congr
      intro d hactive hstate
      have hdc : d ≠ c := by
        intro hsame
        subst hsame
        rw [hstate] at hc
        exact absurd hc.2 (by decide)
      rw [chatProtocolAnnounceUserJoined, State.session_setSession_of_ne _ _ _ _ hdc]
      exact ⟨hactive, hstate, rfl⟩
    · exact hentered
  | message c line env =>
    simp only [Op.step, OutsideRooms, TearsDown]
    split
    · rename_i hserved
      simp only [hserved, true_and]
      have hiff := entered_outcome_iff ok (freshIds_message hfresh hserved) hentered
        (outcome_message env c line)
      rw [hiff]
      exact and_iff_left fun _ => hserved.active
    · rename_i hserved
      exact iff_of_true hentered fun d hd => absurd hd.1 hserved
  | disconnect c env =>
    simp only [Op.step, roomManager_remove, OutsideRooms, TearsDown]
    refine entered_down_iff hentered (fun d hd => ?_) (fun d hd hactive hstate => ?_)
    · rw [session_remove, if_pos hd]
      rfl
    · rw [session_remove, if_neg hd]
      exact ⟨hactive, hstate, rfl⟩

end Step

theorem entered_start (memory : State) :
    Entered (start memory).session (start memory).roomManager :=
  fun _ _ h => absurd h.1 Bool.false_ne_true

end TcpChat.Server

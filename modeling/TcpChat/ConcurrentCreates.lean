import TcpChat.Server.Operations

/-!
# Creating rooms in several threads

`room_generate_id` returns its static buffer, which `room_manager_create_room` copies after it
has let go of `global_mutex`. Here the two halves of a create are steps of their own, and the
threads that create rooms take them in any order.
-/

namespace TcpChat.Server

open Base Base.Runs
set_option autoImplicit false

universe u

/-- `roomId` is the static buffer; `created` tells the threads that are between the unlock and
the copy. For the statements only, `drawn` and `returned` remember the ids that threads have
drawn and got back. -/
structure CreateState (ι : Type u) where
  manager : RoomManager
  roomId : CString
  created : ι → Bool
  session : ι → ClientSession
  drawn : List (ι × CString)
  returned : List (ι × CString)

inductive CreateLabel (ι : Type u) where
  | critical (t : ι) (libc : Libc) (now : Int) (roomName : CString)
  | strdup (t : ι)

variable {ι : Type u}

/-- The server has no rooms yet, and no thread has begun. -/
def CreateState.start (memory : RoomManager) (session : ι → ClientSession) : CreateState ι :=
  { manager := roomManagerInitialize memory
    roomId := .empty
    created := fun _ => false
    session := session
    drawn := []
    returned := [] }

/-- A room of this id has the client in it. -/
def NamesRoomOf (manager : RoomManager) (roomId : CString) (c : Slot) : Prop :=
  ∃ i, Member manager i c ∧ (manager.rooms i).roomId = roomId

instance (manager : RoomManager) (roomId : CString) (c : Slot) :
    Decidable (NamesRoomOf manager roomId c) :=
  inferInstanceAs (Decidable (∃ i, Member manager i c ∧ (manager.rooms i).roomId = roomId))

/-- What a thread got back, and what its session remembers, is the id of a room with its client
in it. -/
structure ReturnsOwnRooms (client : ι → Slot) (s : CreateState ι) : Prop where
  returned : ∀ e ∈ s.returned, NamesRoomOf s.manager e.2 (client e.1)
  session : ∀ e ∈ s.returned, NamesRoomOf s.manager (s.session e.1).currentRoomId (client e.1)

/-- A thread copies the buffer only while the id drawn last is one that was drawn for its
client. -/
def OwnDraw (client : ι → Slot) (s : CreateState ι) : CreateLabel ι → Prop
  | .strdup t => s.created t = true →
    ∀ last, s.drawn.getLast? = some last → ∃ e ∈ s.drawn, client e.1 = client t ∧ e.2 = last.2
  | .critical _ _ _ _ => True

/-- The rooms are those that were drawn for, and the buffer holds the last draw. -/
structure CreatesOk (client : ι → Slot) (s : CreateState ι) : Prop where
  table : TableOk s.manager
  names_iff : ∀ roomId c, NamesRoomOf s.manager roomId c ↔
    ∃ e ∈ s.drawn, client e.1 = c ∧ e.2 = roomId
  drawn_length : ∀ e ∈ s.drawn, e.2.length = roomIdLength
  buffer : ∀ t, s.created t = true → ∃ last, s.drawn.getLast? = some last ∧ last.2 = s.roomId

section Rooms
variable {client : ι → Slot} {s : CreateState ι}

theorem names_openRoom_iff (ok : TableOk s.manager) {i : Fin maxRooms}
    (hfree : (s.manager.rooms i).isActive = false) (libc : Libc) (now : Int)
    (roomName roomId : CString) (owner c : Slot) :
    NamesRoomOf (s.manager.openRoom i (newRoom (roomGenerateId libc now) roomName owner))
        roomId c ↔
      (c = owner ∧ roomId = roomGenerateId libc now) ∨ NamesRoomOf s.manager roomId c := by
  have hc : (0 : Int) ≤ c := by omega
  have hnew : ((s.manager.openRoom i (newRoom (roomGenerateId libc now) roomName owner)).rooms
      i).roomId = roomGenerateId libc now := by
    simp [RoomManager.openRoom, newRoom, take_roomGenerateId]
  have hold : ∀ k, k ≠ i → ((s.manager.openRoom i (newRoom (roomGenerateId libc now) roomName
      owner)).rooms k).roomId = (s.manager.rooms k).roomId := by
    intro k hk
    simp [RoomManager.openRoom, hk]
  unfold NamesRoomOf
  simp only [member_openRoom_iff ok hfree hc]
  constructor
  · intro h
    obtain ⟨k, ⟨rfl, howner⟩ | hmember, hid⟩ := h
    · exact Or.inl ⟨Fin.ext (Int.ofNat_inj.mp howner), hid.symm.trans hnew⟩
    · have hk : k ≠ i := by
        intro heq
        subst heq
        rw [hmember.1] at hfree
        cases hfree
      exact Or.inr ⟨k, hmember, (hold k hk).symm.trans hid⟩
  · intro h
    rcases h with ⟨rfl, rfl⟩ | ⟨k, hmember, hid⟩
    · exact ⟨i, Or.inl ⟨rfl, rfl⟩, hnew⟩
    · have hk : k ≠ i := by
        intro heq
        subst heq
        rw [hmember.1] at hfree
        cases hfree
      exact ⟨k, Or.inr hmember, (hold k hk).trans hid⟩

/-- The buffer names a room of the client exactly when the last draw did. -/
theorem names_buffer_iff (ok : CreatesOk client s) {t : ι} (ht : s.created t = true) :
    NamesRoomOf s.manager s.roomId (client t) ↔ OwnDraw client s (.strdup t) := by
  obtain ⟨last, hlast, hbuffer⟩ := ok.buffer t ht
  rw [ok.names_iff]
  constructor
  · intro h _ last' hlast'
    rw [hlast] at hlast'
    cases hlast'
    rw [hbuffer]
    exact h
  · intro h
    have hown := h ht last hlast
    rw [hbuffer] at hown
    exact hown

theorem take_buffer (ok : CreatesOk client s) {t : ι} (ht : s.created t = true) :
    s.roomId.take roomIdLength = s.roomId := by
  obtain ⟨last, hlast, hbuffer⟩ := ok.buffer t ht
  have hlength := ok.drawn_length last (List.mem_of_getLast? hlast)
  rw [hbuffer] at hlength
  exact CString.take_of_length_le (Nat.le_of_eq hlength)

theorem createsOk_start (client : ι → Slot) (memory : RoomManager) (session : ι → ClientSession) :
    CreatesOk client (CreateState.start memory session) := by
  constructor
  · exact TableOk.initial memory
  · intro roomId c
    constructor
    · intro h
      obtain ⟨i, hmember, _⟩ := h
      cases hmember.1
    · intro h
      obtain ⟨e, he, _⟩ := h
      cases he
  · intro e he
    cases he
  · intro t ht
    cases ht

end Rooms

variable [DecidableEq ι]

/-- Thread `t` has drawn `roomId` and opened a room under it. -/
def CreateState.drew (s : CreateState ι) (t : ι) (manager : RoomManager) (roomId : CString) :
    CreateState ι :=
  { s with
    manager := manager
    roomId := roomId
    created := Function.update s.created t true
    drawn := s.drawn ++ [(t, roomId)] }

/-- The critical section of a create. When the table is full the create returns at once. -/
def CreateState.critical (s : CreateState ι) (t : ι) (c : Slot) (libc : Libc) (now : Int)
    (roomName : CString) : CreateState ι :=
  let (manager, created) := roomManagerCreateRoom libc now s.manager roomName c
  match created with
  | none => s
  | some roomId => s.drew t manager roomId

/-- The rest of a create, and what the handler then writes to the session. -/
def CreateState.strdup (s : CreateState ι) (t : ι) : CreateState ι :=
  { s with
    created := Function.update s.created t false
    session := Function.update s.session t ((s.session t).enterRoom s.roomId)
    returned := s.returned ++ [(t, s.roomId)] }

/-- Thread `t` creates rooms for client `client t`. -/
def CreateState.step (client : ι → Slot) (s : CreateState ι) : CreateLabel ι → CreateState ι
  | .critical t libc now roomName =>
    if s.created t then s else s.critical t (client t) libc now roomName
  | .strdup t => if s.created t then s.strdup t else s

section Steps
variable {client : ι → Slot} {s : CreateState ι}

/-- A create opens a room for its client under the id it draws, or finds the table full. -/
theorem critical_cases (ok : TableOk s.manager) (t : ι) (c : Slot) (libc : Libc) (now : Int)
    (roomName : CString) :
    s.critical t c libc now roomName = s ∨
    ∃ i, (s.manager.rooms i).isActive = false ∧
      s.critical t c libc now roomName =
        s.drew t (s.manager.openRoom i (newRoom (roomGenerateId libc now) roomName c))
          (roomGenerateId libc now) := by
  have hclient : (0 : Int) ≤ c := by omega
  unfold CreateState.critical
  rcases roomManagerCreateRoom_cases ok.count_eq libc now roomName c with
    ⟨_, i, hfree, _, heq⟩ | ⟨_, heq⟩
  · rw [heq, roomAddClient_initial _ _ _ hclient]
    exact Or.inr ⟨i, hfree, rfl⟩
  · rw [heq]
    exact Or.inl rfl

theorem CreatesOk.drew (ok : CreatesOk client s) {i : Fin maxRooms}
    (hfree : (s.manager.rooms i).isActive = false) (t : ι) (libc : Libc) (now : Int)
    (roomName : CString) :
    CreatesOk client
      (s.drew t (s.manager.openRoom i (newRoom (roomGenerateId libc now) roomName (client t)))
        (roomGenerateId libc now)) := by
  constructor
  · exact ok.table.openRoom hfree (by omega)
  · intro roomId c
    rw [CreateState.drew, names_openRoom_iff ok.table hfree, ok.names_iff]
    simp only [List.mem_append, List.mem_singleton]
    constructor
    · intro h
      rcases h with ⟨rfl, rfl⟩ | ⟨e, he, howner, hid⟩
      · exact ⟨_, Or.inr rfl, rfl, rfl⟩
      · exact ⟨e, Or.inl he, howner, hid⟩
    · intro h
      obtain ⟨e, he | rfl, rfl, rfl⟩ := h
      · exact Or.inr ⟨e, he, rfl, rfl⟩
      · exact Or.inl ⟨rfl, rfl⟩
  · intro e he
    rcases List.mem_append.mp he with hold | hnew
    · exact ok.drawn_length e hold
    · rw [List.mem_singleton.mp hnew]
      exact length_roomGenerateId libc now
  · intro _ _
    exact ⟨_, List.getLast?_concat, rfl⟩

theorem CreatesOk.strdup (ok : CreatesOk client s) (t : ι) : CreatesOk client (s.strdup t) := by
  refine ⟨ok.table, ok.names_iff, ok.drawn_length, fun k hk => ?_⟩
  simp only [CreateState.strdup] at hk
  by_cases hkt : k = t
  · rw [hkt, Function.update_self] at hk
    cases hk
  · rw [Function.update_of_ne hkt] at hk
    exact ok.buffer k hk

theorem CreatesOk.step (ok : CreatesOk client s) (label : CreateLabel ι) :
    CreatesOk client (s.step client label) := by
  cases label with
  | critical t libc now roomName =>
    cases ht : s.created t with
    | true =>
      have hsame : s.step client (.critical t libc now roomName) = s := if_pos ht
      rw [hsame]
      exact ok
    | false =>
      have hstep : s.step client (.critical t libc now roomName) =
          s.critical t (client t) libc now roomName := if_neg (by simp [ht])
      rw [hstep]
      rcases critical_cases ok.table t (client t) libc now roomName with heq | ⟨i, hfree, heq⟩
      · rw [heq]
        exact ok
      · rw [heq]
        exact ok.drew hfree t libc now roomName
  | strdup t =>
    cases ht : s.created t with
    | true =>
      have hstep : s.step client (.strdup t) = s.strdup t := if_pos ht
      rw [hstep]
      exact ok.strdup t
    | false =>
      have hsame : s.step client (.strdup t) = s := if_neg (by simp [ht])
      rw [hsame]
      exact ok

theorem ReturnsOwnRooms.drew (h : ReturnsOwnRooms client s) (ok : TableOk s.manager)
    {i : Fin maxRooms} (hfree : (s.manager.rooms i).isActive = false) (t : ι) (libc : Libc)
    (now : Int) (roomName : CString) :
    ReturnsOwnRooms client
      (s.drew t (s.manager.openRoom i (newRoom (roomGenerateId libc now) roomName (client t)))
        (roomGenerateId libc now)) := by
  constructor
  · intro e he
    exact (names_openRoom_iff ok hfree libc now roomName _ _ _).mpr (Or.inr (h.returned e he))
  · intro e he
    exact (names_openRoom_iff ok hfree libc now roomName _ _ _).mpr (Or.inr (h.session e he))

theorem returnsOwnRooms_strdup_iff (ok : CreatesOk client s) (h : ReturnsOwnRooms client s) {t : ι}
    (ht : s.created t = true) :
    ReturnsOwnRooms client (s.strdup t) ↔ OwnDraw client s (.strdup t) := by
  rw [← names_buffer_iff ok ht]
  constructor
  · intro hafter
    exact hafter.returned (t, s.roomId) (List.mem_append_right _ List.mem_cons_self)
  · intro hnames
    constructor
    · intro e he
      rcases List.mem_append.mp he with hold | hnew
      · exact h.returned e hold
      · rw [List.mem_singleton.mp hnew]
        exact hnames
    · intro e he
      simp only [CreateState.strdup] at he ⊢
      by_cases het : e.1 = t
      · rw [het, Function.update_self, ClientSession.enterRoom, take_buffer ok ht]
        exact hnames
      · rw [Function.update_of_ne het]
        rcases List.mem_append.mp he with hold | hnew
        · exact h.session e hold
        · rw [List.mem_singleton.mp hnew] at het
          exact absurd rfl het

theorem returnsOwnRooms_step_iff (ok : CreatesOk client s) (h : ReturnsOwnRooms client s)
    (label : CreateLabel ι) :
    ReturnsOwnRooms client (s.step client label) ↔ OwnDraw client s label := by
  cases label with
  | critical t libc now roomName =>
    refine iff_of_true ?_ trivial
    cases ht : s.created t with
    | true =>
      have hsame : s.step client (.critical t libc now roomName) = s := if_pos ht
      rw [hsame]
      exact h
    | false =>
      have hstep : s.step client (.critical t libc now roomName) =
          s.critical t (client t) libc now roomName := if_neg (by simp [ht])
      rw [hstep]
      rcases critical_cases ok.table t (client t) libc now roomName with heq | ⟨i, hfree, heq⟩
      · rw [heq]
        exact h
      · rw [heq]
        exact h.drew ok.table hfree t libc now roomName
  | strdup t =>
    cases ht : s.created t with
    | true =>
      have hstep : s.step client (.strdup t) = s.strdup t := if_pos ht
      rw [hstep]
      exact returnsOwnRooms_strdup_iff ok h ht
    | false =>
      have hsame : s.step client (.strdup t) = s := if_neg (by simp [ht])
      rw [hsame]
      refine iff_of_true h fun htrue => ?_
      rw [ht] at htrue
      cases htrue

/-- A create that no other thread cuts into returns what `room_manager_create_room` returns. -/
theorem create_uninterrupted (t : ι) (c : Slot) (libc : Libc) (now : Int) (roomName : CString)
    {roomId : CString}
    (h : (roomManagerCreateRoom libc now s.manager roomName c).2 = some roomId) :
    ((s.critical t c libc now roomName).strdup t).manager =
        (roomManagerCreateRoom libc now s.manager roomName c).1 ∧
      ((s.critical t c libc now roomName).strdup t).returned = s.returned ++ [(t, roomId)] := by
  unfold CreateState.critical
  cases hcreate : roomManagerCreateRoom libc now s.manager roomName c with
  | mk manager created =>
    rw [hcreate] at h
    dsimp only at h
    rw [h]
    exact ⟨rfl, rfl⟩

end Steps

/-- Every create returns an id of its own client's room exactly when every copy is made while
the last id drawn is one drawn for the client of the thread that copies. -/
theorem returnsOwnRooms_iff_ownDraws (client : ι → Slot) (memory : RoomManager)
    (session : ι → ClientSession) (labels : List (CreateLabel ι)) :
    Always (CreateState.step client) (ReturnsOwnRooms client) (CreateState.start memory session)
        labels ↔
      EachStep (CreateState.step client) (OwnDraw client) (CreateState.start memory session)
        labels := by
  apply always_iff_eachStep (I := CreatesOk client) (H := fun _ _ => True)
  · intro s label ok _ _ _
    exact ok.step label
  · intro s label ok h _
    exact returnsOwnRooms_step_iff ok h label
  · exact createsOk_start client memory session
  · constructor
    · intro e he
      cases he
    · intro e he
      cases he
  · exact fun _ _ _ => trivial

/-- Thread `true` draws between the two halves of thread `false`, which copies the wrong id. -/
theorem create_returns_foreign_room :
    ¬ ∀ (client : Bool → Slot) (memory : RoomManager) (session : Bool → ClientSession)
      (labels : List (CreateLabel Bool)),
      Always (CreateState.step client) (ReturnsOwnRooms client)
        (CreateState.start memory session) labels := by
  intro h
  have hown := (h (fun t => if t then 4 else 3) zeroedMemory.roomManager
    (fun _ => zeroedMemory.clientManager.clients 0)
    [.critical false countingLibc 0 "den", .critical true countingLibc 1 "pit",
      .strdup false]).last
  exact absurd (hown.returned (false, roomGenerateId countingLibc 1) (by decide +kernel))
    (by decide +kernel)

end TcpChat.Server

import TcpChat.Server.OwnRoom

/-!
# Who may post

A session that claims to be in a room relays to it. The handlers of `/create` and `/join` leave
the old room first and return early when the new one is refused, with the session unchanged.
-/

namespace TcpChat.Server

open Base Base.Runs
set_option autoImplicit false

/-- A connected client that claims to be in a room is a member of the active room of that id. -/
def Posts (sessions : Slot → ClientSession) (manager : RoomManager) (c : Slot) : Prop :=
  (sessions c).active = true → (sessions c).state = .inRoom →
    ∃ i, Member manager i (c : Int) ∧ (manager.rooms i).roomId = (sessions c).currentRoomId

def PostersAreMembers (s : State) : Prop := ∀ c, Posts s.session s.roomManager c

/-- A line is relayed to a room only when its sender is a member of that room. -/
def RelaysFromMembers (libc : Libc) (s : State) : Op → Prop
  | .message c line env => Served s c → (relayText (s.session c) (parse line)).isSome = true →
    (s.session c).hasRoom = true → (chatProtocolHandleMessage libc env s c line).1.trace ≠ s.trace →
      ∃ i, Member s.roomManager i (c : Int) ∧
        (s.roomManager.rooms i).roomId = (s.session c).currentRoomId
  | _ => True

/-- A client in a room asks for a room it can get: it creates one when the table has space or
its own room is about to close, and joins an active room that is not full, or its own while
somebody else is in it. -/
def AsksForOpenRoom (s : State) (c : Slot) : Request → Prop
  | .create roomName => ValidRoomName roomName →
    s.roomManager.roomCount < maxRooms ∨
      ∃ i, Member s.roomManager i (c : Int) ∧ (s.roomManager.rooms i).clientCount = 1
  | .join roomId => roomId.length = roomIdLength →
    ∃ i, (s.roomManager.rooms i).isActive = true ∧ (s.roomManager.rooms i).roomId = roomId ∧
      (Member s.roomManager i (c : Int) → 1 < (s.roomManager.rooms i).clientCount) ∧
      (¬ Member s.roomManager i (c : Int) →
        (s.roomManager.rooms i).clientCount < maxClientsPerRoom)
  | _ => True

/-- Whoever is in a room when it sends a `/create` or a `/join` gets what it asks for. -/
def MovesSucceed (s : State) : Op → Prop
  | .message c line _ => Served s c → (s.session c).hasRoom = true →
    AsksForOpenRoom s c (parse line)
  | _ => True

theorem hasRoom_state {session : ClientSession} (h : session.hasRoom = true) :
    session.state = .inRoom := by
  simp only [ClientSession.hasRoom, Bool.and_eq_true, beq_iff_eq] at h
  exact h.1

section Leave
variable {s : State} {c : Slot} (ok : RoomsOk s.roomManager)
include ok

/-- A member that leaves is taken out of its room, and the room is closed behind the last. -/
theorem leaveCurrentRoom_member (hroom : (s.session c).hasRoom = true) {k : Fin maxRooms}
    (hk : Member s.roomManager k (c : Int))
    (hid : (s.roomManager.rooms k).roomId = (s.session c).currentRoomId) :
    ∃ j, (s.roomManager.rooms k).clientIds j = c ∧
      ((s.roomManager.rooms k).clientCount ≠ 1 ∧ (leaveCurrentRoom s c).roomManager =
          s.roomManager.setRoom k ((s.roomManager.rooms k).erase j) ∨
        (s.roomManager.rooms k).clientCount = 1 ∧ (leaveCurrentRoom s c).roomManager =
          s.roomManager.closeRoom k) := by
  have hown := ownRoom_of_member ok.distinct hroom hk hid
  rcases leaveCurrentRoom_cases ok.table with ⟨hnone, _⟩ | ⟨i, j, hi, _, hj, hcases⟩
  · rw [hown] at hnone
    cases hnone
  · obtain rfl : k = i := Option.some.inj (hown.symm.trans hi)
    refine ⟨j, hj, ?_⟩
    rcases hcases with ⟨hmore, heq⟩ | ⟨halone, heq⟩
    · exact Or.inl ⟨fun hone => hmore ⟨hown, hone⟩, heq⟩
    · exact Or.inr ⟨halone.2, heq⟩

variable (hentered : Entered s.session s.roomManager)
include hentered

theorem Posts.leave {d : Slot} (hdc : d ≠ c) {sessions : Slot → ClientSession}
    (hsession : sessions d = s.session d) (h : Posts s.session s.roomManager d) :
    Posts sessions (leaveCurrentRoom s c).roomManager d := by
  intro hactive hstate
  rw [hsession] at hactive hstate ⊢
  obtain ⟨i, hmember, hid⟩ := h hactive hstate
  have hne : (d : Int) ≠ c := fun heq => hdc (Fin.ext (by omega))
  have hstay := (member_leaveCurrentRoom_iff ok hentered (by omega) i).mpr ⟨hne, hmember⟩
  exact ⟨i, hstay, (idsWithin_leaveCurrentRoom i hstay.1).2.trans hid⟩

theorem not_posts_leave {sessions : Slot → ClientSession} (hactive : (sessions c).active = true)
    (hstate : (sessions c).state = .inRoom) :
    ¬ Posts sessions (leaveCurrentRoom s c).roomManager c := by
  intro h
  obtain ⟨i, hmember, _⟩ := h hactive hstate
  exact ((member_leaveCurrentRoom_iff ok hentered (by omega) i).mp hmember).1 rfl

end Leave

section Enter
variable {manager : RoomManager} {sessions : Slot → ClientSession} {c d : Slot}
  {i : Fin maxRooms}

theorem Posts.openRoom (ok : RoomsOk manager) (hfree : (manager.rooms i).isActive = false)
    {roomId roomName : CString}
    (h : d = c ∧ (sessions c).currentRoomId = roomId.take roomIdLength ∨ Posts sessions manager d) :
    Posts sessions (manager.openRoom i (newRoom roomId roomName c)) d := by
  intro hconnected hstate
  rcases h with ⟨rfl, hid⟩ | h
  · refine ⟨i, (member_openRoom_iff ok.table hfree (by omega)).mpr (Or.inl ⟨rfl, rfl⟩), ?_⟩
    rw [hid]
    simp [RoomManager.openRoom, newRoom]
  · obtain ⟨k, hmember, hid⟩ := h hconnected hstate
    have hki : k ≠ i := by
      intro heq
      subst heq
      simp [Member, hfree] at hmember
    refine ⟨k, (member_openRoom_iff ok.table hfree (by omega)).mpr (Or.inr hmember), ?_⟩
    simpa [RoomManager.openRoom, hki] using hid

theorem Posts.insert {j : Fin maxClientsPerRoom} (hactive : (manager.rooms i).isActive = true)
    (hfree : (manager.rooms i).clientIds j = -1)
    (h : d = c ∧ (sessions c).currentRoomId = (manager.rooms i).roomId ∨ Posts sessions manager d) :
    Posts sessions (manager.setRoom i ((manager.rooms i).insert j c)) d := by
  have hkeep : ((manager.rooms i).insert j (c : Int)).isActive = (manager.rooms i).isActive := rfl
  have hroomId : ∀ k, ((manager.setRoom i ((manager.rooms i).insert j c)).rooms k).roomId =
      (manager.rooms k).roomId := by
    intro k
    by_cases hk : k = i
    · subst hk
      simp [RoomManager.setRoom, Room.insert]
    · simp [RoomManager.setRoom, hk]
  intro hconnected hstate
  rcases h with ⟨rfl, hid⟩ | h
  · refine ⟨i, (member_setRoom_iff hkeep).mpr (Or.inl ⟨rfl, hactive, ?_⟩), ?_⟩
    · exact (RoomOk.lists_insert_iff hfree (by omega)).mpr (Or.inl rfl)
    · rw [hroomId, hid]
  · obtain ⟨k, hmember, hid⟩ := h hconnected hstate
    refine ⟨k, (member_setRoom_iff hkeep).mpr ?_, (hroomId k).trans hid⟩
    by_cases hki : k = i
    · subst hki
      exact Or.inl ⟨rfl, hactive, (RoomOk.lists_insert_iff hfree (by omega)).mpr
        (Or.inr hmember.2)⟩
    · exact Or.inr ⟨hki, hmember⟩

end Enter

section Moves
variable {s : State} {c : Slot} (ok : RoomsOk s.roomManager)
  (hentered : Entered s.session s.roomManager) (hroom : (s.session c).hasRoom = true)
  (hactive : (s.session c).active = true) (hposts : Posts s.session s.roomManager c)
include ok hentered hroom hactive hposts

/-- The table has space for a room after its creator has left its own. -/
theorem space_after_leave_iff :
    (leaveCurrentRoom s c).roomManager.roomCount < maxRooms ↔
      s.roomManager.roomCount < maxRooms ∨
        ∃ i, Member s.roomManager i (c : Int) ∧ (s.roomManager.rooms i).clientCount = 1 := by
  obtain ⟨k, hk, hid⟩ := hposts hactive (hasRoom_state hroom)
  have hown := ownRoom_of_member ok.distinct hroom hk hid
  rw [roomCount_left_lt_iff ok.table, CreateGranted]
  apply or_congr_right
  constructor
  · intro h
    obtain ⟨i, halone⟩ := h
    obtain rfl : i = k := halone.eq_of_own hown
    exact ⟨i, hk, halone.2⟩
  · intro h
    obtain ⟨i, hi, hone⟩ := h
    obtain rfl : i = k := hentered.member_unique ok.distinct hi hk (by omega)
    exact ⟨i, hown, hone⟩

theorem open_after_leave_iff (roomId : CString) :
    (∃ i, ((leaveCurrentRoom s c).roomManager.rooms i).isActive = true ∧
      ((leaveCurrentRoom s c).roomManager.rooms i).roomId = roomId ∧
      ((leaveCurrentRoom s c).roomManager.rooms i).clientCount < maxClientsPerRoom) ↔
    ∃ i, (s.roomManager.rooms i).isActive = true ∧ (s.roomManager.rooms i).roomId = roomId ∧
      (Member s.roomManager i (c : Int) → 1 < (s.roomManager.rooms i).clientCount) ∧
      (¬ Member s.roomManager i (c : Int) →
        (s.roomManager.rooms i).clientCount < maxClientsPerRoom) := by
  obtain ⟨k, hk, hid⟩ := hposts hactive (hasRoom_state hroom)
  have hpos := (ok.table.room_ok k).occupied_iff.mp hk.1
  have hle := Slots.occupancy_le entryUsed (s.roomManager.rooms k).clientIds
  have hcount := (ok.table.room_ok k).count_eq
  have hother : ∀ i, i ≠ k → ¬ Member s.roomManager i (c : Int) := fun i hi hmember =>
    hi (hentered.member_unique ok.distinct hmember hk (by omega))
  obtain ⟨j, _, ⟨hmore, heq⟩ | ⟨hone, heq⟩⟩ := leaveCurrentRoom_member ok hroom hk hid
  · rw [heq]
    apply exists_congr
    intro i
    by_cases hi : i = k
    · subst hi
      simp only [RoomManager.setRoom, Function.update_self, Room.erase, hk, true_implies,
        not_true_eq_false, false_implies, and_true]
      refine and_congr_right fun _ => and_congr_right fun _ => ?_
      omega
    · simp only [RoomManager.setRoom, Function.update_of_ne hi, hother i hi, false_implies,
        not_false_eq_true, true_implies, true_and]
  · rw [heq]
    apply exists_congr
    intro i
    by_cases hi : i = k
    · subst hi
      simp [RoomManager.closeRoom, roomCleanup, hk, hone]
    · simp only [RoomManager.closeRoom, Function.update_of_ne hi, hother i hi, false_implies,
        not_false_eq_true, true_implies, true_and]

end Moves

section Request
variable {libc : Libc} {env : Env} {s : State} {c : Slot} {r : Request}
  {sessions : Slot → ClientSession} {rooms : RoomManager} (ok : RoomsOk s.roomManager)
  (hentered : Entered s.session s.roomManager) (hposters : PostersAreMembers s)
include ok hentered hposters

omit hposters in
/-- A join is refused exactly when no active room of that id has space, once the client has
left its own. -/
theorem join_refused_iff {roomId : CString} {result : Int}
    (heq : roomManagerJoinRoom (leaveCurrentRoom s c).roomManager roomId c = (rooms, result)) :
    result < 0 ↔ ¬ ∃ i, ((leaveCurrentRoom s c).roomManager.rooms i).isActive = true ∧
      ((leaveCurrentRoom s c).roomManager.rooms i).roomId = roomId ∧
      ((leaveCurrentRoom s c).roomManager.rooms i).clientCount < maxClientsPerRoom := by
  have hleft : RoomsOk (leaveCurrentRoom s c).roomManager := ok.leaveCurrent
  rcases roomManagerJoinRoom_cases hleft.table roomId c with
    ⟨i, hi, _, _, hspace, j, _, heq'⟩ | ⟨hwhy, heq'⟩
  · cases heq.symm.trans heq'
    exact iff_of_false (by omega) (not_not.mpr ⟨i, found_active hi, found_roomId hi, hspace⟩)
  · cases heq.symm.trans heq'
    apply iff_of_true (by omega)
    intro h
    obtain ⟨i, hi, rfl, hspace⟩ := h
    rcases hwhy i (hleft.distinct.find hi) with hneg | hlists | hfull
    · omega
    · exact ((member_leaveCurrentRoom_iff ok hentered (by omega) i).mp ⟨hi, hlists⟩).1 rfl
    · omega

/-- After a refusal the session still claims the room it was in. -/
theorem posts_refused_iff (hactive : (s.session c).active = true)
    (hrooms : rooms = (leaveCurrentRoom s c).roomManager) :
    (∀ d, Posts s.session rooms d) ↔ (s.session c).hasRoom = false := by
  subst hrooms
  constructor
  · intro h
    by_contra hroom
    rw [Bool.not_eq_false] at hroom
    exact not_posts_leave ok hentered hactive (hasRoom_state hroom) (h c)
  · intro hroom d
    rw [leaveCurrentRoom_of_not_hasRoom hroom]
    exact hposters d

theorem posts_outcome_iff (hactive : (s.session c).active = true)
    (hfresh : ∀ roomName, r = .create roomName → ValidRoomName roomName →
      FreshId libc env.now (leaveCurrentRoom s c).roomManager)
    (hkept : ∀ d, ¬ Evicts env s c r d) (h : Outcome libc env s c r sessions rooms) :
    (∀ d, Posts sessions rooms d) ↔ ((s.session c).hasRoom = true → AsksForOpenRoom s c r) := by
  have hleft : RoomsOk (leaveCurrentRoom s c).roomManager := ok.leaveCurrent
  have hothers : ∀ v d, d ≠ c →
      Posts (Function.update s.session c v) (leaveCurrentRoom s c).roomManager d :=
    fun v d hd => (hposters d).leave ok hentered hd (Function.update_of_ne hd v s.session)
  cases h with
  | talk hquiet =>
    apply iff_of_true hposters
    intro _
    cases r <;> simp_all [AsksForOpenRoom, Quiet]
  | announced hroom =>
    refine iff_of_true (fun d => ?_) fun _ => trivial
    have hd : ¬ Evicted (env.sendFails 0) s c d := fun hd => hkept d ⟨hroom, hd⟩
    simp only [Posts, if_neg hd]
    exact hposters d
  | renamed hname =>
    refine iff_of_true (fun d => ?_) fun _ => trivial
    have hd : ¬ Dropped env s d := fun hd => hkept d ⟨hname, hd⟩
    simp only [Posts, if_neg hd]
    split
    · rename_i hdc
      subst hdc
      exact hposters d
    · exact hposters d
  | @createRefused roomName _ hname heq =>
    obtain ⟨hrooms, hfull⟩ := hleft.of_create_none (hfresh _ rfl hname) heq
    rw [posts_refused_iff ok hentered hposters hactive hrooms]
    cases hroom : (s.session c).hasRoom with
    | false => simp
    | true =>
      have hspace := space_after_leave_iff ok hentered hroom hactive (hposters c)
      apply iff_of_false (by simp)
      intro hasks
      have := hspace.mpr (hasks rfl hname)
      omega
  | @created roomName _ _ hname heq =>
    obtain ⟨hspace, rfl, i, hfree, rfl⟩ := hleft.of_create_some (hfresh _ rfl hname) heq
    refine iff_of_true (fun d => ?_) fun hroom _ =>
      (space_after_leave_iff ok hentered hroom hactive (hposters c)).mp hspace
    by_cases hdc : d = c
    · refine Posts.openRoom hleft hfree (Or.inl ⟨hdc, ?_⟩)
      rw [Function.update_self]
      rfl
    · exact Posts.openRoom hleft hfree (Or.inr (hothers _ d hdc))
  | @joinRefused roomId _ result hlen heq hresult =>
    have hrefused := (join_refused_iff ok hentered heq).mp hresult
    rw [posts_refused_iff ok hentered hposters hactive (hleft.table.of_join_refused heq hresult)]
    cases hroom : (s.session c).hasRoom with
    | false => simp
    | true =>
      rw [open_after_leave_iff ok hentered hroom hactive (hposters c)] at hrefused
      exact iff_of_false (by simp) fun hasks => hrefused (hasks rfl hlen)
  | @joined roomId _ result hlen heq hresult =>
    refine iff_of_true (fun d => ?_) fun hroom _ => ?_
    · obtain ⟨i, j, hi, hfree, rfl⟩ := hleft.table.of_join heq hresult
      by_cases hdc : d = c
      · refine Posts.insert (found_active hi) hfree (Or.inl ⟨hdc, ?_⟩)
        rw [Function.update_self, found_roomId hi]
        exact CString.take_of_length_le (by omega)
      · exact Posts.insert (found_active hi) hfree (Or.inr (hothers _ d hdc))
    · rw [← open_after_leave_iff ok hentered hroom hactive (hposters c)]
      by_contra hnone
      have := (join_refused_iff ok hentered heq).mpr hnone
      omega
  | left _ =>
    refine iff_of_true (fun d => ?_) fun _ => trivial
    by_cases hdc : d = c
    · intro _ hstate
      rw [hdc, Function.update_self] at hstate
      cases hstate
    · exact hothers _ d hdc

end Request

section Step
variable {libc : Libc} {s : State}

theorem posts_of_state_ne {sessions : Slot → ClientSession} {manager : RoomManager} {c : Slot}
    (h : (sessions c).state ≠ .inRoom) : Posts sessions manager c :=
  fun _ hstate => absurd hstate h

theorem relaysFromMembers_of_posters (hposters : PostersAreMembers s) (op : Op) :
    RelaysFromMembers libc s op := by
  cases op with
  | message c line env =>
    intro hserved _ hroom _
    exact hposters c hserved.active (hasRoom_state hroom)
  | connect | enterLobby | disconnect => trivial

/-- An undisturbed operation keeps posters in their rooms exactly when it is no refused move. -/
theorem posters_step_iff (ok : RoomsOk s.roomManager) (hentered : Entered s.session s.roomManager)
    (op : Op) (hfresh : FreshIds libc s op) (hkept : Undisturbed s op)
    (hposters : PostersAreMembers s) :
    PostersAreMembers (op.step libc s) ↔ MovesSucceed s op := by
  cases op with
  | connect socketFd created =>
    refine iff_of_true (fun d => ?_) trivial
    simp only [Op.step]
    split
    · obtain ⟨hsessions, hrooms⟩ := accept_cases s socketFd created
      rw [hrooms]
      have hupdate : ∀ i v, v.state ≠ .inRoom →
          Posts (Function.update s.session i v) s.roomManager d := by
        intro i v hv
        by_cases hdi : d = i
        · subst hdi
          exact posts_of_state_ne (by rwa [Function.update_self])
        · simp only [Posts, Function.update_of_ne hdi]
          exact hposters d
      rcases hsessions with heq | ⟨i, _, heq | heq⟩
      · rw [heq]
        exact hposters d
      · rw [heq]
        exact hupdate i _ (by simp [newSession, clientSessionInitialize])
      · rw [heq]
        exact hupdate i _ (by simp [ClientSession.cleaned])
    · exact hposters d
  | enterLobby c =>
    refine iff_of_true (fun d => ?_) trivial
    simp only [Op.step]
    split
    · by_cases hdc : d = c
      · subst hdc
        apply posts_of_state_ne
        rw [chatProtocolAnnounceUserJoined, State.session_setSession_self]
        simp
      · rw [chatProtocolAnnounceUserJoined]
        simp only [Posts, State.session_setSession_of_ne _ _ _ _ hdc]
        exact hposters d
    · exact hposters d
  | message c line env =>
    simp only [Op.step, MovesSucceed]
    split
    · rename_i hserved
      simp only [hserved, true_implies]
      exact posts_outcome_iff ok hentered hposters hserved.active (freshIds_message hfresh hserved)
        (fun d hd => hkept d ⟨hserved, hd⟩) (outcome_message env c line)
    · rename_i hserved
      exact iff_of_true hposters fun h => absurd h hserved
  | disconnect c env =>
    refine iff_of_true (fun d => ?_) trivial
    have hd : ¬ TakenDown (env.sendFails 0) s c d := hkept d
    simp only [Op.step, Posts, session_remove, if_neg hd, roomManager_remove]
    exact hposters d

end Step

/-- In a run without disconnects and with fresh room ids, posters are members exactly when no
client that is in a room has a `/create` or a `/join` refused. -/
theorem postersAreMembers_iff_movesSucceed (libc : Libc) (memory : State) (ops : List Op)
    (hfresh : EachStep (Op.step libc) (FreshIds libc) (start memory) ops)
    (hkept : EachStep (Op.step libc) Undisturbed (start memory) ops) :
    Always (Op.step libc) PostersAreMembers (start memory) ops ∧
      EachStep (Op.step libc) (RelaysFromMembers libc) (start memory) ops ↔
    EachStep (Op.step libc) MovesSucceed (start memory) ops := by
  have hstart : RoomsOk (start memory).roomManager := RoomsOk.initial memory.roomManager
  have hiff : Always (Op.step libc) PostersAreMembers (start memory) ops ↔
      EachStep (Op.step libc) MovesSucceed (start memory) ops := always_iff_eachStep
    (I := fun s => RoomsOk s.roomManager ∧ Entered s.session s.roomManager)
    (H := fun s op => FreshIds libc s op ∧ Undisturbed s op)
    (fun s op ok _ h _ => ⟨ok.1.step op h.1, (entered_step_iff ok.1 op h.1 ok.2).mpr
      fun d hd => absurd hd (h.2 d)⟩)
    (fun s op ok hposters h => posters_step_iff ok.1 ok.2 op h.1 h.2 hposters)
    ⟨hstart, entered_start memory⟩ (fun c hactive => absurd hactive Bool.false_ne_true)
    (hfresh.and hkept)
  refine ⟨fun h => hiff.mp h.1, fun h => ⟨hiff.mpr h, ?_⟩⟩
  intro pre op hpre
  have hreach := (List.prefix_append pre [op]).trans hpre
  exact relaysFromMembers_of_posters (hiff.mpr h pre hreach) op

/-- Two clients share a room, and one of them speaks. -/
theorem postersAreMembers_two :
    Always (Op.step countingLibc) PostersAreMembers (start zeroedMemory)
        [.connect 5 true, .enterLobby 0, .message 0 "/create den" calm, .connect 6 true,
          .enterLobby 1, .message 1 "/join CDEFGH" calm, .message 1 "hi" calm] ∧
      EachStep (Op.step countingLibc) (RelaysFromMembers countingLibc) (start zeroedMemory)
        [.connect 5 true, .enterLobby 0, .message 0 "/create den" calm, .connect 6 true,
          .enterLobby 1, .message 1 "/join CDEFGH" calm, .message 1 "hi" calm] := by
  have hcreate : parse "/create den" = .create "den" := by decide +kernel
  have hjoin : parse "/join CDEFGH" = .join "CDEFGH" := by decide +kernel
  have hchat : parse "hi" = .chat "hi" := by decide +kernel
  refine (postersAreMembers_iff_movesSucceed _ _ _ ?_ ?_).mpr ?_
  · simp only [eachStep_cons, eachStep_nil, and_true, FreshIds, hcreate, hjoin, hchat, true_and]
    intro _ _ _ i hi
    revert i
    decide +kernel
  · simp only [eachStep_cons, eachStep_nil, and_true, Undisturbed, TearsDown, hcreate, hjoin, hchat,
      Evicts, and_false, not_false_eq_true, implies_true]
  · simp only [eachStep_cons, eachStep_nil, and_true, MovesSucceed, hcreate, hjoin, hchat, true_and]
    refine ⟨fun _ hroom => ?_, fun _ hroom => ?_, fun _ _ => trivial⟩
    · exact absurd hroom (by decide +kernel)
    · exact absurd hroom (by decide +kernel)

/-- A client in a room asks for a room that does not exist. -/
theorem posters_lost_by_refused_join :
    ¬ ∀ (libc : Libc) (memory : State) (ops : List Op),
      EachStep (Op.step libc) (FreshIds libc) (start memory) ops →
      EachStep (Op.step libc) Undisturbed (start memory) ops →
      Always (Op.step libc) PostersAreMembers (start memory) ops ∧
        EachStep (Op.step libc) (RelaysFromMembers libc) (start memory) ops := by
  have hcreate : parse "/create den" = .create "den" := by decide +kernel
  have hjoin : parse "/join ZZZZZZ" = .join "ZZZZZZ" := by decide +kernel
  intro h
  have hposts := (h countingLibc zeroedMemory [.connect 5 true, .enterLobby 0,
    .message 0 "/create den" calm, .message 0 "/join ZZZZZZ" calm] ?_ ?_).1.last 0
  · obtain ⟨i, hmember, _⟩ := hposts (by decide +kernel) (by decide +kernel)
    revert i
    decide +kernel
  · simp only [eachStep_cons, eachStep_nil, and_true, FreshIds, hcreate, hjoin, true_and]
    intro _ _ _ i hi
    revert i
    decide +kernel
  · simp only [eachStep_cons, eachStep_nil, and_true, Undisturbed, TearsDown, hcreate, hjoin,
      Evicts, and_false, not_false_eq_true, implies_true]

end TcpChat.Server

import TcpChat.Server.RoomBroadcast

/-!
# The ids of rooms

A room is addressed by its generated id, and the lookup takes the first active match. Joining
and leaving never bring a new id into the table, so only a create can break distinctness.
-/

namespace TcpChat.Server

open Base
set_option autoImplicit false

theorem charset_length : charset.length = 36 := by decide

theorem charset_getD_ne_zero (k : Nat) : charset.getD (k % charset.length) 0 ≠ 0 := by
  have hk : k % charset.length < charset.length :=
    Nat.mod_lt _ (by rw [charset_length]; omega)
  have hget : charset.getD (k % charset.length) 0 = charset[k % charset.length] := by
    simp [List.getD_eq_getElem?_getD, List.getElem?_eq_getElem hk]
  rw [hget]
  intro h
  exact (CString.ofString "ABCDEFGHIJKLMNOPQRSTUVWXYZ0123456789").noNul
    (h ▸ List.getElem_mem hk)

theorem bytes_roomGenerateId (libc : Libc) (now : Int) :
    (roomGenerateId libc now).bytes = (List.range roomIdLength).map fun i =>
      charset.getD (libc.rand (UInt32.ofInt (now + libc.pid)) i % charset.length) 0 := by
  apply CString.ofBuffer_of_noNul
  intro h
  obtain ⟨i, _, hi⟩ := List.mem_map.mp h
  exact charset_getD_ne_zero _ hi

theorem length_roomGenerateId (libc : Libc) (now : Int) :
    (roomGenerateId libc now).length = roomIdLength := by
  simp [CString.length, bytes_roomGenerateId]

theorem take_roomGenerateId (libc : Libc) (now : Int) :
    (roomGenerateId libc now).take roomIdLength = roomGenerateId libc now :=
  CString.take_of_length_le (by rw [length_roomGenerateId])

/-- The ids of the active rooms are pairwise distinct, and what is done by the id of a room is
done to that room alone. -/
structure IdsNameRooms (manager : RoomManager) : Prop where
  distinct : DistinctIds manager
  find_eq : ∀ i, (manager.rooms i).isActive = true →
    roomManagerFindRoom manager (manager.rooms i).roomId = some i
  join_eq : ∀ i, (manager.rooms i).isActive = true → ∀ clientId k, k ≠ i →
    (roomManagerJoinRoom manager (manager.rooms i).roomId clientId).1.rooms k = manager.rooms k
  leave_eq : ∀ i, (manager.rooms i).isActive = true → ∀ clientId k, k ≠ i →
    (roomManagerLeaveRoom manager (manager.rooms i).roomId clientId).1.rooms k = manager.rooms k
  broadcast_mem : ∀ i, (manager.rooms i).isActive = true → ∀ s : State, s.roomManager = manager →
    ∀ senderId, ∀ c ∈ roomTargets s (manager.rooms i).roomId senderId,
      Lists (manager.rooms i) (c : Int)

theorem idsNameRooms_iff (manager : RoomManager) : IdsNameRooms manager ↔ DistinctIds manager := by
  refine ⟨IdsNameRooms.distinct, fun h => ⟨h, fun _ => h.find, ?_, ?_, ?_⟩⟩
  · intro i hi clientId k hk
    rw [roomManagerJoinRoom_of_found (h.find hi)]
    exact Function.update_of_ne hk _ _
  · intro i hi clientId k hk
    rw [roomManagerLeaveRoom_of_found (h.find hi)]
    split <;> exact Function.update_of_ne hk _ _
  · intro i hi s heq senderId c hc
    subst heq
    obtain ⟨r, hr, hlists, _⟩ := mem_roomTargets_iff.mp hc
    cases (h.find hi).symm.trans hr
    exact hlists

/-- The rooms that are active in `m'` are active in `m`, under the same ids. -/
def IdsWithin (m' m : RoomManager) : Prop :=
  ∀ i, (m'.rooms i).isActive = true →
    (m.rooms i).isActive = true ∧ (m'.rooms i).roomId = (m.rooms i).roomId

theorem DistinctIds.within {m m' : RoomManager} (h : DistinctIds m) (hsub : IdsWithin m' m) :
    DistinctIds m' := by
  intro i j hi hj heq
  obtain ⟨hi', hidi⟩ := hsub i hi
  obtain ⟨hj', hidj⟩ := hsub j hj
  exact h i j hi' hj' (by rw [← hidi, ← hidj, heq])

section Frames
variable (manager : RoomManager) (roomId : CString) (clientId : Int)

theorem idsWithin_refl : IdsWithin manager manager := fun _ hi => ⟨hi, rfl⟩

variable {manager} in
theorem idsWithin_update {i : Fin maxRooms} {room : Room} {count : Int}
    (h : room.isActive = true →
      (manager.rooms i).isActive = true ∧ room.roomId = (manager.rooms i).roomId) :
    IdsWithin { rooms := Function.update manager.rooms i room, roomCount := count } manager := by
  intro k hk
  by_cases hki : k = i
  · subst hki
    simpa using h (by simpa using hk)
  · simpa [hki] using hk

theorem idsWithin_join : IdsWithin (roomManagerJoinRoom manager roomId clientId).1 manager := by
  cases hfind : roomManagerFindRoom manager roomId with
  | none =>
    rw [roomManagerJoinRoom_of_not_found hfind]
    exact idsWithin_refl manager
  | some i =>
    rw [roomManagerJoinRoom_of_found hfind]
    exact idsWithin_update fun _ => ⟨found_active hfind, (roomAddClient_frame _ _).1⟩

theorem idsWithin_leave : IdsWithin (roomManagerLeaveRoom manager roomId clientId).1 manager := by
  cases hfind : roomManagerFindRoom manager roomId with
  | none =>
    rw [roomManagerLeaveRoom_of_not_found hfind]
    exact idsWithin_refl manager
  | some i =>
    rw [roomManagerLeaveRoom_of_found hfind]
    split
    · exact idsWithin_update fun h => by simp [roomCleanup] at h
    · exact idsWithin_update fun _ => ⟨found_active hfind, (roomRemoveClient_frame _ _).1⟩

end Frames

theorem distinctIds_openRoom_iff {manager : RoomManager} (h : DistinctIds manager)
    {i : Fin maxRooms} (hfree : (manager.rooms i).isActive = false) {room : Room}
    (hactive : room.isActive = true) :
    DistinctIds (manager.openRoom i room) ↔
      ∀ k, (manager.rooms k).isActive = true → (manager.rooms k).roomId ≠ room.roomId := by
  have hself : (manager.openRoom i room).rooms i = room := Function.update_self ..
  have hother : ∀ k, k ≠ i → (manager.openRoom i room).rooms k = manager.rooms k :=
    fun k hk => Function.update_of_ne hk ..
  have hne : ∀ k, (manager.rooms k).isActive = true → k ≠ i := by
    intro k hk hsame
    subst hsame
    simp [hfree] at hk
  constructor
  · intro hdistinct k hk heq
    have hki := hne k hk
    refine hki (hdistinct k i ?_ ?_ ?_)
    · rw [hother k hki]
      exact hk
    · rw [hself]
      exact hactive
    · rw [hother k hki, hself]
      exact heq
  · intro hfresh k l hk hl heq
    by_cases hki : k = i <;> by_cases hli : l = i
    · rw [hki, hli]
    · subst hki
      rw [hself, hother l hli] at heq
      rw [hother l hli] at hl
      exact absurd heq.symm (hfresh l hl)
    · subst hli
      rw [hother k hki, hself] at heq
      rw [hother k hki] at hk
      exact absurd heq (hfresh k hk)
    · rw [hother k hki] at hk heq
      rw [hother l hli] at hl heq
      exact h k l hk hl heq

end TcpChat.Server

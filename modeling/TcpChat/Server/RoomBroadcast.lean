import TcpChat.Server.RoomTable

/-!
# Broadcasts to a room

Whom `room_manager_broadcast_to_room` sends to, as a list of session slots.
-/

namespace TcpChat.Server

open Base
set_option autoImplicit false

/-- The sessions a broadcast under `roomId` goes to, in order. -/
def roomTargets (s : State) (roomId : CString) (senderId : Int) : List Slot :=
  match roomManagerFindRoom s.roomManager roomId with
  | none => []
  | some r => (List.finRange maxClientsPerRoom).filterMap
      (broadcastTarget s (s.roomManager.rooms r) senderId)

/-- What a broadcast of `message` adds to the trace. -/
def textTo (fails : Slot → Bool) (s : State) (message : CString) (targets : List Slot) :
    List Event :=
  targets.map fun c => .send (s.session c).socketFd (.text message) (!fails c)

theorem roomManagerBroadcastToRoom_fst (fails : Slot → Bool) (s : State)
    (roomId message : CString) (senderId : Int) :
    (roomManagerBroadcastToRoom fails s roomId message senderId).1 =
      s.emit (textTo fails s message (roomTargets s roomId senderId)) := by
  unfold roomManagerBroadcastToRoom roomTargets
  cases roomManagerFindRoom s.roomManager roomId with
  | none => simp only [textTo, List.map_nil, State.emit, List.append_nil]
  | some r => rfl

theorem clientManagerGetSession_eq_some_iff {clientId : Int} {c : Slot} :
    clientManagerGetSession clientId = some c ↔ clientId = (c : Int) := by
  have hc := c.isLt
  unfold clientManagerGetSession
  split
  · rename_i h
    simp only [Option.some.injEq, Fin.ext_iff]
    omega
  · rename_i h
    constructor
    · exact fun hnone => absurd hnone (by simp)
    · intro heq
      exact absurd ⟨by omega, by omega⟩ h

theorem broadcastTarget_eq_some_iff {s : State} {room : Room} {senderId : Int}
    {i : Fin maxClientsPerRoom} {c : Slot} :
    broadcastTarget s room senderId i = some c ↔
      room.clientIds i = (c : Int) ∧ (c : Int) ≠ senderId ∧ (s.session c).active = true := by
  have hc : (c : Int) ≠ -1 := by omega
  unfold broadcastTarget
  dsimp only
  split
  · rename_i h
    rw [Option.filter_eq_some_iff, clientManagerGetSession_eq_some_iff]
    constructor
    · intro hall
      obtain ⟨heq, hactive⟩ := hall
      exact ⟨heq, heq ▸ h.2, hactive⟩
    · intro hall
      obtain ⟨heq, _, hactive⟩ := hall
      exact ⟨heq, hactive⟩
  · rename_i h
    constructor
    · exact fun hnone => absurd hnone (by simp)
    · intro hall
      obtain ⟨heq, hne, _⟩ := hall
      exact absurd ⟨heq ▸ hc, heq ▸ hne⟩ h

/-- A broadcast reaches the active sessions that the room lists, its sender left out. -/
theorem mem_roomTargets_iff {s : State} {roomId : CString} {senderId : Int} {c : Slot} :
    c ∈ roomTargets s roomId senderId ↔
      ∃ r, roomManagerFindRoom s.roomManager roomId = some r ∧
        Lists (s.roomManager.rooms r) (c : Int) ∧ (c : Int) ≠ senderId ∧
          (s.session c).active = true := by
  unfold roomTargets
  cases hfind : roomManagerFindRoom s.roomManager roomId with
  | none => simp
  | some r =>
    simp only [List.mem_filterMap, broadcastTarget_eq_some_iff, List.mem_finRange, true_and,
      Option.some.injEq, exists_eq_left', Lists]
    constructor
    · intro h
      obtain ⟨j, hj, hne, hactive⟩ := h
      exact ⟨⟨j, hj⟩, hne, hactive⟩
    · intro h
      obtain ⟨⟨j, hj⟩, hne, hactive⟩ := h
      exact ⟨j, hj, hne, hactive⟩

theorem nodup_roomTargets {s : State} (ok : TableOk s.roomManager) (roomId : CString)
    (senderId : Int) : (roomTargets s roomId senderId).Nodup := by
  unfold roomTargets
  split
  · exact List.nodup_nil
  · rename_i r _
    refine List.Nodup.filterMap ?_ (List.nodup_finRange _)
    intro j k c hj hk
    have hcj := (broadcastTarget_eq_some_iff.mp hj).1
    have hck := (broadcastTarget_eq_some_iff.mp hk).1
    exact (ok.room_ok r).entries_distinct j k (hcj.trans hck.symm) (by omega)

end TcpChat.Server

import TcpChat.Server.Membership

/-!
# Whom a request is sent to

Replies go to the client that asked, relayed lines to members of rooms, and two requests are
announced to everybody.
-/

namespace TcpChat.Server

open Base
set_option autoImplicit false

/-- From `s` to `s'` the server closes descriptors and sends texts, to slots in `P` only. -/
def Sends (P : Slot → Prop) (s s' : State) : Prop :=
  ∃ es, s'.trace = s.trace ++ es ∧ ∀ e ∈ es, (∃ fd, e = .close fd) ∨
    ∃ d message ok, P d ∧ e = .send (s.session d).socketFd (.text message) ok

section Sends
variable {P Q : Slot → Prop} {s s' : State}

theorem Sends.nothing (h : s'.trace = s.trace) : Sends P s s' :=
  ⟨[], by simp [h], fun _ he => absurd he List.not_mem_nil⟩

theorem Sends.imp (h : Sends P s s') (hPQ : ∀ d, P d → Q d) : Sends Q s s' := by
  obtain ⟨es, htrace, hes⟩ := h
  refine ⟨es, htrace, fun e he => (hes e he).imp_right ?_⟩
  intro hall
  obtain ⟨d, message, ok, hd, rfl⟩ := hall
  exact ⟨d, message, ok, hPQ d hd, rfl⟩

theorem Sends.trans {t : State} (h : Sends P s t) (h' : Sends Q t s')
    (hQ : ∀ d, Q d → P d ∧ (t.session d).socketFd = (s.session d).socketFd) : Sends P s s' := by
  obtain ⟨es, htrace, hes⟩ := h
  obtain ⟨es', htrace', hes'⟩ := h'
  refine ⟨es ++ es', by rw [htrace', htrace, List.append_assoc], fun e he => ?_⟩
  rcases List.mem_append.mp he with he | he
  · exact hes e he
  · apply (hes' e he).imp_right
    intro hall
    obtain ⟨d, message, ok, hd, rfl⟩ := hall
    obtain ⟨hP, hfd⟩ := hQ d hd
    exact ⟨d, message, ok, hP, by rw [hfd]⟩

variable (s)

theorem sends_reply (fails : Slot → Bool) (c : Slot) (message : CString) :
    Sends (· = c) s (chatProtocolSendMessageToClient fails s c message).1 :=
  ⟨_, rfl, fun _ he => Or.inr ⟨c, message, _, rfl, List.mem_singleton.mp he⟩⟩

theorem sends_toRoom (fails : Slot → Bool) (roomId message : CString) (senderId : Int) :
    Sends (· ∈ roomTargets s roomId senderId) s
      (roomManagerBroadcastToRoom fails s roomId message senderId).1 := by
  refine ⟨_, by rw [roomManagerBroadcastToRoom_fst]; rfl, fun e he => Or.inr ?_⟩
  obtain ⟨d, hd, rfl⟩ := List.mem_map.mp he
  exact ⟨d, message, _, hd, rfl⟩

theorem sends_broadcast (fails : Slot → Bool) (message : CString) (senderId : Int) :
    Sends (Reached s senderId) s (clientManagerBroadcastMessage fails s message senderId) := by
  refine ⟨_, trace_broadcast _ _ _ _, fun e he => ?_⟩
  apply (mem_broadcastEvents he).imp_right
  intro hsend
  obtain ⟨d, hreached, rfl⟩ := hsend
  exact ⟨d, message, _, hreached, rfl⟩

theorem sends_remove (fails : Slot → Bool) (c : Slot) :
    Sends (fun d => (s.session c).active = true ∧ Reached s c d) s
      (clientManagerRemoveClient fails s c) := by
  by_cases hactive : (s.session c).active = true
  · rw [remove_of_active _ _ _ hactive]
    have hclose : Sends (fun d => (s.session c).active = true ∧ Reached s c d) s
        (removed s c) := by
      refine ⟨_, rfl, fun e he => ?_⟩
      split at he
      · exact Or.inl ⟨_, List.mem_singleton.mp he⟩
      · exact absurd he List.not_mem_nil
    apply hclose.trans (sends_broadcast _ _ _ _)
    intro d hd
    have hdc : d ≠ c := fun heq => hd.2 (by rw [heq])
    have hsession : (removed s c).session d = s.session d := by rw [session_removed, if_neg hdc]
    rw [Reached, hsession] at hd
    rw [hsession]
    exact ⟨⟨hactive, hd⟩, rfl⟩
  · rw [remove_of_inactive _ _ _ (Bool.eq_false_iff.mpr hactive)]
    exact Sends.nothing rfl

end Sends

/-- From `s` to `s'` the server sends a text to the session in slot `d`. -/
def Texted (s s' : State) (d : Slot) : Prop :=
  ∃ es message ok, s'.trace = s.trace ++ es ∧ .send (s.session d).socketFd (.text message) ok ∈ es

section Texted
variable {s s' : State} {d : Slot}

theorem Texted.after {t : State} {es : List Event} (h : Texted t s' d)
    (htrace : t.trace = s.trace ++ es) (hfd : (t.session d).socketFd = (s.session d).socketFd) :
    Texted s s' d := by
  obtain ⟨es', message, ok, htrace', hmem⟩ := h
  refine ⟨es ++ es', message, ok, by rw [htrace', htrace, List.append_assoc], ?_⟩
  rw [← hfd]
  exact List.mem_append_right _ hmem

theorem Texted.before {t : State} {es : List Event} (h : Texted s t d)
    (htrace : s'.trace = t.trace ++ es) : Texted s s' d := by
  obtain ⟨es', message, ok, htrace', hmem⟩ := h
  exact ⟨es' ++ es, message, ok, by rw [htrace, htrace', List.append_assoc],
    List.mem_append_left _ hmem⟩

theorem texted_broadcast (fails : Slot → Bool) (message : CString) {senderId : Int}
    (h : Reached s senderId d) :
    Texted s (clientManagerBroadcastMessage fails s message senderId) d := by
  refine ⟨_, message, !fails d, trace_broadcast _ _ _ _, ?_⟩
  refine List.mem_flatMap.mpr ⟨d, List.mem_finRange d, ?_⟩
  rw [broadcastEvents, if_pos h]
  exact List.mem_cons_self

theorem texted_remove (fails : Slot → Bool) {c : Slot} (hactive : (s.session c).active = true)
    (h : Reached s c d) : Texted s (clientManagerRemoveClient fails s c) d := by
  have hdc : d ≠ c := fun heq => h.2 (by rw [heq])
  have hsession : (removed s c).session d = s.session d := by rw [session_removed, if_neg hdc]
  rw [remove_of_active _ _ _ hactive]
  refine Texted.after (t := removed s c) (texted_broadcast _ _ ?_) rfl (by rw [hsession])
  rw [Reached, hsession]
  exact h

end Texted

/-- The request is broadcast to all clients but `senderId`. -/
def Announces (session : ClientSession) (c : Slot) : Request → Int → Prop
  | .nick newNickname, senderId => (cleanNickname newNickname).length ≠ 0 ∧ senderId = -1
  | .keyExchange _, senderId => session.hasRoom = false ∧ senderId = c
  | _, _ => False

/-- The clients a request of client `c` may be sent to. -/
def Addressed (s : State) (c : Slot) (r : Request) (d : Slot) : Prop :=
  d = c ∨ ((s.session d).active = true ∧ ∃ i, Member s.roomManager i (d : Int)) ∨
    ∃ senderId, Announces (s.session c) c r senderId ∧ Reached s senderId d

section Rooms
variable {s : State} {c : Slot} (ok : TableOk s.roomManager)
include ok

theorem TableOk.leaveCurrent : TableOk (leaveCurrentRoom s c).roomManager :=
  leaveCurrentRoom_keeps ok fun roomId => ok.leave roomId c

theorem member_of_leaveCurrentRoom {i : Fin maxRooms} {d : Slot}
    (h : Member (leaveCurrentRoom s c).roomManager i (d : Int)) :
    Member s.roomManager i (d : Int) := by
  revert h
  apply leaveCurrentRoom_keeps
    (P := fun manager => Member manager i (d : Int) → Member s.roomManager i (d : Int))
  · exact id
  · intro roomId h
    exact ((member_leave_iff ok _ (by omega) i).mp h).1

end Rooms

section Enter
variable {manager : RoomManager} (ok : TableOk manager) {c d : Slot} {i : Fin maxRooms}
include ok

theorem member_of_create {libc : Libc} {now : Int} {roomName : CString}
    (h : Member (roomManagerCreateRoom libc now manager roomName c).1 i (d : Int)) :
    d = c ∨ Member manager i (d : Int) := by
  rcases roomManagerCreateRoom_cases ok.count_eq libc now roomName c with
    ⟨_, k, hfree, _, heq⟩ | ⟨_, heq⟩
  · rw [roomAddClient_initial _ _ _ (by omega)] at heq
    rw [heq] at h
    rcases (member_openRoom_iff ok hfree (by omega)).mp h with ⟨_, hdc⟩ | hold
    · exact Or.inl (Fin.ext (by omega))
    · exact Or.inr hold
  · rw [heq] at h
    exact Or.inr h

theorem member_of_join {roomId : CString}
    (h : Member (roomManagerJoinRoom manager roomId c).1 i (d : Int)) :
    d = c ∨ Member manager i (d : Int) := by
  rcases roomManagerJoinRoom_cases ok roomId c with ⟨k, _, _, _, _, j, hfree, heq⟩ | ⟨_, heq⟩
  · rw [heq] at h
    have hkeep : ((manager.rooms k).insert j (c : Int)).isActive = (manager.rooms k).isActive := rfl
    rcases (member_setRoom_iff hkeep).mp h with ⟨rfl, hactive, hlists⟩ | ⟨_, hold⟩
    · rcases (RoomOk.lists_insert_iff hfree (by omega)).mp hlists with hdc | hold
      · exact Or.inl (Fin.ext (by omega))
      · exact Or.inr ⟨hactive, hold⟩
    · exact Or.inr hold
  · rw [heq] at h
    exact Or.inr h

end Enter

section Outcomes
variable {libc : Libc} {env : Env} {s : State} {c : Slot} {r : Request}
  {sessions : Slot → ClientSession} {rooms : RoomManager} (ok : TableOk s.roomManager)
include ok

theorem TableOk.outcome (h : Outcome libc env s c r sessions rooms) : TableOk rooms := by
  have hleft : TableOk (leaveCurrentRoom s c).roomManager := ok.leaveCurrent
  have hc : (0 : Int) ≤ c := by omega
  cases h with
  | talk | announced | renamed => exact ok
  | @createRefused roomName _ _ heq | @created roomName _ _ _ heq =>
    have hcreate := hleft.create libc env.now roomName hc
    rw [heq] at hcreate
    exact hcreate
  | @joinRefused roomId _ _ _ heq | @joined roomId _ _ _ heq =>
    have hjoin := hleft.join roomId c
    rw [heq] at hjoin
    exact hjoin
  | left => exact hleft

/-- A request lets nobody into a room but the client it is from. -/
theorem member_of_outcome (h : Outcome libc env s c r sessions rooms) {i : Fin maxRooms}
    {d : Slot} (hmember : Member rooms i (d : Int)) : d = c ∨ Member s.roomManager i (d : Int) := by
  have hleft : TableOk (leaveCurrentRoom s c).roomManager := ok.leaveCurrent
  cases h with
  | talk | announced | renamed => exact Or.inr hmember
  | @createRefused roomName _ _ heq | @created roomName _ _ _ heq =>
    have hrooms : (roomManagerCreateRoom libc env.now (leaveCurrentRoom s c).roomManager roomName
      c).1 = rooms := by rw [heq]
    rw [← hrooms] at hmember
    exact (member_of_create hleft hmember).imp_right (member_of_leaveCurrentRoom ok)
  | @joinRefused roomId _ _ _ heq | @joined roomId _ _ _ heq =>
    have hrooms : (roomManagerJoinRoom (leaveCurrentRoom s c).roomManager roomId c).1 = rooms := by
      rw [heq]
    rw [← hrooms] at hmember
    exact (member_of_join hleft hmember).imp_right (member_of_leaveCurrentRoom ok)
  | left => exact Or.inr (member_of_leaveCurrentRoom ok hmember)

end Outcomes

section Perform
variable (libc : Libc) (env : Env) {s : State} (c : Slot) (ok : TableOk s.roomManager)

theorem trace_leaveCurrentRoom : (leaveCurrentRoom s c).trace = s.trace := by
  rw [leaveCurrentRoom_eq, State.trace_setRooms]

/-- A reply, given in a state in which the client kept its descriptor. -/
theorem Sends.replied {P : Slot → Prop} {t : State} {c : Slot} (h : Sends P s t) (hc : P c)
    (hfd : (t.session c).socketFd = (s.session c).socketFd) (fails : Slot → Bool)
    (message : CString) : Sends P s (chatProtocolSendMessageToClient fails t c message).1 :=
  h.trans (sends_reply t fails c message) fun _ hd => hd ▸ ⟨hc, hfd⟩

theorem sends_create (roomName : CString) :
    Sends (· = c) s (chatProtocolHandleCreateRoom libc env s c roomName).1 := by
  unfold chatProtocolHandleCreateRoom
  split
  · exact sends_reply _ _ _ _
  · have hleft : (leaveCurrentRoom s c).trace = s.trace := trace_leaveCurrentRoom c
    dsimp only
    split
    · refine Sends.replied (P := (· = c)) (Sends.nothing ?_) rfl ?_ _ _
      · exact hleft
      · rw [State.session_setRooms, session_leaveCurrentRoom]
    · refine Sends.replied (P := (· = c)) (Sends.nothing ?_) rfl ?_ _ _
      · exact hleft
      · rw [State.session_setSession_self, State.session_setRooms, session_leaveCurrentRoom]
        rfl

include ok

/-- Whoever hears that the client has joined was in the room before. -/
theorem sends_join (roomId : CString) :
    Sends (fun d => d = c ∨ ((s.session d).active = true ∧
      ∃ i, Member s.roomManager i (d : Int))) s (chatProtocolHandleJoinRoom env s c roomId).1 := by
  unfold chatProtocolHandleJoinRoom
  dsimp only
  split
  · exact Sends.imp (sends_reply _ _ _ _) fun _ => Or.inl
  · have hleft : (leaveCurrentRoom s c).trace = s.trace := trace_leaveCurrentRoom c
    split
    · refine Sends.replied (Sends.nothing ?_) (Or.inl rfl) ?_ _ _
      · exact hleft
      · rw [State.session_setRooms, session_leaveCurrentRoom]
    · dsimp only
      refine Sends.trans (Sends.replied (c := c) (Sends.nothing ?_) (Or.inl rfl) ?_ _ _)
        (sends_toRoom _ _ _ _ _) ?_
      · exact hleft
      · rw [State.session_setSession_self, State.session_setRooms, session_leaveCurrentRoom]
        rfl
      intro d hd
      obtain ⟨i, hi, hlists, hne, hactive⟩ := mem_roomTargets_iff.mp hd
      have hdc : d ≠ c := fun heq => hne (by rw [heq])
      rw [sendMessageToClient_fst, State.session_emit, State.session_setSession_of_ne _ _ _ _ hdc,
        State.session_setRooms, session_leaveCurrentRoom] at hactive
      have hmember : Member (roomManagerJoinRoom (leaveCurrentRoom s c).roomManager roomId c).1 i
          (d : Int) := ⟨found_active hi, hlists⟩
      have hbefore := (member_of_join ok.leaveCurrent hmember).resolve_left hdc
      refine ⟨Or.inr ⟨hactive, i, member_of_leaveCurrentRoom ok hbefore⟩, ?_⟩
      rw [sendMessageToClient_fst, State.session_emit, State.session_setSession_of_ne _ _ _ _ hdc,
        State.session_setRooms, session_leaveCurrentRoom]

omit ok

theorem sends_relay (fails : Slot → Bool) (roomId message : CString) (senderId : Int) :
    Sends (fun d => (s.session d).active = true ∧ ∃ i, Member s.roomManager i (d : Int)) s
      (roomManagerBroadcastToRoom fails s roomId message senderId).1 := by
  apply (sends_toRoom s _ _ _ _).imp
  intro d hd
  obtain ⟨i, hi, hlists, _, hactive⟩ := mem_roomTargets_iff.mp hd
  exact ⟨hactive, i, found_active hi, hlists⟩

theorem sends_leave :
    Sends (fun d => d = c ∨ ((s.session d).active = true ∧
      ∃ i, Member s.roomManager i (d : Int))) s (chatProtocolHandleLeaveRoom env s c).1 := by
  unfold chatProtocolHandleLeaveRoom
  dsimp only
  split
  · exact Sends.imp (sends_reply _ _ _ _) fun _ => Or.inl
  · dsimp only
    refine Sends.replied ?_ (Or.inl rfl) ?_ _ _
    · rw [Sends, State.trace_setSession, State.trace_setRooms]
      exact Sends.imp (sends_relay _ _ _ _) fun _ => Or.inr
    · rw [State.session_setSession_self, State.session_setRooms, roomManagerBroadcastToRoom_fst,
        State.session_emit]

/-- A nickname is no matter of being active or of a descriptor. -/
theorem session_setNickname (s : State) (c : Slot) (nickname : CString) (d : Slot) :
    ((s.setSession c (clientSessionSetNickname (s.session c) nickname)).session d).active =
        (s.session d).active ∧
      ((s.setSession c (clientSessionSetNickname (s.session c) nickname)).session d).socketFd =
        (s.session d).socketFd := by
  rw [State.session_setSession]
  split
  · rename_i hdc
    rw [hdc]
    exact ⟨rfl, rfl⟩
  · exact ⟨rfl, rfl⟩

theorem sends_nick (newNickname : CString) :
    Sends (fun d => d = c ∨ ((cleanNickname newNickname).length ≠ 0 ∧ Reached s (-1) d)) s
      (chatProtocolHandleNicknameChange env s c newNickname).1 := by
  by_cases hname : (cleanNickname newNickname).length = 0
  · rw [nicknameChange_of_empty env s c hname]
    exact Sends.imp (sends_reply _ _ _ _) fun _ => Or.inl
  -- The announcement goes to all sessions, the user list to those that are left.
  have hset := session_setNickname s c (cleanNickname newNickname)
  rw [nicknameChange_of_not_empty env s c hname, clientManagerBroadcastUserList]
  dsimp only
  refine Sends.trans (Sends.trans (Sends.nothing (State.trace_setSession _ _ _))
    (sends_broadcast _ _ _ _) ?_) (sends_broadcast _ _ _ _) ?_
  · intro d hd
    rw [Reached, (hset d).1] at hd
    exact ⟨Or.inr ⟨hname, hd⟩, (hset d).2⟩
  · intro d hd
    rw [Reached, session_broadcast] at hd
    rw [session_broadcast]
    split at hd
    · cases hd.1
    · rename_i hkept
      rw [if_neg hkept]
      rw [(hset d).1] at hd
      exact ⟨Or.inr ⟨hname, hd⟩, (hset d).2⟩

include ok

theorem sends_perform (r : Request) :
    Sends (Addressed s c r) s (perform libc env s c r).1 := by
  have hreply : ∀ fails message,
      Sends (Addressed s c r) s (chatProtocolSendMessageToClient fails s c message).1 :=
    fun fails message => (sends_reply s fails c message).imp fun _ => Or.inl
  have hrelay : ∀ message,
      Sends (Addressed s c r) s (roomManagerBroadcastToRoom (env.sendFails 0) s
        (s.session c).currentRoomId message c).1 :=
    fun message => (sends_relay _ _ _ _).imp fun _ hd => Or.inr (Or.inl hd)
  cases r with
  | create roomName => exact (sends_create libc env c roomName).imp fun _ => Or.inl
  | join roomId =>
    exact (sends_join env c ok roomId).imp fun _ hd => hd.imp_right Or.inl
  | leave => exact (sends_leave env c).imp fun _ hd => hd.imp_right Or.inl
  | nick newNickname =>
    refine (sends_nick env c newNickname).imp fun _ hd => hd.imp_right fun ⟨hname, hreached⟩ => ?_
    exact Or.inr ⟨-1, ⟨hname, rfl⟩, hreached⟩
  | users =>
    unfold perform chatProtocolHandleListUsers
    dsimp only
    split
    · exact hreply _ _
    · exact hreply _ _
  | keyExchange command =>
    unfold perform
    dsimp only
    split
    · exact hrelay _
    · rename_i hroom
      dsimp only
      refine Sends.imp (sends_broadcast s _ _ _) fun d hd => Or.inr (Or.inr ⟨c, ?_, hd⟩)
      exact ⟨Bool.eq_false_iff.mpr hroom, rfl⟩
  | e2eMessage command | chat command =>
    unfold perform
    dsimp only
    split
    · exact hrelay _
    · exact hreply _ _
  | nothing | quit => exact Sends.nothing rfl
  | rooms | help | unknown => exact hreply _ _

omit ok

theorem texted_perform {r : Request} {senderId : Int} {d : Slot}
    (hannounces : Announces (s.session c) c r senderId) (hreached : Reached s senderId d) :
    Texted s (perform libc env s c r).1 d := by
  cases r with
  | nick newNickname =>
    obtain ⟨hname, rfl⟩ := hannounces
    have hset := session_setNickname s c (cleanNickname newNickname) d
    have hreached' : Reached (s.setSession c (clientSessionSetNickname (s.session c)
        (cleanNickname newNickname))) (-1) d := by
      rw [Reached, hset.1]
      exact hreached
    have hfirst : ∀ message, Texted s (clientManagerBroadcastMessage (env.sendFails 0)
        (s.setSession c (clientSessionSetNickname (s.session c) (cleanNickname newNickname)))
        message (-1)) d := fun message =>
      (texted_broadcast _ message hreached').after (List.append_nil s.trace).symm hset.2
    simp only [perform, nicknameChange_of_not_empty env s c hname, clientManagerBroadcastUserList]
    exact (hfirst _).before (trace_broadcast _ _ _ _)
  | keyExchange command =>
    obtain ⟨hroom, rfl⟩ := hannounces
    have hno : ¬ (s.session c).hasRoom = true := by simp [hroom]
    simp only [perform, if_neg hno]
    exact texted_broadcast _ _ hreached
  | _ => exact hannounces.elim

end Perform

theorem announces_of_down {libc : Libc} {env : Env} {s : State} {c d : Slot} {r : Request}
    {sessions : Slot → ClientSession} {rooms : RoomManager}
    (h : Outcome libc env s c r sessions rooms) (hactive : (s.session d).active = true)
    (hdown : (sessions d).active = false) :
    ∃ senderId, Announces (s.session c) c r senderId ∧ Reached s senderId d := by
  have hstill : ∀ {P : Prop} {v : ClientSession}, (Function.update s.session c v d).active =
      false → v.active = (s.session c).active → P := by
    intro P v hdead hv
    by_cases hdc : d = c
    · subst hdc
      rw [Function.update_self, hv, hactive] at hdead
      cases hdead
    · rw [Function.update_of_ne hdc, hactive] at hdead
      cases hdead
  cases h with
  | talk | createRefused | joinRefused =>
    rw [hactive] at hdown
    cases hdown
  | announced hroom =>
    dsimp only at hdown
    split at hdown
    · rename_i hevicted
      exact ⟨c, ⟨hroom, rfl⟩, hevicted.1⟩
    · rw [hactive] at hdown
      cases hdown
  | renamed hname => exact ⟨-1, ⟨hname, rfl⟩, hactive, by omega⟩
  | created | joined | left => exact hstill hdown rfl

end TcpChat.Server

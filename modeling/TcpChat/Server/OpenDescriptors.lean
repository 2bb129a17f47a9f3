import TcpChat.Base.Leases
import TcpChat.Server.HandlerSteps

/-!
# Open descriptors

`accept` hands descriptors out and `close` gives them back. The open ones are those of the
live sessions, as long as nobody closes a descriptor that is not open.
-/

namespace TcpChat.Server

open Base Base.Leases
set_option autoImplicit false

/-- What an event does to the table of open descriptors. -/
def Event.use : Event → Option (Use Int)
  | .accept fd => some (.acquire fd)
  | .close fd => some (.release fd)
  | .send _ _ _ => none

/-- The descriptors that have been accepted and not been closed since. -/
def openFds (trace : List Event) : Int → Bool := heldAfter Event.use (fun _ => false) trace

structure Owned (s : State) : Prop where
  fds : FdsOk s
  disciplined : Disciplined Event.use (fun _ => false) s.trace
  open_iff : ∀ fd, openFds s.trace fd = true ↔
    ∃ c, (s.session c).active = true ∧ (s.session c).socketFd = fd

theorem openFds_append (es es' : List Event) :
    openFds (es ++ es') = heldAfter Event.use (openFds es) es' := heldAfter_append

section Owned
variable {s s' : State} {c : Slot}

/-- Sends leave the descriptors alone. -/
theorem Owned.quiet (h : Owned s) (hsame : ∀ d, (s'.session d).active = (s.session d).active ∧
    (s'.session d).socketFd = (s.session d).socketFd) {es : List Event}
    (htrace : s'.trace = s.trace ++ es) (hes : ∀ e ∈ es, Event.use e = none) : Owned s' := by
  constructor
  · exact h.fds.of_spared fun d => Or.inr (hsame d)
  · rw [htrace, disciplined_append]
    exact ⟨h.disciplined, disciplined_other hes⟩
  · intro fd
    rw [htrace, openFds_append, heldAfter_other hes, h.open_iff]
    apply exists_congr
    intro d
    rw [(hsame d).1, (hsame d).2]

/-- The descriptor of a live session is closed and the session cleaned. -/
theorem Owned.closed (h : Owned s) (hactive : (s.session c).active = true)
    (htrace : s'.trace = s.trace ++ [.close (s.session c).socketFd])
    (hsession : ∀ d, s'.session d = if d = c then (s.session c).cleaned else s.session d) :
    Owned s' := by
  have hdead : (s'.session c).active = false := by
    rw [hsession, if_pos rfl, cleaned_active]
  have hother : ∀ d, d ≠ c → s'.session d = s.session d := by
    intro d hd
    rw [hsession, if_neg hd]
  constructor
  · apply h.fds.of_spared
    intro d
    rw [hsession]
    split
    · exact Or.inl ⟨rfl, rfl⟩
    · exact Or.inr ⟨rfl, rfl⟩
  · rw [htrace, disciplined_append, disciplined_cons]
    refine ⟨h.disciplined, fun fd huse => ?_, disciplined_nil⟩
    cases huse
    exact (h.open_iff _).mpr ⟨c, hactive, rfl⟩
  · intro fd
    rw [htrace, openFds_append]
    change Function.update (openFds s.trace) _ false fd = true ↔ _
    rw [Function.update_apply]
    split
    · rename_i hfd
      refine iff_of_false Bool.false_ne_true ?_
      intro hall
      obtain ⟨d, hd, hsame⟩ := hall
      by_cases hdc : d = c
      · rw [hdc, hdead] at hd
        cases hd
      · rw [hother d hdc] at hd hsame
        exact hdc (h.fds.distinct d c hd hactive (hsame.trans hfd))
    · rename_i hfd
      rw [h.open_iff]
      apply exists_congr
      intro d
      by_cases hdc : d = c
      · rw [hdc, hdead]
        exact iff_of_false (fun hall => hfd hall.2.symm) (fun hall => Bool.noConfusion hall.1)
      · rw [hother d hdc]

end Owned

section Announcements
variable {s : State} (h : Owned s) (fails : Slot → Bool)
include h

theorem Owned.emit {es : List Event} (hes : ∀ e ∈ es, Event.use e = none) : Owned (s.emit es) :=
  h.quiet (fun _ => ⟨rfl, rfl⟩) rfl hes

theorem Owned.setSession {c : Slot} {v : ClientSession}
    (hactive : v.active = (s.session c).active) (hfd : v.socketFd = (s.session c).socketFd) :
    Owned (s.setSession c v) := by
  refine h.quiet (fun d => ?_) (List.append_nil _).symm fun e he => absurd he List.not_mem_nil
  rw [State.session_setSession]
  split
  · rename_i hdc
    rw [hdc]
    exact ⟨hactive, hfd⟩
  · exact ⟨rfl, rfl⟩

/-- Neither the rooms nor the contexts have descriptors. -/
theorem Owned.setRooms (rooms : RoomManager) : Owned (s.setRooms rooms) :=
  h.quiet (fun _ => ⟨rfl, rfl⟩) (List.append_nil _).symm fun _ he => absurd he List.not_mem_nil

theorem Owned.reply (c : Slot) (message : CString) :
    Owned (chatProtocolSendMessageToClient fails s c message).1 := by
  apply h.emit
  intro e he
  rw [List.mem_singleton.mp he]
  rfl

theorem Owned.toRoom (roomId message : CString) (senderId : Int) :
    Owned (roomManagerBroadcastToRoom fails s roomId message senderId).1 := by
  rw [roomManagerBroadcastToRoom_fst]
  apply h.emit
  intro e he
  obtain ⟨d, _, rfl⟩ := List.mem_map.mp he
  rfl

theorem Owned.broadcastStep (message : CString) (senderId : Int) (i : Slot) :
    Owned (TcpChat.Server.broadcastStep fails message senderId s i) := by
  rw [broadcastStep_eq]
  split
  · rename_i hevicted
    have hactive := hevicted.1.1
    have hsent : Owned (s.emit [.send (s.session i).socketFd (.text message) false]) :=
      h.emit fun e he => by rw [List.mem_singleton.mp he]; rfl
    refine hsent.closed (c := i) hactive ?_ fun d => ?_
    · rw [State.trace_addClientCount, trace_clientSessionCleanup, State.session_setSession_self,
        if_pos (h.fds.fd_nonneg i hactive)]
      rfl
    · rw [State.session_addClientCount, session_clientSessionCleanup,
        State.session_setSession_self]
      split
      · rfl
      · rename_i hd
        rw [State.session_setSession_of_ne _ _ _ _ hd]
  · split
    · exact h.emit fun e he => by rw [List.mem_singleton.mp he]; rfl
    · exact h

theorem Owned.broadcast (message : CString) (senderId : Int) :
    Owned (clientManagerBroadcastMessage fails s message senderId) := by
  unfold clientManagerBroadcastMessage
  generalize List.finRange maxClients = slots
  induction slots generalizing s with
  | nil => exact h
  | cons i slots ih =>
    rw [List.foldl_cons]
    exact ih (h.broadcastStep fails message senderId i)

theorem Owned.remove (c : Slot) : Owned (clientManagerRemoveClient fails s c) := by
  cases hactive : (s.session c).active with
  | true =>
    rw [remove_of_active fails s c hactive]
    apply Owned.broadcast
    refine h.closed hactive ?_ fun d => session_removed s c d
    have hfd : 0 ≤ (s.session c).socketFd := h.fds.fd_nonneg c hactive
    rw [removed, State.trace_addClientCount, trace_clientSessionCleanup, State.trace_setSecurity,
      State.session_setSecurity, if_pos hfd]
  | false =>
    rw [remove_of_inactive fails s c hactive]
    exact h

end Announcements

section Requests
variable {libc : Libc} {env : Env} {s : State} {c : Slot} (h : Owned s)
include h

theorem Owned.leaveCurrent : Owned (leaveCurrentRoom s c) := by
  rw [leaveCurrentRoom_eq]
  exact h.setRooms _

theorem Owned.create (roomName : CString) :
    Owned (chatProtocolHandleCreateRoom libc env s c roomName).1 := by
  unfold chatProtocolHandleCreateRoom
  split
  · exact h.reply _ _ _
  · have hleft : Owned (leaveCurrentRoom s c) := h.leaveCurrent
    dsimp only
    split
    · exact (hleft.setRooms _).reply _ _ _
    · apply Owned.reply
      exact (hleft.setRooms _).setSession rfl rfl

theorem Owned.join (roomId : CString) : Owned (chatProtocolHandleJoinRoom env s c roomId).1 := by
  unfold chatProtocolHandleJoinRoom
  split
  · exact h.reply _ _ _
  · have hleft : Owned (leaveCurrentRoom s c) := h.leaveCurrent
    dsimp only
    split
    · exact (hleft.setRooms _).reply _ _ _
    · dsimp only
      apply Owned.toRoom
      apply Owned.reply
      exact (hleft.setRooms _).setSession rfl rfl

theorem Owned.leave : Owned (chatProtocolHandleLeaveRoom env s c).1 := by
  unfold chatProtocolHandleLeaveRoom
  dsimp only
  split
  · exact h.reply _ _ _
  · apply Owned.reply
    exact ((h.toRoom _ _ _ _).setRooms _).setSession rfl rfl

theorem Owned.nick (newNickname : CString) :
    Owned (chatProtocolHandleNicknameChange env s c newNickname).1 := by
  unfold chatProtocolHandleNicknameChange
  dsimp only
  split
  · exact h.reply _ _ _
  · split
    · exact h.reply _ _ _
    · rw [clientManagerBroadcastUserList]
      dsimp only
      apply Owned.broadcast
      apply Owned.broadcast
      exact h.setSession rfl rfl

theorem Owned.perform (r : Request) : Owned (TcpChat.Server.perform libc env s c r).1 := by
  cases r with
  | nothing | quit => exact h
  | create roomName => exact h.create roomName
  | join roomId => exact h.join roomId
  | leave => exact h.leave
  | nick newNickname => exact h.nick newNickname
  | rooms | help | unknown => exact h.reply _ _ _
  | users =>
    unfold TcpChat.Server.perform chatProtocolHandleListUsers
    dsimp only
    split
    · exact h.reply _ _ _
    · exact h.reply _ _ _
  | keyExchange command =>
    unfold TcpChat.Server.perform
    dsimp only
    split
    · exact h.toRoom _ _ _ _
    · dsimp only
      exact h.broadcast _ _ _
  | e2eMessage command | chat command =>
    unfold TcpChat.Server.perform
    dsimp only
    split
    · exact h.toRoom _ _ _ _
    · exact h.reply _ _ _

end Requests

section Steps
variable {libc : Libc} {s : State}

/-- No step of a handler closes a descriptor that is not open. -/
theorem Owned.handler_step (h : Owned s) (handler : Handler) (input : Input) :
    Owned (handler.step libc s input).1 := by
  have heffect := Handler.effect libc s handler input
  generalize (handler.step libc s input).1 = s' at heffect ⊢
  have hreceived : Owned (clientSessionReceiveMessage s handler.slot input.chunk).1 := by
    refine @Owned.quiet _ _ h (fun d => ?_) [] ?_ fun _ he => absurd he List.not_mem_nil
    · rw [session_receiveMessage]
      exact ⟨rfl, rfl⟩
    · rw [trace_receiveMessage, List.append_nil]
  cases heffect with
  | nothing => exact h
  | write hes hactive hfd =>
    refine Owned.setSession (h.emit fun e he => ?_) hactive hfd
    obtain ⟨_, _, rfl⟩ := hes e he
    rfl
  | receive => exact hreceived
  | serve _ => exact hreceived.perform _
  | remove => exact h.remove _ _

end Steps

end TcpChat.Server

import TcpChat.Server.Operations

/-!
# The receive loop of a handler (server/src/client_session.c)

One turn of the loop in `client_session_handler_thread`, and what a turn needs of the state:
that the connection is up.
-/

namespace TcpChat.Server

open Base Base.Runs Base.XorCodec
set_option autoImplicit false

/-- The outcome of a turn: `handed` is what `chat_protocol_handle_message` was given, `goesOn`
says that the loop was not left. -/
structure Turn where
  state : State
  handed : Option CString
  goesOn : Bool

/-- What is done once `recv` has returned. -/
def handlerReceive (libc : Libc) (env : Env) (s : State) (c : Slot)
    (received : Option (List UInt8)) : Turn :=
  match clientSessionReceiveMessage s c received with
  | (s, none) | (s, some []) => ⟨s, none, false⟩
  | (s, some bytes) =>
    let message := CString.ofBuffer bytes
    let (s, result) := chatProtocolHandleMessage libc env s c message
    ⟨s, some message, decide (0 ≤ result)⟩

def handlerTurn (libc : Libc) (env : Env) (s : State) (c : Slot)
    (received : Option (List UInt8)) : Turn :=
  if clientSessionIsActive (s.session c) then handlerReceive libc env s c received
  else ⟨s, none, false⟩

/-- The connection in slot `c` is up, and its context decrypts with `key`. -/
structure Up (s : State) (c : Slot) (key : Fin 32 → UInt8) : Prop where
  active : (s.session c).active = true
  fd_nonneg : 0 ≤ (s.session c).socketFd
  clientId_eq : (s.session c).clientId = (c : Int)
  context : ∃ encCtx, s.securityManager.contexts c = some encCtx ∧ encCtx.sessionKey = key

theorem Up.of_added (s : State) {socketFd : Int} (h : 0 ≤ socketFd) (i : Slot) :
    Up (added s socketFd i) i sessionKey := by
  have hsession : (added s socketFd i).session i = newSession s socketFd i := by
    rw [session_added, if_pos rfl]
  constructor
  · rw [hsession]
    rfl
  · rw [hsession]
    exact h
  · rw [hsession]
    rfl
  · exact ⟨⟨sessionKey, 0, 0⟩, by simp [added], rfl⟩

section Perform
variable (libc : Libc) (env : Env) (s : State) (c : Slot)

theorem securityManager_leaveCurrentRoom :
    (leaveCurrentRoom s c).securityManager = s.securityManager := by
  rw [leaveCurrentRoom_eq, State.securityManager_setRooms]

theorem securityManager_broadcastToRoom (fails : Slot → Bool) (roomId message : CString)
    (senderId : Int) :
    (roomManagerBroadcastToRoom fails s roomId message senderId).1.securityManager =
      s.securityManager := by
  rw [roomManagerBroadcastToRoom_fst]
  rfl

theorem securityManager_perform (r : Request) :
    (perform libc env s c r).1.securityManager = s.securityManager := by
  cases r with
  | create roomName =>
    simp only [perform, chatProtocolHandleCreateRoom]
    split
    · rfl
    · split <;> exact securityManager_leaveCurrentRoom s c
  | join roomId =>
    simp only [perform, chatProtocolHandleJoinRoom]
    split
    · rfl
    · split
      · exact securityManager_leaveCurrentRoom s c
      · rw [securityManager_broadcastToRoom]
        exact securityManager_leaveCurrentRoom s c
  | leave =>
    simp only [perform, chatProtocolHandleLeaveRoom]
    split
    · rfl
    · simp only [sendMessageToClient_fst, State.securityManager_emit,
        State.securityManager_setSession, State.securityManager_setRooms,
        securityManager_broadcastToRoom]
  | nick newNickname =>
    simp only [perform, chatProtocolHandleNicknameChange]
    split
    · rfl
    · split
      · rfl
      · simp only [clientManagerBroadcastUserList, securityManager_broadcast]
        rfl
  | users =>
    simp only [perform, chatProtocolHandleListUsers]
    split <;> rfl
  | keyExchange command =>
    simp only [perform]
    split
    · rw [securityManager_broadcastToRoom]
    · rw [securityManager_broadcast]
  | e2eMessage command | chat command =>
    simp only [perform]
    split
    · rw [securityManager_broadcastToRoom]
    · rfl
  | nothing | rooms | help | quit | unknown => rfl

theorem perform_snd (r : Request) :
    (perform libc env s c r).2 = if r = .quit then -1 else 0 := by
  cases r with
  | create roomName =>
    simp only [perform, chatProtocolHandleCreateRoom]
    split
    · rfl
    · split <;> rfl
  | join roomId =>
    simp only [perform, chatProtocolHandleJoinRoom]
    split
    · rfl
    · split <;> rfl
  | leave =>
    simp only [perform, chatProtocolHandleLeaveRoom]
    split <;> rfl
  | nick newNickname =>
    simp only [perform, chatProtocolHandleNicknameChange]
    split
    · rfl
    · split <;> rfl
  | users =>
    simp only [perform, chatProtocolHandleListUsers]
    split <;> rfl
  | keyExchange command | e2eMessage command | chat command =>
    simp only [perform]
    split <;> rfl
  | nothing | rooms | help | quit | unknown => rfl

end Perform

/-- The operation is none of the handler of slot `c`, and its sends to `c` arrive. -/
def Spares (c : Slot) : Op → Prop
  | .message d _ env => d ≠ c ∧ ∀ k, env.sendFails k c = false
  | .disconnect d env => d ≠ c ∧ env.sendFails 0 c = false
  | .connect _ _ => True
  | .enterLobby d => d ≠ c

section Kept
variable {libc : Libc} {env : Env} {s : State} {c d : Slot} {key : Fin 32 → UInt8}

theorem Outcome.keeps_connection {r : Request} {sessions : Slot → ClientSession}
    {rooms : RoomManager} (h : Outcome libc env s d r sessions rooms)
    (hfails : ∀ k, env.sendFails k c = false) :
    (sessions c).active = (s.session c).active ∧ (sessions c).socketFd = (s.session c).socketFd ∧
      (sessions c).clientId = (s.session c).clientId := by
  have hupdate : ∀ v, v.active = (s.session d).active → v.socketFd = (s.session d).socketFd →
      v.clientId = (s.session d).clientId →
      (Function.update s.session d v c).active = (s.session c).active ∧
        (Function.update s.session d v c).socketFd = (s.session c).socketFd ∧
        (Function.update s.session d v c).clientId = (s.session c).clientId := by
    intro v hactive hfd hid
    by_cases hcd : c = d
    · subst hcd
      rw [Function.update_self]
      exact ⟨hactive, hfd, hid⟩
    · rw [Function.update_of_ne hcd]
      exact ⟨rfl, rfl, rfl⟩
  cases h with
  | talk | createRefused | joinRefused => exact ⟨rfl, rfl, rfl⟩
  | announced | renamed => simp only [Evicted, Dropped]; grind [clientSessionSetNickname]
  | created | joined | left => exact hupdate _ rfl rfl rfl

theorem Up.perform (h : Up s c key) (hfails : ∀ k, env.sendFails k c = false) (r : Request) :
    Up (perform libc env s d r).1 c key := by
  obtain ⟨hactive, hfd, hid⟩ := (outcome_perform libc env s d r).keeps_connection hfails
  constructor
  · rw [hactive]
    exact h.active
  · rw [hfd]
    exact h.fd_nonneg
  · rw [hid]
    exact h.clientId_eq
  · rw [securityManager_perform]
    exact h.context

theorem Up.congr {s' : State} (h : Up s c key) (hsession : s'.session c = s.session c)
    (hcontext : s'.securityManager.contexts c = s.securityManager.contexts c) :
    Up s' c key := by
  constructor
  · rw [hsession]
    exact h.active
  · rw [hsession]
    exact h.fd_nonneg
  · rw [hsession]
    exact h.clientId_eq
  · rw [hcontext]
    exact h.context

theorem Up.accept (h : Up s c key) (socketFd : Int) (created : Bool) :
    Up (serverAcceptClient s socketFd created).1 c key := by
  unfold serverAcceptClient
  rcases add_cases (s.emit [.accept socketFd]) socketFd created with
    ⟨_, heq⟩ | ⟨i, ⟨hfree, _⟩, ⟨_, heq⟩ | ⟨_, heq⟩⟩
  · rw [heq]
    dsimp only
    rw [if_pos (by omega)]
    exact h.congr rfl rfl
  all_goals
    have hci : c ≠ i := by
      intro hsame
      subst hsame
      rw [State.session_emit, h.active] at hfree
      cases hfree
    rw [heq]
    dsimp only
  · rw [if_neg (by omega)]
    apply h.congr
    · rw [session_added, if_neg hci]
      rfl
    · simp [added, hci]
  · rw [if_pos (by omega)]
    apply h.congr
    · rw [State.session_emit, session_clientSessionCleanup, if_neg hci, State.session_setSecurity,
        State.session_setSession_of_ne _ _ _ _ hci, State.session_emit]
    · simp [hci]

theorem Up.remove (h : Up s c key) {fails : Slot → Bool} (hdc : d ≠ c) (hfail : fails c = false) :
    Up (clientManagerRemoveClient fails s d) c key := by
  by_cases hactive : (s.session d).active = true
  · apply h.congr
    · rw [session_remove, if_neg]
      intro hall
      obtain ⟨_, hcd | hcd⟩ := hall
      · exact hdc hcd.symm
      · rw [hcd.2] at hfail
        cases hfail
    · rw [remove_of_active _ _ _ hactive, securityManager_broadcast]
      simp only [removed, State.securityManager_addClientCount,
        securityManager_clientSessionCleanup, State.securityManager_setSecurity,
        securityManagerRemoveClient]
      split
      · rfl
      · exact Function.update_of_ne hdc.symm _ _
  · rw [remove_of_inactive _ _ _ (Bool.eq_false_iff.mpr hactive)]
    exact h

theorem Up.step (h : Up s c key) {op : Op} (hspares : Spares c op) : Up (op.step libc s) c key := by
  cases op with
  | connect socketFd created =>
    simp only [Op.step]
    split
    · exact h.accept socketFd created
    · exact h
  | enterLobby d =>
    simp only [Op.step]
    split
    · exact h.congr (State.session_setSession_of_ne _ _ _ _ (Ne.symm hspares)) rfl
    · exact h
  | message d line env =>
    simp only [Op.step]
    split
    · rw [handleMessage_eq]
      exact h.perform hspares.2 _
    · exact h
  | disconnect d env => exact h.remove hspares.1 hspares.2

theorem Up.run (h : Up s c key) {ops : List Op} (hspares : ∀ op ∈ ops, Spares c op) :
    Up (run (Op.step libc) s ops) c key := by
  induction ops generalizing s with
  | nil => exact h
  | cons op ops ih =>
    exact ih (h.step (hspares op List.mem_cons_self)) fun o ho =>
      hspares o (List.mem_cons_of_mem _ ho)

end Kept

/-- The text that a chunk from `recv` is taken for. -/
def openText (key : Fin 32 → UInt8) (chunk : List UInt8) : Option CString :=
  match if bufferSize - 1 < chunk.length - 16 then none else openBytes 16 key chunk with
  | none | some [] => none
  | some bytes => some (CString.ofBuffer bytes)

section Turn
variable {libc : Libc} {env : Env} {s : State} {c : Slot} {key : Fin 32 → UInt8}

theorem receiveMessage_of_up (h : Up s c key) {chunk : List UInt8} (hne : chunk ≠ []) :
    (clientSessionReceiveMessage s c (some chunk)).2 =
        (if bufferSize - 1 < chunk.length - 16 then none else openBytes 16 key chunk) ∧
      Up (clientSessionReceiveMessage s c (some chunk)).1 c key := by
  obtain ⟨b, bs, rfl⟩ := List.exists_cons_of_ne_nil hne
  obtain ⟨encCtx, hctx, hkey⟩ := h.context
  have hid : 0 ≤ (s.session c).clientId ∧ (s.session c).clientId < maxClients := by
    rw [h.clientId_eq]
    omega
  have hslot : (⟨(s.session c).clientId.toNat, by omega⟩ : Slot) = c := by
    apply Fin.ext
    simp [h.clientId_eq]
  have hcap : (UInt64.ofNat (bufferSize - 1)).toNat = bufferSize - 1 := by decide
  simp only [clientSessionReceiveMessage, serverDecryptMessage, dif_pos hid, hslot, hctx]
  refine ⟨?_, h.active, h.fd_nonneg, h.clientId_eq, ?_⟩
  · rw [decryptData_fst, hcap, hkey]
  · exact ⟨(decryptData encCtx (b :: bs) (UInt64.ofNat (bufferSize - 1))).2,
      by simp [State.setSecurity], by rw [decryptData_sessionKey, hkey]⟩

/-- A turn on a connection that is up hands over what the chunk opens to, and goes on unless
the chunk does not open or asks to quit. -/
theorem handlerTurn_of_up (h : Up s c key) (hfails : ∀ k, env.sendFails k c = false)
    {chunk : List UInt8} (hne : chunk ≠ []) :
    (handlerTurn libc env s c (some chunk)).handed = openText key chunk ∧
      (handlerTurn libc env s c (some chunk)).goesOn =
        (openText key chunk).any (fun message => decide (parse message ≠ .quit)) ∧
      Up (handlerTurn libc env s c (some chunk)).state c key := by
  have hactive : clientSessionIsActive (s.session c) = true := by
    simp [clientSessionIsActive, h.active, h.fd_nonneg]
  obtain ⟨hreceived, hup⟩ := receiveMessage_of_up h hne
  unfold handlerTurn handlerReceive openText
  rw [if_pos hactive, ← hreceived]
  cases hres : clientSessionReceiveMessage s c (some chunk) with
  | mk s' result =>
    rw [hres] at hup
    cases result with
    | none => exact ⟨rfl, rfl, hup⟩
    | some bytes =>
      cases bytes with
      | nil => exact ⟨rfl, rfl, hup⟩
      | cons b bs =>
        refine ⟨rfl, ?_, ?_⟩
        · simp only [Option.any_some, handleMessage_eq, perform_snd]
          split <;> simp_all
        · simp only [handleMessage_eq]
          exact hup.perform hfails _

end Turn

end TcpChat.Server

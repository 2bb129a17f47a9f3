import TcpChat.Server.Descriptors
import TcpChat.Server.Threads

/-!
# Steps of the threads

What a step of a handler and a round of the accept loop do to the sessions.
-/

namespace TcpChat.Server

open Base Base.Runs
set_option autoImplicit false

theorem session_receiveMessage (s : State) (c : Slot) (received : Option (List UInt8)) :
    (clientSessionReceiveMessage s c received).1.session = s.session := by
  unfold clientSessionReceiveMessage
  split <;> rfl

theorem roomManager_receiveMessage (s : State) (c : Slot) (received : Option (List UInt8)) :
    (clientSessionReceiveMessage s c received).1.roomManager = s.roomManager := by
  unfold clientSessionReceiveMessage
  split <;> rfl

theorem trace_receiveMessage (s : State) (c : Slot) (received : Option (List UInt8)) :
    (clientSessionReceiveMessage s c received).1.trace = s.trace := by
  unfold clientSessionReceiveMessage
  split <;> rfl

section Handler
variable {libc : Libc} {s : State} {h : Handler} {input : Input} {d : Slot}

/-- Nothing is made of what is received, or it is performed as a request. -/
theorem handlerReceive_cases (libc : Libc) (env : Env) (s : State) (c : Slot)
    (received : Option (List UInt8)) :
    ((∀ bytes, (clientSessionReceiveMessage s c received).2 = some bytes → bytes = []) ∧
        handlerReceive libc env s c received =
          ⟨(clientSessionReceiveMessage s c received).1, none, false⟩) ∨
      ∃ bytes, (clientSessionReceiveMessage s c received).2 = some bytes ∧ bytes ≠ [] ∧
        handlerReceive libc env s c received =
          ⟨(perform libc env (clientSessionReceiveMessage s c received).1 c
              (parse (CString.ofBuffer bytes))).1,
            some (CString.ofBuffer bytes),
            decide (parse (CString.ofBuffer bytes) ≠ .quit)⟩ := by
  unfold handlerReceive
  cases clientSessionReceiveMessage s c received with
  | mk s' result =>
    cases result with
    | none => exact Or.inl ⟨fun _ h => (Option.some_ne_none _ h.symm).elim, rfl⟩
    | some bytes =>
      cases bytes with
      | nil => exact Or.inl ⟨fun _ h => (Option.some.inj h).symm, rfl⟩
      | cons b bs =>
        refine Or.inr ⟨b :: bs, rfl, List.cons_ne_nil b bs, ?_⟩
        simp only [handleMessage_eq, perform_snd]
        congr 1
        split <;> simp_all

/-- A turn of the loop is nothing but a receive, or a receive and a request. -/
theorem handlerTurn_cases (libc : Libc) (env : Env) (s : State) (c : Slot)
    (received : Option (List UInt8)) :
    (handlerTurn libc env s c received = ⟨s, none, false⟩ ∧
      clientSessionIsActive (s.session c) = false) ∨
    (clientSessionIsActive (s.session c) = true ∧
      (((∀ bytes, (clientSessionReceiveMessage s c received).2 = some bytes → bytes = []) ∧
          handlerTurn libc env s c received =
            ⟨(clientSessionReceiveMessage s c received).1, none, false⟩) ∨
        ∃ bytes, (clientSessionReceiveMessage s c received).2 = some bytes ∧ bytes ≠ [] ∧
          handlerTurn libc env s c received =
            ⟨(perform libc env (clientSessionReceiveMessage s c received).1 c
                (parse (CString.ofBuffer bytes))).1,
              some (CString.ofBuffer bytes),
              decide (parse (CString.ofBuffer bytes) ≠ .quit)⟩)) := by
  unfold handlerTurn
  cases hactive : clientSessionIsActive (s.session c) with
  | false => exact Or.inl ⟨rfl, rfl⟩
  | true => exact Or.inr ⟨rfl, handlerReceive_cases libc env s c received⟩

/-- What the step of a handler for slot `c` leaves behind. -/
inductive HandlerEffect (libc : Libc) (s : State) (c : Slot) (input : Input) : State → Prop where
  | nothing : HandlerEffect libc s c input s
  | write {es : List Event} {v : ClientSession}
    (hes : ∀ e ∈ es, ∃ payload ok, e = .send (s.session c).socketFd payload ok)
    (hactive : v.active = (s.session c).active) (hfd : v.socketFd = (s.session c).socketFd) :
    HandlerEffect libc s c input ((s.emit es).setSession c v)
  | receive : HandlerEffect libc s c input (clientSessionReceiveMessage s c input.chunk).1
  | serve {r : Request} (h : clientSessionIsActive (s.session c) = true) :
    HandlerEffect libc s c input
      (perform libc input.env (clientSessionReceiveMessage s c input.chunk).1 c r).1
  | remove : HandlerEffect libc s c input (clientManagerRemoveClient (input.env.sendFails 0) s c)

/-- The handler is at one of the three steps of the handshake. -/
def Shaking : Pc → Prop
  | .awaitSyn | .sendSynAck _ | .awaitAck _ _ => True
  | _ => False

/-- A step of a handshake writes to its own session, and sends to its own client. -/
theorem Handler.shaking_step (libc : Libc) (s : State) (c : Slot) (input : Input) {pc : Pc}
    (hpc : Shaking pc) :
    ∃ es v, ((⟨c, pc⟩ : Handler).step libc s input).1 = (s.emit es).setSession c v ∧
      SameConnection (s.session c) v ∧
      ∀ e ∈ es, ∃ payload ok, e = .send (s.session c).socketFd payload ok := by
  have hsent : ∀ (payload : Payload) (ok : Bool),
      ∀ e ∈ [Event.send (s.session c).socketFd payload ok],
        ∃ payload ok, e = .send (s.session c).socketFd payload ok := fun payload ok e he =>
    ⟨payload, ok, List.mem_singleton.mp he⟩
  have hsilent : ∀ e ∈ ([] : List Event),
      ∃ payload ok, e = .send (s.session c).socketFd payload ok := fun e he =>
    absurd he List.not_mem_nil
  cases pc with
  | awaitSyn =>
    obtain ⟨v, hv, ⟨_, heq⟩ | ⟨_, _, _, _, heq⟩⟩ :=
      receiveSyn_cases s c (receivedBy (s.session c) input.packet)
    all_goals
      refine ⟨[], v, ?_, hv, hsilent⟩
      simp only [Handler.step, heq, State.emit_nil]
  | sendSynAck clientSeq =>
    rcases sendSynAck_cases s c (input.env.sendFails 0) input.seqNum clientSeq with
      ⟨_, heq⟩ | ⟨_, heq⟩
    · refine ⟨_, { s.session c with handshakeState := .failed }, ?_, ⟨rfl, rfl, rfl, rfl⟩,
        hsent (.packet (synAckPacket input.seqNum clientSeq)) false⟩
      simp only [Handler.step, heq]
    · refine ⟨_, s.session c, ?_, ⟨rfl, rfl, rfl, rfl⟩,
        hsent (.packet (synAckPacket input.seqNum clientSeq)) true⟩
      have hsame := State.setSession_session (s.emit [.send (s.session c).socketFd
        (.packet (synAckPacket input.seqNum clientSeq)) true]) c
      rw [State.session_emit] at hsame
      simp only [Handler.step, heq, hsame]
  | awaitAck clientSeq seqNum =>
    rcases receiveAck_cases s c seqNum (receivedBy (s.session c) input.packet) with
      ⟨_, _, _, _, heq⟩ | ⟨_, heq⟩
    · refine ⟨[], { s.session c with sequenceNumber := seqNum, handshakeState := .established },
        ?_, ⟨rfl, rfl, rfl, rfl⟩, hsilent⟩
      simp only [Handler.step, heq, State.emit_nil]
    · refine ⟨[], { s.session c with handshakeState := .failed }, ?_, ⟨rfl, rfl, rfl, rfl⟩,
        hsilent⟩
      simp only [Handler.step, heq, State.emit_nil]
  | welcome | loop | exiting | gone => exact hpc.elim

/-- Whatever a handler does in a step, it is one of these. -/
theorem Handler.effect (libc : Libc) (s : State) (h : Handler) (input : Input) :
    HandlerEffect libc s h.slot input (h.step libc s input).1 := by
  obtain ⟨c, pc⟩ := h
  have hshaking : Shaking pc →
      HandlerEffect libc s c input ((⟨c, pc⟩ : Handler).step libc s input).1 := by
    intro hpc
    obtain ⟨es, v, heq, hv, hes⟩ := Handler.shaking_step libc s c input hpc
    rw [heq]
    exact .write hes hv.active hv.socketFd
  cases pc with
  | awaitSyn | sendSynAck | awaitAck => exact hshaking trivial
  | welcome => exact .write (fun e he => ⟨_, _, List.mem_singleton.mp he⟩) rfl rfl
  | loop =>
    rcases handlerTurn_cases libc input.env s c input.chunk with
      ⟨heq, _⟩ | ⟨hactive, ⟨_, heq⟩ | ⟨bytes, _, _, heq⟩⟩
    · simp only [Handler.step, heq]
      exact .nothing
    · simp only [Handler.step, heq]
      exact .receive
    · simp only [Handler.step, heq]
      exact .serve hactive
  | exiting => exact .remove
  | gone => exact .nothing

/-- A turn of the loop is followed by another one, or by the way out. -/
theorem Handler.loop_next (libc : Libc) (s : State) (c : Slot) (input : Input) :
    ((⟨c, .loop⟩ : Handler).step libc s input).2 = .loop ∨
      ((⟨c, .loop⟩ : Handler).step libc s input).2 = .exiting := by
  simp only [Handler.step]
  split
  · exact Or.inl rfl
  · exact Or.inr rfl

theorem Handler.loop_spared (libc : Libc) (s : State) (c : Slot) (input : Input) (d : Slot) :
    Spared (s.session d) (((⟨c, .loop⟩ : Handler).step libc s input).1.session d) := by
  rcases handlerTurn_cases libc input.env s c input.chunk with
    ⟨heq, _⟩ | ⟨_, ⟨_, heq⟩ | ⟨bytes, _, _, heq⟩⟩
  · simp only [Handler.step, heq]
    exact spared_refl _
  · simp only [Handler.step, heq, session_receiveMessage]
    exact spared_refl _
  · simp only [Handler.step, heq]
    have hout := (outcome_perform libc input.env
      (clientSessionReceiveMessage s c input.chunk).1 c
      (parse (CString.ofBuffer bytes))).spared d
    rw [session_receiveMessage] at hout
    exact hout

/-- A step of a handler takes sessions down, and leaves the others their descriptors; it shakes
hands for nobody but its own slot. -/
theorem Handler.step_session (libc : Libc) (s : State) (h : Handler) (input : Input) (d : Slot) :
    (((h.step libc s input).1.session d).active = false ∧
      ((h.step libc s input).1.session d).socketFd = -1) ∨
    (((h.step libc s input).1.session d).active = (s.session d).active ∧
      ((h.step libc s input).1.session d).socketFd = (s.session d).socketFd ∧
      (d ≠ h.slot → ((h.step libc s input).1.session d).handshakeState =
        (s.session d).handshakeState)) := by
  obtain ⟨c, pc⟩ := h
  have hspared : ∀ v, Spared (s.session d) v → (v.active = false ∧ v.socketFd = -1) ∨
      (v.active = (s.session d).active ∧ v.socketFd = (s.session d).socketFd ∧
        (d ≠ c → v.handshakeState = (s.session d).handshakeState)) :=
    fun v hv => hv.imp_right fun ⟨hactive, hfd, hstate⟩ => ⟨hactive, hfd, fun _ => hstate⟩
  have heffect := Handler.effect libc s ⟨c, pc⟩ input
  generalize ((⟨c, pc⟩ : Handler).step libc s input).1 = s' at heffect ⊢
  cases heffect with
  | nothing => exact hspared _ (spared_refl _)
  | write hes hactive hfd =>
    rw [State.session_setSession]
    split
    · rename_i hdc
      subst hdc
      exact Or.inr ⟨hactive, hfd, fun h => absurd rfl h⟩
    · exact hspared _ (spared_refl _)
  | receive =>
    rw [session_receiveMessage]
    exact hspared _ (spared_refl _)
  | @serve r _ =>
    have hout := (outcome_perform libc input.env
      (clientSessionReceiveMessage s c input.chunk).1 c r).spared d
    rw [session_receiveMessage] at hout
    exact hspared _ hout
  | remove =>
    rw [session_remove]
    split
    · exact hspared _ (spared_cleaned _)
    · exact hspared _ (spared_refl _)

theorem FdsOk.handler_step (hfds : FdsOk s) : FdsOk (h.step libc s input).1 :=
  hfds.of_spared fun d => (Handler.step_session libc s h input d).imp_right fun hlive =>
    ⟨hlive.1, hlive.2.1⟩

theorem Handler.active_of_step
    (hd : ((h.step libc s input).1.session d).active = true) : (s.session d).active = true := by
  rcases Handler.step_session libc s h input d with ⟨hdead, _⟩ | ⟨hsame, _⟩
  · rw [hd] at hdead
    cases hdead
  · exact hsame ▸ hd

/-- The step of a handler whose session is dead reaches no other session and no room, and what
it sends goes to the dead session. -/
theorem Handler.step_of_dead (hdead : (s.session h.slot).active = false) (input : Input) :
    (∀ d, d ≠ h.slot → (h.step libc s input).1.session d = s.session d) ∧
    (h.step libc s input).1.roomManager = s.roomManager ∧
    ∃ es, (h.step libc s input).1.trace = s.trace ++ es ∧
      ∀ e ∈ es, ∃ payload ok, e = .send (s.session h.slot).socketFd payload ok := by
  have hnothing : ∃ es, s.trace = s.trace ++ es ∧
      ∀ e ∈ es, ∃ payload ok, e = .send (s.session h.slot).socketFd payload ok := ⟨[], by simp⟩
  have heffect := Handler.effect libc s h input
  generalize (h.step libc s input).1 = s' at heffect ⊢
  cases heffect with
  | nothing => exact ⟨fun _ _ => rfl, rfl, hnothing⟩
  | @write es _ hes _ _ =>
    exact ⟨fun d hd => State.session_setSession_of_ne _ _ _ _ hd, rfl, es, rfl, hes⟩
  | receive =>
    rw [session_receiveMessage, roomManager_receiveMessage, trace_receiveMessage]
    exact ⟨fun _ _ => rfl, rfl, hnothing⟩
  | serve hactive =>
    simp [clientSessionIsActive, hdead] at hactive
  | remove =>
    rw [remove_of_inactive _ s _ hdead]
    exact ⟨fun _ _ => rfl, rfl, hnothing⟩

end Handler

section Accept
variable (sys : System) (clientSocket : Int) (created started : Bool) (env : Env)

/-- A round of the accept loop refuses the connection, or gives it the lowest inactive slot. -/
theorem System.accept_cases :
    (∃ s, sys.accept clientSocket created started env = { sys with server := s } ∧
      ((∀ i, (sys.server.session i).active = true) ∨ created = false) ∧
      s.roomManager = sys.server.roomManager ∧
      (∀ d, s.session d = sys.server.session d ∨ (sys.server.session d).active = false ∧
        (s.session d).active = false ∧ (s.session d).socketFd = -1) ∧
      ∃ es, s.trace = sys.server.trace ++ es ∧
        ∀ e ∈ es, e = .accept clientSocket ∨ ∃ fd, e = .close fd) ∨
    (created = true ∧ ∃ i, LowestFree sys.server i ∧
      sys.accept clientSocket created started env =
        { server := if started then added (sys.server.emit [.accept clientSocket]) clientSocket i
            else clientManagerRemoveClient (env.sendFails 0)
              (added (sys.server.emit [.accept clientSocket]) clientSocket i) i
          handlers := sys.handlers ++ [⟨i, if started then .awaitSyn else .gone⟩]
          occupant := Function.update sys.occupant i sys.handlers.length }) := by
  have hnone : clientManagerGetSession (-1) = none := rfl
  have hsome : ∀ i : Slot, clientManagerGetSession (i : Int) = some i := fun i =>
    clientManagerGetSession_eq_some_iff.mpr rfl
  unfold System.accept serverAcceptClient
  rcases add_cases (sys.server.emit [.accept clientSocket]) clientSocket created with
    ⟨hfull, heq⟩ | ⟨i, hfree, ⟨hcreated, heq⟩ | ⟨hcreated, heq⟩⟩
  · rw [heq]
    simp only [if_pos (by omega : (-1 : Int) < 0), hnone]
    exact Or.inl ⟨_, rfl, Or.inl hfull, rfl, fun d => Or.inl rfl,
      [.accept clientSocket, .close clientSocket], by simp, by simp⟩
  · refine Or.inr ⟨hcreated, i, hfree, ?_⟩
    rw [heq]
    simp only [if_neg (by omega : ¬ (i : Int) < 0), hsome]
  · rw [heq]
    simp only [if_pos (by omega : (-1 : Int) < 0), hnone]
    refine Or.inl ⟨_, rfl, Or.inr hcreated, rfl, fun d => ?_, ?_⟩
    · rw [State.session_emit, session_clientSessionCleanup]
      split
      · rename_i hdi
        exact Or.inr ⟨hdi ▸ hfree.1, rfl, rfl⟩
      · rename_i hdi
        rw [State.session_setSecurity, State.session_setSession_of_ne _ _ _ _ hdi,
          State.session_emit]
        exact Or.inl rfl
    · refine ⟨_, by
        simp only [State.trace_emit, trace_clientSessionCleanup, State.trace_setSecurity,
          State.trace_setSession, List.append_assoc]
        rfl, ?_⟩
      intro e he
      simp only [List.mem_append, List.mem_singleton] at he
      rcases he with rfl | he | rfl
      · exact Or.inl rfl
      · split at he
        · exact Or.inr ⟨_, List.mem_singleton.mp he⟩
        · exact absurd he List.not_mem_nil
      · exact Or.inr ⟨_, rfl⟩

/-- A refused connection leaves the live sessions alone. -/
theorem FdsOk.refused {s s' : State} (h : FdsOk s)
    (hkept : ∀ d, s'.session d = s.session d ∨ (s.session d).active = false ∧
      (s'.session d).active = false ∧ (s'.session d).socketFd = -1) : FdsOk s' := by
  apply h.of_spared
  intro d
  rcases hkept d with hsame | ⟨_, hdead⟩
  · rw [hsame]
    exact Or.inr ⟨rfl, rfl⟩
  · exact Or.inl hdead

theorem FdsOk.accept {sys : System} (h : FdsOk sys.server) {clientSocket : Int}
    (hunused : Unused sys.server clientSocket) (created started : Bool) (env : Env) :
    FdsOk (sys.accept clientSocket created started env).server := by
  rcases sys.accept_cases clientSocket created started env with
    ⟨s, heq, _, _, hkept, _⟩ | ⟨_, i, _, heq⟩
  · rw [heq]
    exact h.refused hkept
  · rw [heq]
    have hadded := h.added hunused [.accept clientSocket] i
    dsimp only
    split
    · exact hadded
    · exact hadded.remove _ i

end Accept

section Step
variable {libc : Libc} {sys : System} {n m : Nat} {h : Handler} {c : Slot} {pc : Pc}

theorem System.step_handler (hn : sys.handlers[n]? = some h) (input : Input) :
    sys.step libc (.handler n input) =
      { sys with
        server := (h.step libc sys.server input).1
        handlers := sys.handlers.set n { h with pc := (h.step libc sys.server input).2 } } := by
  unfold System.step
  simp only [hn]

theorem System.step_no_handler (hn : sys.handlers[n]? = none) (input : Input) :
    sys.step libc (.handler n input) = sys := by
  unfold System.step
  simp only [hn]

theorem System.step_accept {clientSocket : Int} (hunused : Unused sys.server clientSocket)
    (created started : Bool) (env : Env) :
    sys.step libc (.accept clientSocket created started env) =
      sys.accept clientSocket created started env := if_pos hunused

theorem System.step_no_accept {clientSocket : Int} (hused : ¬ Unused sys.server clientSocket)
    (created started : Bool) (env : Env) :
    sys.step libc (.accept clientSocket created started env) = sys := if_neg hused

theorem Handler.step_gone (s : State) (input : Input) (hpc : h.pc = .gone) :
    h.step libc s input = (s, .gone) := by
  unfold Handler.step
  rw [hpc]

theorem System.step_gone (hn : sys.handlers[n]? = some h) (hpc : h.pc = .gone) (input : Input) :
    sys.step libc (.handler n input) = sys := by
  obtain ⟨hlt, hget⟩ := List.getElem?_eq_some_iff.mp hn
  rw [System.step_handler hn, Handler.step_gone _ _ hpc]
  dsimp only
  have hsame : ({ h with pc := .gone } : Handler) = h := by rw [← hpc]
  rw [hsame, ← hget, List.set_getElem_self]

/-- Whoever runs after a handler's step ran before it, for the same slot. -/
theorem Live.of_step {input : Input} (hlive : Live (sys.step libc (.handler n input)) m c pc) :
    ∃ pc', Live sys m c pc' ∧
      (m ≠ n ∧ pc' = pc ∨ m = n ∧ pc = ((⟨c, pc'⟩ : Handler).step libc sys.server input).2) := by
  cases hn : sys.handlers[n]? with
  | none =>
    rw [System.step_no_handler hn] at hlive
    refine ⟨pc, hlive, Or.inl ⟨?_, rfl⟩⟩
    intro heq
    subst heq
    rw [hlive.1] at hn
    cases hn
  | some h =>
    rw [System.step_handler hn] at hlive
    obtain ⟨hm, hpc⟩ := hlive
    by_cases hmn : m = n
    · subst hmn
      have hlt : m < sys.handlers.length := (List.getElem?_eq_some_iff.mp hn).1
      rw [List.getElem?_set_self hlt] at hm
      obtain ⟨rfl, rfl⟩ := Handler.mk.inj (Option.some.inj hm)
      refine ⟨h.pc, ⟨hn, fun hgone => hpc ?_⟩, Or.inr ⟨rfl, rfl⟩⟩
      rw [Handler.step_gone _ _ hgone]
    · rw [List.getElem?_set_ne (Ne.symm hmn)] at hm
      exact ⟨pc, ⟨hm, hpc⟩, Or.inl ⟨hmn, rfl⟩⟩

theorem Live.of_started {sys' : System} {h' : Handler}
    (hhandlers : sys'.handlers = sys.handlers ++ [h']) (hlive : Live sys' m c pc) :
    Live sys m c pc ∨ m = sys.handlers.length ∧ h' = ⟨c, pc⟩ := by
  obtain ⟨hm, hpc⟩ := hlive
  rw [hhandlers] at hm
  rcases Nat.lt_or_ge m sys.handlers.length with hlt | hge
  · rw [List.getElem?_append_left hlt] at hm
    exact Or.inl ⟨hm, hpc⟩
  · rw [List.getElem?_append_right hge, List.getElem?_singleton] at hm
    split at hm
    · exact Or.inr ⟨by omega, Option.some.inj hm⟩
    · cases hm

/-- What the accept loop and the handlers keep, the system keeps. -/
theorem System.step_server {P : State → Prop} (label : Label) (hkept : P sys.server)
    (haccept : ∀ clientSocket created started env,
      label = .accept clientSocket created started env → Unused sys.server clientSocket →
      P (sys.accept clientSocket created started env).server)
    (hhandler : ∀ n (h : Handler) input, label = .handler n input →
      P (h.step libc sys.server input).1) : P (sys.step libc label).server := by
  cases label with
  | accept clientSocket created started env =>
    by_cases hunused : Unused sys.server clientSocket
    · rw [System.step_accept hunused]
      exact haccept _ _ _ _ rfl hunused
    · rw [System.step_no_accept hunused]
      exact hkept
  | handler n input =>
    cases hn : sys.handlers[n]? with
    | none =>
      rw [System.step_no_handler hn]
      exact hkept
    | some h =>
      rw [System.step_handler hn]
      exact hhandler n h input rfl

theorem FdsOk.step (hfds : FdsOk sys.server) (label : Label) :
    FdsOk (sys.step libc label).server := by
  apply System.step_server label hfds
  · intro clientSocket created started env _ hunused
    exact hfds.accept hunused created started env
  · intro _ h input _
    exact hfds.handler_step

theorem fdsOk_start (memory : State) : FdsOk (System.start memory).server := by
  constructor
  · intro c d hc
    cases hc
  · intro c hc
    cases hc
  · exact fun _ _ => rfl

theorem receivedBy_of_active (hfds : FdsOk sys.server)
    (hactive : (sys.server.session c).active = true) (packet : Option HandshakePacket) :
    receivedBy (sys.server.session c) packet = packet :=
  if_neg (Int.not_lt.mpr (hfds.fd_nonneg c hactive))

theorem Live.lt_length (hlive : Live sys m c pc) : m < sys.handlers.length :=
  (List.getElem?_eq_some_iff.mp hlive.1).1

end Step

end TcpChat.Server

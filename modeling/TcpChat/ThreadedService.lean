import TcpChat.ChatService
import TcpChat.RoomFields

/-!
# The threads as a chat service

The accept loop and the handlers, one step at a time and in any order, still do what the chat
service does. Every handler that runs has a connection of its own.
-/

namespace TcpChat.Server

open Base Base.Runs Base.Simulation
set_option autoImplicit false

/-- The nickname that a SYN brings, if it is taken. -/
def introduction (received : Option HandshakePacket) : Option CString :=
  match received with
  | none => none
  | some synPacket =>
    if synPacket.type = handshakeTypeSyn ∧ 0 < synPacket.nicknameString.length ∧
        synPacket.nicknameString.length < maxNicknameLen then
      some synPacket.nicknameString
    else none

/-- What a step of a handler is to the service. -/
def Handler.actions (libc : Libc) (s : State) (h : Handler) (input : Input) :
    List (ChatAction Slot CString CString) :=
  match h.pc with
  | .awaitSyn => (introduction (receivedBy (s.session h.slot) input.packet)).toList.map
      fun nickname => .introduce h.slot nickname
  | .welcome => [.greet h.slot]
  | .loop => (handlerTurn libc input.env s h.slot input.chunk).handed.toList.map
      fun message => .request h.slot ((parse message).asks libc input.env)
  | .exiting => [.depart h.slot]
  | .sendSynAck _ | .awaitAck _ _ | .gone => []

/-- A connection that no thread can be started for is gone as soon as it has arrived. -/
def Label.actions (libc : Libc) (sys : System) : Label → List (ChatAction Slot CString CString)
  | .accept clientSocket created started _ =>
    if Unused sys.server clientSocket ∧ created = true then
      (Fin.find? fun i => !(sys.server.session i).active).elim [] fun i =>
        .arrive i (newSession sys.server clientSocket i).nickname ::
          if started then [] else [.depart i]
    else []
  | .handler n input => (sys.handlers[n]?).elim [] fun h => h.actions libc sys.server input

/-- What a client asks for is granted, and nobody is removed inside a room or unheard. -/
def Handler.Orderly (libc : Libc) (s : State) (h : Handler) (input : Input) : Prop :=
  match h.pc with
  | .loop => ∀ message,
      (handlerTurn libc input.env s h.slot input.chunk).handed = some message →
      Granted libc input.env s h.slot (parse message)
  | .exiting => (s.session h.slot).hasRoom = false ∧ ∀ d, input.env.sendFails 0 d = false
  | _ => True

def Orderly (libc : Libc) (sys : System) : Label → Prop
  | .accept _ _ started env => started = false → ∀ d, env.sendFails 0 d = false
  | .handler n input => ∀ h, sys.handlers[n]? = some h → h.Orderly libc sys.server input

/-- Every handler has an active session, no two have the same, and those that have not come to
their loop yet have one that nobody has announced. -/
structure Manned (sys : System) : Prop where
  active : ∀ n c pc, Live sys n c pc → (sys.server.session c).active = true
  alone : ∀ n m c pc pc', Live sys n c pc → Live sys m c pc' → m = n
  early : ∀ n c pc, Live sys n c pc → BeforeLoop pc → (sys.server.session c).state = .connected

section Sessions
variable {libc : Libc} {env : Env} {s : State} {c d : Slot}

/-- While no send fails a request reaches no session but the one it comes from. -/
theorem Outcome.session_of_ne {r : Request} {sessions : Slot → ClientSession}
    {rooms : RoomManager} (h : Outcome libc env s c r sessions rooms)
    (hsends : ∀ k d, env.sendFails k d = false) (hdc : d ≠ c) :
    sessions d = s.session d := by
  cases h with
  | talk | createRefused | joinRefused => rfl
  | announced =>
    dsimp only
    rw [if_neg]
    intro hevicted
    have hfailed := hevicted.2
    rw [hsends] at hfailed
    cases hfailed
  | renamed =>
    dsimp only
    rw [if_neg fun hdropped => ?_, if_neg hdc]
    rcases hdropped.2 with hfailed | hfailed
    all_goals
      rw [hsends] at hfailed
      cases hfailed
  | created | joined | left => exact Function.update_of_ne hdc _ _

end Sessions

section Writes
variable {s : State} {a b : ChatState} {c : Slot} {v : ClientSession} {es : List Event} {told : Told}
  (h : Agrees s a) (hs : Steady s)
include h hs

end Writes

section Handlers
variable {libc : Libc} {s : State} {a : ChatState} {handler : Handler} {input : Input}
  (h : Agrees s a) (hs : Steady s) (hc : (s.session handler.slot).active = true)
include h hs hc

end Handlers

section Kept
variable {libc : Libc} {s : State} {handler : Handler} {input : Input}
  (horderly : handler.Orderly libc s input)
include horderly

/-- A handler reaches no session but its own. -/
theorem Handler.session_of_ne {d : Slot} (hc : (s.session handler.slot).active = true)
    (hd : d ≠ handler.slot) : (handler.step libc s input).1.session d = s.session d := by
  obtain ⟨c, pc⟩ := handler
  have hshaking : Shaking pc →
      ((⟨c, pc⟩ : Handler).step libc s input).1.session d = s.session d := by
    intro hpc
    obtain ⟨es, v, heq, _, _⟩ := Handler.shaking_step libc s c input hpc
    rw [heq, State.session_setSession_of_ne _ _ _ _ hd, State.session_emit]
  cases pc with
  | awaitSyn | sendSynAck | awaitAck => exact hshaking trivial
  | welcome => exact State.session_setSession_of_ne _ _ _ _ hd
  | loop =>
    rcases handlerTurn_cases libc input.env s c input.chunk with
      ⟨heq, _⟩ | ⟨_, ⟨_, heq⟩ | ⟨bytes, _, _, heq⟩⟩
    · simp only [Handler.step, heq]
    · simp only [Handler.step, heq, session_receiveMessage]
    · have hgranted := horderly (CString.ofBuffer bytes) (by rw [heq])
      have hout := (outcome_perform libc input.env
        (clientSessionReceiveMessage s c input.chunk).1 c
        (parse (CString.ofBuffer bytes))).session_of_ne hgranted.sends hd
      rw [session_receiveMessage] at hout
      simp only [Handler.step, heq]
      exact hout
  | exiting =>
    rw [Handler.step]
    dsimp only
    rw [(remove_of_calm horderly.2 hc).1, Function.update_of_ne hd]
  | gone => rfl

/-- Its own session stays active until it leaves, and unannounced until the handshake is over. -/
theorem Handler.session_own (hc : (s.session handler.slot).active = true)
    (hpc : handler.pc ≠ .exiting) :
    ((handler.step libc s input).1.session handler.slot).active = true ∧
      (Shaking handler.pc → ((handler.step libc s input).1.session handler.slot).state =
        (s.session handler.slot).state) := by
  obtain ⟨c, pc⟩ := handler
  have hshaking : Shaking pc →
      (((⟨c, pc⟩ : Handler).step libc s input).1.session c).active = true ∧
        (((⟨c, pc⟩ : Handler).step libc s input).1.session c).state = (s.session c).state := by
    intro hpc
    obtain ⟨es, v, heq, hv, _⟩ := Handler.shaking_step libc s c input hpc
    rw [heq, State.session_setSession_self]
    exact ⟨hv.active.trans hc, hv.state⟩
  cases pc with
  | awaitSyn | sendSynAck | awaitAck =>
    exact ⟨(hshaking trivial).1, fun _ => (hshaking trivial).2⟩
  | welcome =>
    refine ⟨?_, False.elim⟩
    rw [Handler.step, chatProtocolAnnounceUserJoined]
    dsimp only
    rw [State.session_setSession_self]
    exact hc
  | loop =>
    refine ⟨?_, False.elim⟩
    rcases handlerTurn_cases libc input.env s c input.chunk with
      ⟨heq, _⟩ | ⟨_, ⟨_, heq⟩ | ⟨bytes, _, _, heq⟩⟩
    · simp only [Handler.step, heq]
      exact hc
    · simp only [Handler.step, heq, session_receiveMessage]
      exact hc
    · have hgranted := horderly (CString.ofBuffer bytes) (by rw [heq])
      have hkept := ((outcome_perform libc input.env
        (clientSessionReceiveMessage s c input.chunk).1 c
        (parse (CString.ofBuffer bytes))).keeps_connection (hgranted.sends · c)).1
      rw [session_receiveMessage] at hkept
      simp only [Handler.step, heq]
      exact hkept.trans hc
  | exiting => exact absurd rfl hpc
  | gone => exact ⟨hc, False.elim⟩

end Kept

section Accept
variable {libc : Libc} {sys : System} {a : ChatState} {clientSocket : Int} {created started : Bool}
  {env : Env}

theorem session_added_self (s : State) (clientSocket : Int) (i : Slot) :
    (added (s.emit [.accept clientSocket]) clientSocket i).session i =
      newSession s clientSocket i := by
  rw [session_added, if_pos rfl]
  rfl

end Accept

/-- A handler that comes to its loop only later is in its handshake. -/
theorem Handler.shaking_of_step {libc : Libc} {s : State} {handler : Handler} {input : Input}
    (hearly : BeforeLoop (handler.step libc s input).2) : Shaking handler.pc := by
  cases hwhere : handler.pc with
  | awaitSyn | sendSynAck | awaitAck => trivial
  | welcome =>
    rw [Handler.step, hwhere] at hearly
    exact hearly.elim
  | loop | exiting | gone =>
    have hbefore := Handler.beforeLoop_of_step hearly
    rw [hwhere] at hbefore
    exact hbefore.elim

/-- A new handler that runs has been started, for the slot of the new session. -/
theorem Handler.started_of_eq {i c : Slot} {pc : Pc} {started : Bool}
    (h : (⟨i, if started then .awaitSyn else .gone⟩ : Handler) = ⟨c, pc⟩) (hpc : pc ≠ .gone) :
    started = true ∧ c = i := by
  obtain ⟨rfl, rfl⟩ := Handler.mk.inj h
  cases started with
  | true => exact ⟨rfl, rfl⟩
  | false => exact absurd rfl hpc

section Manned
variable {libc : Libc} {sys : System} (h : Manned sys)
include h

theorem Manned.handler {n : Nat} {input : Input} (horderly : Orderly libc sys (.handler n input)) :
    Manned (sys.step libc (.handler n input)) := by
  cases hn : sys.handlers[n]? with
  | none =>
    rw [System.step_no_handler hn]
    exact h
  | some handler =>
    by_cases hgone : handler.pc = .gone
    · rw [System.step_gone hn hgone]
      exact h
    have hlive : Live sys n handler.slot handler.pc := ⟨hn, hgone⟩
    have hactive := h.active n _ _ hlive
    have hother : ∀ d, d ≠ handler.slot →
        (sys.step libc (.handler n input)).server.session d = sys.server.session d := by
      intro d hd
      rw [System.step_handler hn]
      exact Handler.session_of_ne (horderly handler hn) hactive hd
    -- a handler that still runs either has not moved, or is the one that has, and has not left
    have hstep : ∀ m c pc, Live (sys.step libc (.handler n input)) m c pc →
        (Live sys m c pc ∧ c ≠ handler.slot) ∨
        (c = handler.slot ∧ handler.pc ≠ .exiting ∧
          pc = (handler.step libc sys.server input).2) := by
      intro m c pc hafter
      obtain ⟨pc', hbefore, ⟨hmn, rfl⟩ | ⟨rfl, hpc⟩⟩ := hafter.of_step
      · refine Or.inl ⟨hbefore, fun hc => hmn ?_⟩
        rw [hc] at hbefore
        exact h.alone n m _ _ _ hlive hbefore
      · have heq : handler = ⟨c, pc'⟩ := Option.some.inj (hn.symm.trans hbefore.1)
        rw [heq]
        refine Or.inr ⟨rfl, fun hexiting => hafter.2 ?_, hpc⟩
        dsimp only at hexiting
        rw [hpc, hexiting]
        rfl
    constructor
    · intro m c pc hafter
      rcases hstep m c pc hafter with ⟨hbefore, hc⟩ | ⟨rfl, hpc, _⟩
      · rw [hother c hc]
        exact h.active m c pc hbefore
      · rw [System.step_handler hn]
        exact (Handler.session_own (horderly handler hn) hactive hpc).1
    · intro m k c pc pc' hm hk
      obtain ⟨_, hm', _⟩ := hm.of_step
      obtain ⟨_, hk', _⟩ := hk.of_step
      exact h.alone m k c _ _ hm' hk'
    · intro m c pc hafter hearly
      rcases hstep m c pc hafter with ⟨hbefore, hc⟩ | ⟨rfl, hpc, rfl⟩
      · rw [hother c hc]
        exact h.early m c pc hbefore hearly
      · have hearly' := h.early n _ _ hlive (Handler.beforeLoop_of_step hearly)
        have hshaking := Handler.shaking_of_step hearly
        rw [System.step_handler hn]
        exact ((Handler.session_own (horderly handler hn) hactive hpc).2 hshaking).trans hearly'

omit h in
/-- Whatever becomes of the connection in slot `i`, the other sessions stay as they are. -/
theorem session_given_of_ne {s : State} {clientSocket : Int} {i d : Slot} {started : Bool}
    {env : Env} (hsends : started = false → ∀ d, env.sendFails 0 d = false) (hd : d ≠ i) :
    (if started then added s clientSocket i
      else clientManagerRemoveClient (env.sendFails 0) (added s clientSocket i) i).session d =
      s.session d := by
  have hadded : (added s clientSocket i).session d = s.session d := by
    rw [session_added, if_neg hd]
  cases started with
  | true => exact hadded
  | false =>
    have hactive : ((added s clientSocket i).session i).active = true := by
      rw [session_added, if_pos rfl]
      rfl
    simp only [Bool.false_eq_true, if_false]
    rw [(remove_of_calm (hsends rfl) hactive).1, Function.update_of_ne hd, hadded]

theorem Manned.accept {clientSocket : Int} {created started : Bool} {env : Env}
    (horderly : Orderly libc sys (.accept clientSocket created started env)) :
    Manned (sys.accept clientSocket created started env) := by
  rcases sys.accept_cases clientSocket created started env with
    ⟨s, heq, _, _, hkept, _⟩ | ⟨_, i, hfree, heq⟩
  · rw [heq]
    have hsame : ∀ n c pc, Live sys n c pc → s.session c = sys.server.session c := by
      intro n c pc hlive
      have hactive := h.active n c pc hlive
      refine (hkept c).resolve_right fun hdead => ?_
      rw [hdead.1] at hactive
      cases hactive
    constructor
    · intro n c pc hlive
      dsimp only
      rw [hsame n c pc hlive]
      exact h.active n c pc hlive
    · exact h.alone
    · intro n c pc hlive hearly
      dsimp only
      rw [hsame n c pc hlive]
      exact h.early n c pc hlive hearly
  · have hvacant : ∀ n c pc, Live sys n c pc → c ≠ i :=
      fun n c pc hlive => hfree.ne_of_active (h.active n c pc hlive)
    have hself := session_added_self sys.server clientSocket i
    rw [heq]
    constructor
    · intro n c pc hlive
      rcases hlive.of_started rfl with hold | ⟨_, hhandler⟩
      · dsimp only
        rw [session_given_of_ne horderly (hvacant n c pc hold), State.session_emit]
        exact h.active n c pc hold
      · obtain ⟨rfl, rfl⟩ := Handler.started_of_eq hhandler hlive.2
        simp only [if_true]
        rw [hself]
        rfl
    · intro n m c pc pc' hn hm
      rcases hn.of_started rfl with hn' | ⟨hn', hhandler⟩
      · rcases hm.of_started rfl with hm' | ⟨_, hhandler⟩
        · exact h.alone n m c pc pc' hn' hm'
        · exact absurd (Handler.started_of_eq hhandler hm.2).2 (hvacant n c pc hn')
      · rcases hm.of_started rfl with hm' | ⟨hm', _⟩
        · exact absurd (Handler.started_of_eq hhandler hn.2).2 (hvacant m c pc' hm')
        · exact hm'.trans hn'.symm
    · intro n c pc hlive hearly
      rcases hlive.of_started rfl with hold | ⟨_, hhandler⟩
      · dsimp only
        rw [session_given_of_ne horderly (hvacant n c pc hold), State.session_emit]
        exact h.early n c pc hold hearly
      · obtain ⟨rfl, rfl⟩ := Handler.started_of_eq hhandler hlive.2
        simp only [if_true]
        rw [hself]
        rfl

theorem Manned.step {label : Label} (horderly : Orderly libc sys label) :
    Manned (sys.step libc label) := by
  cases label with
  | handler n input => exact h.handler horderly
  | accept clientSocket created started env =>
    by_cases hunused : Unused sys.server clientSocket
    · rw [System.step_accept hunused]
      exact h.accept horderly
    · rw [System.step_no_accept hunused]
      exact h

end Manned

section Threads
variable {libc : Libc} {sys : System} {a : ChatState}

end Threads

section Labels
variable {libc : Libc} {sys : System} {n : Nat} {input : Input} {c : Slot}

end Labels

end TcpChat.Server

import TcpChat.Server.HandlerSteps
import TcpChat.Server.Membership

/-!
# Receives that block

A handler tests its session, calls `recv` on the descriptor it finds there, and waits. In
`System` these are one step; here other threads may run while the handler waits, so that what
it is given may be for a session that has been torn down meanwhile.
-/

namespace TcpChat.Server

open Base Base.Runs
set_option autoImplicit false

/-- The message that a handler is given with a chunk, if the chunk decrypts to one. -/
def messageIn (s : State) (c : Slot) (received : Option (List UInt8)) : Option CString :=
  match (clientSessionReceiveMessage s c received).2 with
  | none | some [] => none
  | some bytes => some (CString.ofBuffer bytes)

/-- A step of a handler when the call it waits in returns. A receive gives what has come in on
the descriptor that it was called with, whatever the session holds by then. -/
def Handler.resume (libc : Libc) (s : State) (h : Handler) (input : Input) : State × Pc :=
  let c := h.slot
  match h.pc with
  | .awaitSyn =>
    let (s, clientSeq) := handshakeReceiveSyn s c input.packet
    (s, clientSeq.elim .exiting .sendSynAck)
  | .awaitAck _ seqNum =>
    let (s, result) := handshakeReceiveAck s c seqNum input.packet
    (s, if result < 0 then .exiting else .welcome)
  | .loop =>
    let turn := handlerReceive libc input.env s c input.chunk
    (turn.state, if turn.goesOn then .loop else .exiting)
  | .sendSynAck _ | .welcome | .exiting | .gone => h.step libc s input

/-- `reads n` is the connection that the handler of connection `n` waits for in `recv`, and
`asker c` the one whose message was the last to ask for a room for slot `c`. -/
structure Blocking where
  sys : System
  reads : Nat → Option Nat
  asker : Slot → Nat

/-- Handler `n` goes on from `h` with what its call gives. -/
def Blocking.resume (libc : Libc) (b : Blocking) (n : Nat) (h : Handler) (input : Input) :
    Blocking :=
  let (s, pc) := h.resume libc b.sys.server input
  { b with
    sys := { b.sys with server := s, handlers := b.sys.handlers.set n { h with pc := pc } } }

/-- The handler is given a message that came in for `connection`. -/
def Blocking.receive (libc : Libc) (b : Blocking) (n : Nat) (h : Handler) (connection : Nat)
    (input : Input) : Blocking :=
  { b.resume libc n h input with
    reads := Function.update b.reads n none
    asker := match messageIn b.sys.server h.slot input.chunk with
      | some message =>
        if AsksForRoom (parse message) then Function.update b.asker h.slot connection
        else b.asker
      | none => b.asker }

def Blocking.step (libc : Libc) (b : Blocking) : Label → Blocking
  | .accept clientSocket created started env =>
    { b with sys := b.sys.step libc (.accept clientSocket created started env) }
  | .handler n input =>
    match b.sys.handlers[n]? with
    | none => b
    | some h =>
      if h.pc = .loop then
        match b.reads n with
        | some connection => b.receive libc n h connection input
        | none =>
          if clientSessionIsActive (b.sys.server.session h.slot) then
            { b with reads := Function.update b.reads n (some (b.sys.occupant h.slot)) }
          else { b with sys := b.sys.step libc (.handler n input) }
      else b.resume libc n h input

def Blocking.start (memory : State) : Blocking :=
  { sys := System.start memory, reads := fun _ => none, asker := fun _ => 0 }

section Receive
variable {libc : Libc} {env : Env} {s : State} {c : Slot}

theorem receiveMessage_eq (s : State) (c : Slot) (received : Option (List UInt8)) :
    ∃ manager, (clientSessionReceiveMessage s c received).1 = s.setSecurity manager := by
  unfold clientSessionReceiveMessage
  split
  · exact ⟨s.securityManager, rfl⟩
  · exact ⟨s.securityManager, rfl⟩
  · exact ⟨_, rfl⟩

theorem leaveCurrentRoom_setSecurity (manager : SecurityManager) :
    leaveCurrentRoom (s.setSecurity manager) c = (leaveCurrentRoom s c).setSecurity manager := by
  unfold leaveCurrentRoom
  dsimp only
  rw [State.session_setSecurity]
  split
  · rfl
  · rfl

/-- The contexts are no matter for what a request does to the sessions and the rooms. -/
theorem Outcome.of_setSecurity {manager : SecurityManager} {r : Request}
    {sessions : Slot → ClientSession} {rooms : RoomManager}
    (h : Outcome libc env (s.setSecurity manager) c r sessions rooms) :
    Outcome libc env s c r sessions rooms := by
  cases h with
  | talk hquiet => exact .talk hquiet
  | announced hroom => exact .announced hroom
  | renamed hname => exact .renamed hname
  | createRefused hname heq =>
    rw [leaveCurrentRoom_setSecurity] at heq
    exact .createRefused hname heq
  | created hname heq =>
    rw [leaveCurrentRoom_setSecurity] at heq
    exact .created hname heq
  | joinRefused hlen heq hresult =>
    rw [leaveCurrentRoom_setSecurity] at heq
    exact .joinRefused hlen heq hresult
  | joined hlen heq hresult =>
    rw [leaveCurrentRoom_setSecurity] at heq
    exact .joined hlen heq hresult
  | left hroom =>
    rw [leaveCurrentRoom_setSecurity]
    exact .left hroom

/-- A receive gives no message and changes neither a session nor a room, or its message is
parsed and performed. -/
theorem handlerReceive_outcome (libc : Libc) (env : Env) (s : State) (c : Slot)
    (received : Option (List UInt8)) :
    (messageIn s c received = none ∧
      (handlerReceive libc env s c received).state.session = s.session ∧
      (handlerReceive libc env s c received).state.roomManager = s.roomManager) ∨
    ∃ message, messageIn s c received = some message ∧
      Outcome libc env s c (parse message) (handlerReceive libc env s c received).state.session
        (handlerReceive libc env s c received).state.roomManager := by
  obtain ⟨manager, hmanager⟩ := receiveMessage_eq s c received
  rcases handlerReceive_cases libc env s c received with
    ⟨hnothing, heq⟩ | ⟨bytes, hbytes, hne, heq⟩
  · refine Or.inl ⟨?_, ?_, ?_⟩
    · unfold messageIn
      split
      · rfl
      · rfl
      · next bytes hne hbytes => exact absurd (hnothing bytes hbytes) hne
    · rw [heq, hmanager]
      rfl
    · rw [heq, hmanager]
      rfl
  · refine Or.inr ⟨CString.ofBuffer bytes, ?_, ?_⟩
    · rw [messageIn, hbytes]
      cases bytes with
      | nil => exact absurd rfl hne
      | cons b bs => rfl
    · have houtcome := outcome_perform libc env (s.setSecurity manager) c
        (parse (CString.ofBuffer bytes))
      rw [heq, hmanager]
      exact houtcome.of_setSecurity

end Receive

section Resume
variable {libc : Libc} {s : State} {c : Slot} {pc : Pc}

/-- A handler that shakes hands writes to its own session, and leaves it connected. -/
theorem Handler.resume_shaking (libc : Libc) (s : State) (c : Slot) (input : Input)
    (hpc : Shaking pc) :
    ∃ v, SameConnection (s.session c) v ∧
      ((⟨c, pc⟩ : Handler).resume libc s input).1.session = Function.update s.session c v ∧
      ((⟨c, pc⟩ : Handler).resume libc s input).1.roomManager = s.roomManager := by
  cases pc with
  | awaitSyn =>
    obtain ⟨v, hv, ⟨_, heq⟩ | ⟨_, _, _, _, heq⟩⟩ := receiveSyn_cases s c input.packet
    all_goals
      refine ⟨v, hv, ?_, ?_⟩
      · simp only [Handler.resume, heq, session_update]
      · simp only [Handler.resume, heq, State.roomManager_setSession]
  | sendSynAck clientSeq =>
    obtain ⟨es, v, heq, hv, _⟩ := Handler.shaking_step libc s c input hpc
    refine ⟨v, hv, ?_, ?_⟩
    · simp only [Handler.resume, heq, session_update]
      rfl
    · simp only [Handler.resume, heq, State.roomManager_setSession]
      rfl
  | awaitAck clientSeq seqNum =>
    rcases receiveAck_cases s c seqNum input.packet with ⟨_, _, _, _, heq⟩ | ⟨_, heq⟩
    · refine ⟨{ s.session c with sequenceNumber := seqNum, handshakeState := .established },
        ⟨rfl, rfl, rfl, rfl⟩, ?_, ?_⟩
      · simp only [Handler.resume, heq, session_update]
      · simp only [Handler.resume, heq, State.roomManager_setSession]
    · refine ⟨{ s.session c with handshakeState := .failed }, ⟨rfl, rfl, rfl, rfl⟩, ?_, ?_⟩
      · simp only [Handler.resume, heq, session_update]
      · simp only [Handler.resume, heq, State.roomManager_setSession]
  | welcome | loop | exiting | gone => exact hpc.elim

/-- Outside the loop a step of `System` is one whose packet is lost when the descriptor is
closed. -/
theorem Handler.resume_eq_step {h : Handler} (input : Input) (hpc : h.pc ≠ .loop) :
    h.resume libc s { input with packet := receivedBy (s.session h.slot) input.packet } =
      h.step libc s input := by
  obtain ⟨c, pc⟩ := h
  cases pc with
  | loop => exact absurd rfl hpc
  | awaitSyn | sendSynAck | awaitAck | welcome | exiting | gone => rfl

end Resume

section System
variable {libc : Libc}

/-- Two steps of a handler with nothing in between are a turn of the loop. -/
theorem Blocking.step_turn {b : Blocking} {n : Nat} {c : Slot}
    (hn : b.sys.handlers[n]? = some ⟨c, .loop⟩) (hreads : b.reads n = none)
    (hactive : clientSessionIsActive (b.sys.server.session c) = true) (input : Input) :
    ((b.step libc (.handler n input)).step libc (.handler n input)).sys =
        b.sys.step libc (.handler n input) ∧
      ((b.step libc (.handler n input)).step libc (.handler n input)).reads = b.reads := by
  have hfirst : b.step libc (.handler n input) =
      { b with reads := Function.update b.reads n (some (b.sys.occupant c)) } := by
    simp only [Blocking.step, hn, if_true, hreads, hactive]
  rw [hfirst]
  simp only [Blocking.step, hn, if_true, Function.update_self, Blocking.receive, Blocking.resume]
  constructor
  · rw [System.step_handler hn]
    simp only [Handler.resume, Handler.step, handlerTurn, hactive, if_true]
  · rw [Function.update_idem, ← hreads, Function.update_eq_self]

/-- A step of `System` out of a state where no handler waits is made of steps that leave none
waiting. -/
theorem Blocking.follows {b : Blocking} (hrest : b.reads = fun _ => none) (label : Label) :
    ∃ labels, (run (Blocking.step libc) b labels).sys = b.sys.step libc label ∧
      (run (Blocking.step libc) b labels).reads = fun _ => none := by
  cases label with
  | accept clientSocket created started env =>
    exact ⟨[.accept clientSocket created started env], rfl, hrest⟩
  | handler n input =>
    cases hn : b.sys.handlers[n]? with
    | none => exact ⟨[], (System.step_no_handler hn input).symm, hrest⟩
    | some h =>
      by_cases hpc : h.pc = .loop
      · obtain ⟨c, pc⟩ := h
        subst hpc
        have hreads : b.reads n = none := by rw [hrest]
        cases hactive : clientSessionIsActive (b.sys.server.session c) with
        | true =>
          obtain ⟨hsys, hsame⟩ := @Blocking.step_turn libc _ _ _ hn hreads hactive input
          exact ⟨[.handler n input, .handler n input], hsys, hsame.trans hrest⟩
        | false =>
          refine ⟨[.handler n input], ?_, ?_⟩
          all_goals simp [Blocking.step, hn, hreads, hactive, hrest]
      · refine ⟨[.handler n { input with
          packet := receivedBy (b.sys.server.session h.slot) input.packet }], ?_, ?_⟩
        · simp only [run_cons, run_nil, Blocking.step, hn, if_neg hpc, Blocking.resume]
          rw [Handler.resume_eq_step input hpc, System.step_handler hn]
        · simp only [run_cons, run_nil, Blocking.step, hn, if_neg hpc, Blocking.resume, hrest]

/-- Every run of the threaded server is one in which no receive has to wait. -/
theorem Blocking.covers (memory : State) (labels : List Label) :
    ∃ labels', (run (Blocking.step libc) (Blocking.start memory) labels').sys =
      run (System.step libc) (System.start memory) labels := by
  have hall : ∀ (ls : List Label) (b : Blocking), b.reads = (fun _ => none) →
      ∃ labels', (run (Blocking.step libc) b labels').sys = run (System.step libc) b.sys ls := by
    intro ls
    induction ls with
    | nil => exact fun b _ => ⟨[], rfl⟩
    | cons label ls ih =>
      intro b hrest
      obtain ⟨first, hsys, hreads⟩ := @Blocking.follows libc _ hrest label
      obtain ⟨rest, hrun⟩ := ih _ hreads
      refine ⟨first ++ rest, ?_⟩
      rw [run_append, hrun, hsys, run_cons]
  exact hall labels (Blocking.start memory) rfl

end System

end TcpChat.Server

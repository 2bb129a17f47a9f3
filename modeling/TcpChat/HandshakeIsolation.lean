import TcpChat.Client.HandshakeProtocol
import TcpChat.Server.Handshakes

/-!
# Handshakes are not disturbed

A session takes part in broadcasts from the moment it has a slot, and its client takes the first
bytes that arrive for the SYN-ACK.
-/

namespace TcpChat.Server

open Base Base.Runs
set_option autoImplicit false

/-- The events of a step. -/
def newEvents (libc : Libc) (sys : System) (label : Label) : List Event :=
  (sys.step libc label).server.trace.drop sys.server.trace.length

/-- Nothing is sent on a session that has not shaken hands, except a SYN-ACK. -/
def OnlySynAck (libc : Libc) (sys : System) (label : Label) : Prop :=
  OnlySynAckIn sys.server (newEvents libc sys label)

/-- What was first sent to a client is a SYN-ACK. -/
def FirstIsSynAck (sys : System) : Prop :=
  ∀ c, (sys.server.session c).active = true →
    received sys.server c = [] ∨ Begun (received sys.server c)

/-- What a client that waits for a packet reads first. -/
def firstPacket : List Payload → Option HandshakePacket
  | .packet packet :: _ => some packet
  | _ => none

/-- A handshake survives the steps of others, and each step of its own handler takes it further
when the client is honest: it sends its SYN, and its ACK in answer to what it has read first. -/
structure HandshakesGoOn (libc : Libc) (sys : System) (label : Label) : Prop where
  kept : ∀ c, (sys.server.session c).active = true →
    (sys.server.session c).handshakeState ≠ .established →
    (∀ n input pc, label = .handler n input → ¬ Live sys n c pc) →
    ((sys.step libc label).server.session c).active = true
  syn : ∀ n input c nickname seqNum, label = .handler n input → Live sys n c .awaitSyn →
    (sys.server.session c).active = true →
    input.packet = some (Client.synPacket nickname seqNum) →
    Live (sys.step libc label) n c (.sendSynAck seqNum)
  synAck : ∀ n input c clientSeq, label = .handler n input → Live sys n c (.sendSynAck clientSeq) →
    (sys.server.session c).active = true → input.env.sendFails 0 c = false →
    Live (sys.step libc label) n c (.awaitAck clientSeq input.seqNum)
  ack : ∀ n input c nickname clientSeq seqNum, label = .handler n input →
    Live sys n c (.awaitAck clientSeq seqNum) → (sys.server.session c).active = true →
    input.packet = Client.handshakeAnswer nickname clientSeq
      (firstPacket (received sys.server c)) →
    Live (sys.step libc label) n c .welcome ∧
      ((sys.step libc label).server.session c).handshakeState = .established

section Events
variable {libc : Libc} {sys : System} {label : Label}

theorem newEvents_eq {es : List Event}
    (htrace : (sys.step libc label).server.trace = sys.server.trace ++ es) :
    newEvents libc sys label = es := by
  rw [newEvents, htrace, List.drop_left]

theorem not_onlySynAck_of_texted {d : Slot} (hactive : (sys.server.session d).active = true)
    (hstate : (sys.server.session d).handshakeState ≠ .established)
    (htexted : Texted sys.server (sys.step libc label).server d) :
    ¬ OnlySynAck libc sys label := by
  obtain ⟨es, message, ok, htrace, hmem⟩ := htexted
  rw [OnlySynAck, newEvents_eq htrace]
  intro honly
  obtain ⟨_, _, hpacket⟩ := honly d hactive hstate _ _ hmem
  cases hpacket

theorem texted_of_broadcastsAs {senderId : Int} {d : Slot}
    (hbroadcasts : BroadcastsAs sys label senderId) (hreached : Reached sys.server senderId d) :
    Texted sys.server (sys.step libc label).server d := by
  cases label with
  | accept clientSocket created started env =>
    obtain ⟨hunused, hcreated, rfl, i, hfree, rfl⟩ := hbroadcasts
    rw [System.step_accept hunused]
    rcases sys.accept_cases clientSocket created false env with
      ⟨_, _, hrefused, _⟩ | ⟨_, k, hfree_k, heq⟩
    · rcases hrefused with hfull | hrefused
      · exact absurd rfl (hfree.ne_of_active (hfull i))
      · rw [hrefused] at hcreated
        cases hcreated
    · obtain rfl := hfree.unique hfree_k
      have hdi : d ≠ i := fun heq' => hreached.2 (by rw [heq'])
      have hold : (added (sys.server.emit [.accept clientSocket]) clientSocket i).session d =
          sys.server.session d :=
        session_added_of_ne hdi _
      rw [heq]
      simp only [Bool.false_eq_true, if_false]
      refine Texted.after (texted_remove _ ?_ ?_) rfl (by rw [hold])
      · rw [session_added, if_pos rfl]
        rfl
      · rw [Reached, hold]
        exact hreached
  | handler n input =>
    obtain ⟨c, hactive, ⟨hlive, rfl⟩ | ⟨hlive, hup, bytes, hbytes, hne, hannounces⟩⟩ := hbroadcasts
    · rw [System.step_handler hlive.1]
      exact texted_remove _ hactive hreached
    · rw [System.step_handler hlive.1]
      rcases handlerTurn_cases libc input.env sys.server c input.chunk with
        ⟨_, hdown⟩ | ⟨_, ⟨hempty, _⟩ | ⟨bytes', hbytes', _, heq⟩⟩
      · rw [hup] at hdown
        cases hdown
      · exact absurd (hempty bytes hbytes) hne
      · obtain rfl := Option.some.inj (hbytes.symm.trans hbytes')
        have hserver : ((⟨c, .loop⟩ : Handler).step libc sys.server input).1 =
            (perform libc input.env (clientSessionReceiveMessage sys.server c input.chunk).1 c
              (parse (CString.ofBuffer bytes))).1 := by
          simp only [Handler.step, heq]
        have hsession : ∀ d, (clientSessionReceiveMessage sys.server c input.chunk).1.session d =
            sys.server.session d := fun d => congrFun (session_receiveMessage _ _ _) d
        have htrace : (clientSessionReceiveMessage sys.server c input.chunk).1.trace =
            sys.server.trace ++ [] := by
          rw [trace_receiveMessage, List.append_nil]
        have hreached' : Reached (clientSessionReceiveMessage sys.server c input.chunk).1
            senderId d := by
          rw [Reached, hsession]
          exact hreached
        rw [← hsession] at hannounces
        rw [hserver]
        exact (texted_perform libc input.env c hannounces hreached').after htrace
          (by rw [hsession])

/-- A handler takes down nobody but its own session and those it broadcasts to. -/
theorem broadcasts_of_down {n : Nat} {c d : Slot} {pc : Pc} {input : Input}
    (hlive : Live sys n c pc) (hdc : d ≠ c) (hactive : (sys.server.session d).active = true)
    (hdown : (((⟨c, pc⟩ : Handler).step libc sys.server input).1.session d).active = false) :
    ∃ senderId, BroadcastsAs sys (.handler n input) senderId ∧
      Reached sys.server senderId d := by
  have hstill : ∀ {P : Prop} {s' : State}, (s'.session d).active = false →
      s'.session d = sys.server.session d → P := by
    intro P s' hdead hsame
    rw [hsame, hactive] at hdead
    cases hdead
  have hshaking : Shaking pc →
      ((⟨c, pc⟩ : Handler).step libc sys.server input).1.session d = sys.server.session d := by
    intro hpc
    obtain ⟨es, v, heq, _, _⟩ := Handler.shaking_step libc sys.server c input hpc
    rw [heq, State.session_setSession_of_ne _ _ _ _ hdc]
    rfl
  cases pc with
  | awaitSyn | sendSynAck | awaitAck => exact hstill hdown (hshaking trivial)
  | welcome => exact hstill hdown (State.session_setSession_of_ne _ _ _ _ hdc)
  | loop =>
    rcases handlerTurn_cases libc input.env sys.server c input.chunk with
      ⟨heq, _⟩ | ⟨hup, ⟨_, heq⟩ | ⟨bytes, hbytes, hne, heq⟩⟩
    · simp only [Handler.step, heq] at hdown
      exact hstill hdown rfl
    · simp only [Handler.step, heq] at hdown
      exact hstill hdown (congrFun (session_receiveMessage _ _ _) d)
    · simp only [Handler.step, heq] at hdown
      have hup' := hup
      simp only [clientSessionIsActive, Bool.and_eq_true] at hup'
      have hsession : ∀ k, (clientSessionReceiveMessage sys.server c input.chunk).1.session k =
          sys.server.session k := fun k => congrFun (session_receiveMessage _ _ _) k
      obtain ⟨senderId, hannounces, hreached⟩ := announces_of_down
        (outcome_perform libc input.env (clientSessionReceiveMessage sys.server c input.chunk).1 c
          (parse (CString.ofBuffer bytes))) (by rw [hsession]; exact hactive) hdown
      rw [hsession] at hannounces
      rw [Reached, hsession] at hreached
      exact ⟨senderId, ⟨c, hup'.1, Or.inr ⟨hlive, hup, bytes, hbytes, hne, hannounces⟩⟩,
        hreached⟩
  | exiting =>
    simp only [Handler.step, session_remove] at hdown
    split at hdown
    · rename_i htaken
      have hevicted := htaken.2.resolve_left hdc
      exact ⟨c, ⟨c, htaken.1, Or.inl ⟨hlive, rfl⟩⟩, hevicted.1⟩
    · rw [hactive] at hdown
      cases hdown
  | gone => exact hstill hdown rfl

end Events

section Completion
variable {libc : Libc} {sys : System}

theorem handshakeAnswer_synAckPacket (nickname : CString) (clientSeq seqNum : UInt32) :
    Client.handshakeAnswer nickname clientSeq (some (synAckPacket seqNum clientSeq)) =
      some (Client.ackPacket nickname clientSeq seqNum) := by
  simp [Client.handshakeAnswer, synAckPacket, HandshakePacket.setNickname]

theorem Live.step {n : Nat} {c : Slot} {pc pc' : Pc} {input : Input} (hlive : Live sys n c pc)
    (hpc : ((⟨c, pc⟩ : Handler).step libc sys.server input).2 = pc') (hrun : pc' ≠ .gone) :
    Live (sys.step libc (.handler n input)) n c pc' := by
  rw [System.step_handler hlive.1]
  refine ⟨?_, hrun⟩
  rw [List.getElem?_set_self hlive.lt_length, hpc]

/-- While broadcasts wait, handlers take down no session that shakes hands but their own. -/
theorem active_of_handler_step {n : Nat} {input : Input}
    (hwait : BroadcastsWait sys (.handler n input)) {d : Slot}
    (hactive : (sys.server.session d).active = true)
    (hstate : (sys.server.session d).handshakeState ≠ .established)
    (hothers : ∀ pc, ¬ Live sys n d pc) :
    ((sys.step libc (.handler n input)).server.session d).active = true := by
  cases hn : sys.handlers[n]? with
  | none =>
    rw [System.step_no_handler hn]
    exact hactive
  | some handler =>
    obtain ⟨c, pc⟩ := handler
    by_cases hpc : pc = .gone
    · rw [System.step_gone hn hpc]
      exact hactive
    · have hlive : Live sys n c pc := ⟨hn, hpc⟩
      have hdc : d ≠ c := by
        intro heq
        subst heq
        exact hothers pc hlive
      rw [System.step_handler hn]
      by_contra hdown
      obtain ⟨senderId, hbroadcasts, hreached⟩ := broadcasts_of_down hlive hdc
        hactive (Bool.eq_false_iff.mpr hdown)
      exact hstate (hwait senderId hbroadcasts d hreached)

theorem active_of_accept {clientSocket : Int} {created started : Bool} {env : Env}
    (hunused : Unused sys.server clientSocket)
    (hwait : BroadcastsWait sys (.accept clientSocket created started env)) {d : Slot}
    (hactive : (sys.server.session d).active = true)
    (hstate : (sys.server.session d).handshakeState ≠ .established) :
    ((sys.accept clientSocket created started env).server.session d).active = true := by
  rcases sys.accept_cases clientSocket created started env with
    ⟨s, heq, _, _, hkept, _⟩ | ⟨hcreated, i, hfree, heq⟩
  · rw [heq]
    rcases hkept d with hsame | ⟨hdead, _⟩
    · exact hsame ▸ hactive
    · rw [hactive] at hdead
      cases hdead
  · have hdi : d ≠ i := hfree.ne_of_active hactive
    have hold : (added (sys.server.emit [.accept clientSocket]) clientSocket i).session d =
        sys.server.session d :=
      session_added_of_ne hdi _
    rw [heq]
    cases started with
    | true =>
      simp only [if_true, hold]
      exact hactive
    | false =>
      simp only [Bool.false_eq_true, if_false, session_remove]
      rw [if_neg, hold]
      · exact hactive
      · intro h
        obtain ⟨_, hevicted⟩ := h
        have hreached := (hevicted.resolve_left hdi).1
        rw [Reached, hold] at hreached
        exact hstate (hwait i ⟨hunused, hcreated, rfl, i, hfree, rfl⟩ d hreached)

variable (h : Shaken sys)
include h

theorem Shaken.handshakesGoOn {label : Label} (hwait : BroadcastsWait sys label) :
    HandshakesGoOn libc sys label := by
  constructor
  · intro c hactive hstate hothers
    cases label with
    | accept clientSocket created started env =>
      by_cases hunused : Unused sys.server clientSocket
      · rw [System.step_accept hunused]
        exact active_of_accept hunused hwait hactive hstate
      · rw [System.step_no_accept hunused]
        exact hactive
    | handler n input =>
      exact active_of_handler_step hwait hactive hstate fun pc => hothers n input pc rfl
  · intro n input c nickname seqNum heq hlive hactive hpacket
    subst heq
    refine hlive.step ?_ (by simp)
    simp [Handler.step, receivedBy_of_active h.fds hactive, hpacket, handshakeReceiveSyn,
      Client.synPacket, HandshakePacket.setNickname]
  · intro n input c clientSeq heq hlive hactive hsend
    subst heq
    refine hlive.step ?_ (by simp)
    simp [Handler.step, handshakeSendSynAck, hsend]
  · intro n input c nickname clientSeq seqNum heq hlive hactive hpacket
    subst heq
    have hstage := h.stage hlive hactive
    rw [hstage.2, firstPacket, handshakeAnswer_synAckPacket] at hpacket
    have hstep : (⟨c, .awaitAck clientSeq seqNum⟩ : Handler).step libc sys.server input =
        (sys.server.setSession c { sys.server.session c with
          sequenceNumber := seqNum, handshakeState := .established }, .welcome) := by
      simp [Handler.step, receivedBy_of_active h.fds hactive, hpacket, handshakeReceiveAck,
        Client.ackPacket, HandshakePacket.setNickname]
    refine ⟨hlive.step (by rw [hstep]) (by simp), ?_⟩
    rw [System.step_handler hlive.1, hstep, State.session_setSession_self]

end Completion

section Run
variable {libc : Libc} {sys : System} {label : Label}

theorem Shaken.firstIsSynAck (h : Shaken sys) : FirstIsSynAck sys := by
  intro c hactive
  obtain ⟨_, _, hstage⟩ := h.stages c hactive
  exact hstage.begun

theorem Shaken.step (h : Shaken sys) (hclean : CleanSlots sys label)
    (hwait : BroadcastsWait sys label) :
    Shaken (sys.step libc label) ∧ OnlySynAck libc sys label := by
  have hstep : Shaken (sys.step libc label) ∧ ∃ es,
      (sys.step libc label).server.trace = sys.server.trace ++ es ∧
        OnlySynAckIn sys.server es := by
    cases label with
    | accept clientSocket created started env =>
      by_cases hunused : Unused sys.server clientSocket
      · rw [System.step_accept hunused]
        exact h.accept hunused hclean hwait
      · rw [System.step_no_accept hunused]
        exact ⟨h, [], by simp, by simp [OnlySynAckIn]⟩
    | handler n input => exact h.handler hwait
  obtain ⟨hshaken, es, htrace, honly⟩ := hstep
  refine ⟨hshaken, ?_⟩
  rw [OnlySynAck, newEvents_eq htrace]
  exact honly

/-- A step sends nothing else to those that shake hands exactly when its broadcasts wait. -/
theorem onlySynAck_iff (h : Shaken sys) (hclean : CleanSlots sys label) :
    OnlySynAck libc sys label ↔ BroadcastsWait sys label := by
  refine ⟨fun honly senderId hbroadcasts d hreached => ?_, fun hwait => (h.step hclean hwait).2⟩
  by_contra hstate
  exact not_onlySynAck_of_texted hreached.1 hstate
    (texted_of_broadcastsAs hbroadcasts hreached) honly

theorem shaken_start (memory : State) : Shaken (System.start memory) := by
  have hdead : ∀ {P : Prop} {c : Slot}, ((System.start memory).server.session c).active = true →
      P := fun hactive => absurd hactive Bool.false_ne_true
  refine ⟨handlersOwn_start memory, fdsOk_start memory,
    TableOk.initial memory.roomManager, fun _ _ _ => hdead, fun _ => hdead⟩

end Run

/-- In a run in which connections get slots that nobody uses any more, handshakes are
undisturbed exactly when no broadcast to all clients meets one that is still shaking hands. -/
theorem handshakesUndisturbed_iff (libc : Libc) (memory : State) (labels : List Label)
    (hclean : EachStep (System.step libc) CleanSlots (System.start memory) labels) :
    (EachStep (System.step libc) (OnlySynAck libc) (System.start memory) labels ∧
      Always (System.step libc) FirstIsSynAck (System.start memory) labels ∧
      EachStep (System.step libc) (HandshakesGoOn libc) (System.start memory) labels) ↔
    EachStep (System.step libc) BroadcastsWait (System.start memory) labels := by
  have hiff : EachStep (System.step libc) (OnlySynAck libc) (System.start memory) labels ↔
      EachStep (System.step libc) BroadcastsWait (System.start memory) labels :=
    eachStep_iff_eachStep (I := Shaken) (fun _ _ h hclean hwait => (h.step hclean hwait).1)
      (fun _ _ h hclean => onlySynAck_iff h hclean) (shaken_start memory) hclean
  constructor
  · intro hall
    obtain ⟨honly, _, _⟩ := hall
    exact hiff.mp honly
  · intro hwait
    have hshaken : Always (System.step libc) Shaken (System.start memory) labels :=
      always_of_eachStep (fun _ _ h hboth => (h.step hboth.1 hboth.2).1) (shaken_start memory)
        (hclean.and hwait)
    refine ⟨hiff.mpr hwait, hshaken.imp fun _ h => h.firstIsSynAck, fun pre l hpre => ?_⟩
    have hpre' : pre.IsPrefix labels := (List.prefix_append pre [l]).trans hpre
    exact (hshaken pre hpre').handshakesGoOn (hwait pre l hpre)

theorem broadcastsWait_of_not_sending {sys : System} {n : Nat}
    (hexiting : (sys.handlers[n]?).map Handler.pc ≠ some .exiting)
    (hloop : (sys.handlers[n]?).map Handler.pc ≠ some .loop) (input : Input) :
    BroadcastsWait sys (.handler n input) := by
  intro senderId h
  obtain ⟨c, _, ⟨hlive, _⟩ | ⟨hlive, _⟩⟩ := h
  · exact absurd (by rw [hlive.1]; rfl) hexiting
  · exact absurd (by rw [hlive.1]; rfl) hloop

/-- Bob connects while Alice is shaking hands, and both get through. -/
theorem handshakesUndisturbed_two :
    EachStep (System.step countingLibc) (OnlySynAck countingLibc) (System.start zeroedMemory)
      [.accept 5 true true calm,
        .handler 0 ⟨some (Client.synPacket "alice" 7), none, 0, calm⟩,
        .accept 6 true true calm,
        .handler 0 ⟨none, none, 100, calm⟩,
        .handler 1 ⟨some (Client.synPacket "bob" 9), none, 0, calm⟩,
        .handler 0 ⟨some (Client.ackPacket "alice" 7 100), none, 0, calm⟩,
        .handler 0 ⟨none, none, 0, calm⟩] := by
  refine ((handshakesUndisturbed_iff countingLibc zeroedMemory _ ?_).mpr ?_).1
  · simp only [eachStep_cons, eachStep_nil, and_true]
    refine ⟨⟨?_, ?_⟩, ?_, ⟨?_, ?_⟩, ?_, ?_, ?_, ?_⟩
    · intro i _ n pc hlive
      exact absurd hlive.lt_length (Nat.not_lt_zero n)
    · intro i _ k hmember
      exact absurd hmember.1 Bool.false_ne_true
    · exact ⟨fun _ => False.elim, fun _ => False.elim⟩
    · intro i hgiven n pc hlive
      have hn : n < 1 := lt_of_lt_of_eq hlive.lt_length (by decide +kernel)
      obtain rfl : n = 0 := by omega
      have hslot := congrArg (Option.map Handler.slot) hlive.1
      have hi : some (0 : Slot) = some i := Eq.trans (by decide +kernel) hslot
      obtain rfl := Option.some.inj hi
      exact absurd hgiven.2.2.2.1 (by decide +kernel)
    · intro i _ k hmember
      have hactive := hmember.1
      clear hmember
      revert k
      decide +kernel
    all_goals exact ⟨fun _ => False.elim, fun _ => False.elim⟩
  · simp only [eachStep_cons, eachStep_nil, and_true]
    refine ⟨?_, ?_, ?_, ?_, ?_, ?_, ?_⟩
    · intro _ h
      obtain ⟨_, _, hstarted, _⟩ := h
      cases hstarted
    · exact broadcastsWait_of_not_sending (by decide +kernel) (by decide +kernel) _
    · intro _ h
      obtain ⟨_, _, hstarted, _⟩ := h
      cases hstarted
    all_goals exact broadcastsWait_of_not_sending (by decide +kernel) (by decide +kernel) _

/-- Alice hangs up while Bob's SYN is on its way. What Bob reads where the SYN-ACK is due is that
she has left. -/
theorem handshake_disturbed_by_farewell :
    ¬ ∀ (libc : Libc) (memory : State) (labels : List Label),
      EachStep (System.step libc) (OnlySynAck libc) (System.start memory) labels ∧
        Always (System.step libc) FirstIsSynAck (System.start memory) labels ∧
        EachStep (System.step libc) (HandshakesGoOn libc) (System.start memory) labels := by
  intro h
  obtain ⟨_, hfirst, _⟩ := h countingLibc zeroedMemory
    [.accept 5 true true calm,
      .handler 0 ⟨some (Client.synPacket "alice" 7), none, 0, calm⟩,
      .handler 0 ⟨none, none, 100, calm⟩,
      .handler 0 ⟨some (Client.ackPacket "alice" 7 100), none, 0, calm⟩,
      .handler 0 ⟨none, none, 0, calm⟩,
      .accept 6 true true calm,
      .handler 0 ⟨none, none, 0, calm⟩,
      .handler 0 ⟨none, none, 0, calm⟩]
  have hread : (received (run (System.step countingLibc) (System.start zeroedMemory)
      [.accept 5 true true calm,
        .handler 0 ⟨some (Client.synPacket "alice" 7), none, 0, calm⟩,
        .handler 0 ⟨none, none, 100, calm⟩,
        .handler 0 ⟨some (Client.ackPacket "alice" 7 100), none, 0, calm⟩,
        .handler 0 ⟨none, none, 0, calm⟩,
        .accept 6 true true calm,
        .handler 0 ⟨none, none, 0, calm⟩,
        .handler 0 ⟨none, none, 0, calm⟩]).server 1) =
      [.text "*** alice left the chat ***\n"] := by decide +kernel
  rcases hfirst.last 1 (by decide +kernel) with hnothing | ⟨_, _, _, hbegun⟩
  · rw [hread] at hnothing
    cases hnothing
  · rw [hread] at hbegun
    cases hbegun

end TcpChat.Server

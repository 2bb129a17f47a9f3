import TcpChat.ChatService
import TcpChat.Transcript

/-!
# From the keyboards to the chat

The client programs and the server together. Every program types into its own connection, and the
handler of the connection reads one frame after the other; in between, everybody else may do
anything. What the chat service is asked for is what is typed.
-/

namespace TcpChat

open Base Base.Runs Base.Simulation Base.XorCodec
open Server (State Slot Op Libc Env Request Agrees Steady Granted Up Spares ChatState Told
  sessionKey parse handlerTurn openText)
open Client (ClientT Terminal TerminalLabel typedLines transcript)
open KeyDelivery (keyMessage)
set_option autoImplicit false

/-- The server and the program behind every slot. `read` counts the frames that the handler of a
slot has read, `listening` says that it has not left its loop. -/
structure Conversation where
  server : State
  terminals : Slot → Terminal
  read : Slot → Nat
  listening : Slot → Bool

/-- A program takes a step, a handler reads the next frame, or the server does something else. -/
inductive Happening where
  | type (c : Slot) (label : TerminalLabel)
  | serve (c : Slot) (env : Env)
  | other (op : Op)

namespace Conversation

def start (s : State) (clients : Slot → ClientT) (inputs : Slot → List UInt8) : Conversation where
  server := s
  terminals := fun c => Terminal.start (clients c) (inputs c)
  read := fun _ => 0
  listening := fun _ => true

/-- The frame that the handler of a slot reads next. -/
def arriving (v : Conversation) (c : Slot) : Option (List UInt8) :=
  if v.listening c then (v.terminals c).frames[v.read c]? else none

def step (libc : Libc) (v : Conversation) : Happening → Conversation
  | .type c label =>
    { v with terminals := Function.update v.terminals c ((v.terminals c).step label) }
  | .serve c env =>
    match v.arriving c with
    | none => v
    | some frame =>
      let turn := handlerTurn libc env v.server c (some frame)
      { v with
        server := turn.state
        read := Function.update v.read c (v.read c + 1)
        listening := Function.update v.listening c turn.goesOn }
  | .other op => { v with server := op.step libc v.server }

end Conversation

/-- The texts that are typed at a slot. -/
def typedTexts (client : ClientT) (input : List UInt8) : List CString :=
  transcript (keyMessage client.e2eCtx) .selecting (typedLines input)

/-- The texts that are typed at the slots. -/
def typedAt (clients : Slot → ClientT) (inputs : Slot → List UInt8) (c : Slot) : List CString :=
  typedTexts (clients c) (inputs c)

/-- What is asked of the service: the next text that is typed, once its frame is there. -/
def Happening.action (libc : Libc) (texts : Slot → List CString) (v : Conversation) :
    Happening → Option (ChatAction Slot CString CString)
  | .type _ _ => none
  | .serve c env =>
    if (v.arriving c).isSome then
      (texts c)[v.read c]?.map fun text => .request c ((parse text).asks libc env)
    else none
  | .other op => op.action libc v.server

/-- The connections of the slots in `here` stay, and the requests that are made are granted. -/
def Unhindered (libc : Libc) (here : Slot → Prop) (texts : Slot → List CString)
    (v : Conversation) : Happening → Prop
  | .type _ _ => True
  | .serve c env => here c ∧ ∀ text, (texts c)[v.read c]? = some text →
    parse text ≠ .quit ∧ Granted libc env v.server c (parse text)
  | .other op => Server.Smooth libc v.server op ∧ ∀ c, here c → Spares c op

/-- The conversation and the service side by side. -/
def besideConversation (libc : Libc) (texts : Slot → List CString) :
    Conversation × ChatState → Happening → Conversation × ChatState :=
  abreast (Conversation.step libc) (Happening.action libc texts)
    fun a act => (Server.chatStep a act).1

/-- Everybody hears what the service says to what is typed. -/
def HearsTyped (libc : Libc) (texts : Slot → List CString) (p : Conversation × ChatState)
    (h : Happening) : Prop :=
  ∃ es, (p.1.step libc h).server.trace = p.1.server.trace ++ es ∧
    Server.Reaches Server.Wording p.1.server es
      ((h.action libc texts p.1).elim Chat.nobody fun act => (Server.chatStep p.2 act).2)

/-- What holds between the keyboards, the wires, the server and the service. -/
structure InStep (here : Slot → Prop) (texts : Slot → List CString) (v : Conversation)
    (a : ChatState) : Prop where
  agrees : Agrees v.server a
  steady : Steady v.server
  up : ∀ c, here c → Up v.server c sessionKey
  listening : ∀ c, here c → v.listening c = true
  sent : ∀ c, here c → Terminal.Sound
    ((texts c).map fun text => sealBytes 16 sessionKey text.bytes) (v.terminals c)

section Received
variable {libc : Libc} {env : Env} {s : State} {a : ChatState} {c d : Slot} {key : Fin 32 → UInt8}

theorem contexts_serverDecryptMessage (manager : Server.SecurityManager) (hne : d ≠ c)
    (ciphertext : List UInt8) (capacity : UInt64) :
    (Server.serverDecryptMessage manager (c : Int) ciphertext capacity).2.contexts d =
      manager.contexts d := by
  have hid : 0 ≤ (c : Int) ∧ (c : Int) < Server.maxClients := by omega
  have hslot : (⟨(c : Int).toNat, Server.toNat_lt_maxClients hid⟩ : Slot) = c := Fin.ext rfl
  rw [Server.serverDecryptMessage, dif_pos hid]
  dsimp only
  rw [hslot]
  cases manager.contexts c with
  | none => rfl
  | some encCtx => exact Function.update_of_ne hne _ _

/-- Reading from one connection leaves the others up. -/
theorem up_receiveMessage (h : Up s d key) (hc : Up s c key) (hne : d ≠ c)
    (received : Option (List UInt8)) :
    Up (Server.clientSessionReceiveMessage s c received).1 d key := by
  refine h.congr (congrFun (Server.session_receiveMessage s c received) d) ?_
  unfold Server.clientSessionReceiveMessage
  split
  · rfl
  · rfl
  · dsimp only
    rw [hc.clientId_eq]
    exact contexts_serverDecryptMessage s.securityManager hne _ _

/-- The turn of one handler leaves the connections of the others up. -/
theorem up_handlerTurn (h : Up s d key) (hc : Up s c key) (hne : d ≠ c)
    (hfails : ∀ k, env.sendFails k d = false) (received : Option (List UInt8)) :
    Up (handlerTurn libc env s c received).state d key := by
  have hreceived := up_receiveMessage h hc hne received
  rcases Server.handlerTurn_cases libc env s c received with
    ⟨heq, _⟩ | ⟨_, ⟨_, heq⟩ | ⟨_, _, _, heq⟩⟩
  · rw [heq]
    exact h
  · rw [heq]
    exact hreceived
  · rw [heq]
    exact hreceived.perform hfails _

/-- Serving the frame of a text is asking the service what the text asks. -/
theorem serve_frame (h : Agrees s a) (hs : Steady s) (hc : Up s c sessionKey) {text : CString}
    (hfits : Framing.Fits text) (hgranted : Granted libc env s c (parse text)) :
    let turn := handlerTurn libc env s c (some (sealBytes 16 sessionKey text.bytes))
    Server.Serves s turn.state (Server.chatStep a (.request c ((parse text).asks libc env))) ∧
      Steady turn.state ∧ turn.goesOn = decide (parse text ≠ .quit) := by
  have hopen := @Framing.openText_sealBytes sessionKey text hfits
  have hne : sealBytes 16 sessionKey text.bytes ≠ [] := by
    intro hnil
    have hlength := congrArg List.length hnil
    rw [length_sealBytes, List.length_nil] at hlength
    omega
  obtain ⟨hhanded, hgoesOn, _⟩ :=
    @Server.handlerTurn_of_up libc env s c sessionKey hc (hgranted.sends · c) _ hne
  rw [hopen] at hhanded hgoesOn
  obtain ⟨hserves, hsteady⟩ := @Server.serves_turn libc env s a h c hs
    (some (sealBytes 16 sessionKey text.bytes)) fun message hmessage => by
      rw [hhanded] at hmessage
      rw [← Option.some.inj hmessage]
      exact hgranted
  rw [hhanded, Option.toList_some, List.map_singleton, Server.chatSteps, Chat.steps_singleton]
    at hserves
  exact ⟨hserves, hsteady, hgoesOn⟩

end Received

section Texts
variable {keyLine message line : CString} {client : ClientT} {input : List UInt8}

theorem pos_of_mem_take {phase : Client.Phase} (hkey : 0 < keyLine.length)
    (h : message ∈ (phase.take keyLine line).1) : 0 < message.length := by
  cases phase with
  | selecting =>
    rw [Client.Phase.take] at h
    split at h
    · cases h
    · split at h
      · cases h
      · rename_i hempty _
        rw [List.mem_singleton.mp h]
        exact Nat.pos_of_ne_zero hempty
  | chatting =>
    rw [Client.Phase.take] at h
    cases hcommand : Client.chatCommand line with
    | say said =>
      rw [hcommand] at h
      rw [List.mem_singleton.mp h]
      unfold Client.chatCommand at hcommand
      grind
    | keyRefresh =>
      rw [hcommand] at h
      rw [List.mem_singleton.mp h]
      exact hkey
    | quit | e2e | e2eUsage | help | peers | nothing =>
      rw [hcommand] at h
      cases h
  | ended => cases h

theorem fits_of_mem_transcript {phase : Client.Phase} {lines : List CString}
    (hkey : Framing.Fits keyLine) (hlines : ∀ line ∈ lines, line.length ≤ 1023)
    (h : message ∈ transcript keyLine phase lines) : Framing.Fits message := by
  induction lines generalizing phase with
  | nil => cases h
  | cons line lines ih =>
    rcases List.mem_append.mp h with hnow | hlater
    · exact ⟨pos_of_mem_take hkey.1 hnow,
        Terminal.length_of_mem_take hkey.2 (hlines line List.mem_cons_self) hnow⟩
    · exact ih (fun l hl => hlines l (List.mem_cons_of_mem line hl)) hlater

/-- Whatever is typed, the texts fit into a frame. -/
theorem fits_of_mem_typedTexts (h : message ∈ typedTexts client input) : Framing.Fits message := by
  refine fits_of_mem_transcript ?_ (fun line => Client.length_of_mem_typedLines) h
  rw [Framing.Fits, KeyDelivery.length_keyMessage]
  decide

/-- Before the keys part the frames are those of the texts under the one key. -/
theorem sound_start (hkey : client.securityCtx.encCtx.sessionKey = sessionKey)
    (hfew : client.securityCtx.encCtx.keyRotationCounter.toNat + (typedTexts client input).length ≤
      1000) :
    Terminal.Sound ((typedTexts client input).map fun text => sealBytes 16 sessionKey text.bytes)
      (Terminal.start client input) := by
  refine ⟨List.nil_prefix, Client.Phase.noConfusion, fun _ => ?_⟩
  rw [← hkey]
  exact Framing.sentFrames_eq (fun m => fits_of_mem_typedTexts) _ hfew

end Texts

namespace InStep
variable {libc : Libc} {here : Slot → Prop} {texts : Slot → List CString} {v : Conversation}
  {a : ChatState} (h : InStep here texts v a)
include h

/-- What arrives is the frame of the next text. -/
theorem text_of_arriving {c : Slot} (hc : here c) {frame : List UInt8}
    (harriving : v.arriving c = some frame) :
    ∃ text, (texts c)[v.read c]? = some text ∧ frame = sealBytes 16 sessionKey text.bytes := by
  rw [Conversation.arriving, if_pos (h.listening c hc)] at harriving
  obtain ⟨hindex, hthere⟩ := List.getElem?_eq_some_iff.mp harriving
  have hframe := List.prefix_iff_getElem?.mp (h.sent c hc).sent _ hindex
  rw [hthere, List.getElem?_map, Option.map_eq_some_iff] at hframe
  obtain ⟨text, htext, hsealed⟩ := hframe
  exact ⟨text, htext, hsealed.symm⟩

theorem type (c : Slot) (label : TerminalLabel) :
    InStep here texts (v.step libc (.type c label)) a := by
  refine ⟨h.agrees, h.steady, h.up, h.listening, fun d hd => ?_⟩
  rw [Conversation.step]
  dsimp only
  rw [Function.update_apply]
  split
  · rename_i hdc
    subst hdc
    exact (h.sent d hd).step label
  · exact h.sent d hd

theorem other {op : Op} (hsmooth : Server.Smooth libc v.server op)
    (hspares : ∀ c, here c → Spares c op) :
    InStep here texts (v.step libc (.other op))
        ((op.action libc v.server).elim a fun act => (Server.chatStep a act).1) ∧
      Server.Delivers libc (v.server, a) op := by
  have hkeeps := Server.keepsStep h.agrees h.steady op hsmooth
  exact ⟨⟨hkeeps.1, h.steady.step op, fun c hc => (h.up c hc).step (hspares c hc), h.listening,
    h.sent⟩, hkeeps.2⟩

theorem serve {c : Slot} {env : Env} (hc : here c) {text : CString}
    (htext : (texts c)[v.read c]? = some text)
    (harriving : v.arriving c = some (sealBytes 16 sessionKey text.bytes))
    (hfits : Framing.Fits text) (hquit : parse text ≠ .quit)
    (hgranted : Granted libc env v.server c (parse text)) :
    InStep here texts (v.step libc (.serve c env))
        (Server.chatStep a (.request c ((parse text).asks libc env))).1 ∧
      ∃ es, (v.step libc (.serve c env)).server.trace = v.server.trace ++ es ∧
        Server.Reaches Server.Wording v.server es
          (Server.chatStep a (.request c ((parse text).asks libc env))).2 := by
  obtain ⟨hserves, hsteady, hgoesOn⟩ :=
    serve_frame h.agrees h.steady (h.up c hc) hfits hgranted
  have hstep : v.step libc (.serve c env) =
      { v with
        server := (handlerTurn libc env v.server c
          (some (sealBytes 16 sessionKey text.bytes))).state
        read := Function.update v.read c (v.read c + 1)
        listening := Function.update v.listening c (handlerTurn libc env v.server c
          (some (sealBytes 16 sessionKey text.bytes))).goesOn } := by
    rw [Conversation.step, harriving]
  rw [hstep]
  refine ⟨⟨hserves.agrees, hsteady, fun d hd => ?_, fun d hd => ?_, h.sent⟩, hserves.delivers⟩
  · by_cases hdc : d = c
    · subst hdc
      have hne : sealBytes 16 sessionKey text.bytes ≠ [] := by
        intro hnil
        have hlength := congrArg List.length hnil
        rw [length_sealBytes, List.length_nil] at hlength
        omega
      exact (Server.handlerTurn_of_up (h.up d hd) (hgranted.sends · d) hne).2.2
    · exact up_handlerTurn (h.up d hd) (h.up c hc) hdc (hgranted.sends · d) _
  · dsimp only
    rw [Function.update_apply]
    split
    · rw [hgoesOn]
      exact decide_eq_true hquit
    · exact h.listening d hd

/-- Whatever happens next, everybody hears what the service says to what is typed. -/
theorem step (hfits : ∀ c, ∀ text ∈ texts c, Framing.Fits text) {happening : Happening}
    (hun : Unhindered libc here texts v happening) :
    InStep here texts (v.step libc happening)
        ((happening.action libc texts v).elim a fun act => (Server.chatStep a act).1) ∧
      HearsTyped libc texts (v, a) happening := by
  cases happening with
  | type c label =>
    exact ⟨h.type c label, [], (List.append_nil _).symm,
      Server.Reaches.nobody fun _ _ _ => List.not_mem_nil⟩
  | other op =>
    obtain ⟨hsmooth, hspares⟩ := hun
    exact h.other hsmooth hspares
  | serve c env =>
    obtain ⟨hc, hnext⟩ := hun
    unfold HearsTyped
    cases harriving : v.arriving c with
    | none =>
      have hstep : v.step libc (.serve c env) = v := by
        rw [Conversation.step, harriving]
      have haction : (Happening.serve c env).action libc texts v = none := by
        rw [Happening.action, harriving]
        rfl
      dsimp only
      rw [haction, hstep]
      exact ⟨h, [], (List.append_nil _).symm,
        Server.Reaches.nobody fun _ _ _ => List.not_mem_nil⟩
    | some frame =>
      obtain ⟨text, htext, rfl⟩ := h.text_of_arriving hc harriving
      obtain ⟨hquit, hgranted⟩ := hnext text htext
      have haction : (Happening.serve c env).action libc texts v =
          some (.request c ((parse text).asks libc env)) := by
        rw [Happening.action, harriving, htext]
        rfl
      dsimp only
      rw [haction]
      exact h.serve hc htext harriving (hfits c text (List.mem_of_getElem? htext)) hquit hgranted

end InStep

/-- Some clients of a server that has been a chat service so far type what they like, each over
its own connection, fewer texts than the keys last for. Then the server goes on as the service
that is asked for exactly what is typed, at each keyboard in the order of the texts, and everybody
hears what that service says. -/
theorem conversation_is_chat_service (libc : Libc) (memory : State) (ops : List Op)
    (hsmooth : EachStep (Op.step libc) (Server.Smooth libc) (Server.start memory) ops)
    (here : Slot → Prop)
    (hup : ∀ c, here c → Up (run (Op.step libc) (Server.start memory) ops) c sessionKey)
    (clients : Slot → ClientT) (inputs : Slot → List UInt8)
    (hkey : ∀ c, here c → (clients c).securityCtx.encCtx.sessionKey = sessionKey)
    (hfew : ∀ c, here c → (clients c).securityCtx.encCtx.keyRotationCounter.toNat +
      (typedAt clients inputs c).length ≤ 1000)
    (happenings : List Happening)
    (hun : EachStep (Conversation.step libc)
      (Unhindered libc here (typedAt clients inputs))
      (Conversation.start (run (Op.step libc) (Server.start memory) ops) clients inputs)
      happenings) :
    Always (besideConversation libc (typedAt clients inputs))
        (fun p => Agrees p.1.server p.2)
        (Conversation.start (run (Op.step libc) (Server.start memory) ops) clients inputs,
          (run (Server.besideService libc) (Server.start memory, .closed .empty) ops).2)
        happenings ∧
      EachStep (besideConversation libc (typedAt clients inputs))
        (HearsTyped libc (typedAt clients inputs))
        (Conversation.start (run (Op.step libc) (Server.start memory) ops) clients inputs,
          (run (Server.besideService libc) (Server.start memory, .closed .empty) ops).2)
        happenings := by
  have hserver := (Server.service_run libc memory hsmooth).1.last
  rw [Server.besideService, run_abreast_fst] at hserver
  have hstart : InStep here (typedAt clients inputs)
      (Conversation.start (run (Op.step libc) (Server.start memory) ops) clients inputs)
      (run (Server.besideService libc) (Server.start memory, .closed .empty) ops).2 :=
    ⟨hserver.1, hserver.2, hup, fun _ _ => rfl, fun c hc => sound_start (hkey c hc) (hfew c hc)⟩
  have hboth := @refines_abreast _ _ _ _ (InStep here (typedAt clients inputs))
    (Unhindered libc here (typedAt clients inputs)) (Conversation.step libc)
    (fun a act => (Server.chatStep a act).1)
    (Happening.action libc (typedAt clients inputs))
    (HearsTyped libc (typedAt clients inputs))
    (fun v a happening h hnext => h.step (fun c text => fits_of_mem_typedTexts) hnext)
    happenings _ _ hstart hun
  exact ⟨hboth.1.imp fun p h => h.agrees, hboth.2⟩

/-- A client that is accepted is up, and still is when it is announced. -/
theorem up_connect {libc : Libc} {s : State} {fd : Int} {c : Slot} (hunused : Server.Unused s fd)
    (hfree : Server.LowestFree s c) : Up ((Op.connect fd true).step libc s) c sessionKey := by
  have hadded : (Op.connect fd true).step libc s =
      Server.added (s.emit [.accept fd]) fd c := by
    rw [Op.step, if_pos hunused]
    unfold Server.serverAcceptClient
    rcases Server.add_cases (s.emit [.accept fd]) fd true with
      ⟨hfull, _⟩ | ⟨i, hlowest, ⟨_, heq⟩ | ⟨hfalse, _⟩⟩
    · exact absurd rfl (hfree.ne_of_active (hfull c))
    · have hic : i = c := hlowest.unique hfree
      rw [heq, hic]
      dsimp only
      rw [if_neg (by omega)]
    · cases hfalse
  rw [hadded]
  exact Up.of_added _ hunused.1 c

theorem up_enterLobby {libc : Libc} {s : State} {c : Slot} {key : Fin 32 → UInt8}
    (h : Up s c key) : Up ((Op.enterLobby c).step libc s) c key := by
  rw [Op.step]
  split
  · have hsession : (Server.chatProtocolAnnounceUserJoined s c).session c =
        { s.session c with state := .inLobby } := Server.State.session_setSession_self ..
    constructor
    · rw [hsession]
      exact h.active
    · rw [hsession]
      exact h.fd_nonneg
    · rw [hsession]
      exact h.clientId_eq
    · exact h.context
  · exact h

/-- Ann opens a room. -/
def annTypes : List UInt8 := Client.typed ["/create den", "hello"]

/-- A line is read, handled and served. -/
def said (c : Slot) : List Happening :=
  [.type c .read, .type c (.handle true (fun _ => 255) .zeroed), .serve c Server.calm]

theorem typedAt_ann (c : Slot) :
    typedAt (fun _ => KeyDelivery.newcomer "ann" 1) (fun _ => annTypes) c =
      ["/create den", "hello"] := by
  rw [typedAt, typedTexts, annTypes, Client.typedLines_typed (by decide)]
  decide +kernel

theorem conversation_is_chat_service_ann :
    Always (besideConversation Server.countingLibc
          (typedAt (fun _ => KeyDelivery.newcomer "ann" 1) fun _ => annTypes))
        (fun p => Agrees p.1.server p.2)
        (Conversation.start (run (Op.step Server.countingLibc) (Server.start Server.zeroedMemory)
            [.connect 5 true, .enterLobby 0])
          (fun _ => KeyDelivery.newcomer "ann" 1) fun _ => annTypes,
          (run (Server.besideService Server.countingLibc)
            (Server.start Server.zeroedMemory, .closed .empty) [.connect 5 true, .enterLobby 0]).2)
        (said 0 ++ said 0) ∧
      EachStep (besideConversation Server.countingLibc
          (typedAt (fun _ => KeyDelivery.newcomer "ann" 1) fun _ => annTypes))
        (HearsTyped Server.countingLibc
          (typedAt (fun _ => KeyDelivery.newcomer "ann" 1) fun _ => annTypes))
        (Conversation.start (run (Op.step Server.countingLibc) (Server.start Server.zeroedMemory)
            [.connect 5 true, .enterLobby 0])
          (fun _ => KeyDelivery.newcomer "ann" 1) fun _ => annTypes,
          (run (Server.besideService Server.countingLibc)
            (Server.start Server.zeroedMemory, .closed .empty) [.connect 5 true, .enterLobby 0]).2)
        (said 0 ++ said 0) := by
  have hcreate : parse "/create den" = .create "den" := by decide +kernel
  have hchat : parse "hello" = .chat "hello" := by decide +kernel
  refine conversation_is_chat_service Server.countingLibc Server.zeroedMemory _ ?_ (· = 0) ?_
    (fun _ => KeyDelivery.newcomer "ann" 1) (fun _ => annTypes) (fun _ _ => rfl) ?_ _ ?_
  · simp only [eachStep_cons, eachStep_nil, and_true]
    exact ⟨Server.smooth_connect _ _ _, Server.smooth_enterLobby _ _⟩
  · rintro c rfl
    have hup := @up_connect Server.countingLibc (Server.start Server.zeroedMemory) 5 0
      (by decide) (by decide)
    rw [run_cons, run_cons, run_nil]
    exact up_enterLobby hup
  · intro c _
    rw [typedAt_ann]
    decide
  · simp only [said, List.cons_append, List.nil_append, eachStep_cons, eachStep_nil, and_true]
    refine ⟨trivial, trivial, ⟨rfl, fun text htext => ?_⟩, trivial, trivial, rfl, fun text htext => ?_⟩
    · obtain rfl : "/create den" = text := by
        rw [typedAt_ann] at htext
        exact Option.some.inj htext
      rw [hcreate]
      refine ⟨by simp, fun _ _ => rfl, fun _ _ _ _ i hi => ?_, fun hroom => ?_, trivial⟩
      · revert i
        decide +kernel
      · exact absurd hroom (by decide +kernel)
    · obtain rfl : "hello" = text := by
        rw [typedAt_ann] at htext
        generalize hread : Conversation.read _ 0 = n at htext
        have hone : n = 1 := by
          rw [← hread]
          decide +kernel
        rw [hone] at htext
        exact Option.some.inj htext
      rw [hchat]
      exact ⟨by simp, fun _ _ => rfl, by simp, fun _ => trivial, trivial⟩

end TcpChat

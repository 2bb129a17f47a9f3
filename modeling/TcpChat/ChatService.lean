import TcpChat.Base.Simulation
import TcpChat.NicknameShape
import TcpChat.Server.ChatRequests

/-!
# The server as a chat service

What the server is for: one chat service for everybody. As long as drawn room ids are unused, no
client in a room is refused another one, nobody is torn down in a room and no send fails, the
server does what the service does, and everybody hears what the service tells them.
-/

namespace TcpChat.Server

open Base Base.Runs Base.Simulation
set_option autoImplicit false

/-- What an operation is to the service, if anything: a connection that is accepted arrives under
the name it is given. -/
def Op.action (libc : Libc) (s : State) : Op → Option (ChatAction Slot CString CString)
  | .connect socketFd created =>
    if Unused s socketFd ∧ created = true then
      (Fin.find? fun i => !(s.session i).active).map fun i =>
        .arrive i (newSession s socketFd i).nickname
    else none
  | .enterLobby _ => none
  | .message c line env =>
    if Served s c then some (.request c ((parse line).asks libc env)) else none
  | .disconnect c _ => some (.depart c)

def chatStep (a : ChatState) (act : ChatAction Slot CString CString) : ChatState × Told :=
  a.step maxRooms maxClientsPerRoom act

def chatSteps (a : ChatState) (acts : List (ChatAction Slot CString CString)) :
    ChatState × Told :=
  a.steps maxRooms maxClientsPerRoom acts

/-- The server and the service side by side. -/
def besideService (libc : Libc) : State × ChatState → Op → State × ChatState :=
  abreast (Op.step libc) (Op.action libc) fun a act => (chatStep a act).1

/-- What an operation sends is what the service says. -/
def Delivers (libc : Libc) (p : State × ChatState) (op : Op) : Prop :=
  ∃ es, (op.step libc p.1).trace = p.1.trace ++ es ∧
    Reaches Wording p.1 es ((op.action libc p.1).elim Chat.nobody fun act => (chatStep p.2 act).2)

def SendsSucceed : Op → Prop
  | .message _ _ env | .disconnect _ env => ∀ k d, env.sendFails k d = false
  | _ => True

/-- The texts of a message that is served fit the buffers. -/
def TextsFit (s : State) : Op → Prop
  | .message c line env => Served s c → FitsBuffers env s c (parse line)
  | _ => True

/-- Nothing happens that the two tables take differently, and nothing is said that is too long. -/
structure Smooth (libc : Libc) (s : State) (op : Op) : Prop where
  fresh : FreshIds libc s op
  moves : MovesSucceed s op
  outside : OutsideRooms s op
  sends : SendsSucceed op
  fits : TextsFit s op

section Shape
variable {libc : Libc} {env : Env} {s : State} {c : Slot}

theorem TableShape.outcome (h : TableShape s.roomManager) {r : Request}
    {sessions : Slot → ClientSession} {rooms : RoomManager}
    (hout : Outcome libc env s c r sessions rooms) : TableShape rooms := by
  have hleft := h.leaveCurrent c
  cases hout with
  | talk | announced | renamed => exact h
  | @createRefused roomName _ _ heq | @created roomName _ _ _ heq =>
    have hcreated := hleft.step (.create libc env.now roomName c)
    rw [RoomOp.step, RoomOp.call, heq] at hcreated
    exact hcreated
  | @joinRefused roomId _ _ _ heq | @joined roomId _ _ _ heq =>
    have hjoined := hleft.step (.join roomId c)
    rw [RoomOp.step, RoomOp.call, heq] at hjoined
    exact hjoined
  | left => exact hleft

theorem NamesShort.outcome (h : NamesShort s) {r : Request} {sessions : Slot → ClientSession}
    {rooms : RoomManager} (hout : Outcome libc env s c r sessions rooms) (d : Slot) :
    (sessions d).nickname.length < maxNicknameLen := by
  have hupdate : ∀ v, v.nickname = (s.session c).nickname →
      (Function.update s.session c v d).nickname.length < maxNicknameLen := by
    intro v hv
    rw [Function.update_apply]
    split
    · rw [hv]
      exact h c
    · exact h d
  cases hout with
  | talk | createRefused | joinRefused => exact h d
  | announced =>
    dsimp only
    split
    · exact Nat.zero_lt_succ 31
    · exact h d
  | renamed =>
    dsimp only
    split
    · exact Nat.zero_lt_succ 31
    · split
      · exact length_setNickname_lt _ _
      · exact h d
  | created | joined | left => exact hupdate _ rfl

/-- Every operation keeps what the texts depend on. -/
theorem Steady.step (h : Steady s) (op : Op) : Steady (op.step libc s) := by
  refine ⟨h.fds.step op, fun d => ?_, ?_⟩
  · cases op with
    | connect socketFd created =>
      simp only [Op.step]
      split
      · have hupdate : ∀ i v, v.nickname.length < maxNicknameLen →
            (Function.update s.session i v d).nickname.length < maxNicknameLen := by
          intro i v hv
          rw [Function.update_apply]
          split
          · exact hv
          · exact h.names d
        rcases (accept_cases s socketFd created).1 with heq | ⟨i, _, heq | heq⟩
        · rw [heq]
          exact h.names d
        · rw [heq]
          exact hupdate i _ (length_newSession_lt s socketFd i)
        · rw [heq]
          exact hupdate i _ (Nat.zero_lt_succ 31)
      · exact h.names d
    | enterLobby c =>
      simp only [Op.step]
      split
      · rw [chatProtocolAnnounceUserJoined, State.session_setSession]
        split
        · exact h.names c
        · exact h.names d
      · exact h.names d
    | message c line env =>
      simp only [Op.step]
      split
      · exact h.names.outcome (outcome_message env c line) d
      · exact h.names d
    | disconnect c env =>
      simp only [Op.step, session_remove]
      split
      · exact Nat.zero_lt_succ 31
      · exact h.names d
  · cases op with
    | connect socketFd created =>
      simp only [Op.step]
      split
      · rw [(accept_cases s socketFd created).2]
        exact h.shape
      · exact h.shape
    | enterLobby c =>
      simp only [Op.step]
      split <;> exact h.shape
    | message c line env =>
      simp only [Op.step]
      split
      · exact h.shape.outcome (outcome_message env c line)
      · exact h.shape
    | disconnect c env =>
      simp only [Op.step, roomManager_remove]
      exact h.shape

/-- So does a request, whoever asks. -/
theorem Steady.perform (h : Steady s) (c : Slot) (r : Request) :
    Steady (perform libc env s c r).1 := by
  have hout := outcome_perform libc env s c r
  refine ⟨h.fds.of_keeps fun d hd => ?_, h.names.outcome hout, h.shape.outcome hout⟩
  obtain ⟨hactive, hfd, _⟩ := (hout.spared d).of_active hd
  exact ⟨hactive, hfd⟩

end Shape

section Turns
variable {libc : Libc} {env : Env} {s : State} {a : ChatState} (h : Agrees s a) {c : Slot}
include h

theorem Agrees.chatStep_request (hc : (s.session c).active = true)
    (r : ChatRequest CString CString) : chatStep a (.request c r) =
      a.serve c maxRooms maxClientsPerRoom (s.session c).nickname r := by
  rw [chatStep, Chat.step, h.name_of_active hc]

/-- A turn of a handler is what its message asks of the service, if it is handed one. -/
theorem serves_turn (hs : Steady s) (received : Option (List UInt8))
    (hgranted : ∀ message, (handlerTurn libc env s c received).handed = some message →
      Granted libc env s c (parse message)) :
    Serves s (handlerTurn libc env s c received).state
        (chatSteps a ((handlerTurn libc env s c received).handed.toList.map fun message =>
          .request c ((parse message).asks libc env))) ∧
      Steady (handlerTurn libc env s c received).state := by
  have hsession := session_receiveMessage s c received
  have hrooms := roomManager_receiveMessage s c received
  have htrace := trace_receiveMessage s c received
  have hquiet : ∀ t : State, t.session = s.session → t.roomManager = s.roomManager →
      t.trace = s.trace → Serves s t (chatSteps a []) ∧ Steady t :=
    fun t hsession hrooms htrace => ⟨⟨h.of_tables hsession hrooms, [],
      htrace.trans (List.append_nil _).symm, Reaches.nobody fun _ _ _ => List.not_mem_nil⟩,
      hs.of_tables hsession hrooms⟩
  rcases handlerTurn_cases libc env s c received with
    ⟨heq, _⟩ | ⟨hactive, ⟨_, heq⟩ | ⟨bytes, _, _, heq⟩⟩
  · rw [heq]
    exact hquiet s rfl rfl rfl
  · rw [heq]
    exact hquiet _ hsession hrooms htrace
  · rw [heq] at hgranted ⊢
    have hc : (s.session c).active = true := by
      rw [clientSessionIsActive, Bool.and_eq_true] at hactive
      exact hactive.1
    have hgranted' := (hgranted _ rfl).of_tables hsession hrooms
    have hs' := hs.of_tables hsession hrooms
    have hserves := serves_perform (h.of_tables hsession hrooms) hs'
      (by rw [hsession]; exact hc) hgranted' fun text htext => (chat_text htext).1
    have hchat := h.chatStep_request hc ((parse (CString.ofBuffer bytes)).asks libc env)
    rw [hsession, ← hchat] at hserves
    refine ⟨?_, hs'.perform c _⟩
    rw [Option.toList_some, List.map_singleton, chatSteps, Chat.steps_singleton]
    exact hserves.of_tables hsession htrace

end Turns

section Operations
variable {libc : Libc} {env : Env} {s : State} {a : ChatState} (h : Agrees s a) (hs : Steady s)
include h hs

/-- One operation of the server beside what it is to the service. -/
def KeepsStep (libc : Libc) (s : State) (a : ChatState) (op : Op) : Prop :=
  Agrees (op.step libc s) ((op.action libc s).elim a fun act => (chatStep a act).1) ∧
    Delivers libc (s, a) op

omit h hs in
theorem keeps_of_silent {op : Op} (haction : op.action libc s = none)
    (hagrees : Agrees (op.step libc s) a) {es : List Event}
    (htrace : (op.step libc s).trace = s.trace ++ es)
    (hes : ∀ fd payload ok, .send fd payload ok ∉ es) : KeepsStep libc s a op := by
  rw [KeepsStep, Delivers, haction]
  exact ⟨hagrees, es, htrace, Reaches.nobody hes⟩

omit h hs in
theorem find_of_lowestFree {i : Slot} (hfree : LowestFree s i) :
    (Fin.find? fun i => !(s.session i).active) = some i := by
  rw [Fin.find?_eq_some_iff]
  refine ⟨by rw [hfree.1]; rfl, fun j hj => ?_⟩
  rw [hfree.2 j hj]
  rfl

omit h hs in
/-- What accepting does, with what it asks of the kernel. -/
theorem accept_spec (socketFd : Int) (created : Bool) :
    ∃ es, (serverAcceptClient s socketFd created).1.trace = s.trace ++ es ∧
      (∀ fd payload ok, .send fd payload ok ∉ es) ∧
      (serverAcceptClient s socketFd created).1.roomManager = s.roomManager ∧
      ((∀ i, (s.session i).active = true) ∧
          (serverAcceptClient s socketFd created).1.session = s.session ∨
        ∃ i, LowestFree s i ∧ (serverAcceptClient s socketFd created).1.session =
          Function.update s.session i (if created then newSession s socketFd i
            else (newSession s socketFd i).cleaned)) := by
  unfold serverAcceptClient
  rcases add_cases (s.emit [.accept socketFd]) socketFd created with
    ⟨hfull, heq⟩ | ⟨i, hfree, ⟨rfl, heq⟩ | ⟨rfl, heq⟩⟩
  · rw [heq]
    exact ⟨[.accept socketFd, .close socketFd], List.append_assoc .., by simp, rfl,
      Or.inl ⟨hfull, rfl⟩⟩
  · rw [heq]
    dsimp only
    rw [if_neg (by omega)]
    refine ⟨[.accept socketFd], rfl, by simp, rfl, Or.inr ⟨i, hfree, ?_⟩⟩
    funext d
    rw [session_added, Function.update_apply]
    rfl
  · rw [heq]
    dsimp only
    rw [if_pos (by omega)]
    refine ⟨_, (congrArg (· ++ _) (trace_clientSessionCleanup ..)).trans
      ((List.append_assoc ..).trans (List.append_assoc ..)), ?_, rfl, Or.inr ⟨i, hfree, ?_⟩⟩
    · intro fd payload ok he
      simp only [List.mem_append] at he
      split at he <;> simp at he
    · funext d
      rw [State.session_emit, session_clientSessionCleanup, State.session_setSecurity,
        State.session_setSecurity, State.session_setSession_self, Function.update_apply]
      split
      · rfl
      · rename_i hd
        rw [State.session_setSession_of_ne _ _ _ _ hd, State.session_emit]

omit hs in
theorem keeps_connect (socketFd : Int) (created : Bool) :
    KeepsStep libc s a (.connect socketFd created) := by
  by_cases hunused : Unused s socketFd
  · have hstep : (Op.connect socketFd created).step libc s =
        (serverAcceptClient s socketFd created).1 := if_pos hunused
    obtain ⟨es, htrace, hes, hrooms, ⟨hfull, hsession⟩ | ⟨i, hfree, hsession⟩⟩ :=
      @accept_spec s socketFd created
    · have hnone : (Fin.find? fun i => !(s.session i).active) = none := by
        rw [Fin.find?_eq_none_iff]
        intro i
        rw [hfull i]
        decide
      have haction : (Op.connect socketFd created).action libc s = none := by
        rw [Op.action, hnone]
        exact ite_self none
      refine @keeps_of_silent libc s a _ haction ?_ es (hstep ▸ htrace) hes
      rw [hstep]
      constructor
      · rw [hsession]
        exact h.sessions
      · rw [hrooms]
        exact h.rooms
    · have hname : a.name i = none := by
        rw [h.sessions.name, hfree.1]
        rfl
      have hroom : a.room i = none := by
        rw [h.sessions.room, hfree.1]
        rfl
      cases created with
      | true =>
        have haction : (Op.connect socketFd true).action libc s =
            some (.arrive i (newSession s socketFd i).nickname) := by
          rw [Op.action, if_pos ⟨hunused, rfl⟩, find_of_lowestFree hfree]
          rfl
        have hchat : chatStep a (.arrive i (newSession s socketFd i).nickname) =
            (a.arrive i (newSession s socketFd i).nickname, Chat.nobody) := by
          rw [chatStep, Chat.step, hname]
          rfl
        rw [KeepsStep, Delivers, haction, hstep]
        dsimp only [Option.elim_some]
        rw [hchat]
        refine ⟨⟨?_, ?_⟩, es, htrace, Reaches.nobody hes⟩
        · rw [hsession]
          exact h.sessions.update rfl rfl
        · rw [hrooms]
          exact h.rooms.congr (Chat.room_arrive hname _) rfl
      | false =>
        have haction : (Op.connect socketFd false).action libc s = none :=
          if_neg fun hall => Bool.false_ne_true hall.2
        refine @keeps_of_silent libc s a _ haction ?_ es (hstep ▸ htrace) hes
        rw [hstep]
        constructor
        · rw [hsession]
          apply h.sessions.update
          · exact (Function.update_eq_self_iff.mpr hname.symm).symm
          · exact (Function.update_eq_self_iff.mpr hroom.symm).symm
        · rw [hrooms]
          exact h.rooms
  · have hstep : (Op.connect socketFd created).step libc s = s := if_neg hunused
    have haction : (Op.connect socketFd created).action libc s = none :=
      if_neg fun hall => hunused hall.1
    refine @keeps_of_silent libc s a _ haction ?_ [] ?_ fun _ _ _ => List.not_mem_nil
    · rwa [hstep]
    · rw [hstep, List.append_nil]

omit hs in
theorem keeps_enterLobby (c : Slot) : KeepsStep libc s a (.enterLobby c) := by
  by_cases hc : (s.session c).active = true ∧ (s.session c).state = .connected
  · have hstep : (Op.enterLobby c).step libc s = chatProtocolAnnounceUserJoined s c := if_pos hc
    have hroom : (s.session c).hasRoom = false := by
      rw [ClientSession.hasRoom, hc.2]
      rfl
    refine @keeps_of_silent libc s a _ rfl ?_ [] ?_ fun _ _ _ => List.not_mem_nil
    · rw [hstep]
      refine ⟨?_, h.rooms⟩
      rw [chatProtocolAnnounceUserJoined, session_update]
      apply h.sessions.update
      · dsimp only
        rw [← h.sessions.name c, Function.update_eq_self]
      · have hlobby : ({ s.session c with state := .inLobby } : ClientSession).hasRoom = false := rfl
        rw [hlobby, Bool.and_false, ← h.room_of_not_hasRoom hroom]
        exact (Function.update_eq_self c a.room).symm
    · rw [hstep]
      exact (List.append_nil _).symm
  · have hstep : (Op.enterLobby c).step libc s = s := if_neg hc
    refine @keeps_of_silent libc s a _ rfl ?_ [] ?_ fun _ _ _ => List.not_mem_nil
    · rwa [hstep]
    · rw [hstep, List.append_nil]

theorem keeps_message (c : Slot) (line : CString) (env : Env)
    (hsmooth : Smooth libc s (.message c line env)) : KeepsStep libc s a (.message c line env) := by
  by_cases hserved : Served s c
  · have hc := hserved.active
    have hserve := serves_perform h hs hc ⟨hsmooth.sends, freshIds_message hsmooth.fresh hserved,
      hsmooth.moves hserved, hsmooth.fits hserved⟩ fun text htext => (chat_text htext).1
    have hstep : (Op.message c line env).step libc s = (perform libc env s c (parse line)).1 := by
      rw [← handleMessage_eq]
      exact if_pos hserved
    have haction : (Op.message c line env).action libc s =
        some (.request c ((parse line).asks libc env)) := if_pos hserved
    have hchat := h.chatStep_request hc ((parse line).asks libc env)
    rw [KeepsStep, Delivers, haction, hstep]
    dsimp only [Option.elim_some]
    rw [hchat]
    exact ⟨hserve.agrees, hserve.delivers⟩
  · have hstep : (Op.message c line env).step libc s = s := if_neg hserved
    refine @keeps_of_silent libc s a _ (if_neg hserved) ?_ [] ?_ fun _ _ _ => List.not_mem_nil
    · rwa [hstep]
    · rw [hstep, List.append_nil]

theorem keeps_disconnect (c : Slot) (env : Env) (hsmooth : Smooth libc s (.disconnect c env)) :
    KeepsStep libc s a (.disconnect c env) := by
  have haction : (Op.disconnect c env).action libc s = some (.depart c) := rfl
  rw [KeepsStep, Delivers, haction, Op.step]
  dsimp only [Option.elim_some]
  cases hc : (s.session c).active with
  | false =>
    have hname : a.name c = none := by
      rw [h.sessions.name, hc]
      rfl
    rw [remove_of_inactive _ _ _ hc, chatStep, Chat.step, hname]
    exact ⟨h, [], (List.append_nil _).symm, Reaches.nobody fun _ _ _ => List.not_mem_nil⟩
  | true =>
    have hroom : a.room c = none := by
      by_contra hin
      obtain ⟨k, hk⟩ := Option.ne_none_iff_exists'.mp hin
      obtain ⟨i, _, hi, hid⟩ := h.rooms.find hk
      exact hsmooth.outside c ⟨hc, Or.inl rfl⟩ i ((h.member_iff i c).mpr ⟨hi, by rw [hk, hid]⟩)
    have hchat : chatStep a (.depart c) =
        (a.depart c, a.toOthers c (.bye (s.session c).nickname)) := by
      rw [chatStep, Chat.step, h.name_of_active hc]
    have hserves := serves_remove (hsmooth.sends 0) h hs hc hroom
    rw [hchat]
    exact ⟨hserves.agrees, hserves.delivers⟩

theorem keepsStep (op : Op) (hop : Smooth libc s op) : KeepsStep libc s a op := by
  cases op with
  | connect socketFd created => exact keeps_connect h socketFd created
  | enterLobby c => exact keeps_enterLobby h c
  | message c line env => exact keeps_message h hs c line env hop
  | disconnect c env => exact keeps_disconnect h hs c env hop

end Operations

theorem steady_start (memory : State) : Steady (start memory) :=
  ⟨fun _ _ h => absurd h Bool.false_ne_true, fun _ => Nat.zero_lt_succ 31,
    TableShape.initial memory.roomManager⟩

theorem agrees_start (memory : State) : Agrees (start memory) (.closed .empty) := by
  refine ⟨⟨fun _ => rfl, fun _ => rfl⟩, fun i hi => absurd hi Bool.false_ne_true, ?_⟩
  rw [Chat.groups_closed, Groups.map_empty]
  exact Represents.initial memory.roomManager

/-- The relation that carries the run, and what every step sends. -/
theorem service_run (libc : Libc) (memory : State) {ops : List Op}
    (hsmooth : EachStep (Op.step libc) (Smooth libc) (start memory) ops) :
    Always (besideService libc) (fun p => Agrees p.1 p.2 ∧ Steady p.1)
        (start memory, .closed .empty) ops ∧
      EachStep (besideService libc) (Delivers libc) (start memory, .closed .empty) ops :=
  @refines_abreast _ _ _ _ (fun s a => Agrees s a ∧ Steady s) (Smooth libc) (Op.step libc)
    (fun a act => (chatStep a act).1) (Op.action libc) (Delivers libc)
    (fun s a op h hop => by
      have hkeeps := keepsStep h.1 h.2 op hop
      exact ⟨⟨hkeeps.1, h.2.step op⟩, hkeeps.2⟩)
    ops (start memory) (.closed .empty) ⟨agrees_start memory, steady_start memory⟩ hsmooth

/-- As long as nothing happens that the two tables take differently, the server is a chat service:
after every operation both tables say what the service's state says, and what was sent during the
operation is what the service tells everybody, in order and in the server's words. -/
theorem server_is_chat_service (libc : Libc) (memory : State) (ops : List Op)
    (hsmooth : EachStep (Op.step libc) (Smooth libc) (start memory) ops) :
    Always (besideService libc) (fun p => Agrees p.1 p.2) (start memory, .closed .empty) ops ∧
      EachStep (besideService libc) (Delivers libc) (start memory, .closed .empty) ops := by
  have hboth := service_run libc memory hsmooth
  exact ⟨hboth.1.imp fun p h => h.1, hboth.2⟩

/-- Two clients share a room, one speaks, takes a name, leaves the room and then the chat, and the
other one asks for the rooms. -/
def visit (host guest : Slot) : List Op :=
  [.connect 5 true, .enterLobby host, .message host "/create den" calm, .connect 6 true,
    .enterLobby guest, .message guest "/join CDEFGH" calm, .message guest "hi" calm,
    .message guest "/nick carol" calm, .message guest "/leave" calm, .message host "/rooms" calm,
    .disconnect guest calm]

theorem smooth_message {s : State} {c : Slot} {line : CString} {r : Request} (hr : parse line = r)
    (hfresh : ∀ roomName, r ≠ .create roomName)
    (hmoves : (s.session c).hasRoom = true → AsksForOpenRoom s c r)
    (hevicts : ∀ d, ¬ Evicts calm s c r d) (hfits : FitsBuffers calm s c r) :
    Smooth countingLibc s (.message c line calm) := by
  subst hr
  refine ⟨?_, fun _ => hmoves, fun d hd => absurd hd.2 (hevicts d), fun _ _ => rfl, fun _ => hfits⟩
  simp only [FreshIds]

theorem smooth_connect (s : State) (fd : Int) (launched : Bool) :
    Smooth countingLibc s (.connect fd launched) :=
  ⟨trivial, trivial, fun _ => False.elim, trivial, trivial⟩

theorem smooth_enterLobby (s : State) (c : Slot) : Smooth countingLibc s (.enterLobby c) :=
  ⟨trivial, trivial, fun _ => False.elim, trivial, trivial⟩

theorem visit_smooth :
    EachStep (Op.step countingLibc) (Smooth countingLibc) (start zeroedMemory) (visit 0 1) := by
  have hcreate : parse "/create den" = .create "den" := by decide +kernel
  have hjoin : parse "/join CDEFGH" = .join "CDEFGH" := by decide +kernel
  have hchat : parse "hi" = .chat "hi" := by decide +kernel
  have hnick : parse "/nick carol" = .nick "carol" := by decide +kernel
  have hleave : parse "/leave" = .leave := by decide +kernel
  have hrooms : parse "/rooms" = .rooms := by decide +kernel
  simp only [visit, eachStep_cons, eachStep_nil, and_true]
  refine ⟨smooth_connect _ _ _, smooth_enterLobby _ _, ?_, smooth_connect _ _ _,
    smooth_enterLobby _ _,
    smooth_message hjoin (by simp) ?_ (fun _ => id) trivial,
    smooth_message hchat (by simp) (fun _ => trivial) (fun _ => id) trivial,
    smooth_message hnick (by simp) (fun _ => trivial) ?_ (by decide +kernel),
    smooth_message hleave (by simp) (fun _ => trivial) (fun _ => id) trivial,
    smooth_message hrooms (by simp) (fun _ => trivial) (fun _ => id) (by decide +kernel), ?_⟩
  · refine ⟨?_, fun _ hroom => ?_, fun d hd => ?_, fun _ _ => rfl, fun _ => ?_⟩
    · simp only [FreshIds, hcreate]
      intro _ _ _ i hi
      revert i
      decide +kernel
    · exact absurd hroom (by decide +kernel)
    · have hevicts := hd.2
      rw [hcreate] at hevicts
      exact hevicts.elim
    · rw [hcreate]
      trivial
  · intro hroom
    exact absurd hroom (by decide +kernel)
  · intro d hd
    rcases hd.2.2 with hfailed | hfailed
    · exact Bool.false_ne_true hfailed
    · exact Bool.false_ne_true hfailed
  · refine ⟨trivial, trivial, fun d hd => ?_, fun _ _ => rfl, trivial⟩
    rcases hd.2 with rfl | hevicted
    · decide +kernel
    · exact absurd hevicted.2 Bool.false_ne_true

theorem server_is_chat_service_visit :
    Always (besideService countingLibc) (fun p => Agrees p.1 p.2)
        (start zeroedMemory, .closed .empty) (visit 0 1) ∧
      EachStep (besideService countingLibc) (Delivers countingLibc)
        (start zeroedMemory, .closed .empty) (visit 0 1) :=
  server_is_chat_service countingLibc zeroedMemory (visit 0 1) visit_smooth

end TcpChat.Server

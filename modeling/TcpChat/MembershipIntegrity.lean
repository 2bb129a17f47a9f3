import TcpChat.Client.HandshakeProtocol
import TcpChat.Server.Blocking
import TcpChat.Server.OwnRoom

/-!
# Membership integrity

The room table names its members by slot number. Commands keep it in step with the sessions;
the two teardown paths, removal and eviction, never touch it, and a handler whose session has
been torn down while it waited in `recv` still performs what it is given.
-/

namespace TcpChat.Server

open Base Base.Runs
set_option autoImplicit false

/-- The room table and the sessions agree: members have entered their room, each by a message of
the connection that now holds the slot, no room is without a member, and what is sent to a room
is sent to connections that have entered it. -/
structure MembershipIntegrity (b : Blocking) : Prop where
  entered : Entered b.sys.server.session b.sys.server.roomManager
  own : ∀ i (c : Slot), Member b.sys.server.roomManager i (c : Int) → b.asker c = b.sys.occupant c
  occupied : ∀ i, (b.sys.server.roomManager.rooms i).isActive = true →
    ∃ c : Slot, Member b.sys.server.roomManager i (c : Int)
  heard : ∀ roomId senderId, ∀ c ∈ roomTargets b.sys.server roomId senderId,
    (b.sys.server.session c).state = .inRoom ∧
      (b.sys.server.session c).currentRoomId = roomId ∧ b.asker c = b.sys.occupant c

/-- No active room lists the slot. -/
def Unlisted (s : State) (d : Slot) : Prop := ∀ i, ¬ Member s.roomManager i (d : Int)

instance (s : State) (d : Slot) : Decidable (Unlisted s d) :=
  inferInstanceAs (Decidable (∀ _, ¬ _))

/-- The session that the message came in for is not there any more. -/
def Late (b : Blocking) (c : Slot) (connection : Nat) : Prop :=
  (b.sys.server.session c).active = false ∨ b.sys.occupant c ≠ connection

instance (b : Blocking) (c : Slot) (connection : Nat) : Decidable (Late b c connection) :=
  inferInstanceAs (Decidable (_ ∨ _))

/-- What the handler `h` does when it goes on spares the members of rooms. -/
def HandlerSpares (b : Blocking) (n : Nat) (h : Handler) (input : Input) : Prop :=
  match h.pc with
  | .welcome => Unlisted b.sys.server h.slot
  | .exiting =>
    ∀ d, TakenDown (input.env.sendFails 0) b.sys.server h.slot d → Unlisted b.sys.server d
  | .loop => ∀ connection ∈ b.reads n, ∀ message ∈ messageIn b.sys.server h.slot input.chunk,
    (∀ d, Evicts input.env b.sys.server h.slot (parse message) d → Unlisted b.sys.server d) ∧
      (Late b h.slot connection → ¬ EntersRoom b.sys.server h.slot (parse message))
  | _ => True

instance (b : Blocking) (n : Nat) (h : Handler) (input : Input) :
    Decidable (HandlerSpares b n h input) :=
  match h with
  | ⟨_, .welcome⟩ => inferInstanceAs (Decidable (Unlisted _ _))
  | ⟨_, .exiting⟩ => inferInstanceAs (Decidable (∀ _, _ → _))
  | ⟨_, .loop⟩ => inferInstanceAs (Decidable (∀ _ ∈ _, ∀ _ ∈ _, (∀ _, _ → _) ∧ (_ → ¬ _)))
  | ⟨_, .awaitSyn⟩ | ⟨_, .sendSynAck _⟩ | ⟨_, .awaitAck _ _⟩ | ⟨_, .gone⟩ => isTrue trivial

/-- No session that the step tears down or announces is listed in a room, and a message for a
session that is gone does not let anybody into one. -/
def SparesMembers (b : Blocking) : Label → Prop
  | .accept clientSocket created started env =>
    Unused b.sys.server clientSocket → created = true → started = false →
      ∀ i, LowestFree b.sys.server i → ∀ d, Evicted (env.sendFails 0) b.sys.server i d →
        Unlisted b.sys.server d
  | .handler n input => ∀ h ∈ b.sys.handlers[n]?, HandlerSpares b n h input

instance (b : Blocking) (label : Label) : Decidable (SparesMembers b label) :=
  match label with
  | .accept .. => inferInstanceAs (Decidable (_ → _ → _ → ∀ _, _ → ∀ _, _ → _))
  | .handler .. => inferInstanceAs (Decidable (∀ _ ∈ _, _))

/-- An id drawn for the request of client `c` is the id of no active room. -/
def DrawsFresh (libc : Libc) (env : Env) (s : State) (c : Slot) : Request → Prop
  | .create roomName =>
    ValidRoomName roomName → FreshId libc env.now (leaveCurrentRoom s c).roomManager
  | _ => True

instance (libc : Libc) (env : Env) (s : State) (c : Slot) (r : Request) :
    Decidable (DrawsFresh libc env s c r) :=
  match r with
  | .create _ => inferInstanceAs (Decidable (_ → _ → ∀ _, _ → _))
  | .join _ | .leave | .nick _ | .users | .keyExchange _ | .e2eMessage _ | .chat _ | .nothing
  | .quit | .rooms | .help | .unknown => isTrue trivial

/-- Where the step calls `room_generate_id`, the result is the id of no active room. -/
def FreshDraws (libc : Libc) (b : Blocking) : Label → Prop
  | .accept .. => True
  | .handler n input => ∀ h ∈ b.sys.handlers[n]?, h.pc = .loop → b.reads n ≠ none →
    ∀ message ∈ messageIn b.sys.server h.slot input.chunk,
      DrawsFresh libc input.env b.sys.server h.slot (parse message)

instance (libc : Libc) (b : Blocking) (label : Label) : Decidable (FreshDraws libc b label) :=
  match label with
  | .accept .. => isTrue trivial
  | .handler .. => inferInstanceAs (Decidable (∀ _ ∈ _, _ → _ → ∀ _ ∈ _, _))

/-- What the step of a handler makes of the sessions, the rooms and the askers. -/
inductive HandlerMove (libc : Libc) (b : Blocking) (n : Nat) (input : Input) :
    (Slot → ClientSession) → RoomManager → (Slot → Nat) → Prop where
  | quiet {sessions : Slot → ClientSession} (hspares : SparesMembers b (.handler n input))
    (hsame : ∀ d, SameConnection (b.sys.server.session d) (sessions d)) :
    HandlerMove libc b n input sessions b.sys.server.roomManager b.asker
  | announced {c : Slot} (hn : b.sys.handlers[n]? = some ⟨c, .welcome⟩) :
    HandlerMove libc b n input
      (Function.update b.sys.server.session c { b.sys.server.session c with state := .inLobby })
      b.sys.server.roomManager b.asker
  | removed {c : Slot} (hn : b.sys.handlers[n]? = some ⟨c, .exiting⟩) :
    HandlerMove libc b n input
      (fun d => if TakenDown (input.env.sendFails 0) b.sys.server c d then
        (b.sys.server.session d).cleaned else b.sys.server.session d)
      b.sys.server.roomManager b.asker
  | handed {c : Slot} {connection : Nat} {message : CString} {sessions : Slot → ClientSession}
    {rooms : RoomManager} (hn : b.sys.handlers[n]? = some ⟨c, .loop⟩)
    (hreads : b.reads n = some connection)
    (hmessage : messageIn b.sys.server c input.chunk = some message)
    (hout : Outcome libc input.env b.sys.server c (parse message) sessions rooms) :
    HandlerMove libc b n input sessions rooms
      (if AsksForRoom (parse message) then Function.update b.asker c connection else b.asker)

section Moves
variable {libc : Libc} {b : Blocking} {n : Nat} {input : Input} {c : Slot}

theorem sameConnection_refl (session : ClientSession) : SameConnection session session :=
  ⟨rfl, rfl, rfl, rfl⟩

theorem occupant_handler (b : Blocking) :
    (b.step libc (.handler n input)).sys.occupant = b.sys.occupant := by
  simp only [Blocking.step]
  cases hn : b.sys.handlers[n]? with
  | none => rfl
  | some h =>
    dsimp only
    split
    · cases b.reads n with
      | some connection => rfl
      | none =>
        dsimp only
        split
        · rfl
        · rw [System.step_handler hn]
    · rfl

theorem handlerSpares_iff {h : Handler} (hn : b.sys.handlers[n]? = some h) :
    SparesMembers b (.handler n input) ↔ HandlerSpares b n h input := by
  simp only [SparesMembers, hn, Option.mem_some_iff, forall_eq']

theorem HandlerMove.shaking {pc : Pc} (hn : b.sys.handlers[n]? = some ⟨c, pc⟩)
    (hpc : Shaking pc) :
    HandlerMove libc b n input
      ((⟨c, pc⟩ : Handler).resume libc b.sys.server input).1.session
      ((⟨c, pc⟩ : Handler).resume libc b.sys.server input).1.roomManager b.asker := by
  obtain ⟨v, hv, hsessions, hrooms⟩ := Handler.resume_shaking libc b.sys.server c input hpc
  rw [hsessions, hrooms]
  refine .quiet ((handlerSpares_iff hn).mpr ?_) fun d => ?_
  · cases pc with
    | awaitSyn | sendSynAck | awaitAck => trivial
    | _ => exact hpc.elim
  · by_cases hd : d = c
    · subst hd
      rw [Function.update_self]
      exact hv
    · rw [Function.update_of_ne hd]
      exact sameConnection_refl _

/-- In the loop a handler begins to wait, goes on without a message, performs the one it is given,
or ends. -/
theorem HandlerMove.looping (hn : b.sys.handlers[n]? = some ⟨c, .loop⟩) :
    HandlerMove libc b n input (b.step libc (.handler n input)).sys.server.session
      (b.step libc (.handler n input)).sys.server.roomManager
      (b.step libc (.handler n input)).asker := by
  have hspares := @handlerSpares_iff b n input _ hn
  have hsame : ∀ d, SameConnection (b.sys.server.session d) (b.sys.server.session d) :=
    fun d => sameConnection_refl _
  simp only [Blocking.step, hn, if_true]
  cases hreads : b.reads n with
  | none =>
    have hquiet : SparesMembers b (.handler n input) :=
      hspares.mpr fun connection hmem => by rw [hreads] at hmem; cases hmem
    cases hactive : clientSessionIsActive (b.sys.server.session c) with
    | true => exact .quiet hquiet hsame
    | false =>
      dsimp only
      rw [System.step_handler hn]
      simp only [Handler.step, handlerTurn, hactive]
      exact .quiet hquiet hsame
  | some connection =>
    simp only [Blocking.receive, Blocking.resume, Handler.resume]
    rcases handlerReceive_outcome libc input.env b.sys.server c input.chunk with
      ⟨hmessage, hsession, hrooms⟩ | ⟨message, hmessage, hout⟩
    · rw [hmessage, hsession, hrooms]
      refine .quiet (hspares.mpr ?_) hsame
      intro connection _ message hmem
      rw [hmessage] at hmem
      cases hmem
    · rw [hmessage]
      exact .handed hn hreads hmessage hout

theorem Blocking.handler_move (libc : Libc) (b : Blocking) (n : Nat) (input : Input) :
    HandlerMove libc b n input (b.step libc (.handler n input)).sys.server.session
      (b.step libc (.handler n input)).sys.server.roomManager
      (b.step libc (.handler n input)).asker := by
  have hsame : ∀ d, SameConnection (b.sys.server.session d) (b.sys.server.session d) :=
    fun d => sameConnection_refl _
  cases hn : b.sys.handlers[n]? with
  | none =>
    simp only [Blocking.step, hn]
    exact .quiet (fun h hh => by rw [hn] at hh; cases hh) hsame
  | some h =>
    obtain ⟨c, pc⟩ := h
    cases pc with
    | awaitSyn | sendSynAck | awaitAck =>
      simp only [Blocking.step, hn]
      exact .shaking hn trivial
    | welcome =>
      have hmove := @HandlerMove.announced libc b n input c hn
      rw [← session_update] at hmove
      simp only [Blocking.step, hn]
      exact hmove
    | loop => exact .looping hn
    | exiting =>
      have hmove := @HandlerMove.removed libc b n input c hn
      simp only [Blocking.step, hn, reduceCtorEq, if_false]
      convert hmove using 1
      · funext d
        exact session_remove _ _ _ d
      · exact roomManager_remove _ _ _
      · rfl
    | gone =>
      simp only [Blocking.step, hn]
      exact .quiet ((handlerSpares_iff hn).mpr trivial) hsame

end Moves

/-- Every member has entered its room by a message of its own connection. -/
def OwnEntries (b : Blocking) : Prop :=
  ∀ i (c : Slot), Member b.sys.server.roomManager i (c : Int) → b.asker c = b.sys.occupant c

theorem membershipIntegrity_iff {b : Blocking} (ok : RoomsOk b.sys.server.roomManager) :
    MembershipIntegrity b ↔
      Entered b.sys.server.session b.sys.server.roomManager ∧ OwnEntries b := by
  refine ⟨fun h => ⟨h.entered, h.own⟩, fun h => ⟨h.1, h.2, ?_, ?_⟩⟩
  · intro i hi
    have hroom := ok.table.room_ok i
    have hpos := hroom.occupied_iff.mp hi
    rw [hroom.count_eq] at hpos
    obtain ⟨j, hj⟩ := (Slots.occupancy_pos_iff _).mp (Int.natCast_pos.mp hpos)
    have hne : (b.sys.server.roomManager.rooms i).clientIds j ≠ -1 := by
      simpa [entryUsed] using hj
    obtain ⟨c, hc, _⟩ := h.1 i _ ⟨hi, j, rfl⟩ hne
    exact ⟨c, hi, j, hc⟩
  · intro roomId senderId c hc
    obtain ⟨r, hr, hlists, _⟩ := mem_roomTargets_iff.mp hc
    have hmember : Member b.sys.server.roomManager r (c : Int) := ⟨found_active hr, hlists⟩
    obtain ⟨d, hd, _, hstate, hid⟩ := h.1 r c hmember (by omega)
    have hdc : d = c := Fin.ext (by omega)
    subst hdc
    exact ⟨hstate, hid.trans (found_roomId hr), h.2 r d hmember⟩

section Accept
variable {libc : Libc} {b : Blocking} (clientSocket : Int) (created started : Bool) (env : Env)

theorem accept_frame (sys : System) :
    (sys.step libc (.accept clientSocket created started env)).server.roomManager =
      sys.server.roomManager := by
  simp only [System.step]
  split
  · rcases sys.accept_cases clientSocket created started env with
      ⟨_, heq, _, hrooms, _⟩ | ⟨_, i, _, heq⟩
    · rw [heq]
      exact hrooms
    · rw [heq]
      dsimp only
      split
      · rfl
      · exact roomManager_remove _ _ _
  · rfl

/-- Who is torn down when the connection in slot `i` gets no handler. -/
theorem takenDown_added_iff {s : State} {i d : Slot} {fails : Slot → Bool} :
    TakenDown fails (added (s.emit [.accept clientSocket]) clientSocket i) i d ↔
      d = i ∨ Evicted fails s i d := by
  have hnew : ((added (s.emit [.accept clientSocket]) clientSocket i).session i).active = true := by
    rw [session_added, if_pos rfl]
    rfl
  simp only [TakenDown, hnew, true_and]
  apply or_congr_right'
  intro hd
  simp only [Evicted, Reached, session_added_of_ne hd]

/-- The farewell to a connection that gets no handler keeps everybody entered exactly when it
evicts nobody out of a room. -/
theorem entered_givenBack_iff {i : Slot} (hfree : LowestFree b.sys.server i) (fails : Slot → Bool)
    (hentered : Entered b.sys.server.session b.sys.server.roomManager) :
    Entered (clientManagerRemoveClient fails
        (added (b.sys.server.emit [.accept clientSocket]) clientSocket i) i).session
        b.sys.server.roomManager ↔
      ∀ d, Evicted fails b.sys.server i d → Unlisted b.sys.server d := by
  have hiff := @entered_down_iff _
    (clientManagerRemoveClient fails
      (added (b.sys.server.emit [.accept clientSocket]) clientSocket i) i).session _
    hentered (fun d => d = i ∨ Evicted fails b.sys.server i d)
    (fun d hd => by
      rw [session_remove, if_pos ((takenDown_added_iff _).mpr hd)]
      rfl)
    (fun d hd hactive hstate => by
      rw [session_remove, if_neg ((takenDown_added_iff _).not.mpr hd),
        session_added_of_ne (hfree.ne_of_active hactive)]
      exact ⟨hactive, hstate, rfl⟩)
  rw [hiff]
  constructor
  · exact fun h d hd => h d (Or.inr hd)
  · intro h d hd
    rcases hd with rfl | hd
    · intro k hmember
      obtain ⟨c, hc, hactive, _⟩ := hentered k d hmember (by omega)
      obtain rfl : c = d := Fin.ext (by omega)
      exact hfree.ne_of_active hactive rfl
    · exact h d hd

/-- Accepting a connection keeps everybody entered exactly when the farewell to a connection
that gets no handler evicts nobody out of a room. -/
theorem entered_accept_iff (hentered : Entered b.sys.server.session b.sys.server.roomManager) :
    Entered (b.sys.step libc (.accept clientSocket created started env)).server.session
        b.sys.server.roomManager ↔
      SparesMembers b (.accept clientSocket created started env) := by
  by_cases hunused : Unused b.sys.server clientSocket
  · rw [System.step_accept hunused]
    simp only [SparesMembers, hunused, true_implies]
    rcases b.sys.accept_cases clientSocket created started env with
      ⟨s, heq, hwhy, _, hkept, _⟩ | ⟨hcreated, i, hfree, heq⟩
    · -- the connection is refused
      rw [heq]
      refine iff_of_true ?_ fun hcreated _ i hfree => ?_
      · apply hentered.congr
        intro d hactive hstate
        rcases hkept d with hsame | ⟨hdead, _⟩
        · rw [hsame]
          exact ⟨hactive, hstate, rfl⟩
        · rw [hdead] at hactive
          cases hactive
      · rcases hwhy with hfull | hrefused
        · exact absurd rfl (hfree.ne_of_active (hfull i))
        · rw [hrefused] at hcreated
          cases hcreated
    · rw [heq]
      cases started with
      | true =>
        refine iff_of_true (hentered.congr fun d hactive hstate => ?_) fun _ h => by cases h
        rw [if_pos rfl, session_added_of_ne (hfree.ne_of_active hactive)]
        exact ⟨hactive, hstate, rfl⟩
      | false =>
        simp only [hcreated, true_implies, Bool.false_eq_true, if_false]
        rw [entered_givenBack_iff _ hfree _ hentered]
        constructor
        · intro h k hk
          obtain rfl := hk.unique hfree
          exact h
        · exact fun h => h i hfree
  · rw [System.step_no_accept hunused]
    exact iff_of_true hentered fun h => absurd h hunused

/-- A new connection takes a slot that nobody is a member with. -/
theorem ownEntries_accept (hentered : Entered b.sys.server.session b.sys.server.roomManager)
    (hown : OwnEntries b) :
    OwnEntries (b.step libc (.accept clientSocket created started env)) := by
  intro k c hmember
  simp only [Blocking.step, accept_frame] at hmember ⊢
  rw [hown k c hmember]
  simp only [System.step]
  split
  · rcases b.sys.accept_cases clientSocket created started env with
      ⟨_, heq, _⟩ | ⟨_, i, hfree, heq⟩
    · rw [heq]
    · rw [heq]
      obtain ⟨d, hd, hactive, _⟩ := hentered k c hmember (by omega)
      obtain rfl : d = c := Fin.ext (by omega)
      exact (Function.update_of_ne (hfree.ne_of_active hactive) _ _).symm
  · rfl

end Accept

section Step
variable {libc : Libc} {b : Blocking}

/-- A message moves members as it should exactly when it throws nobody out of a room and, if the
session it came in for is gone, lets nobody in. -/
theorem integrity_handed_iff {c : Slot} {connection : Nat} {r : Request} {env : Env}
    {sessions : Slot → ClientSession} {rooms : RoomManager}
    (ok : RoomsOk b.sys.server.roomManager)
    (hentered : Entered b.sys.server.session b.sys.server.roomManager) (hown : OwnEntries b)
    (hfresh : ∀ roomName, r = .create roomName → ValidRoomName roomName →
      FreshId libc env.now (leaveCurrentRoom b.sys.server c).roomManager)
    (hout : Outcome libc env b.sys.server c r sessions rooms) :
    (Entered sessions rooms ∧ ∀ i (d : Slot), Member rooms i (d : Int) →
        (if AsksForRoom r then Function.update b.asker c connection else b.asker) d =
          b.sys.occupant d) ↔
      (∀ d, Evicts env b.sys.server c r d → Unlisted b.sys.server d) ∧
        (Late b c connection → ¬ EntersRoom b.sys.server c r) := by
  have hother : ∀ d : Slot, d ≠ c →
      (if AsksForRoom r then Function.update b.asker c connection else b.asker) d = b.asker d := by
    intro d hd
    split
    · exact Function.update_of_ne hd _ _
    · rfl
  rw [entered_outcome_iff ok hfresh hentered hout, ← admits_iff ok.table r, and_assoc]
  apply and_congr_right
  intro _
  rcases member_outcome ok hfresh hentered hout with
    ⟨hadmits, hasks, i, hmember⟩ | ⟨hrefused, hmember⟩ | ⟨hrefused, hasks, rfl⟩
  · simp only [hadmits, true_implies, not_true_eq_false, imp_false, Late, not_or,
      Bool.not_eq_false, not_not]
    apply and_congr_right
    intro _
    rw [if_pos hasks] at hother ⊢
    constructor
    · intro hall
      have hc := hall i c ((hmember i c (by omega)).mpr (Or.inl ⟨rfl, rfl⟩))
      rw [Function.update_self] at hc
      exact hc.symm
    · intro hsame k d hd
      rcases (hmember k d (by omega)).mp hd with ⟨_, hdc⟩ | ⟨hdc, hold⟩
      · obtain rfl : d = c := Fin.ext (by omega)
        rw [Function.update_self]
        exact hsame.symm
      · have hne : d ≠ c := fun h => hdc (by rw [h])
        rw [hother d hne]
        exact hown k d hold
  · refine iff_of_true ⟨fun h => absurd h hrefused, fun k d hd => ?_⟩ fun _ => hrefused
    obtain ⟨hdc, hold⟩ := (hmember k d (by omega)).mp hd
    have hne : d ≠ c := fun h => hdc (by rw [h])
    rw [hother d hne]
    exact hown k d hold
  · refine iff_of_true ⟨fun h => absurd h hrefused, fun k d hd => ?_⟩ fun _ => hrefused
    rw [if_neg hasks]
    exact hown k d hd

theorem freshDraws_handed {n : Nat} {input : Input} {c : Slot} {connection : Nat}
    {message : CString} (hfresh : FreshDraws libc b (.handler n input))
    (hn : b.sys.handlers[n]? = some ⟨c, .loop⟩) (hreads : b.reads n = some connection)
    (hmessage : messageIn b.sys.server c input.chunk = some message) (roomName : CString)
    (hparse : parse message = .create roomName) (hname : ValidRoomName roomName) :
    FreshId libc input.env.now (leaveCurrentRoom b.sys.server c).roomManager := by
  have hwaits : b.reads n ≠ none := by
    rw [hreads]
    exact Option.some_ne_none connection
  have hdraws := hfresh ⟨c, .loop⟩ (Option.mem_def.mpr hn) rfl hwaits message
    (Option.mem_def.mpr hmessage)
  rw [hparse] at hdraws
  exact hdraws hname

theorem RoomsOk.blocking_step (ok : RoomsOk b.sys.server.roomManager) (label : Label)
    (hfresh : FreshDraws libc b label) : RoomsOk (b.step libc label).sys.server.roomManager := by
  cases label with
  | accept clientSocket created started env =>
    simp only [Blocking.step, accept_frame]
    exact ok
  | handler n input =>
    have hmove := Blocking.handler_move libc b n input
    generalize (b.step libc (.handler n input)).sys.server.roomManager = rooms at hmove ⊢
    generalize (b.step libc (.handler n input)).sys.server.session = sessions at hmove
    generalize (b.step libc (.handler n input)).asker = asker at hmove
    cases hmove with
    | quiet | announced | removed => exact ok
    | handed hn hreads hmessage hout =>
      exact ok.outcome (freshDraws_handed hfresh hn hreads hmessage) hout

/-- One step keeps the tables in step exactly when it spares the members of rooms. -/
theorem integrity_step_iff (ok : RoomsOk b.sys.server.roomManager) (label : Label)
    (hfresh : FreshDraws libc b label)
    (hentered : Entered b.sys.server.session b.sys.server.roomManager) (hown : OwnEntries b) :
    (Entered (b.step libc label).sys.server.session (b.step libc label).sys.server.roomManager ∧
      OwnEntries (b.step libc label)) ↔ SparesMembers b label := by
  cases label with
  | accept clientSocket created started env =>
    have hrooms : (b.step libc (.accept clientSocket created started env)).sys.server.roomManager =
        b.sys.server.roomManager := by
      simp only [Blocking.step, accept_frame]
    rw [and_iff_left (ownEntries_accept _ _ _ _ hentered hown), hrooms]
    exact @entered_accept_iff libc b clientSocket created started env hentered
  | handler n input =>
    have hmove := Blocking.handler_move libc b n input
    unfold OwnEntries
    rw [occupant_handler]
    generalize (b.step libc (.handler n input)).sys.server.roomManager = rooms at hmove ⊢
    generalize (b.step libc (.handler n input)).sys.server.session = sessions at hmove ⊢
    generalize (b.step libc (.handler n input)).asker = asker at hmove ⊢
    cases hmove with
    | quiet hspares hsame =>
      refine iff_of_true ⟨hentered.congr fun d hactive hstate => ?_, hown⟩ hspares
      exact ⟨(hsame d).active.trans hactive, (hsame d).state.trans hstate, (hsame d).currentRoomId⟩
    | @announced c hn =>
      refine (and_iff_left hown).trans ?_
      rw [handlerSpares_iff hn]
      constructor
      · intro hentered' i hmember
        obtain ⟨d, hd, _, hstate, _⟩ := hentered' i c hmember (by omega)
        obtain rfl : d = c := Fin.ext (by omega)
        rw [Function.update_self] at hstate
        cases hstate
      · intro hunlisted i clientId hmember hne
        obtain ⟨d, rfl, hactive, hstate, hid⟩ := hentered i clientId hmember hne
        have hdc : d ≠ c := by
          intro hsame
          subst hsame
          exact hunlisted i hmember
        exact ⟨d, rfl, by rw [Function.update_of_ne hdc]; exact ⟨hactive, hstate, hid⟩⟩
    | @removed c hn =>
      refine (and_iff_left hown).trans ?_
      rw [handlerSpares_iff hn]
      refine entered_down_iff hentered (fun d hd => ?_) (fun d hd hactive hstate => ?_)
      · rw [if_pos hd]
        rfl
      · rw [if_neg hd]
        exact ⟨hactive, hstate, rfl⟩
    | handed hn hreads hmessage hout =>
      rw [integrity_handed_iff ok hentered hown (freshDraws_handed hfresh hn hreads hmessage) hout,
        handlerSpares_iff hn]
      simp only [HandlerSpares, hreads, hmessage, Option.mem_some_iff, forall_eq']

end Step

theorem membershipIntegrity_start (memory : State) :
    MembershipIntegrity (Blocking.start memory) := by
  refine (membershipIntegrity_iff (RoomsOk.initial memory.roomManager)).mpr ⟨?_, ?_⟩
  · exact entered_start memory
  · exact fun _ _ h => absurd h.1 Bool.false_ne_true

/-- In a run with fresh room ids the tables stay in step exactly when no session is torn down or
announced while a room lists it, and no message enters a room after the session that it came in
for is gone. -/
theorem membershipIntegrity_iff_sparesMembers (libc : Libc) (memory : State)
    (labels : List Label)
    (hfresh : EachStep (Blocking.step libc) (FreshDraws libc) (Blocking.start memory) labels) :
    Always (Blocking.step libc) MembershipIntegrity (Blocking.start memory) labels ↔
      EachStep (Blocking.step libc) SparesMembers (Blocking.start memory) labels := by
  refine always_iff_eachStep (I := fun b => RoomsOk b.sys.server.roomManager)
    (H := FreshDraws libc) (fun b label ok _ hf _ => ok.blocking_step label hf)
    (fun b label ok h hf => ?_) (RoomsOk.initial memory.roomManager)
    (membershipIntegrity_start memory) hfresh
  rw [membershipIntegrity_iff (ok.blocking_step label hf)]
  exact integrity_step_iff ok label hf h.entered h.own

/-- Ann connects, shakes hands and creates a room. -/
def annCreates : List Label :=
  [.accept 5 true true calm,
    .handler 0 ⟨some (Client.synPacket "ann" 7), none, 0, calm⟩,
    .handler 0 ⟨none, none, 100, calm⟩,
    .handler 0 ⟨some (Client.ackPacket "ann" 7 100), none, 0, calm⟩,
    .handler 0 ⟨none, none, 0, calm⟩,
    .handler 0 ⟨none, none, 0, calm⟩,
    .handler 0 ⟨none, some (XorCodec.sealBytes 16 sessionKey
      (CString.ofString "/create den").bytes), 0, calm⟩]

/-- Ann's new nickname does not reach Bob, who is in the lobby and waits: his session is gone
when his handler is given his last message. -/
theorem membershipIntegrity_bystander :
    Always (Blocking.step countingLibc) MembershipIntegrity (Blocking.start zeroedMemory)
      (annCreates ++
        [.accept 6 true true calm,
          .handler 1 ⟨some (Client.synPacket "bob" 8), none, 0, calm⟩,
          .handler 1 ⟨none, none, 200, calm⟩,
          .handler 1 ⟨some (Client.ackPacket "bob" 8 200), none, 0, calm⟩,
          .handler 1 ⟨none, none, 0, calm⟩,
          .handler 1 ⟨none, none, 0, calm⟩,
          .handler 0 ⟨none, none, 0, calm⟩,
          .handler 0 ⟨none, some (XorCodec.sealBytes 16 sessionKey
            (CString.ofString "/nick eve").bytes), 0, { calm with sendFails := fun _ c => c == 1 }⟩,
          .handler 1 ⟨none, some (XorCodec.sealBytes 16 sessionKey
            (CString.ofString "/users").bytes), 0, calm⟩,
          .handler 1 ⟨none, none, 0, calm⟩,
          .handler 1 ⟨none, none, 0, calm⟩]) := by
  refine (membershipIntegrity_iff_sparesMembers _ _ _ ?_).mpr ?_
  · simp only [annCreates, List.cons_append, List.nil_append, eachStep_cons, eachStep_nil, and_true]
    decide +kernel
  · simp only [annCreates, List.cons_append, List.nil_append, eachStep_cons, eachStep_nil, and_true]
    decide +kernel

/-- Ann creates a room and disconnects: the room goes on listing her slot. -/
theorem membershipIntegrity_lost :
    ¬ ∀ (libc : Libc) (memory : State) (labels : List Label),
      Always (Blocking.step libc) MembershipIntegrity (Blocking.start memory) labels := by
  intro h
  have hentered := (h countingLibc zeroedMemory (annCreates ++
    [.handler 0 ⟨none, none, 0, calm⟩, .handler 0 ⟨none, none, 0, calm⟩,
      .handler 0 ⟨none, none, 0, calm⟩])).last.entered
  obtain ⟨c, hc, hactive, _⟩ := hentered 0 0 (by decide +kernel) (by decide)
  have hc0 : c = 0 := Fin.ext (by simpa using hc.symm)
  subst hc0
  exact absurd hactive (by decide +kernel)

end TcpChat.Server

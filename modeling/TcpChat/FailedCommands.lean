import TcpChat.Client.HandshakeProtocol
import TcpChat.Server.HandlerSteps
import TcpChat.Server.OwnRoom
import TcpChat.Server.Sends

/-!
# Commands that fail

`/create` and `/join` take the client out of its room before they know whether they can let it
into another. So a command that fails leaves everything as it was only if there was no room to
leave.
-/

namespace TcpChat.Server

open Base Base.Runs
set_option autoImplicit false

/-- What the two handlers tell the client when they fail. -/
def failureTexts : List CString :=
  ["Invalid room name. Must be 1-63 characters.\n", "Failed to create room. Server may be full.\n",
    "Invalid room ID format.\n", "Room not found or room is full.\n"]

/-- All that client `c` is told, and all that happens on the network, is that it failed. -/
def ReportsFailure (s s' : State) (c : Slot) : Prop :=
  ∃ message ∈ failureTexts, ∃ ok,
    s'.trace = s.trace ++ [.send (s.session c).socketFd (.text message) ok]

/-- The rooms are the same, and the client's session says the same about its room. -/
structure RoomsKept (s s' : State) (c : Slot) : Prop where
  rooms : s'.roomManager = s.roomManager
  state : (s'.session c).state = (s.session c).state
  currentRoomId : (s'.session c).currentRoomId = (s.session c).currentRoomId

/-- If `/create` fails, it changes nothing. -/
def CreateFailsClean (libc : Libc) (env : Env) (s : State) (c : Slot) (roomName : CString) : Prop :=
  ReportsFailure s (chatProtocolHandleCreateRoom libc env s c roomName).1 c →
    RoomsKept s (chatProtocolHandleCreateRoom libc env s c roomName).1 c

/-- If `/join` fails, it changes nothing. -/
def JoinFailsClean (env : Env) (s : State) (c : Slot) (roomId : CString) : Prop :=
  ReportsFailure s (chatProtocolHandleJoinRoom env s c roomId).1 c →
    RoomsKept s (chatProtocolHandleJoinRoom env s c roomId).1 c

section Texts
variable {s s' : State} {c : Slot} {message : CString}

/-- A text that begins like none of the failures, cut to the buffer. -/
theorem take_not_failure (beginning : CString) (hshort : beginning.bytes.length ≤ bufferSize - 1)
    (hother : ∀ text ∈ failureTexts, ¬ beginning.bytes.IsPrefix text.bytes)
    (h : beginning.bytes.IsPrefix message.bytes) :
    message.take (bufferSize - 1) ∉ failureTexts := by
  intro hmem
  apply hother _ hmem
  rw [CString.bytes_take, List.prefix_take_iff]
  exact ⟨h, hshort⟩

theorem not_reportsFailure {fd : Int} {ok : Bool} {es : List Event}
    (htrace : s'.trace = s.trace ++ .send fd (.text message) ok :: es)
    (h : message ∉ failureTexts) : ¬ ReportsFailure s s' c := by
  intro hreports
  obtain ⟨text, htext, _, heq⟩ := hreports
  rw [htrace] at heq
  obtain ⟨hsend, _⟩ := List.cons.inj (List.append_cancel_left heq)
  apply h
  rw [Payload.text.inj (Event.send.inj hsend).2.1]
  exact htext

/-- The command fails, and leaves these rooms behind and every session as it was. -/
structure FailsWith (s s' : State) (c : Slot) (rooms : RoomManager) : Prop where
  reports : ReportsFailure s s' c
  rooms : s'.roomManager = rooms
  session : s'.session = s.session

theorem failsWith_reply {t : State} (htrace : t.trace = s.trace) (hsession : t.session = s.session)
    (fails : Slot → Bool) (hmessage : message ∈ failureTexts) :
    FailsWith s (chatProtocolSendMessageToClient fails t c message).1 c t.roomManager := by
  refine ⟨⟨message, hmessage, !fails c, ?_⟩, rfl, ?_⟩
  · rw [sendMessageToClient_fst, State.trace_emit, htrace, hsession]
  · rw [sendMessageToClient_fst, ← hsession]
    rfl

theorem FailsWith.kept (h : FailsWith s s' c s.roomManager) : RoomsKept s s' c := by
  refine ⟨h.rooms, ?_, ?_⟩
  · rw [h.session]
  · rw [h.session]

theorem FailsWith.kept_iff (ok : TableOk s.roomManager)
    (h : FailsWith s s' c (leaveCurrentRoom s c).roomManager) :
    RoomsKept s s' c ↔ ownRoom s c = none := by
  rw [← leaveCurrentRoom_same_iff ok, ← h.rooms]
  constructor
  · exact RoomsKept.rooms
  · intro hrooms
    refine ⟨hrooms, ?_, ?_⟩
    · rw [h.session]
    · rw [h.session]

/-- When a command that first checks `Valid` and then leaves the room keeps everything. -/
theorem kept_of_failure_iff (ok : TableOk s.roomManager) {Valid Granted : Prop}
    (hinvalid : ¬ Valid → FailsWith s s' c s.roomManager)
    (hrefused : Valid → ¬ Granted → FailsWith s s' c (leaveCurrentRoom s c).roomManager)
    (hgranted : Valid → Granted → ¬ ReportsFailure s s' c) :
    (ReportsFailure s s' c → RoomsKept s s' c) ↔ (¬ Valid ∨ ownRoom s c = none ∨ Granted) := by
  by_cases hvalid : Valid
  · by_cases hgrant : Granted
    · exact iff_of_true (fun h => absurd h (hgranted hvalid hgrant)) (Or.inr (Or.inr hgrant))
    · have hfails := hrefused hvalid hgrant
      rw [← hfails.kept_iff ok]
      constructor
      · intro h
        exact Or.inr (Or.inl (h hfails.reports))
      · intro h _
        rcases h with hnot | hkept | hgrant'
        · exact absurd hvalid hnot
        · exact hkept
        · exact absurd hgrant' hgrant
  · exact iff_of_true (fun _ => (hinvalid hvalid).kept) (Or.inl hvalid)

end Texts

section Handlers
variable {libc : Libc} {env : Env} {s : State} {c : Slot} (ok : TableOk s.roomManager)

theorem failsWith_left (rooms : RoomManager) (fails : Slot → Bool) {message : CString}
    (hmessage : message ∈ failureTexts) :
    FailsWith s (chatProtocolSendMessageToClient fails ((leaveCurrentRoom s c).setRooms rooms) c
      message).1 c rooms := by
  have hfails := failsWith_reply (s := s) (t := (leaveCurrentRoom s c).setRooms rooms) (c := c)
    (trace_leaveCurrentRoom c) (by
      funext d
      rw [State.session_setRooms, session_leaveCurrentRoom]) fails hmessage
  exact hfails

theorem refused_name_iff (roomName : CString) :
    (roomName.length = 0 ∨ roomName.length ≥ maxRoomName) ↔ ¬ ValidRoomName roomName := by
  unfold ValidRoomName
  omega

include ok

theorem createFailsClean_iff (roomName : CString) :
    CreateFailsClean libc env s c roomName ↔
      (¬ ValidRoomName roomName ∨ ownRoom s c = none ∨ CreateGranted s c) := by
  have hleft : TableOk (leaveCurrentRoom s c).roomManager := ok.leaveCurrent
  have hcases := roomManagerCreateRoom_cases hleft.count_eq libc env.now roomName c
  apply kept_of_failure_iff ok
  · intro hinvalid
    unfold chatProtocolHandleCreateRoom
    rw [if_pos ((refused_name_iff roomName).mpr hinvalid)]
    exact failsWith_reply rfl rfl _ (by simp [failureTexts])
  · intro hvalid hgrant
    unfold chatProtocolHandleCreateRoom
    rw [if_neg ((refused_name_iff roomName).not.mpr (not_not.mpr hvalid))]
    dsimp only
    rcases hcases with ⟨hlt, _⟩ | ⟨_, heq⟩
    · exact absurd ((roomCount_left_lt_iff ok).mp hlt) hgrant
    · rw [heq]
      exact failsWith_left _ _ (by simp [failureTexts])
  · intro hvalid hgrant
    unfold chatProtocolHandleCreateRoom
    rw [if_neg ((refused_name_iff roomName).not.mpr (not_not.mpr hvalid))]
    dsimp only
    rcases hcases with ⟨_, i, _, _, heq⟩ | ⟨hfull, _⟩
    · rw [heq]
      apply not_reportsFailure
      · dsimp only
        rw [sendMessageToClient_fst, State.trace_emit, State.trace_setSession,
          State.trace_setRooms, trace_leaveCurrentRoom]
      · apply take_not_failure "Room created"
        · decide
        · decide
        · repeat' apply List.prefix_append_of_prefix
          decide
    · exact absurd ((roomCount_left_lt_iff ok).mpr hgrant) (by omega)

theorem joinFailsClean_iff (roomId : CString) :
    JoinFailsClean env s c roomId ↔
      (¬ roomId.length = roomIdLength ∨ ownRoom s c = none ∨ JoinGranted s c roomId) := by
  have hleft : TableOk (leaveCurrentRoom s c).roomManager := ok.leaveCurrent
  have hcases := roomManagerJoinRoom_cases hleft roomId c
  rw [← joinGranted_iff ok]
  apply kept_of_failure_iff ok
  · intro hinvalid
    unfold chatProtocolHandleJoinRoom
    rw [if_pos hinvalid]
    exact failsWith_reply rfl rfl _ (by simp [failureTexts])
  · intro hvalid hgrant
    unfold chatProtocolHandleJoinRoom
    rw [if_neg (not_not.mpr hvalid)]
    dsimp only
    rcases hcases with ⟨i, hi, _, hnew, hroom, _⟩ | ⟨_, heq⟩
    · exact absurd ⟨i, hi, hnew, hroom⟩ hgrant
    · rw [heq]
      dsimp only
      rw [if_pos (by omega)]
      exact failsWith_left _ _ (by simp [failureTexts])
  · intro hvalid hgrant
    unfold chatProtocolHandleJoinRoom
    rw [if_neg (not_not.mpr hvalid)]
    dsimp only
    rcases hcases with ⟨_, _, _, _, _, j, _, heq⟩ | ⟨hwhy, _⟩
    · rw [heq]
      dsimp only
      rw [if_neg (by omega), roomManagerBroadcastToRoom_fst]
      have hbegins : ∀ successMsg : CString, (CString.ofString "Joined room").bytes.IsPrefix
          successMsg.bytes → successMsg.take (bufferSize - 1) ∉ failureTexts := by
        intro successMsg hprefix
        exact take_not_failure "Joined room" (by decide) (by decide) hprefix
      apply not_reportsFailure
      · rw [State.trace_emit, sendMessageToClient_fst, State.trace_emit, State.trace_setSession,
          State.trace_setRooms, trace_leaveCurrentRoom, List.append_assoc, List.singleton_append]
      · apply hbegins
        split
        all_goals
          repeat' apply List.prefix_append_of_prefix
          decide
    · obtain ⟨i, hi, hnew, hroom⟩ := hgrant
      rcases hwhy i hi with hneg | hlists | hfull
      · omega
      · exact absurd hlists hnew
      · omega

end Handlers

section Reachable
variable {libc : Libc} {s : State} {sys : System}

theorem TableOk.handler_step (ok : TableOk s.roomManager) (handler : Handler) (input : Input) :
    TableOk (handler.step libc s input).1.roomManager := by
  have heffect := Handler.effect libc s handler input
  generalize (handler.step libc s input).1 = s' at heffect ⊢
  have hreceived : TableOk
      (clientSessionReceiveMessage s handler.slot input.chunk).1.roomManager := by
    rw [roomManager_receiveMessage]
    exact ok
  cases heffect with
  | nothing => exact ok
  | write _ _ _ => exact ok
  | receive => exact hreceived
  | serve _ => exact hreceived.outcome (outcome_perform libc input.env _ _ _)
  | remove =>
    rw [roomManager_remove]
    exact ok

theorem TableOk.system_step (ok : TableOk sys.server.roomManager) (label : Label) :
    TableOk (sys.step libc label).server.roomManager := by
  refine System.step_server (P := fun s => TableOk s.roomManager) label ok ?_ ?_
  · intro clientSocket created started env _ _
    rcases sys.accept_cases clientSocket created started env with
      ⟨_, heq, _, hrooms, _⟩ | ⟨_, i, _, heq⟩
    · rw [heq]
      dsimp only
      rw [hrooms]
      exact ok
    · rw [heq]
      dsimp only
      split
      · exact ok
      · rw [roomManager_remove]
        exact ok
  · intro _ handler input _
    exact ok.handler_step handler input

end Reachable

/-- Whatever has happened before, a command of a client leaves everything as it was when it
fails exactly if its argument is refused at once, if the client is in no room it would leave, or
if the command is granted. -/
theorem failsClean_iff (libc : Libc) (memory : State) (labels : List Label) :
    Always (System.step libc)
      (fun sys => ∀ env c,
        (∀ roomName, CreateFailsClean libc env sys.server c roomName ↔
          (¬ ValidRoomName roomName ∨ ownRoom sys.server c = none ∨
            CreateGranted sys.server c)) ∧
        ∀ roomId, JoinFailsClean env sys.server c roomId ↔
          (¬ roomId.length = roomIdLength ∨ ownRoom sys.server c = none ∨
            JoinGranted sys.server c roomId))
      (System.start memory) labels := by
  have htable : Always (System.step libc) (fun sys => TableOk sys.server.roomManager)
      (System.start memory) labels := by
    apply always_of_invariant
    · exact fun _ label ok => ok.system_step label
    · exact TableOk.initial memory.roomManager
  refine htable.imp ?_
  intro sys ok env c
  exact ⟨createFailsClean_iff ok, joinFailsClean_iff ok⟩

/-- Ann is alone in a room and asks for one that does not exist: her own room is closed. -/
theorem failed_join_closes_room :
    ¬ ∀ (libc : Libc) (memory : State) (labels : List Label),
      Always (System.step libc)
        (fun sys => ∀ env c, (∀ roomName, CreateFailsClean libc env sys.server c roomName) ∧
          ∀ roomId, JoinFailsClean env sys.server c roomId)
        (System.start memory) labels := by
  intro h
  have hclean := ((h countingLibc zeroedMemory
    [.accept 5 true true calm,
      .handler 0 ⟨some (Client.synPacket "ann" 7), none, 0, calm⟩,
      .handler 0 ⟨none, none, 100, calm⟩,
      .handler 0 ⟨some (Client.ackPacket "ann" 7 100), none, 0, calm⟩,
      .handler 0 ⟨none, none, 0, calm⟩,
      .handler 0 ⟨none, some (XorCodec.sealBytes 16 sessionKey
        (CString.ofString "/create den").bytes), 0, calm⟩]).last calm 0).2 "ZZZZZZ"
  have hkept := hclean ⟨"Room not found or room is full.\n", by simp [failureTexts], true,
    by decide +kernel⟩
  have hcount := congrArg RoomManager.roomCount hkept.rooms
  exact absurd hcount (by decide +kernel)

end TcpChat.Server

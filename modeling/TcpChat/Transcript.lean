import TcpChat.Base.Runs
import TcpChat.Client.Main
import TcpChat.E2eCapacity

/-!
# What is typed is what is sent

The texts that leave the client are a function of what is typed: the receiver thread has no say in
them. An end-to-end message does not leave at all, since no frame takes it.
-/

namespace TcpChat.Client

open Base Base.Runs Base.LineReader
open KeyDelivery (keyMessage sendMessage_of_connected length_keyMessage)
open Framing (sentFrames)
set_option autoImplicit false

/-- What is sent for a line, and where the program goes on, as long as the connection is there. -/
def Phase.take (keyLine : CString) : Phase → CString → List CString × Phase
  | .selecting, line =>
    if line.length = 0 then ([], .selecting)
    else if line = "/quit" then ([], .ended)
    else ([line], if entersRoom line then .chatting else .selecting)
  | .chatting, line =>
    match chatCommand line with
    | .quit => ([], .ended)
    | .say message => ([message], .chatting)
    | .keyRefresh => ([keyLine], .chatting)
    | .e2e _ _ | .e2eUsage | .help | .peers | .nothing => ([], .chatting)
  | .ended, _ => ([], .ended)

/-- The texts that are sent for the lines, in order. -/
def transcript (keyLine : CString) : Phase → List CString → List CString
  | _, [] => []
  | phase, line :: lines =>
    (phase.take keyLine line).1 ++ transcript keyLine (phase.take keyLine line).2 lines

/-- A line that `fgets` reads in one piece. -/
def IsLine (line : CString) : Prop := line.length < bufferSize - 1 ∧ 10 ∉ line.bytes

instance (line : CString) : Decidable (IsLine line) := inferInstanceAs (Decidable (_ ∧ _))

/-- The input that has these lines. -/
def typed (lines : List CString) : List UInt8 := (lines.map CString.bytes).flatMap (· ++ [10])

/-- The line that is read and the lines still to be read. -/
def Terminal.pending (t : Terminal) : List CString := t.held.toList ++ typedLines t.input

/-- The texts that are still to be sent. -/
def Terminal.owed (t : Terminal) : List CString :=
  transcript (keyMessage t.client.e2eCtx) t.phase t.pending

/-- What has been sent, and behind it the frames of `texts`. -/
def Terminal.sending (t : Terminal) (texts : List CString) : List (List UInt8) :=
  t.frames ++ sentFrames t.client.securityCtx.encCtx texts

/-- Nothing ends the connection or breaks off a send. -/
def TerminalLabel.Untroubled : TerminalLabel → Prop
  | .read => True
  | .handle sends _ _ => sends = true
  | .receive received => received ≠ .closed ∧ received ≠ .failed
  | .interrupt => False

theorem said_of_say {line message : CString} (h : chatCommand line = .say message) :
    message = line := by
  unfold chatCommand at h
  grind

section Typed
variable {input piece : List UInt8} {line : CString}

theorem transcript_ended (keyLine : CString) (lines : List CString) :
    transcript keyLine .ended lines = [] := by
  induction lines with
  | nil => rfl
  | cons line lines ih => exact ih

@[simp] theorem typedLines_nil : typedLines [] = [] := by
  rw [typedLines, pieces_nil, List.map_nil]

theorem typedLines_of_ne_nil (h : input ≠ []) :
    typedLines input =
      typedLine (readLine (· == 10) (bufferSize - 1) input).1 ::
        typedLines (readLine (· == 10) (bufferSize - 1) input).2 := by
  rw [typedLines, pieces_of_ne_nil (by decide) h, List.map_cons]
  rfl

theorem length_typedLine_le (piece : List UInt8) : (typedLine piece).length ≤ piece.length := by
  have hbuffer : (CString.ofBuffer piece).length ≤ piece.length :=
    (List.takeWhile_prefix _).length_le
  unfold typedLine
  dsimp only
  split
  · rw [CString.length_take]
    omega
  · exact hbuffer

/-- No line is longer than the buffer. -/
theorem length_of_mem_typedLines (h : line ∈ typedLines input) : line.length ≤ 1023 := by
  obtain ⟨piece, hpiece, rfl⟩ := List.mem_map.mp h
  exact Nat.le_trans (length_typedLine_le piece) (length_of_mem_pieces hpiece)

theorem typedLine_bytes (line : CString) : typedLine (line.bytes ++ [10]) = line := by
  have hbuffer : CString.ofBuffer (line.bytes ++ [10]) = line ++ "\n" := by
    rw [CString.ofBuffer_append]
    rfl
  have hnewline : (line ++ "\n" : CString).bytes = line.bytes ++ [10] := by
    rw [CString.bytes_append]
    rfl
  have hlength : (line ++ "\n" : CString).length = line.length + 1 := by
    rw [CString.length_append]
    rfl
  unfold typedLine
  rw [hbuffer]
  dsimp only
  rw [if_pos ⟨by rw [hlength]; exact Nat.succ_pos _, by rw [hnewline]; exact List.getLast?_concat⟩,
    hlength]
  ext1
  rw [CString.bytes_take, hnewline]
  exact List.take_left' rfl

/-- Lines that fit are handled as they are typed. -/
theorem typedLines_typed {lines : List CString} (h : ∀ line ∈ lines, IsLine line) :
    typedLines (typed lines) = lines := by
  rw [typedLines, typed, pieces_lines (by decide), List.map_map, List.map_map]
  · have hid : (typedLine ∘ (· ++ [10])) ∘ CString.bytes = id := by
      funext line
      exact typedLine_bytes line
    rw [hid, List.map_id]
  · intro bytes hbytes
    obtain ⟨line, hline, rfl⟩ := List.mem_map.mp hbytes
    obtain ⟨hlength, hnewline⟩ := h line hline
    refine ⟨hlength, fun b hb => ?_⟩
    have hne : b ≠ 10 := by
      intro heq
      exact hnewline (heq ▸ hb)
    simpa using hne

end Typed

section Sends
variable {client : ClientT} {message recipientNickname : CString} {random : Nat → UInt8}
  {memory : E2eEncryptedPacket} {sends : Bool}

theorem sentFrames_cons (encCtx : EncryptionContext) (message : CString)
    (messages : List CString) :
    sentFrames encCtx (message :: messages) =
      (Framing.clientSendMessage encCtx message).1.toList ++
        sentFrames (Framing.clientSendMessage encCtx message).2 messages := by
  rw [sentFrames]
  cases Framing.clientSendMessage encCtx message with
  | mk frame encCtx' => cases frame <;> rfl

theorem sendMessage_of_not_connected (h : client.connected = false) :
    clientSendMessage client message sends = ⟨client, none, -1⟩ := by
  rw [clientSendMessage, if_pos (by simp [h])]

theorem broadcast_eq_sendMessage (client : ClientT) (sends : Bool) :
    clientBroadcastPublicKey client sends =
      clientSendMessage client (keyMessage client.e2eCtx) sends := by
  rw [clientBroadcastPublicKey]
  split
  · rename_i h
    rw [sendMessage_of_not_connected (by simpa using h)]
  · rfl

/-- The context is not advanced for a message that it has no room for. -/
theorem client_sendE2eMessage :
    (clientSendE2eMessage client message recipientNickname random memory sends).client =
      client := by
  have hline : ∀ packet, (clientSendMessage client (E2eCapacity.e2eLine packet) sends).client =
      client := by
    intro packet
    have hroom : (UInt64.ofNat (bufferSize * 2)).toNat <
        ((E2eCapacity.e2eLine packet).bytes.length + 16) % 2 ^ 64 := by
      have hlength : (E2eCapacity.e2eLine packet).bytes.length = 2200 :=
        E2eCapacity.length_e2eLine packet
      rw [hlength]
      decide
    rw [clientSendMessage, encryptData, if_pos hroom]
    split
    · rfl
    · rw [if_neg (by simp)]
      rfl
  rw [clientSendE2eMessage]
  split
  · rfl
  · split
    · rfl
    · split
      · rfl
      · exact hline _

/-- A frame is made of every text that is not longer than a line. -/
theorem isSome_sendMessage (encCtx : EncryptionContext) (h : message.length ≤ 1023) :
    (Framing.clientSendMessage encCtx message).1.isSome = true := by
  have hroom : message.bytes.length + 16 ≤ (2048 : UInt64).toNat := by
    change message.length + 16 ≤ 2048
    omega
  rw [Framing.clientSendMessage, encryptData_fst hroom, Option.isSome_some]

end Sends

section Receive
variable {client : ClientT} {received : Received}

/-- The receiver thread leaves alone what the sends depend on, up to the connection. -/
theorem messageReceiverTurn_keeps (client : ClientT) (received : Received) :
    (messageReceiverTurn client received).client.securityCtx = client.securityCtx ∧
      keyMessage (messageReceiverTurn client received).client.e2eCtx =
        keyMessage client.e2eCtx ∧
      ((messageReceiverTurn client received).client.connected = true →
        client.connected = true) := by
  have hkey : ∀ packet,
      (clientHandleKeyExchange client packet).1.securityCtx = client.securityCtx ∧
      keyMessage (clientHandleKeyExchange client packet).1.e2eCtx = keyMessage client.e2eCtx ∧
      ((clientHandleKeyExchange client packet).1.connected = true → client.connected = true) := by
    intro packet
    by_cases h : TakesKey client packet
    · obtain ⟨i, _, _, heq⟩ := handleKeyExchange_taken h
      rw [heq]
      exact ⟨rfl, rfl, id⟩
    · rw [handleKeyExchange_not_taken h]
      exact ⟨rfl, rfl, id⟩
  unfold messageReceiverTurn
  split
  · exact ⟨rfl, rfl, id⟩
  · cases received with
    | bytes bytes =>
      dsimp only
      split
      · split
        · exact ⟨rfl, rfl, id⟩
        · exact hkey _
      · split <;> exact ⟨rfl, rfl, id⟩
    | closed | failed => exact ⟨rfl, rfl, Bool.noConfusion⟩
    | timedOut => exact ⟨rfl, rfl, id⟩

/-- The connection stays until the server ends it or a `recv` fails. -/
theorem connected_messageReceiverTurn (h : received ≠ .closed ∧ received ≠ .failed) :
    (messageReceiverTurn client received).client.connected = client.connected := by
  have hkey : ∀ packet,
      (clientHandleKeyExchange client packet).1.connected = client.connected := by
    intro packet
    unfold clientHandleKeyExchange
    split <;> rfl
  unfold messageReceiverTurn
  split
  · rfl
  · cases received with
    | bytes bytes =>
      dsimp only
      split
      · split
        · rfl
        · exact hkey _
      · split <;> rfl
    | closed => exact absurd rfl h.1
    | failed => exact absurd rfl h.2
    | timedOut => rfl

end Receive

namespace Terminal
variable {t : Terminal} {line : CString} {sends : Bool} {random : Nat → UInt8}
  {memory : E2eEncryptedPacket} {texts : List CString}

@[simp] theorem sending_print (printed : List Printed) :
    (t.print printed).sending texts = t.sending texts := rfl

@[simp] theorem phase_finish : t.finish.phase = .ended := rfl

@[simp] theorem frames_finish : t.finish.frames = t.frames := rfl

@[simp] theorem connected_finish : t.finish.client.connected = false := rfl

@[simp] theorem farewell_finish : t.finish.farewell = none := rfl

@[simp] theorem sending_nil : t.sending [] = t.frames := List.append_nil _

theorem owed_of_ended (h : t.phase = .ended) : t.owed = [] := by
  rw [owed, h, transcript_ended]

/-- A text that is put on the wire is the first of those to be sent. -/
theorem sending_put (h : t.client.connected = true) (message : CString) (sends : Bool)
    (texts : List CString) :
    (t.put (clientSendMessage t.client message sends)).sending texts =
      t.sending (message :: texts) := by
  obtain ⟨hframe, hclient, _⟩ := sendMessage_of_connected h message sends
  rw [sending, sending, sentFrames_cons, put, hframe, hclient, List.append_assoc]
  rfl

theorem put_e2e (message recipient : CString) :
    t.put (clientSendE2eMessage t.client message recipient random memory sends) = t := by
  rw [put, client_sendE2eMessage,
    (E2eCapacity.send_e2e_fails t.client message recipient random memory sends).2]
  exact congrArg (fun frames => { t with frames := frames }) (List.append_nil _)

theorem put_of_not_connected (h : t.client.connected = false) (message : CString) :
    t.put (clientSendMessage t.client message sends) = t := by
  rw [put, sendMessage_of_not_connected h]
  exact congrArg (fun frames => { t with frames := frames }) (List.append_nil _)

theorem handle_selecting (hheld : t.held = some line) (hphase : t.phase = .selecting) :
    t.handle sends random memory = t.taken.select line sends := by
  simp only [handle, hheld, hphase]

theorem handle_chatting (hheld : t.held = some line) (hphase : t.phase = .chatting) :
    t.handle sends random memory = t.taken.chat line sends random memory := by
  simp only [handle, hheld, hphase]

theorem handle_ended (hheld : t.held = some line) (hphase : t.phase = .ended) :
    t.handle sends random memory = t.taken := by
  simp only [handle, hheld, hphase]

/-- From `t` to `t'` the frames of `texts` are sent, and the program goes on in `next`. -/
structure Goes (t t' : Terminal) (texts : List CString) (next : Phase) : Prop where
  phase : t'.phase = next
  input : t'.input = t.input
  held : t'.held = t.held
  farewell : t.farewell = none → t'.farewell = none
  keyLine : keyMessage t'.client.e2eCtx = keyMessage t.client.e2eCtx
  sending : ∀ rest, t'.sending rest = t.sending (texts ++ rest)
  connected : t'.client.connected = decide (next ≠ .ended)

theorem goes_finish (t : Terminal) : Goes t t.finish [] .ended :=
  ⟨rfl, rfl, rfl, fun _ => rfl, rfl, fun _ => rfl, rfl⟩

section Connected
variable (hconnected : t.client.connected = true)
include hconnected

theorem goes_print (hphase : t.phase ≠ .ended) (printed : List Printed) :
    Goes t (t.print printed) [] t.phase :=
  ⟨rfl, rfl, rfl, id, rfl, fun _ => rfl, hconnected.trans (decide_eq_true hphase).symm⟩

/-- A text is on the wire, and the program goes on in `next`. -/
theorem goes_put {next : Phase} (hnext : next ≠ .ended) (message : CString) (sends : Bool) :
    Goes t { t.put (clientSendMessage t.client message sends) with phase := next }
      [message] next := by
  obtain ⟨_, hclient, _⟩ := sendMessage_of_connected hconnected message sends
  refine ⟨rfl, rfl, rfl, id, ?_, sending_put hconnected message sends, ?_⟩
  · rw [put, hclient]
    rfl
  · rw [put, hclient]
    exact hconnected.trans (decide_eq_true hnext).symm

/-- A text is on the wire, and the program ends over it. -/
theorem goes_put_finish (message : CString) (sends : Bool) :
    Goes t (t.put (clientSendMessage t.client message sends)).finish [message] .ended := by
  obtain ⟨_, hclient, _⟩ := sendMessage_of_connected hconnected message sends
  refine ⟨rfl, rfl, rfl, fun _ => rfl, ?_, sending_put hconnected message sends, rfl⟩
  rw [finish, put, hclient]
  rfl

/-- A line of the room selection is sent, or ends the program when it cannot be. -/
theorem goes_select (hphase : t.phase = .selecting) (line : CString) (sends : Bool)
    (keyLine : CString) :
    ∃ next, Goes t (t.select line sends) (Phase.take keyLine .selecting line).1 next ∧
      (next = (Phase.take keyLine .selecting line).2 ∨ next = .ended ∧
        ∃ message ∈ (Phase.take keyLine .selecting line).1,
          (clientSendMessage t.client message sends).result < 0) := by
  have hselecting : t.phase ≠ .ended := by
    rw [hphase]
    decide
  rw [select, Phase.take]
  by_cases hempty : line.length = 0
  · rw [if_pos hempty, if_pos hempty]
    exact ⟨.selecting, hphase ▸ goes_print hconnected hselecting _, Or.inl rfl⟩
  · rw [if_neg hempty, if_neg hempty]
    by_cases hquit : line = "/quit"
    · rw [if_pos hquit, if_pos hquit]
      exact ⟨.ended, goes_finish t, Or.inl rfl⟩
    · rw [if_neg hquit, if_neg hquit]
      dsimp only
      by_cases hresult : (clientSendMessage t.client line sends).result < 0
      · rw [if_pos hresult]
        exact ⟨.ended, goes_put_finish hconnected line sends, 
          Or.inr ⟨rfl, line, List.mem_singleton_self line, hresult⟩⟩
      · rw [if_neg hresult]
        have hput : ∀ next ≠ Phase.ended, ∀ printed,
            Goes t ({ t.put (clientSendMessage t.client line sends) with
              phase := next }.print printed) [line] next := by
          intro next hnext printed
          have hgoes := goes_put hconnected hnext line sends
          exact ⟨rfl, rfl, rfl, id, hgoes.keyLine, hgoes.sending, hgoes.connected⟩
        cases hroom : entersRoom line with
        | true => exact ⟨.chatting, hput .chatting (by decide) _, Or.inl rfl⟩
        | false =>
          have hstay : t.put (clientSendMessage t.client line sends) =
              { t.put (clientSendMessage t.client line sends) with phase := .selecting } := by
            rw [put, hphase]
          refine ⟨.selecting, ?_, Or.inl rfl⟩
          rw [if_neg Bool.false_ne_true, hstay]
          split
          · exact hput .selecting (by decide) _
          · exact hput .selecting (by decide) _

theorem goes_chat (hphase : t.phase = .chatting) (line : CString) (sends : Bool)
    (random : Nat → UInt8) (memory : E2eEncryptedPacket) :
    ∃ next, Goes t (t.chat line sends random memory)
        (Phase.take (keyMessage t.client.e2eCtx) .chatting line).1 next ∧
      (next = (Phase.take (keyMessage t.client.e2eCtx) .chatting line).2 ∨ next = .ended ∧
        ∃ message ∈ (Phase.take (keyMessage t.client.e2eCtx) .chatting line).1,
          (clientSendMessage t.client message sends).result < 0) := by
  have hchatting : t.phase ≠ .ended := by
    rw [hphase]
    decide
  have hprint : ∀ printed, Goes t (t.print printed) [] .chatting := fun printed =>
    hphase ▸ goes_print hconnected hchatting printed
  have hput : ∀ message, Goes t (t.put (clientSendMessage t.client message sends)) [message]
      .chatting := by
    intro message
    have hnext : Phase.chatting ≠ .ended := by decide
    have hgoes := goes_put hconnected hnext message sends
    exact ⟨hphase, rfl, rfl, id, hgoes.keyLine, hgoes.sending, hgoes.connected⟩
  rw [chat, Phase.take]
  cases hcommand : chatCommand line with
  | quit => exact ⟨.ended, goes_finish t, Or.inl rfl⟩
  | e2e recipient message =>
    dsimp only
    rw [put_e2e]
    exact ⟨.chatting, hprint _, Or.inl rfl⟩
  | e2eUsage | help | peers => exact ⟨.chatting, hprint _, Or.inl rfl⟩
  | nothing =>
    exact ⟨.chatting, ⟨hphase, rfl, rfl, id, rfl, fun _ => rfl, hconnected⟩, Or.inl rfl⟩
  | keyRefresh =>
    dsimp only
    rw [broadcast_eq_sendMessage]
    have hgoes := hput (keyMessage t.client.e2eCtx)
    exact ⟨.chatting, ⟨hgoes.phase, rfl, rfl, id, hgoes.keyLine, hgoes.sending,
      hgoes.connected⟩, Or.inl rfl⟩
  | say message =>
    dsimp only
    rw [if_pos hconnected]
    by_cases hresult : (clientSendMessage t.client message sends).result < 0
    · rw [if_pos hresult]
      exact ⟨.ended, goes_put_finish hconnected message sends,
        Or.inr ⟨rfl, message, List.mem_singleton_self message, hresult⟩⟩
    · rw [if_neg hresult]
      exact ⟨.chatting, hput message, Or.inl rfl⟩

/-- A line that has been read is taken as `Phase.take` says, unless a send breaks the program
off. -/
theorem goes_handle (hphase : t.phase ≠ .ended) (hheld : t.held = some line) :
    ∃ next, Goes t.taken (t.handle sends random memory)
        (t.phase.take (keyMessage t.client.e2eCtx) line).1 next ∧
      (next = (t.phase.take (keyMessage t.client.e2eCtx) line).2 ∨ next = .ended ∧
        ∃ message ∈ (t.phase.take (keyMessage t.client.e2eCtx) line).1,
          (clientSendMessage t.client message sends).result < 0) := by
  cases hcase : t.phase with
  | selecting =>
    rw [handle_selecting hheld hcase]
    exact @goes_select t.taken hconnected hcase line sends _
  | chatting =>
    rw [handle_chatting hheld hcase]
    exact @goes_chat t.taken hconnected hcase line sends random memory
  | ended => exact absurd hcase hphase

end Connected

section NotConnected
variable (h : t.client.connected = false)
include h

theorem select_of_not_connected (line : CString) :
    (t.select line sends).frames = t.frames ∧
      (t.select line sends).client.connected = false := by
  rw [select]
  split
  · exact ⟨rfl, h⟩
  · split
    · exact ⟨rfl, rfl⟩
    · dsimp only
      rw [sendMessage_of_not_connected h]
      exact ⟨List.append_nil _, rfl⟩

theorem chat_of_not_connected (line : CString) :
    (t.chat line sends random memory).frames = t.frames ∧
      (t.chat line sends random memory).client.connected = false := by
  rw [chat]
  cases chatCommand line with
  | quit => exact ⟨rfl, rfl⟩
  | e2e recipient message =>
    dsimp only
    rw [put_e2e]
    exact ⟨rfl, h⟩
  | e2eUsage | help | peers | nothing => exact ⟨rfl, h⟩
  | keyRefresh =>
    dsimp only
    rw [broadcast_eq_sendMessage, put_of_not_connected h]
    exact ⟨rfl, h⟩
  | say message =>
    dsimp only
    rw [if_neg (by simp [h])]
    exact ⟨rfl, rfl⟩

/-- Without a connection nothing is sent. -/
theorem handle_of_not_connected :
    (t.handle sends random memory).frames = t.frames ∧
      (t.handle sends random memory).client.connected = false := by
  cases hheld : t.held with
  | none =>
    rw [handle, hheld]
    exact ⟨rfl, h⟩
  | some line =>
    cases hphase : t.phase with
    | selecting =>
      rw [handle_selecting hheld hphase]
      exact @select_of_not_connected t.taken sends h line
    | chatting =>
      rw [handle_chatting hheld hphase]
      exact @chat_of_not_connected t.taken sends random memory h line
    | ended =>
      rw [handle_ended hheld hphase]
      exact ⟨rfl, h⟩

end NotConnected

theorem fgets_nil (h : t.input = []) : t.fgets = t.finish := by
  rw [fgets, h]

theorem fgets_of_ne_nil (h : t.input ≠ []) :
    t.fgets = { t with
      held := some (typedLine (readLine (· == 10) (bufferSize - 1) t.input).1)
      input := (readLine (· == 10) (bufferSize - 1) t.input).2 } := by
  unfold fgets
  split
  · contradiction
  · rfl

theorem pending_fgets (hheld : t.held = none) (h : t.input ≠ []) :
    t.fgets.pending = t.pending := by
  rw [fgets_of_ne_nil h, pending, pending, hheld, typedLines_of_ne_nil h]
  rfl

/-- Reading a line, or the end of the input, changes nothing about what is to be sent. -/
theorem sending_fgets (hheld : t.held = none) : t.fgets.sending t.fgets.owed = t.sending t.owed := by
  by_cases h : t.input = []
  · have hpending : t.pending = [] := by
      rw [pending, hheld, h, typedLines_nil]
      rfl
    rw [fgets_nil h, owed_of_ended phase_finish, owed, hpending]
    rfl
  · rw [owed, pending_fgets hheld h, fgets_of_ne_nil h]
    rfl

/-- What has been sent is the start of `total`, and with the connection there the rest follows. -/
structure Sound (total : List (List UInt8)) (t : Terminal) : Prop where
  sent : t.frames <+: total
  ended : t.phase = .ended → t.client.connected = false
  rest : t.client.connected = true → t.sending t.owed = total

/-- All of `total` is sent or will be. -/
structure Whole (total : List (List UInt8)) (t : Terminal) : Prop where
  rest : t.sending t.owed = total
  connected : t.phase ≠ .ended → t.client.connected = true
  short : ∀ line ∈ t.pending, line.length ≤ 1023

section Steps
variable {total : List (List UInt8)}

theorem frames_prefix_sending (texts : List CString) : t.frames <+: t.sending texts :=
  List.prefix_append _ _

theorem pending_of_held (h : t.held = some line) : t.pending = line :: t.taken.pending := by
  rw [pending, h]
  rfl

/-- The frames of what is owed, cut behind the line that is handled. -/
theorem sending_owed_of_held (h : t.held = some line) :
    t.sending t.owed = t.taken.sending
      ((t.phase.take (keyMessage t.client.e2eCtx) line).1 ++ transcript (keyMessage t.client.e2eCtx)
        (t.phase.take (keyMessage t.client.e2eCtx) line).2 t.taken.pending) := by
  rw [owed, pending_of_held h]
  rfl

/-- After the line that was handled the program owes what the transcript goes on with. -/
theorem Goes.owed {t' : Terminal} {next : Phase} (h : Goes t.taken t' texts next) :
    t'.owed = transcript (keyMessage t.client.e2eCtx) next t.taken.pending := by
  have hpending : t'.pending = t.taken.pending := by
    rw [pending, pending, h.held, h.input]
  rw [Terminal.owed, h.keyLine, h.phase, hpending]
  rfl

theorem sound_finish (h : t.frames <+: total) : Sound total t.finish :=
  ⟨h, fun _ => rfl, Bool.noConfusion⟩

theorem sound_fgets (h : Sound total t) (hheld : t.held = none) : Sound total t.fgets := by
  by_cases hinput : t.input = []
  · rw [fgets_nil hinput]
    exact sound_finish h.sent
  · have hsending := sending_fgets hheld
    rw [fgets_of_ne_nil hinput] at hsending ⊢
    exact ⟨h.sent, h.ended, fun hconnected => hsending.trans (h.rest hconnected)⟩

theorem sound_handle (h : Sound total t) (sends : Bool) (random : Nat → UInt8)
    (memory : E2eEncryptedPacket) : Sound total (t.handle sends random memory) := by
  cases hconnected : t.client.connected with
  | false =>
    obtain ⟨hframes, hafter⟩ := @handle_of_not_connected t sends random memory hconnected
    refine ⟨hframes ▸ h.sent, fun _ => hafter, fun hup => ?_⟩
    rw [hafter] at hup
    cases hup
  | true =>
    have hphase : t.phase ≠ .ended := by
      intro hended
      rw [h.ended hended] at hconnected
      cases hconnected
    cases hheld : t.held with
    | none =>
      rw [handle, hheld]
      exact h
    | some line =>
      obtain ⟨next, hgoes, hnext⟩ :=
        @goes_handle t line sends random memory hconnected hphase hheld
      have htotal := h.rest hconnected
      rw [sending_owed_of_held hheld, ← hgoes.sending] at htotal
      refine ⟨htotal ▸ frames_prefix_sending _, fun hended => ?_, fun hup => ?_⟩
      · rw [hgoes.connected, ← hgoes.phase, hended]
        rfl
      · rw [hgoes.connected] at hup
        have hsame := hnext.resolve_right fun hbroken => of_decide_eq_true hup hbroken.1
        rw [hgoes.owed, hsame]
        exact htotal

/-- Whatever the threads do, the frames are the start of what is typed. -/
theorem Sound.step (h : Sound total t) (label : TerminalLabel) : Sound total (t.step label) := by
  cases label with
  | read =>
    rw [Terminal.step, read]
    split
    · exact h
    · rename_i hnone
      have hheld : t.held = none := by simpa using hnone
      split
      · split
        · exact sound_fgets h hheld
        · exact sound_finish h.sent
      · exact sound_fgets h hheld
      · exact h
  | handle sends random memory => exact sound_handle h sends random memory
  | receive received =>
    obtain ⟨hcontext, hkey, hup⟩ := messageReceiverTurn_keeps t.client received
    refine ⟨h.sent, fun hended => ?_, fun hconnected => ?_⟩
    · exact Bool.eq_false_iff.mpr fun hafter =>
        absurd (hup hafter) (by rw [h.ended hended]; decide)
    · have hrest := h.rest (hup hconnected)
      rw [sending, owed] at hrest ⊢
      rw [Terminal.step, ← hrest]
      dsimp only
      rw [hcontext, hkey]
      rfl
  | interrupt =>
    rw [Terminal.step, interrupt]
    split
    · exact h
    · exact ⟨h.sent, fun _ => rfl, Bool.noConfusion⟩

theorem length_of_mem_take {keyLine message : CString} {phase : Phase}
    (hkey : keyLine.length ≤ 1023) (hline : line.length ≤ 1023)
    (h : message ∈ (phase.take keyLine line).1) : message.length ≤ 1023 := by
  cases phase with
  | selecting =>
    rw [Phase.take] at h
    split at h
    · cases h
    · split at h
      · cases h
      · rw [List.mem_singleton.mp h]
        exact hline
  | chatting =>
    rw [Phase.take] at h
    cases hcommand : chatCommand line with
    | say said =>
      rw [hcommand] at h
      rw [List.mem_singleton.mp h, said_of_say hcommand]
      exact hline
    | keyRefresh =>
      rw [hcommand] at h
      rw [List.mem_singleton.mp h]
      exact hkey
    | quit | e2e | e2eUsage | help | peers | nothing =>
      rw [hcommand] at h
      cases h
  | ended => cases h

theorem whole_handle (h : Whole total t) (random : Nat → UInt8) (memory : E2eEncryptedPacket) :
    Whole total (t.handle true random memory) := by
  cases hheld : t.held with
  | none =>
    rw [handle, hheld]
    exact h
  | some line =>
    have hshort := h.short
    rw [pending_of_held hheld] at hshort
    by_cases hphase : t.phase = .ended
    · have htotal := h.rest
      rw [handle_ended hheld hphase]
      rw [owed_of_ended hphase] at htotal
      refine ⟨?_, fun hne => absurd hphase hne, fun l hl => hshort l (List.mem_cons_of_mem _ hl)⟩
      rw [@owed_of_ended t.taken hphase]
      exact htotal
    · have hconnected := h.connected hphase
      obtain ⟨next, hgoes, hnext⟩ :=
        @goes_handle t line true random memory hconnected hphase hheld
      have hsame : next = (t.phase.take (keyMessage t.client.e2eCtx) line).2 := by
        refine hnext.resolve_right fun hbroken => ?_
        obtain ⟨_, message, hmessage, hresult⟩ := hbroken
        have hlength := length_of_mem_take (by rw [length_keyMessage]; decide)
          (hshort line List.mem_cons_self) hmessage
        have hframe := isSome_sendMessage t.client.securityCtx.encCtx hlength
        rw [(sendMessage_of_connected hconnected message true).2.2, hframe] at hresult
        exact absurd hresult (by decide)
      have htotal := h.rest
      rw [sending_owed_of_held hheld, ← hgoes.sending, ← hsame, ← hgoes.owed] at htotal
      refine ⟨htotal, fun hne => ?_, fun l hl => ?_⟩
      · rw [hgoes.connected, ← hgoes.phase]
        exact decide_eq_true hne
      · have hpending : (t.handle true random memory).pending = t.taken.pending := by
          rw [pending, pending, hgoes.held, hgoes.input]
        rw [hpending] at hl
        exact hshort l (List.mem_cons_of_mem _ hl)

theorem whole_fgets (h : Whole total t) (hheld : t.held = none) : Whole total t.fgets := by
  have hsending := sending_fgets hheld
  by_cases hinput : t.input = []
  · rw [fgets_nil hinput] at hsending ⊢
    exact ⟨hsending.trans h.rest, fun hne => absurd rfl hne, fun l hl => h.short l hl⟩
  · have hpending := pending_fgets hheld hinput
    have hconnected : t.fgets.phase ≠ .ended → t.fgets.client.connected = true := by
      rw [fgets_of_ne_nil hinput]
      exact h.connected
    exact ⟨hsending.trans h.rest, hconnected, hpending ▸ h.short⟩

theorem Whole.step (h : Whole total t) {label : TerminalLabel} (hlabel : label.Untroubled) :
    Whole total (t.step label) := by
  cases label with
  | read =>
    rw [Terminal.step, read]
    split
    · exact h
    · rename_i hnone
      have hheld : t.held = none := by simpa using hnone
      split
      · rename_i hphase
        rw [if_pos (h.connected (by rw [hphase]; decide))]
        exact whole_fgets h hheld
      · exact whole_fgets h hheld
      · exact h
  | handle sends random memory =>
    obtain rfl : sends = true := hlabel
    exact whole_handle h random memory
  | receive received =>
    obtain ⟨hcontext, hkey, _⟩ := messageReceiverTurn_keeps t.client received
    have hrest := h.rest
    refine ⟨?_, fun hne => (connected_messageReceiverTurn hlabel).trans (h.connected hne), h.short⟩
    rw [sending, owed] at hrest ⊢
    rw [Terminal.step, ← hrest]
    dsimp only
    rw [hcontext, hkey]
    rfl
  | interrupt => exact hlabel.elim

theorem farewell_fgets (h : t.farewell = none) : t.fgets.farewell = none := by
  by_cases hinput : t.input = []
  · rw [fgets_nil hinput]
    rfl
  · rw [fgets_of_ne_nil hinput]
    exact h

theorem farewell_select (h : t.farewell = none) (line : CString) :
    (t.select line sends).farewell = none := by
  unfold select
  dsimp only
  split
  · exact h
  · split
    · rfl
    · split
      · rfl
      · split
        · exact h
        · split <;> exact h

theorem farewell_chat (h : t.farewell = none) (line : CString) :
    (t.chat line sends random memory).farewell = none := by
  rw [chat]
  cases chatCommand line with
  | quit => rfl
  | e2e | e2eUsage | help | peers | nothing | keyRefresh => exact h
  | say message =>
    dsimp only
    split
    · split
      · rfl
      · exact h
    · rfl

/-- Only the signal handler takes leave of the server. -/
theorem farewell_step (h : t.farewell = none) {label : TerminalLabel} (hlabel : label ≠ .interrupt) :
    (t.step label).farewell = none := by
  cases label with
  | read =>
    rw [Terminal.step, read]
    split
    · exact h
    · split
      · split
        · exact farewell_fgets h
        · rfl
      · exact farewell_fgets h
      · exact h
  | handle sends random memory =>
    rw [Terminal.step]
    cases hheld : t.held with
    | none =>
      rw [handle, hheld]
      exact h
    | some line =>
      cases hphase : t.phase with
      | selecting =>
        rw [handle_selecting hheld hphase]
        exact @farewell_select t.taken sends h line
      | chatting =>
        rw [handle_chatting hheld hphase]
        exact @farewell_chat t.taken sends random memory h line
      | ended =>
        rw [handle_ended hheld hphase]
        exact h
  | receive received => exact h
  | interrupt => exact absurd rfl hlabel

end Steps

end Terminal

/-- The frames that what is typed stands for. -/
def typedFrames (client : ClientT) (input : List UInt8) : List (List UInt8) :=
  sentFrames client.securityCtx.encCtx
    (transcript (keyMessage client.e2eCtx) .selecting (typedLines input))

/-- In whatever order the threads go on, what leaves the client is the start of what the lines
stand for, sealed one by one. As long as no send fails and the connection stays it is all of it,
and without a signal the server is not told of the end. -/
theorem terminal_sends_transcript (client : ClientT) (input : List UInt8)
    (labels : List TerminalLabel) :
    Always Terminal.step (fun t => t.frames <+: typedFrames client input)
        (Terminal.start client input) labels ∧
      (client.connected = true → (∀ label ∈ labels, label.Untroubled) →
        Always Terminal.step (fun t => t.sending t.owed = typedFrames client input ∧
          (t.phase = .ended → t.frames = typedFrames client input))
          (Terminal.start client input) labels) ∧
      ((∀ label ∈ labels, label ≠ .interrupt) →
        Always Terminal.step (fun t => t.farewell = none) (Terminal.start client input) labels) := by
  refine ⟨?_, fun hconnected huntroubled => ?_, fun hquiet => ?_⟩
  · have hsound : Always Terminal.step (Terminal.Sound (typedFrames client input))
        (Terminal.start client input) labels :=
      always_of_invariant (fun _ label h => h.step label)
        ⟨List.nil_prefix, Phase.noConfusion, fun _ => rfl⟩ labels
    exact hsound.imp fun t h => h.sent
  · have hwhole : Always Terminal.step (Terminal.Whole (typedFrames client input))
        (Terminal.start client input) labels :=
      always_of_eachStep (fun _ _ h hlabel => h.step hlabel)
        ⟨rfl, fun _ => hconnected, fun _ => length_of_mem_typedLines⟩ (eachStep_of_mem huntroubled)
    refine hwhole.imp fun t h => ⟨h.rest, fun hended => ?_⟩
    have hrest := h.rest
    rwa [Terminal.owed_of_ended hended, Terminal.sending_nil] at hrest
  · have heach : EachStep Terminal.step (fun _ label => label ≠ .interrupt)
        (Terminal.start client input) labels := eachStep_of_mem hquiet
    exact always_of_eachStep (fun _ _ h hlabel => Terminal.farewell_step h hlabel) rfl heach

/-- The main thread takes three lines, and a text arrives after the first. -/
def threeLines : List TerminalLabel :=
  [.read, .handle true (fun _ => 255) .zeroed, .receive (.bytes [104, 105]), .read,
    .handle true (fun _ => 255) .zeroed, .read, .handle true (fun _ => 255) .zeroed]

/-- Ann enters a room, says a word and leaves. Two frames go out, and nobody is told of the end. -/
theorem terminal_sends_transcript_ann :
    (run Terminal.step (Terminal.start (KeyDelivery.newcomer "ann" 1)
        (typed ["/join den42", "bye", "/quit"])) threeLines).frames =
      sentFrames (KeyDelivery.newcomer "ann" 1).securityCtx.encCtx ["/join den42", "bye"] ∧
    (run Terminal.step (Terminal.start (KeyDelivery.newcomer "ann" 1)
        (typed ["/join den42", "bye", "/quit"])) threeLines).farewell = none := by
  have htranscript : transcript (keyMessage (KeyDelivery.newcomer "ann" 1).e2eCtx) .selecting
      (typedLines (typed ["/join den42", "bye", "/quit"])) =
        [("/join den42" : CString), "bye"] := by
    rw [typedLines_typed (by decide)]
    decide +kernel
  obtain ⟨-, hwhole, hfarewell⟩ := terminal_sends_transcript (KeyDelivery.newcomer "ann" 1)
    (typed ["/join den42", "bye", "/quit"]) threeLines
  obtain ⟨-, hended⟩ := hwhole rfl (by simp [threeLines, TerminalLabel.Untroubled]) threeLines
    (List.prefix_refl _)
  refine ⟨?_, hfarewell (by simp [threeLines]) threeLines (List.prefix_refl _)⟩
  rw [hended (by decide +kernel), typedFrames, htranscript]

end TcpChat.Client

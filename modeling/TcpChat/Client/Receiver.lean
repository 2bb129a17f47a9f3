import TcpChat.Client.Client

/-!
# The receiver thread (client/src/main.c)

One round of the loop in `message_receiver_thread`, and what it shows on the screen.
-/

namespace TcpChat.Client

open Base Base.Bytes
set_option autoImplicit false

/-- What a call of `recv` comes back with. `timedOut` is an error of `EAGAIN` or `EWOULDBLOCK`. -/
inductive Received where
  | bytes (buffer : List UInt8)
  | closed
  | timedOut
  | failed

/-- A message of the server, or the sender and the text of an end-to-end message. -/
inductive Shown where
  | regular (line : CString)
  | endToEnd (sender text : CString)
  deriving DecidableEq

structure ReceiverTurn where
  client : ClientT
  shown : Option Shown

/-- A message that does not end with a newline is shown with one. -/
def withNewline (buffer : CString) : CString :=
  if 0 < buffer.length ∧ buffer.bytes.getLast? ≠ some 10 then buffer ++ "\n" else buffer

def messageReceiverTurn (client : ClientT) (received : Received) : ReceiverTurn :=
  if !client.connected then ⟨client, none⟩
  else
    match received with
    | .bytes bytes =>
      let buffer := CString.ofBuffer bytes
      if buffer.startsWith "/keyexchange:" then
        match clientParseKeyExchange (buffer.drop 13) with
        | none => ⟨client, none⟩
        | some keyPacket => ⟨(clientHandleKeyExchange client keyPacket).1, none⟩
      else if buffer.startsWith "/e2emsg:" then
        ⟨client, (clientHandleE2eMessage client (buffer.drop 8)).map fun line =>
          .endToEnd line.1 line.2⟩
      else ⟨client, some (.regular (withNewline buffer))⟩
    | .closed | .failed => ⟨{ client with connected := false }, none⟩
    | .timedOut => ⟨client, none⟩

section KeyExchange
variable {client : ClientT}

theorem length_keyword : CString.length "/keyexchange:" = 13 := by decide

/-- A key that was sent reaches `client_handle_key_exchange`. -/
theorem messageReceiverTurn_keyExchange (hconnected : client.connected = true)
    (packet : E2eKeyExchangePacket) :
    messageReceiverTurn client (.bytes (hexMessage "/keyexchange:" packet.image).bytes) =
      ⟨(clientHandleKeyExchange client packet).1, none⟩ := by
  have hprefix : (hexMessage "/keyexchange:" packet.image).startsWith "/keyexchange:" = true := by
    rw [hexMessage, CString.startsWith_append _ (Nat.le_refl _)]
    decide
  have hdata : (hexMessage "/keyexchange:" packet.image).drop 13 =
      CString.ofBuffer (hexEncode packet.image) := by
    rw [hexMessage, ← length_keyword]
    exact CString.drop_append_length ..
  unfold messageReceiverTurn
  rw [if_neg (by simp [hconnected])]
  dsimp only
  rw [CString.ofBuffer_bytes, if_pos hprefix, hdata, clientParseKeyExchange_image]

end KeyExchange

end TcpChat.Client

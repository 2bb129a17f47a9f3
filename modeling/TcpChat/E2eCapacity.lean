import TcpChat.KeyDelivery

/-!
# The size of an end-to-end message

A packet has 1096 bytes whatever its text, its line has 2200 characters, and no buffer between
the two clients takes that many.
-/

namespace TcpChat.E2eCapacity

open Base Base.Bytes Server Client KeyDelivery
set_option autoImplicit false

def e2eLine (packet : E2eEncryptedPacket) : CString := hexMessage "/e2emsg:" packet.image

/-- The message is sent, and its line fits what it passes through: the client's ciphertext with
its tag, the receive of the server, the copy that is relayed, and the receive of the peer. -/
structure FitsAllBuffers (client : ClientT) (message recipientNickname : CString)
    (random : Nat → UInt8) (memory : E2eEncryptedPacket) : Prop where
  sent : (clientSendE2eMessage client message recipientNickname random memory true).result = 0
  carried : ∃ recipientId packet,
    findRecipient client.e2eCtx recipientNickname = some recipientId ∧
    e2eEncryptMessage client.e2eCtx message recipientId random memory = some packet ∧
    (e2eLine packet).length + 16 ≤ Client.bufferSize * 2 ∧
    (e2eLine packet).length ≤ Server.bufferSize - 1 ∧
    (cleanMessage (e2eLine packet)).take (Server.bufferSize - 1) = e2eLine packet ∧
    (e2eLine packet).length ≤ Client.bufferSize - 1 ∧
    parseE2ePacket (((e2eLine packet).take (Client.bufferSize - 1)).drop 8) = some packet

theorem length_e2eLine (packet : E2eEncryptedPacket) : (e2eLine packet).length = 2200 := by
  have hkeyword : (CString.bytes "/e2emsg:").length = 8 := by decide
  rw [CString.length, e2eLine, hexMessage, CString.bytes_append, bytes_ofBuffer_hexEncode,
    List.length_append, hkeyword, length_hexEncode, E2eEncryptedPacket.length_image,
    encryptedPacketSize]

section Send
variable (client : ClientT) (message recipientNickname : CString) (random : Nat → UInt8)
  (memory : E2eEncryptedPacket) (sends : Bool)

/-- The encryption has no room for the line. -/
theorem send_e2eLine (packet : E2eEncryptedPacket) :
    (clientSendMessage client (e2eLine packet) sends).result = -1 ∧
      (clientSendMessage client (e2eLine packet) sends).frame = none := by
  have hroom : (UInt64.ofNat (Client.bufferSize * 2)).toNat <
      ((e2eLine packet).bytes.length + 16) % 2 ^ 64 := by
    have hlength : (e2eLine packet).bytes.length = 2200 := length_e2eLine packet
    rw [hlength]
    decide
  have hnone : (Client.encryptData client.securityCtx.encCtx (e2eLine packet).bytes
      (UInt64.ofNat (Client.bufferSize * 2))).1 = none := by
    rw [Client.encryptData, if_pos hroom]
  rw [clientSendMessage]
  split
  · exact ⟨rfl, rfl⟩
  · rw [if_neg (by simp)]
    dsimp only
    rw [hnone]
    exact ⟨rfl, rfl⟩

theorem send_e2e_fails :
    (clientSendE2eMessage client message recipientNickname random memory sends).result = -1 ∧
      (clientSendE2eMessage client message recipientNickname random memory sends).frame =
        none := by
  rw [clientSendE2eMessage]
  split
  · exact ⟨rfl, rfl⟩
  · split
    · exact ⟨rfl, rfl⟩
    · split
      · exact ⟨rfl, rfl⟩
      · rename_i packet _
        exact send_e2eLine client sends packet

/-- An end-to-end message is not sent, and its line is longer than each of the buffers. -/
theorem e2e_message_fits_nowhere :
    ¬ FitsAllBuffers client message recipientNickname random memory ∧
      (clientSendE2eMessage client message recipientNickname random memory sends).frame = none ∧
      ∀ packet, Client.bufferSize * 2 < (e2eLine packet).length + 16 ∧
        Server.bufferSize - 1 < (e2eLine packet).length ∧
        Client.bufferSize - 1 < (e2eLine packet).length := by
  refine ⟨fun h => ?_, (send_e2e_fails ..).2, fun packet => ?_⟩
  · have hsent := h.sent
    rw [(send_e2e_fails ..).1] at hsent
    exact absurd hsent (by decide)
  · rw [length_e2eLine]
    decide

end Send

/-- A client who has the key of one other. -/
def acquainted : ClientT :=
  { newcomer "ann" 1 with
    e2eCtx := ⟨⟨fun _ => 3, fun _ => 4, fun _ => 1, "ann"⟩,
      fun _ => ⟨fun _ => 5, fun _ => 2, "bob", true⟩, 1⟩ }

theorem hi_does_not_fit :
    ¬ ∀ (client : ClientT) (message recipientNickname : CString) (random : Nat → UInt8)
      (memory : E2eEncryptedPacket), client.connected = true →
      (findRecipient client.e2eCtx recipientNickname).isSome = true →
      1 ≤ message.length ∧ message.length ≤ 991 →
      FitsAllBuffers client message recipientNickname random memory := by
  intro h
  have hknown : (findRecipient acquainted.e2eCtx "bob").isSome = true := by
    decide +kernel
  have hfits := h acquainted "hi" "bob" (fun _ => 255) .zeroed rfl hknown (by decide)
  have hsent := hfits.sent
  rw [(send_e2e_fails ..).1] at hsent
  exact absurd hsent (by decide)

end TcpChat.E2eCapacity

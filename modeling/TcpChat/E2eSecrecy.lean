import TcpChat.Client.E2eDecryption

/-!
# What a relayed packet gives away

The signature is the secret, folded over the two user ids of the packet. Whoever relays a packet
unfolds it and decrypts the message with no key of his own.
-/

namespace TcpChat.Client

open Base
set_option autoImplicit false

/-- The text as it is encrypted, the random padding included. -/
def paddedPlaintext (plaintext : CString) (random : Nat → UInt8) : List UInt8 :=
  (List.range (paddedLength plaintext)).map (paddedByte plaintext random)

/-- No function of the packet alone returns the padded text of every message. -/
def Confidential : Prop :=
  ¬ ∃ decode : E2eEncryptedPacket → List UInt8,
    ∀ (ctx : E2eContext) (plaintext : CString) (recipientId : Fin 16 → UInt8)
      (random : Nat → UInt8) (memory packet : E2eEncryptedPacket),
      e2eEncryptMessage ctx plaintext recipientId random memory = some packet →
      decode packet = paddedPlaintext plaintext random

/-- The secret behind a signature: what the signature is without the user ids. -/
def relaySecret (packet : E2eEncryptedPacket) : Fin 32 → UInt8 :=
  messageSignature packet.senderId packet.recipientId packet.signature

/-- What a relay reads in a packet. -/
def relayDecode (packet : E2eEncryptedPacket) : List UInt8 :=
  (List.range packet.encryptedLength.toNat).map
    (simpleDecrypt (relaySecret packet) packet.encryptedByte packet.encryptedLength).value

section Relay
variable (senderId recipientId : Fin 16 → UInt8) (secret : Fin 32 → UInt8)

theorem messageSignature_messageSignature :
    messageSignature senderId recipientId (messageSignature senderId recipientId secret) =
      secret := by
  funext i
  rw [messageSignature_apply, messageSignature_apply]
  generalize Fin.append senderId recipientId i = a
  generalize UInt8.ofNat (i.val * 13) = c
  have hcancel : a ^^^ (a ^^^ secret i ^^^ c) ^^^ c = (a ^^^ a) ^^^ secret i ^^^ (c ^^^ c) := by
    ac_rfl
  rw [hcancel, UInt8.xor_self, UInt8.xor_self, UInt8.zero_xor, UInt8.xor_zero]

theorem relayDecode_sealedPacket {plaintext : CString} (random : Nat → UInt8)
    (memory : E2eEncryptedPacket) (hfits : plaintext.length < e2eMaxMessageSize - 32) :
    relayDecode (sealedPacket senderId recipientId secret plaintext random memory) =
      paddedPlaintext plaintext random := by
  have hsecret : relaySecret (sealedPacket senderId recipientId secret plaintext random memory) =
      secret := messageSignature_messageSignature senderId recipientId secret
  obtain ⟨hlength, hbytes⟩ := sealedPacket_opens senderId recipientId secret random memory hfits
  rw [relayDecode, hsecret, hlength, paddedPlaintext]
  apply List.map_congr_left
  intro i hi
  exact hbytes i (List.mem_range.mp hi)

end Relay

/-- Every packet that a client builds gives its message away. -/
theorem relayDecode_eq_paddedPlaintext {ctx : E2eContext} {plaintext : CString}
    {recipientId : Fin 16 → UInt8} {random : Nat → UInt8} {memory packet : E2eEncryptedPacket}
    (h : e2eEncryptMessage ctx plaintext recipientId random memory = some packet) :
    relayDecode packet = paddedPlaintext plaintext random := by
  obtain ⟨peer, _, hfits, rfl⟩ := e2eEncryptMessage_eq_some_iff.mp h
  exact relayDecode_sealedPacket _ _ _ random memory hfits

/-- `hi` and fourteen bytes of padding are read from its packet. -/
theorem relay_reads_hi :
    ∃ packet, e2eEncryptMessage (paired 1 2) "hi" (paired 2 1).myKeys.userId (fun _ => 255)
        .zeroed = some packet ∧
      relayDecode packet = [104, 105] ++ List.replicate 14 255 := by
  have hpacket := encrypt_paired 1 2 (fun _ => 255)
    (by decide : CString.length "hi" < e2eMaxMessageSize - 32)
  exact ⟨_, hpacket, (relayDecode_eq_paddedPlaintext hpacket).trans (by decide)⟩

theorem not_confidential : ¬ Confidential := by
  intro h
  apply h
  refine ⟨relayDecode, ?_⟩
  intro ctx plaintext recipientId random memory packet hpacket
  obtain ⟨peer, _, hfits, rfl⟩ := e2eEncryptMessage_eq_some_iff.mp hpacket
  exact relayDecode_sealedPacket _ _ _ random memory hfits

end TcpChat.Client

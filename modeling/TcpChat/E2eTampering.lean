import TcpChat.Client.E2eDecryption

/-!
# Changed bytes in a packet

The signature covers the user ids and the secret only. A changed byte of the text or of its
length goes unnoticed; a changed sender is noticed unless the recipient has a peer whose public
key makes up for the change.
-/

namespace TcpChat.Client

open Base Base.Bytes
set_option autoImplicit false

/-- A byte of the packet and what it is replaced with. -/
inductive Tampering where
  | senderId (i : Fin 16) (b : UInt8)
  | recipientId (i : Fin 16) (b : UInt8)
  | encryptedLength (i : Fin 8) (b : UInt8)
  | encryptedData (i : Fin e2eMaxMessageSize) (b : UInt8)

namespace Tampering

def apply (packet : E2eEncryptedPacket) : Tampering → E2eEncryptedPacket
  | .senderId i b => { packet with senderId := Function.update packet.senderId i b }
  | .recipientId i b => { packet with recipientId := Function.update packet.recipientId i b }
  | .encryptedLength i b =>
    { packet with
      encryptedLength := littleEndian (Function.update (bytesOf packet.encryptedLength) i b) }
  | .encryptedData i b => { packet with encryptedData := Function.update packet.encryptedData i b }

/-- The byte is one of the packet's and gets another value. -/
def Replaces (packet : E2eEncryptedPacket) : Tampering → Prop
  | .senderId i b => packet.senderId i ≠ b
  | .recipientId i b => packet.recipientId i ≠ b
  | .encryptedLength i b => bytesOf packet.encryptedLength i ≠ b
  | .encryptedData i b =>
    i.val < packet.encryptedLength.toNat ∧ packet.encryptedData i ≠ b

end Tampering

/-- A public key with `mask` on byte `i`: in the signature the mask cancels a change of byte `i`
of the sender. -/
def maskedKey (publicKey : Fin 32 → UInt8) (i : Fin 16) (mask : UInt8) : Fin 32 → UInt8 :=
  Function.update publicKey (Fin.castAdd 16 i) (publicKey (Fin.castAdd 16 i) ^^^ mask)

/-- The changes that the recipient can see: those of his own id, and those of the sender's id
unless they lead to a peer with the masked key. -/
def Tampering.Detectable (recipient : E2eContext) (senderKey : E2ePeerKey)
    (packet : E2eEncryptedPacket) : Tampering → Prop
  | .senderId i b =>
    ∀ other, e2eFindPeerKey recipient (Function.update packet.senderId i b) = some other →
      other.publicKey ≠ maskedKey senderKey.publicKey i (packet.senderId i ^^^ b)
  | .recipientId _ _ => True
  | .encryptedLength _ _ => False
  | .encryptedData _ _ => False

section Signature

theorem append_update (senderId recipientId : Fin 16 → UInt8) (i : Fin 16) (b : UInt8) :
    Fin.append (Function.update senderId i b) recipientId =
      Function.update (Fin.append senderId recipientId) (Fin.castAdd 16 i) b := by
  funext j
  refine Fin.addCases (fun k => ?_) (fun k => ?_) j
  · by_cases hk : k = i
    · rw [hk, Fin.append_left, Function.update_self, Function.update_self]
    · have hcast : Fin.castAdd 16 k ≠ Fin.castAdd 16 i :=
        fun h => hk (Fin.castAdd_injective 16 16 h)
      rw [Fin.append_left, Function.update_of_ne hk, Function.update_of_ne hcast, Fin.append_left]
  · have hne : Fin.natAdd 16 k ≠ Fin.castAdd 16 i := by
      intro h
      have hval : 16 + k.val = i.val := congrArg Fin.val h
      omega
    rw [Fin.append_right, Function.update_of_ne hne, Fin.append_right]

theorem xor_masks (a b p q r c d : UInt8) :
    a ^^^ (p ^^^ q ^^^ c) ^^^ d = b ^^^ (p ^^^ r ^^^ c) ^^^ d ↔ r = q ^^^ (a ^^^ b) := by
  have hleft : a ^^^ (p ^^^ q ^^^ c) ^^^ d = (p ^^^ c ^^^ d ^^^ b) ^^^ (q ^^^ (a ^^^ b)) := by
    have hcancel : (p ^^^ c ^^^ d ^^^ b) ^^^ (q ^^^ (a ^^^ b)) =
        a ^^^ (p ^^^ q ^^^ c) ^^^ d ^^^ (b ^^^ b) := by
      ac_rfl
    rw [hcancel, UInt8.xor_self, UInt8.xor_zero]
  have hright : b ^^^ (p ^^^ r ^^^ c) ^^^ d = (p ^^^ c ^^^ d ^^^ b) ^^^ r := by
    ac_rfl
  rw [hleft, hright, UInt8.xor_right_inj]
  exact eq_comm

variable (senderId recipientId : Fin 16 → UInt8) (privateKey k₁ k₂ : Fin 32 → UInt8)
  (i : Fin 16) (b : UInt8)

/-- With a byte of the sender changed the signature stays the same for one public key only. -/
theorem signature_update_iff :
    messageSignature senderId recipientId (deriveSharedSecret privateKey k₁) =
        messageSignature (Function.update senderId i b) recipientId
          (deriveSharedSecret privateKey k₂) ↔
      k₂ = maskedKey k₁ i (senderId i ^^^ b) := by
  rw [funext_iff, funext_iff]
  apply forall_congr'
  intro j
  rw [messageSignature_apply, messageSignature_apply, append_update]
  simp only [deriveSharedSecret]
  by_cases hj : j = Fin.castAdd 16 i
  · rw [hj, Function.update_self, Fin.append_left, maskedKey, Function.update_self]
    exact xor_masks ..
  · rw [maskedKey, Function.update_of_ne hj, Function.update_of_ne hj]
    have hmask := xor_masks (Fin.append senderId recipientId j) (Fin.append senderId recipientId j)
      (privateKey j) (k₁ j) (k₂ j) (UInt8.ofNat (j.val * 31 + 73)) (UInt8.ofNat (j.val * 13))
    rw [UInt8.xor_self, UInt8.xor_zero] at hmask
    exact hmask

end Signature

section Detection
variable {sender recipient : E2eContext} {recipientKey senderKey : E2ePeerKey}
  {packet : E2eEncryptedPacket} {tampering : Tampering}

/-- A packet that was accepted is refused with a byte replaced exactly when the change can be
seen. -/
theorem refused_iff_detectable (haccepted : acceptedFrom recipient packet = some senderKey)
    (hreplaces : tampering.Replaces packet) :
    acceptedFrom recipient (tampering.apply packet) = none ↔
      tampering.Detectable recipient senderKey packet := by
  obtain ⟨hid, hfind, hsignature⟩ := acceptedFrom_eq_some_iff.mp haccepted
  cases tampering with
  | senderId i b =>
    rw [Option.eq_none_iff_forall_ne_some, Tampering.Detectable]
    apply forall_congr'
    intro other
    rw [ne_eq, acceptedFrom_eq_some_iff, Tampering.apply, hsignature, signature_update_iff]
    simp only [hid, true_and, not_and, ne_eq]
  | recipientId i b =>
    have hother : Function.update packet.recipientId i b ≠ recipient.myKeys.userId := by
      intro heq
      rw [← hid] at heq
      have hi := congrFun heq i
      rw [Function.update_self] at hi
      exact hreplaces hi.symm
    have hrefused : acceptedFrom recipient (Tampering.apply packet (.recipientId i b)) = none :=
      if_pos hother
    exact iff_of_true hrefused trivial
  | encryptedLength i b =>
    have hsame : acceptedFrom recipient (Tampering.apply packet (.encryptedLength i b)) =
        some senderKey := haccepted
    rw [hsame]
    exact iff_of_false nofun not_false
  | encryptedData i b =>
    have hsame : acceptedFrom recipient (Tampering.apply packet (.encryptedData i b)) =
        some senderKey := haccepted
    rw [hsame]
    exact iff_of_false nofun not_false

/-- A changed byte makes the decryption fail when it is one of the recipient's id, or one of the
sender's that no peer of the recipient makes up for. -/
theorem tampering_fails_iff {plaintext : CString} {random : Nat → UInt8}
    {memory : E2eEncryptedPacket} (capacity : UInt64)
    (hrecipient : e2eFindPeerKey sender recipient.myKeys.userId = some recipientKey)
    (hsender : e2eFindPeerKey recipient sender.myKeys.userId = some senderKey)
    (hsecret : deriveSharedSecret sender.myKeys.privateKey recipientKey.publicKey =
      deriveSharedSecret recipient.myKeys.privateKey senderKey.publicKey)
    (hpacket : e2eEncryptMessage sender plaintext recipient.myKeys.userId random memory =
      some packet)
    (hreplaces : tampering.Replaces packet) :
    (e2eDecryptMessage recipient (tampering.apply packet) capacity).value = none ↔
      tampering.Detectable recipient senderKey packet := by
  rw [decrypt_eq_none_iff]
  exact refused_iff_detectable (acceptedFrom_encrypted hrecipient hsender hsecret hpacket) hreplaces

theorem tampered_sender_fails :
    ∃ packet, e2eEncryptMessage (paired 1 2) "hi" (paired 2 1).myKeys.userId (fun _ => 255)
        .zeroed = some packet ∧
      (e2eDecryptMessage (paired 2 1) (Tampering.apply packet (.senderId 0 9)) 1024).value =
        none := by
  have hpacket := encrypt_paired 1 2 (fun _ => 255)
    (by decide : CString.length "hi" < e2eMaxMessageSize - 32)
  have hother : (fun _ => 1 : Fin 16 → UInt8) ≠ Function.update (fun _ => 1) 0 9 := by decide
  have hnone : e2eFindPeerKey (paired 2 1) (Function.update (fun _ => 1) 0 9) = none := by
    simp [e2eFindPeerKey, paired, List.finRange_succ, hother]
  have hreplaces : Tampering.Replaces (sealedPacket (fun _ => 1) (fun _ => 2)
      (deriveSharedSecret (fun _ => 0) fun _ => 0) "hi" (fun _ => 255) .zeroed) (.senderId 0 9) :=
    (by decide : (1 : UInt8) ≠ 9)
  refine ⟨_, hpacket, (tampering_fails_iff 1024 (find_paired 1 2) (find_paired 2 1) rfl hpacket
    hreplaces).mpr ?_⟩
  intro other hfind
  exact absurd (hfind.symm.trans hnone) (Option.some_ne_none other)

/-- The first byte of `hi` is replaced and the packet is accepted all the same. -/
theorem tampered_text_passes :
    ¬ ∀ (sender recipient : E2eContext) (recipientKey senderKey : E2ePeerKey)
      (plaintext : CString) (random : Nat → UInt8) (memory packet : E2eEncryptedPacket)
      (tampering : Tampering) (capacity : UInt64),
      e2eFindPeerKey sender recipient.myKeys.userId = some recipientKey →
      e2eFindPeerKey recipient sender.myKeys.userId = some senderKey →
      deriveSharedSecret sender.myKeys.privateKey recipientKey.publicKey =
        deriveSharedSecret recipient.myKeys.privateKey senderKey.publicKey →
      e2eEncryptMessage sender plaintext recipient.myKeys.userId random memory = some packet →
      (e2eDecryptMessage recipient packet capacity).value ≠ none →
      tampering.Replaces packet →
      (e2eDecryptMessage recipient (tampering.apply packet) capacity).value = none := by
  intro h
  have hpacket := encrypt_paired 1 2 (fun _ => 255)
    (by decide : CString.length "hi" < e2eMaxMessageSize - 32)
  have haccepted := acceptedFrom_encrypted (find_paired 1 2) (find_paired 2 1) rfl hpacket
  have hreplaces : Tampering.Replaces (sealedPacket (fun _ => 1) (fun _ => 2)
      (deriveSharedSecret (fun _ => 0) fun _ => 0) "hi" (fun _ => 255) .zeroed)
      (.encryptedData 0 0) := by
    refine ⟨by decide, by decide⟩
  have hrefused := h (paired 1 2) (paired 2 1) _ _ "hi" (fun _ => 255) .zeroed _
    (.encryptedData 0 0) 1024 (find_paired 1 2) (find_paired 2 1) rfl hpacket
    (by rw [ne_eq, decrypt_eq_none_iff, haccepted]; nofun) hreplaces
  rw [decrypt_eq_none_iff] at hrefused
  exact (refused_iff_detectable haccepted hreplaces).mp hrefused

end Detection

end TcpChat.Client

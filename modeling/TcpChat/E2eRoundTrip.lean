import TcpChat.Client.E2eDecryption

/-!
# Messages end to end

The packet carries the padded length only, and the padding is random: the scan of
`e2e_decrypt_message` cannot tell where the text ends.
-/

namespace TcpChat.Client

open Base
set_option autoImplicit false

/-- What one side encrypts, the other side decrypts into a buffer of 1024 bytes, as the text
it was. -/
def RoundTrips (sender recipient : E2eContext) (plaintext : CString) (random : Nat → UInt8)
    (memory : E2eEncryptedPacket) : Prop :=
  ∃ packet, e2eEncryptMessage sender plaintext recipient.myKeys.userId random memory =
      some packet ∧
    (e2eDecryptMessage recipient packet 1024).value = some plaintext.bytes

section Scan
variable {plaintext : CString} {decrypted : Nat → UInt8} {random : Nat → UInt8}

theorem paddedByte_ne_zero {i : Nat} (hi : i < plaintext.length) :
    paddedByte plaintext random i ≠ 0 := by
  have hlt : i < plaintext.bytes.length := hi
  rw [paddedByte, if_pos hi, List.getD_eq_getElem?_getD, List.getElem?_eq_getElem hlt,
    Option.getD_some]
  intro h
  exact plaintext.noNul (h ▸ List.getElem_mem hlt)

/-- Sixteen bytes are one full block: nothing stops the scan, and the whole block is the text. -/
theorem actualLength_of_block (h : plaintext.length = 16)
    (hdec : ∀ i < 16, decrypted i = paddedByte plaintext random i) :
    (actualLength decrypted 16).value = 16 := by
  rw [actualLength_value]
  rcases findLength_cases decrypted 16 ((16 : UInt64) - 1).toNat with
    ⟨hnone, _⟩ | ⟨j, _, hle, hstops, _⟩
  · rw [hnone]
    rfl
  · have hj : j ≤ 15 := hle
    rcases hstops with hzero | hfar
    · rw [hdec j (by omega)] at hzero
      exact absurd hzero (paddedByte_ne_zero (by omega))
    · exact absurd hfar (by simp)

/-- In every other case the scan reports a length that the text does not have. -/
theorem actualLength_ne {len : UInt64} (hpos : 1 ≤ plaintext.length)
    (hlen : len.toNat = paddedLength plaintext) (hblock : plaintext.length ≠ 16)
    (hdec : ∀ i < paddedLength plaintext, decrypted i = paddedByte plaintext random i) :
    (actualLength decrypted len).value.toNat ≠ plaintext.length ∧
      (actualLength decrypted len).value.toNat ≤ paddedLength plaintext := by
  obtain ⟨hle, hlt, hmod⟩ := paddedLength_bounds plaintext
  have hbig := len.toNat_lt
  have hone : (len - 1).toNat = len.toNat - 1 := by
    rw [UInt64.toNat_sub_of_le len 1 (by rw [UInt64.le_iff_toNat_le]; simp; omega)]
    rfl
  have hblockLen : (len - 16).toNat = len.toNat - 16 := by
    rw [UInt64.toNat_sub_of_le len 16 (by rw [UInt64.le_iff_toNat_le]; simp; omega)]
    rfl
  have hofNat : ∀ j, j ≤ paddedLength plaintext → (UInt64.ofNat j).toNat = j := by
    intro j hj
    rw [UInt64.toNat_ofNat', Nat.mod_eq_of_lt (by omega)]
  rw [actualLength_value, hone]
  rcases findLength_cases decrypted len (len.toNat - 1) with
    ⟨hnone, hall⟩ | ⟨j, hj, hjle, hstops, hvalue⟩
  · rw [hnone, Option.getD_none]
    refine ⟨fun heq => ?_, by omega⟩
    -- the text fills more than one block: the scan breaks a block before its end
    refine hall (len.toNat - 17) (by omega) (by omega) (Or.inr ?_)
    rw [UInt64.lt_iff_toNat_lt, hofNat _ (by omega), hblockLen]
    omega
  · rw [hvalue, Option.getD_some, hofNat _ (by omega)]
    refine ⟨fun heq => ?_, by omega⟩
    rcases hstops with hzero | hfar
    · rw [hdec j (by omega)] at hzero
      exact paddedByte_ne_zero (by omega) hzero
    · rw [UInt64.lt_iff_toNat_lt, hofNat _ (by omega), hblockLen] at hfar
      omega

end Scan

section RoundTrip
variable {sender recipient : E2eContext} {recipientKey senderKey : E2ePeerKey}
  {plaintext : CString} {random : Nat → UInt8} {memory : E2eEncryptedPacket}

theorem roundTrips_iff_decrypted
    (hrecipient : e2eFindPeerKey sender recipient.myKeys.userId = some recipientKey)
    (hsender : e2eFindPeerKey recipient sender.myKeys.userId = some senderKey)
    (hsecret : deriveSharedSecret sender.myKeys.privateKey recipientKey.publicKey =
      deriveSharedSecret recipient.myKeys.privateKey senderKey.publicKey)
    (hfits : plaintext.length < e2eMaxMessageSize - 32) :
    RoundTrips sender recipient plaintext random memory ↔
      (decryptVerified (deriveSharedSecret sender.myKeys.privateKey recipientKey.publicKey)
        (sealedPacket sender.myKeys.userId recipient.myKeys.userId
          (deriveSharedSecret sender.myKeys.privateKey recipientKey.publicKey) plaintext random
          memory) 1024).value = plaintext.bytes := by
  have hsome : e2eEncryptMessage sender plaintext recipient.myKeys.userId random memory =
      some (sealedPacket sender.myKeys.userId recipient.myKeys.userId
        (deriveSharedSecret sender.myKeys.privateKey recipientKey.publicKey) plaintext random
        memory) :=
    e2eEncryptMessage_eq_some_iff.mpr ⟨recipientKey, hrecipient, hfits, rfl⟩
  have haccepted := acceptedFrom_encrypted hrecipient hsender hsecret hsome
  have hvalue := congrArg Traced.value (decrypt_of_accepted haccepted 1024)
  rw [← hsecret] at hvalue
  simp only [Traced.value_bind, Traced.value_pure] at hvalue
  constructor
  · intro h
    obtain ⟨packet, hpacket, htext⟩ := h
    rw [hsome] at hpacket
    cases hpacket
    rw [hvalue] at htext
    exact Option.some.inj htext
  · intro h
    exact ⟨_, hsome, by rw [hvalue, h]⟩

/-- Only a message of one block comes out as it went in: every other one comes out longer or
shorter. -/
theorem length_of_decrypted {senderId recipientId : Fin 16 → UInt8} {secret : Fin 32 → UInt8}
    (hlen : 1 ≤ plaintext.length ∧ plaintext.length ≤ 991)
    (h : (decryptVerified secret (sealedPacket senderId recipientId secret plaintext random memory)
      1024).value = plaintext.bytes) : plaintext.length = 16 := by
  have hfits : plaintext.length < e2eMaxMessageSize - 32 := by
    simp only [e2eMaxMessageSize]
    omega
  rw [decryptVerified_value] at h
  obtain ⟨hlength, hdec⟩ := sealedPacket_opens senderId recipientId secret random memory hfits
  generalize (sealedPacket senderId recipientId secret plaintext random memory).encryptedLength =
    len at hlength hdec h
  generalize (simpleDecrypt secret (sealedPacket senderId recipientId secret plaintext random
    memory).encryptedByte len).value = decrypted at hdec h
  have hbounds := paddedLength_bounds plaintext
  by_contra hblock
  obtain ⟨hne, hle⟩ := actualLength_ne hlen.1 hlength hblock hdec
  have hcut : ¬ (actualLength decrypted len).value ≥ 1024 := by
    intro hge
    have hge' : 1024 ≤ (actualLength decrypted len).value.toNat := UInt64.le_iff_toNat_le.mp hge
    omega
  rw [if_neg hcut] at h
  have hlengths := congrArg List.length h
  rw [List.length_map, List.length_range] at hlengths
  exact hne hlengths

theorem decrypted_of_block {senderId recipientId : Fin 16 → UInt8} {secret : Fin 32 → UInt8}
    (hblock : plaintext.length = 16) :
    (decryptVerified secret (sealedPacket senderId recipientId secret plaintext random memory)
      1024).value = plaintext.bytes := by
  have hfits : plaintext.length < e2eMaxMessageSize - 32 := by
    simp only [e2eMaxMessageSize]
    omega
  have hpadded : paddedLength plaintext = 16 := by
    rw [paddedLength, hblock]
  obtain ⟨hlength, hdec⟩ := sealedPacket_opens senderId recipientId secret random memory hfits
  have hsixteen : (sealedPacket senderId recipientId secret plaintext random
      memory).encryptedLength = 16 := by
    rw [← UInt64.toNat_inj, hlength, hpadded]
    rfl
  rw [hpadded, hsixteen] at hdec
  rw [decryptVerified_value, hsixteen, actualLength_of_block hblock hdec, if_neg (by decide)]
  apply List.ext_getElem
  · rw [List.length_map, List.length_range]
    exact hblock.symm
  · intro i h₁ h₂
    have hi : i < 16 := by simpa using h₁
    rw [List.getElem_map, List.getElem_range, hdec i hi, paddedByte, if_pos (hblock ▸ hi),
      List.getD_eq_getElem?_getD, List.getElem?_eq_getElem h₂, Option.getD_some]

/-- Decryption undoes encryption for messages of exactly one block of 16 bytes. -/
theorem roundTrips_iff_block
    (hrecipient : e2eFindPeerKey sender recipient.myKeys.userId = some recipientKey)
    (hsender : e2eFindPeerKey recipient sender.myKeys.userId = some senderKey)
    (hsecret : deriveSharedSecret sender.myKeys.privateKey recipientKey.publicKey =
      deriveSharedSecret recipient.myKeys.privateKey senderKey.publicKey)
    (hlen : 1 ≤ plaintext.length ∧ plaintext.length ≤ 991) :
    RoundTrips sender recipient plaintext random memory ↔ plaintext.length = 16 := by
  have hfits : plaintext.length < e2eMaxMessageSize - 32 := by
    simp only [e2eMaxMessageSize]
    omega
  rw [roundTrips_iff_decrypted hrecipient hsender hsecret hfits]
  exact ⟨length_of_decrypted hlen, decrypted_of_block⟩

theorem roundTrips_sixteen_letters :
    RoundTrips (paired 1 2) (paired 2 1) "sixteen letters!" (fun _ => 255)
      .zeroed :=
  (roundTrips_iff_block (find_paired 1 2) (find_paired 2 1) rfl (by decide)).mpr (by decide)

/-- `hi`, padded with bytes other than zero, comes out with its padding. -/
theorem hi_does_not_roundTrip :
    ¬ ∀ (sender recipient : E2eContext) (recipientKey senderKey : E2ePeerKey)
      (plaintext : CString) (random : Nat → UInt8) (memory : E2eEncryptedPacket),
      e2eFindPeerKey sender recipient.myKeys.userId = some recipientKey →
      e2eFindPeerKey recipient sender.myKeys.userId = some senderKey →
      deriveSharedSecret sender.myKeys.privateKey recipientKey.publicKey =
        deriveSharedSecret recipient.myKeys.privateKey senderKey.publicKey →
      1 ≤ plaintext.length ∧ plaintext.length ≤ 991 →
      RoundTrips sender recipient plaintext random memory := by
  intro h
  have hlen : 1 ≤ CString.length "hi" ∧ CString.length "hi" ≤ 991 := by decide
  have hround := h (paired 1 2) (paired 2 1) _ _ "hi" (fun _ => 255)
    .zeroed (find_paired 1 2) (find_paired 2 1) rfl hlen
  rw [roundTrips_iff_decrypted (find_paired 1 2) (find_paired 2 1) rfl (by decide)] at hround
  exact absurd (length_of_decrypted hlen hround) (by decide)

end RoundTrip

end TcpChat.Client

import TcpChat.Base.Bytes
import TcpChat.Base.Traced
import TcpChat.Client.E2eEncryption

/-!
# Decrypting end-to-end messages (client/src/e2e_encryption.c)

`e2e_decrypt_message` runs its loops over a length that the packet carries. The model records
every access to the arrays on the way and every use of a difference of the length; the C code
has a meaning only where all of these are inside. Beyond an array the model reads zeros.
-/

namespace TcpChat.Client

open Base Base.Bytes
set_option autoImplicit false

/-- Accesses to `packet->encrypted_data`, to the local `decrypted` and to the caller's
`plaintext`. `lengthMinus k` is a use of `packet->encrypted_length - k`. -/
inductive Access where
  | readEncrypted (i : Nat)
  | readDecrypted (i : Nat)
  | writeDecrypted (i : Nat)
  | writePlaintext (i : Nat)
  | lengthMinus (k : Nat)
  deriving DecidableEq

/-- The index is below the size of its array, the caller's having `capacity` bytes, and the
difference does not wrap. -/
def Access.Inside (encryptedLength capacity : UInt64) : Access → Prop
  | .readEncrypted i | .readDecrypted i | .writeDecrypted i => i < e2eMaxMessageSize
  | .writePlaintext i => i < capacity.toNat
  | .lengthMinus k => k ≤ encryptedLength.toNat

def E2eEncryptedPacket.encryptedByte (packet : E2eEncryptedPacket) (i : Nat) : UInt8 :=
  if h : i < e2eMaxMessageSize then packet.encryptedData ⟨i, h⟩ else 0

/-- The loop writes `decrypted` up to `len`; behind it the array is not initialized. -/
def simpleDecrypt (key : Fin 32 → UInt8) (ciphertext : Nat → UInt8) (len : UInt64) :
    Traced Access (Nat → UInt8) :=
  Traced.loop len.toNat (fun i => [.readEncrypted i, .writeDecrypted i]) fun i =>
    if i < len.toNat then ciphertext i ^^^ key (Fin.ofNat 32 i) ^^^ UInt8.ofNat (i % 256) else 0

/-- The scan that is to strip the padding, from index `i` down; `none` when it runs to its end
without a break. -/
def findLength (decrypted : Nat → UInt8) (encryptedLength : UInt64) :
    Nat → Traced Access (Option UInt64)
  | 0 => pure none
  | i + 1 =>
    if decrypted (i + 1) = 0 then ⟨some (UInt64.ofNat (i + 2)), [.readDecrypted (i + 1)]⟩
    else if UInt64.ofNat (i + 1) < encryptedLength - 16 then
      ⟨some (UInt64.ofNat (i + 2)), [.readDecrypted (i + 1), .lengthMinus 16]⟩
    else do
      (⟨(), [.readDecrypted (i + 1), .lengthMinus 16]⟩ : Traced Access Unit)
      findLength decrypted encryptedLength i

/-- `actual_len` before it is cut to the caller's buffer. -/
def actualLength (decrypted : Nat → UInt8) (encryptedLength : UInt64) :
    Traced Access UInt64 := do
  let start ← (⟨encryptedLength - 1, [.lengthMinus 1]⟩ : Traced Access UInt64)
  let found ← findLength decrypted encryptedLength start.toNat
  pure (found.getD encryptedLength)

/-- `memcpy` of `len` bytes and the terminator behind them; the text is what was copied. -/
def copyOut (decrypted : Nat → UInt8) (len : UInt64) : Traced Access (List UInt8) := do
  let text ← Traced.loop len.toNat (fun i => [.readDecrypted i, .writePlaintext i])
    ((List.range len.toNat).map decrypted)
  (⟨(), [.writePlaintext len.toNat]⟩ : Traced Access Unit)
  pure text

/-- The part of `e2e_decrypt_message` behind its checks. -/
def decryptVerified (sharedSecret : Fin 32 → UInt8) (packet : E2eEncryptedPacket)
    (capacity : UInt64) : Traced Access (List UInt8) := do
  let decrypted ← simpleDecrypt sharedSecret packet.encryptedByte packet.encryptedLength
  let actualLen ← actualLength decrypted packet.encryptedLength
  copyOut decrypted (if actualLen ≥ capacity then capacity - 1 else actualLen)

/-- The peer that the packet is accepted from: it is meant for us, its sender is known, and the
signature is the expected one. -/
def acceptedFrom (ctx : E2eContext) (packet : E2eEncryptedPacket) : Option E2ePeerKey :=
  if packet.recipientId ≠ ctx.myKeys.userId then none
  else (e2eFindPeerKey ctx packet.senderId).filter fun peer =>
    packet.signature = messageSignature packet.senderId packet.recipientId
      (deriveSharedSecret ctx.myKeys.privateKey peer.publicKey)

/-- The text and its length in `*plaintext_len`, which holds `capacity` before the call. -/
def e2eDecryptMessage (ctx : E2eContext) (packet : E2eEncryptedPacket) (capacity : UInt64) :
    Traced Access (Option (List UInt8)) :=
  match acceptedFrom ctx packet with
  | none => pure none
  | some peer => do
    let text ← decryptVerified (deriveSharedSecret ctx.myKeys.privateKey peer.publicKey) packet
      capacity
    pure (some text)

theorem acceptedFrom_eq_some_iff {ctx : E2eContext} {packet : E2eEncryptedPacket}
    {peer : E2ePeerKey} :
    acceptedFrom ctx packet = some peer ↔
      packet.recipientId = ctx.myKeys.userId ∧
      e2eFindPeerKey ctx packet.senderId = some peer ∧
      packet.signature = messageSignature packet.senderId packet.recipientId
        (deriveSharedSecret ctx.myKeys.privateKey peer.publicKey) := by
  unfold acceptedFrom
  split
  · rename_i hid
    simp [hid]
  · rename_i hid
    rw [ne_eq, not_not] at hid
    rw [Option.filter_eq_some_iff, decide_eq_true_eq]
    exact (and_iff_right hid).symm

theorem decrypt_of_accepted {ctx : E2eContext} {packet : E2eEncryptedPacket} {peer : E2ePeerKey}
    (h : acceptedFrom ctx packet = some peer) (capacity : UInt64) :
    e2eDecryptMessage ctx packet capacity =
      (decryptVerified (deriveSharedSecret ctx.myKeys.privateKey peer.publicKey) packet
        capacity >>= fun text => pure (some text)) := by
  unfold e2eDecryptMessage
  rw [h]

theorem decrypt_of_refused {ctx : E2eContext} {packet : E2eEncryptedPacket}
    (h : acceptedFrom ctx packet = none) (capacity : UInt64) :
    e2eDecryptMessage ctx packet capacity = pure none := by
  unfold e2eDecryptMessage
  rw [h]

/-- What one side encrypts for the other is accepted, when the derived secrets are the same. -/
theorem acceptedFrom_encrypted {sender recipient : E2eContext} {recipientKey senderKey : E2ePeerKey}
    {plaintext : CString} {random : Nat → UInt8} {memory packet : E2eEncryptedPacket}
    (hrecipient : e2eFindPeerKey sender recipient.myKeys.userId = some recipientKey)
    (hsender : e2eFindPeerKey recipient sender.myKeys.userId = some senderKey)
    (hsecret : deriveSharedSecret sender.myKeys.privateKey recipientKey.publicKey =
      deriveSharedSecret recipient.myKeys.privateKey senderKey.publicKey)
    (hpacket : e2eEncryptMessage sender plaintext recipient.myKeys.userId random memory =
      some packet) :
    acceptedFrom recipient packet = some senderKey := by
  obtain ⟨peer, hpeer, hid, hrecipientId, hsignature⟩ := e2eEncryptMessage_eq_some hpacket
  rw [hrecipient] at hpeer
  cases hpeer
  rw [acceptedFrom_eq_some_iff, hid, hrecipientId, hsignature, hsecret]
  exact ⟨rfl, hsender, rfl⟩

/-- The call fails exactly when the checks in front of the decryption do. -/
theorem decrypt_eq_none_iff (ctx : E2eContext) (packet : E2eEncryptedPacket)
    (capacity : UInt64) :
    (e2eDecryptMessage ctx packet capacity).value = none ↔ acceptedFrom ctx packet = none := by
  cases h : acceptedFrom ctx packet with
  | none => simp [decrypt_of_refused h]
  | some peer => simp [decrypt_of_accepted h]

/-- The call succeeds exactly when the signature is the one that is expected. -/
theorem decrypt_isSome_iff (ctx : E2eContext) (packet : E2eEncryptedPacket)
    (capacity : UInt64) :
    (e2eDecryptMessage ctx packet capacity).value.isSome = true ↔
      e2eExpectedSignature ctx packet = some packet.signature := by
  rw [← Option.ne_none_iff_isSome, ne_eq, decrypt_eq_none_iff, ← ne_eq,
    Option.ne_none_iff_exists']
  simp only [acceptedFrom_eq_some_iff, e2eExpectedSignature]
  constructor
  · intro h
    obtain ⟨peer, hid, hfind, hsignature⟩ := h
    rw [if_neg (not_not.mpr hid), hfind, Option.map_some, ← hsignature]
  · intro h
    split at h
    · cases h
    · rename_i hid
      obtain ⟨peer, hfind, hsignature⟩ := Option.map_eq_some_iff.mp h
      exact ⟨peer, not_not.mp hid, hfind, hsignature.symm⟩

/-- The condition on which the scan breaks at index `j`. -/
def Stops (decrypted : Nat → UInt8) (encryptedLength : UInt64) (j : Nat) : Prop :=
  decrypted j = 0 ∨ UInt64.ofNat j < encryptedLength - 16

section Scan
variable (decrypted : Nat → UInt8) (encryptedLength : UInt64)

theorem findLength_succ_of_zero {i : Nat} (h : decrypted (i + 1) = 0) :
    findLength decrypted encryptedLength (i + 1) =
      ⟨some (UInt64.ofNat (i + 2)), [.readDecrypted (i + 1)]⟩ :=
  if_pos h

/-- The scan runs to its end, or reports the byte behind the index at which it breaks. -/
theorem findLength_cases (i : Nat) :
    ((findLength decrypted encryptedLength i).value = none ∧
      ∀ j, 0 < j → j ≤ i → ¬ Stops decrypted encryptedLength j) ∨
    ∃ j, 0 < j ∧ j ≤ i ∧ Stops decrypted encryptedLength j ∧
      (findLength decrypted encryptedLength i).value = some (UInt64.ofNat (j + 1)) := by
  induction i with
  | zero => exact Or.inl ⟨rfl, fun j hpos hle => by omega⟩
  | succ i ih =>
    rw [findLength]
    split
    · rename_i hzero
      exact Or.inr ⟨i + 1, by omega, by omega, Or.inl hzero, rfl⟩
    · rename_i hnonzero
      split
      · rename_i hfar
        exact Or.inr ⟨i + 1, by omega, by omega, Or.inr hfar, rfl⟩
      · rename_i hnear
        rcases ih with ⟨hnone, hall⟩ | ⟨j, hpos, hle, hstops, hvalue⟩
        · refine Or.inl ⟨hnone, fun j hpos hle => ?_⟩
          by_cases hj : j = i + 1
          · rw [hj]
            exact not_or.mpr ⟨hnonzero, hnear⟩
          · exact hall j hpos (by omega)
        · exact Or.inr ⟨j, hpos, by omega, hstops, hvalue⟩

/-- The length in front of the cut: what the scan reports, or the whole. -/
theorem actualLength_value :
    (actualLength decrypted encryptedLength).value =
      (findLength decrypted encryptedLength (encryptedLength - 1).toNat).value.getD
        encryptedLength := rfl

end Scan

theorem decryptVerified_value (sharedSecret : Fin 32 → UInt8) (packet : E2eEncryptedPacket)
    (capacity : UInt64) :
    let decrypted := (simpleDecrypt sharedSecret packet.encryptedByte packet.encryptedLength).value
    let actualLen := (actualLength decrypted packet.encryptedLength).value
    (decryptVerified sharedSecret packet capacity).value =
      (List.range (if actualLen ≥ capacity then capacity - 1 else actualLen).toNat).map
        decrypted := rfl

section Sealed
variable (senderId recipientId : Fin 16 → UInt8) (secret : Fin 32 → UInt8)
  (random : Nat → UInt8) (memory : E2eEncryptedPacket) {plaintext : CString}

theorem encryptedByte_sealedPacket (hfits : plaintext.length < e2eMaxMessageSize - 32) {i : Nat}
    (hi : i < paddedLength plaintext) :
    (sealedPacket senderId recipientId secret plaintext random memory).encryptedByte i =
      simpleEncrypt secret (paddedByte plaintext random) i := by
  have hbounds := paddedLength_bounds plaintext
  have hmax : i < e2eMaxMessageSize := by
    simp only [e2eMaxMessageSize] at hfits ⊢
    omega
  rw [E2eEncryptedPacket.encryptedByte, dif_pos hmax]
  exact if_pos hi

/-- The packet says how long the padded text is, and under the same secret each byte of it comes
out again. -/
theorem sealedPacket_opens (hfits : plaintext.length < e2eMaxMessageSize - 32) :
    let packet := sealedPacket senderId recipientId secret plaintext random memory
    packet.encryptedLength.toNat = paddedLength plaintext ∧
      ∀ i < paddedLength plaintext,
        (simpleDecrypt secret packet.encryptedByte packet.encryptedLength).value i =
          paddedByte plaintext random i := by
  have hbounds := paddedLength_bounds plaintext
  have hlength : (sealedPacket senderId recipientId secret plaintext random
      memory).encryptedLength.toNat = paddedLength plaintext := by
    simp only [e2eMaxMessageSize] at hfits
    simp only [sealedPacket, UInt64.toNat_ofNat']
    exact Nat.mod_eq_of_lt (by omega)
  refine ⟨hlength, fun i hi => ?_⟩
  have hbyte := encryptedByte_sealedPacket senderId recipientId secret random memory hfits hi
  simp only [simpleDecrypt, Traced.value_loop]
  rw [if_pos (by rw [hlength]; exact hi), hbyte]
  exact simpleEncrypt_simpleEncrypt secret (paddedByte plaintext random) i

end Sealed

/-- Two users who hold each other as peers. -/
def paired (me other : UInt8) : E2eContext where
  myKeys := ⟨fun _ => 0, fun _ => 0, fun _ => me, .empty⟩
  peerKeys := fun _ => ⟨fun _ => 0, fun _ => other, .empty, true⟩
  numPeers := 1

/-- Memory that a packet is built in. -/
def E2eEncryptedPacket.zeroed : E2eEncryptedPacket :=
  ⟨fun _ => 0, fun _ => 0, fun _ => 0, 0, fun _ => 0⟩

theorem find_paired (me other : UInt8) :
    e2eFindPeerKey (paired me other) (paired other me).myKeys.userId =
      some ⟨fun _ => 0, fun _ => other, .empty, true⟩ := by
  simp [e2eFindPeerKey, paired, List.finRange_succ]

theorem encrypt_paired (me other : UInt8) {plaintext : CString} (random : Nat → UInt8)
    (hfits : plaintext.length < e2eMaxMessageSize - 32) :
    e2eEncryptMessage (paired me other) plaintext (paired other me).myKeys.userId random .zeroed =
      some (sealedPacket (fun _ => me) (fun _ => other)
        (deriveSharedSecret (fun _ => 0) fun _ => 0) plaintext random .zeroed) :=
  e2eEncryptMessage_eq_some_iff.mpr ⟨_, find_paired me other, hfits, rfl⟩

end TcpChat.Client

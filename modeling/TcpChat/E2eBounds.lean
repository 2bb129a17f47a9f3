import TcpChat.Client.Client

/-!
# The buffers of a received end-to-end message

The length of a packet comes from its sender and nothing covers it. It drives the loops of
`e2e_decrypt_message`, which stay inside their buffers for the lengths from 16 to 1024 and for
some of the shorter ones.
-/

namespace TcpChat.Client

open Base
set_option autoImplicit false

/-- A received packet is worked on inside its arrays and the buffer of the caller. -/
def InsideBuffers (ctx : E2eContext) (packet : E2eEncryptedPacket) : Prop :=
  (e2eDecryptMessage ctx packet decryptedSize).All
    (Access.Inside packet.encryptedLength decryptedSize)

/-- The lengths that do not lead outside: full blocks up to the size of the array, a single byte,
and less than a block when its last byte is the encryption of a zero. -/
def LengthSafe (sharedSecret : Fin 32 → UInt8) (packet : E2eEncryptedPacket) : Prop :=
  let len := packet.encryptedLength.toNat
  (16 ≤ len ∧ len ≤ e2eMaxMessageSize) ∨ len = 1 ∨
    (2 ≤ len ∧ len ≤ 15 ∧
      packet.encryptedByte (len - 1) = simpleEncrypt sharedSecret (fun _ => 0) (len - 1))

section Events
variable {encryptedLength capacity : UInt64} {decrypted : Nat → UInt8}

theorem simpleDecrypt_all_iff (key : Fin 32 → UInt8) (ciphertext : Nat → UInt8) (len : UInt64) :
    (simpleDecrypt key ciphertext len).All (Access.Inside encryptedLength capacity) ↔
      len.toNat ≤ e2eMaxMessageSize := by
  rw [simpleDecrypt, Traced.all_loop]
  constructor
  · intro h
    by_contra hlong
    have hread := h e2eMaxMessageSize (by omega) _ List.mem_cons_self
    exact absurd hread (Nat.lt_irrefl e2eMaxMessageSize)
  · intro hlen i hi e he
    have hlt : i < e2eMaxMessageSize := by omega
    rcases List.mem_cons.mp he with rfl | he
    · exact hlt
    · rw [List.mem_singleton.mp he]
      exact hlt

/-- From an index inside the array the scan stays inside, if there is a block to subtract. -/
theorem findLength_all (hblock : 16 ≤ encryptedLength.toNat) {i : Nat}
    (hi : i < e2eMaxMessageSize) :
    (findLength decrypted encryptedLength i).All (Access.Inside encryptedLength capacity) := by
  induction i with
  | zero => exact Traced.all_pure _
  | succ i ih =>
    rw [findLength]
    split
    · intro e he
      rw [List.mem_singleton.mp he]
      exact hi
    · have htwo : ∀ e ∈ [Access.readDecrypted (i + 1), .lengthMinus 16],
          Access.Inside encryptedLength capacity e := by
        intro e he
        rcases List.mem_cons.mp he with rfl | he
        · exact hi
        · rw [List.mem_singleton.mp he]
          exact hblock
      split
      · exact htwo
      · rw [Traced.all_bind]
        exact ⟨htwo, ih (by omega)⟩

/-- The first round subtracts a block unless it breaks at a zero. -/
theorem block_of_findLength_all {i : Nat} (hnonzero : decrypted (i + 1) ≠ 0)
    (h : (findLength decrypted encryptedLength (i + 1)).All
      (Access.Inside encryptedLength capacity)) : 16 ≤ encryptedLength.toNat := by
  rw [findLength, if_neg hnonzero] at h
  have hmem : Access.lengthMinus 16 ∈ [Access.readDecrypted (i + 1), .lengthMinus 16] :=
    List.mem_cons_of_mem _ List.mem_cons_self
  split at h
  · exact h _ hmem
  · rw [Traced.all_bind] at h
    exact h.1 _ hmem

theorem actualLength_all_iff :
    (actualLength decrypted encryptedLength).All (Access.Inside encryptedLength capacity) ↔
      1 ≤ encryptedLength.toNat ∧
        (findLength decrypted encryptedLength (encryptedLength - 1).toNat).All
          (Access.Inside encryptedLength capacity) := by
  rw [actualLength, Traced.all_bind, Traced.all_bind]
  constructor
  · intro h
    exact ⟨h.1 _ List.mem_cons_self, h.2.1⟩
  · intro h
    refine ⟨fun e he => ?_, h.2, Traced.all_pure _⟩
    rw [List.mem_singleton.mp he]
    exact h.1

theorem copyOut_all {len : UInt64} (hread : len.toNat ≤ e2eMaxMessageSize)
    (hwrite : len.toNat < capacity.toNat) :
    (copyOut decrypted len).All (Access.Inside encryptedLength capacity) := by
  rw [copyOut, Traced.all_bind, Traced.all_loop, Traced.all_bind]
  refine ⟨fun i hi e he => ?_, fun e he => ?_, Traced.all_pure _⟩
  · rcases List.mem_cons.mp he with rfl | he
    · exact Nat.lt_of_lt_of_le hi hread
    · rw [List.mem_singleton.mp he]
      exact Nat.lt_trans hi hwrite
  · rw [List.mem_singleton.mp he]
    exact hwrite

variable (decrypted) in
theorem actualLength_le (hpos : 1 ≤ encryptedLength.toNat) :
    (actualLength decrypted encryptedLength).value.toNat ≤ encryptedLength.toNat := by
  have hlast : (encryptedLength - 1).toNat = encryptedLength.toNat - 1 := by
    rw [UInt64.toNat_sub_of_le encryptedLength 1 (UInt64.le_iff_toNat_le.mpr hpos)]
    rfl
  have hbig := encryptedLength.toNat_lt
  rw [actualLength_value, hlast]
  rcases findLength_cases decrypted encryptedLength (encryptedLength.toNat - 1) with
    ⟨hnone, _⟩ | ⟨j, _, hle, _, hvalue⟩
  · rw [hnone]
    exact Nat.le_refl _
  · rw [hvalue, Option.getD_some, UInt64.toNat_ofNat', Nat.mod_eq_of_lt (by omega)]
    omega

end Events

section Verified
variable (sharedSecret : Fin 32 → UInt8) (packet : E2eEncryptedPacket)

theorem simpleDecrypt_eq_zero_iff {i : Nat} (hi : i < packet.encryptedLength.toNat) :
    (simpleDecrypt sharedSecret packet.encryptedByte packet.encryptedLength).value i = 0 ↔
      packet.encryptedByte i = simpleEncrypt sharedSecret (fun _ => 0) i := by
  simp only [simpleDecrypt, Traced.value_loop]
  rw [if_pos hi, simpleEncrypt, UInt8.zero_xor, UInt8.xor_assoc, UInt8.xor_eq_zero_iff]

/-- The decryption behind the checks stays inside exactly for the safe lengths. -/
theorem decryptVerified_all_iff :
    (decryptVerified sharedSecret packet decryptedSize).All
      (Access.Inside packet.encryptedLength decryptedSize) ↔ LengthSafe sharedSecret packet := by
  have hzero : ∀ i < packet.encryptedLength.toNat, _ :=
    fun i hi => simpleDecrypt_eq_zero_iff sharedSecret packet hi
  rw [decryptVerified, Traced.all_bind, Traced.all_bind, simpleDecrypt_all_iff,
    actualLength_all_iff, LengthSafe]
  generalize (simpleDecrypt sharedSecret packet.encryptedByte packet.encryptedLength).value =
    decrypted at hzero
  generalize hlen : packet.encryptedLength = len at hzero
  have hlast : 1 ≤ len.toNat → (len - 1).toNat = len.toNat - 1 := by
    intro hpos
    rw [UInt64.toNat_sub_of_le len 1 (UInt64.le_iff_toNat_le.mpr hpos)]
    rfl
  constructor
  · intro h
    obtain ⟨hlong, ⟨hpos, hscan⟩, _⟩ := h
    by_cases hblock : 16 ≤ len.toNat
    · exact Or.inl ⟨hblock, hlong⟩
    by_cases hone : len.toNat = 1
    · exact Or.inr (Or.inl hone)
    refine Or.inr (Or.inr ⟨by omega, by omega, ?_⟩)
    by_contra hlastByte
    have hnonzero : decrypted (len.toNat - 2 + 1) ≠ 0 := by
      rw [ne_eq, hzero _ (by omega), show len.toNat - 2 + 1 = len.toNat - 1 by omega]
      exact hlastByte
    rw [hlast hpos, show len.toNat - 1 = len.toNat - 2 + 1 by omega] at hscan
    exact hblock (block_of_findLength_all hnonzero hscan)
  · intro h
    have hbounds : 1 ≤ len.toNat ∧ len.toNat ≤ e2eMaxMessageSize := by
      simp only [e2eMaxMessageSize] at h ⊢
      omega
    refine ⟨hbounds.2, ⟨hbounds.1, ?_⟩, ?_⟩
    · rw [hlast hbounds.1]
      rcases h with ⟨hblock, hlong⟩ | hone | ⟨htwo, hshort, hlastByte⟩
      · exact findLength_all hblock (by omega)
      · rw [hone]
        exact Traced.all_pure _
      · -- the scan breaks at the last byte, before it subtracts a block
        rw [← hzero _ (by omega), show len.toNat - 1 = len.toNat - 2 + 1 by omega] at hlastByte
        rw [show len.toNat - 1 = len.toNat - 2 + 1 by omega,
          findLength_succ_of_zero decrypted len hlastByte]
        intro e he
        rw [List.mem_singleton.mp he]
        show len.toNat - 2 + 1 < 1024
        omega
    · have hactual := actualLength_le decrypted hbounds.1
      have hcapacity : decryptedSize.toNat = 1024 := rfl
      have hmax : e2eMaxMessageSize = 1024 := rfl
      split
      · exact copyOut_all (by decide) (by decide)
      · rename_i hshort
        rw [ge_iff_le, UInt64.le_iff_toNat_le] at hshort
        exact copyOut_all (by omega) (by omega)

end Verified

theorem insideBuffers_iff (ctx : E2eContext) (packet : E2eEncryptedPacket) :
    InsideBuffers ctx packet ↔ ∀ peer, acceptedFrom ctx packet = some peer →
      LengthSafe (deriveSharedSecret ctx.myKeys.privateKey peer.publicKey) packet := by
  rw [InsideBuffers]
  cases haccepted : acceptedFrom ctx packet with
  | none =>
    rw [decrypt_of_refused haccepted]
    simp
  | some peer =>
    rw [decrypt_of_accepted haccepted, Traced.all_bind, decryptVerified_all_iff]
    simp

/-- A decoded message is worked on inside the buffers when it is refused or its length is one of
the safe ones. -/
theorem received_inside_iff (ctx : E2eContext) (hexData : CString) :
    (∀ packet, parseE2ePacket hexData = some packet → InsideBuffers ctx packet) ↔
      ∀ packet peer, parseE2ePacket hexData = some packet →
        acceptedFrom ctx packet = some peer →
        LengthSafe (deriveSharedSecret ctx.myKeys.privateKey peer.publicKey) packet := by
  constructor
  · intro h packet peer hparse
    exact (insideBuffers_iff ctx packet).mp (h packet hparse) peer
  · intro h packet hparse
    exact (insideBuffers_iff ctx packet).mpr fun peer => h packet peer hparse

/-- A packet that `paired 2 1` accepts: the signature does not cover the length. -/
def oversized : E2eEncryptedPacket where
  senderId := fun _ => 1
  recipientId := fun _ => 2
  encryptedData := fun _ => 0
  encryptedLength := 1025
  signature := messageSignature (fun _ => 1) (fun _ => 2)
    (deriveSharedSecret (fun _ => 0) (fun _ => 0))

/-- A length of 1025 leads one byte outside both arrays. -/
theorem oversized_leaves_buffers :
    ¬ ∀ (ctx : E2eContext) (hexData : CString) (packet : E2eEncryptedPacket),
      parseE2ePacket hexData = some packet → InsideBuffers ctx packet := by
  intro h
  have hinside := h (paired 2 1) _ oversized (parseE2ePacket_image oversized)
  rw [insideBuffers_iff] at hinside
  have haccepted : acceptedFrom (paired 2 1) oversized =
      some ⟨fun _ => 0, fun _ => 1, .empty, true⟩ :=
    acceptedFrom_eq_some_iff.mpr ⟨rfl, find_paired 2 1, rfl⟩
  have hsafe := hinside _ haccepted
  have hlen : oversized.encryptedLength.toNat = 1025 := rfl
  simp only [LengthSafe, hlen, e2eMaxMessageSize] at hsafe
  omega

end TcpChat.Client

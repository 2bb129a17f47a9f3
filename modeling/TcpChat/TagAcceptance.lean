import TcpChat.Base.ColumnXor
import TcpChat.Transport

/-!
# What the authentication tag accepts

The client seals, an error pattern is XORed onto the frame, and the server opens it, under
whatever key it has.
-/

namespace TcpChat.Transport

open Base.XorCodec
open Server (sessionKey)
set_option autoImplicit false

/-- The server accepts the damaged frame exactly when every column of the pattern, keys
included, is what the pattern adds to that column's tag byte. -/
theorem tag_acceptance (client : Client.EncryptionContext) (server : Server.EncryptionContext)
    (m e : List UInt8) (capacity room : UInt64) (hcapacity : m.length + 16 ≤ capacity.toNat)
    (he : e.length = m.length + 16) (hroom : m.length ≤ room.toNat) :
    ∃ ciphertext, (Client.encryptData client m capacity).1 = some ciphertext ∧
      ((Server.decryptData server (corrupted ciphertext e) room).1 ≠ none ↔
        ∀ j < 16, columnXor 16 m.length
          (fun i => e.getD i 0 ^^^ client.sessionKey (Fin.ofNat 32 i) ^^^
            server.sessionKey (Fin.ofNat 32 i)) j = e.getD (m.length + j) 0) ∧
      (∀ plaintext, (Server.decryptData server (corrupted ciphertext e) room).1 = some plaintext →
        plaintext.length = m.length ∧ ∀ i < m.length, plaintext.getD i 0 =
          m.getD i 0 ^^^ e.getD i 0 ^^^ client.sessionKey (Fin.ofNat 32 i) ^^^
            server.sessionKey (Fin.ofNat 32 i)) ∧
      (client.sessionKey = server.sessionKey → ∀ a,
        (∀ i, e.getD i 0 ≠ 0 → i < m.length ∧ a ≤ i ∧ i < a + 16) → (∃ i, e.getD i 0 ≠ 0) →
          (Server.decryptData server (corrupted ciphertext e) room).1 = none) ∧
      (64 ∣ m.length → (Server.decryptData server ciphertext room).1 ≠ none) := by
  have hlen : (corrupted (sealBytes 16 client.sessionKey m) e).length = m.length + 16 := by
    simp [corrupted, he]
  have hfits : ¬ room.toNat < m.length + 16 - 16 := by omega
  have hopen : (Server.decryptData server (corrupted (sealBytes 16 client.sessionKey m) e)
      room).1 = openBytes 16 server.sessionKey
        (corrupted (sealBytes 16 client.sessionKey m) e) := by
    rw [Server.decryptData_fst, hlen, if_neg hfits]
  have hclean : (Server.decryptData server (sealBytes 16 client.sessionKey m) room).1 =
      openBytes 16 server.sessionKey (sealBytes 16 client.sessionKey m) := by
    rw [Server.decryptData_fst, length_sealBytes, if_neg hfits]
  have hlaw := openBytes_corrupted client.sessionKey server.sessionKey m e he
  refine ⟨_, Client.encryptData_fst hcapacity, ?_, ?_, ?_, ?_⟩
  · rw [hopen, hlaw]
    split
    · rename_i hpasses
      exact iff_of_true (Option.some_ne_none _) hpasses
    · rename_i hfails
      exact iff_of_false (fun hnone => hnone rfl) hfails
  · intro plaintext hplain
    rw [hopen, hlaw] at hplain
    split at hplain
    · cases hplain
      refine ⟨length_masked _ _, fun i hi => ?_⟩
      rw [getD_masked _ _ hi, offset]
      ac_rfl
    · cases hplain
  · intro hkeys a hburst hne
    rw [hopen, hkeys]
    exact openBytes_burst server.sessionKey m e he a hburst hne
  · intro hperiods
    rw [hclean]
    exact openBytes_even_periods client.sessionKey server.sessionKey m rfl hperiods

/-- One flipped bit in a two-byte message. -/
theorem tag_acceptance_hi :
    ∃ ciphertext,
      (Client.encryptData ⟨sessionKey, 0, 0⟩ [72, 105] 2048).1 = some ciphertext ∧
      (Server.decryptData ⟨sessionKey, 0, 0⟩
        (corrupted ciphertext (1 :: List.replicate 17 0)) 1023).1 = none := by
  obtain ⟨ciphertext, hsealed, hlaw, _⟩ := tag_acceptance ⟨sessionKey, 0, 0⟩ ⟨sessionKey, 0, 0⟩
    [72, 105] (1 :: List.replicate 17 0) 2048 1023 (by decide) (by decide) (by decide)
  refine ⟨ciphertext, hsealed, ?_⟩
  by_contra haccepted
  exact absurd (hlaw.mp haccepted 0 (by decide)) (by decide)

end TcpChat.Transport

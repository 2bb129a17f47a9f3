import TcpChat.Client.E2eEncryption

/-!
# Agreement of the derived secrets

The public key mixes two halves of the private key with the user id, and the derivation XORs
one's own private key with the peer's public key. What does not cancel is the mixed-in part:
the two derivations differ by it.
-/

namespace TcpChat.KeyAgreement

open Base Client
set_option autoImplicit false

/-- The bytes that `e2e_generate_keypair` mixes into the public key beside the private key. -/
def mixedIn (keys : E2eKeypair) : Fin 32 → UInt8 :=
  fun i => if h : i.val < 16 then keys.privateKey ⟨i.val + 16, by omega⟩
    else keys.userId ⟨i.val - 16, by omega⟩

theorem publicKey_eq_mixedIn (nickname : CString) (timestamp pid : UInt32)
    (privateKey : Fin 32 → UInt8) (i : Fin 32) :
    (e2eGenerateKeypair nickname timestamp pid privateKey).publicKey i =
      privateKey i ^^^ mixedIn (e2eGenerateKeypair nickname timestamp pid privateKey) i ^^^
        UInt8.ofNat (i.val * 17 + 42) := by
  have hlow : (⟨i.val, by omega⟩ : Fin (32 + 16)) = Fin.castAdd 16 i := rfl
  simp only [e2eGenerateKeypair, hlow, Fin.append_left, mixedIn]
  split
  · rename_i hi
    have hhigh : (⟨i.val + 16, by omega⟩ : Fin (32 + 16)) =
        Fin.castAdd 16 ⟨i.val + 16, by omega⟩ := rfl
    rw [hhigh, Fin.append_left]
  · rename_i hi
    have hhigh : (⟨i.val + 16, by omega⟩ : Fin (32 + 16)) =
        Fin.natAdd 32 (⟨i.val - 16, by omega⟩ : Fin 16) := by
      ext
      simp only [Fin.val_natAdd]
      omega
    rw [hhigh, Fin.append_right]

theorem derived_byte_eq_iff (a b ma mb c d : UInt8) :
    a ^^^ (b ^^^ mb ^^^ c) ^^^ d = b ^^^ (a ^^^ ma ^^^ c) ^^^ d ↔ ma = mb := by
  have hleft : a ^^^ (b ^^^ mb ^^^ c) = a ^^^ b ^^^ c ^^^ mb := by ac_rfl
  have hright : b ^^^ (a ^^^ ma ^^^ c) = a ^^^ b ^^^ c ^^^ ma := by ac_rfl
  rw [UInt8.xor_left_inj, hleft, hright, UInt8.xor_right_inj]
  exact eq_comm

section Generated
variable (nickA nickB : CString) (timeA pidA timeB pidB : UInt32) (privA privB : Fin 32 → UInt8)

theorem deriveSharedSecret_eq_iff :
    deriveSharedSecret privA (e2eGenerateKeypair nickB timeB pidB privB).publicKey =
        deriveSharedSecret privB (e2eGenerateKeypair nickA timeA pidA privA).publicKey ↔
      mixedIn (e2eGenerateKeypair nickA timeA pidA privA) =
        mixedIn (e2eGenerateKeypair nickB timeB pidB privB) := by
  rw [funext_iff, funext_iff]
  apply forall_congr'
  intro i
  simp only [deriveSharedSecret, publicKey_eq_mixedIn]
  exact derived_byte_eq_iff _ _ _ _ _ _

theorem mixedIn_eq_iff :
    mixedIn (e2eGenerateKeypair nickA timeA pidA privA) =
        mixedIn (e2eGenerateKeypair nickB timeB pidB privB) ↔
      (∀ i : Fin 16, privA (Fin.natAdd 16 i) = privB (Fin.natAdd 16 i)) ∧
        e2eGenerateUserId nickA timeA pidA = e2eGenerateUserId nickB timeB pidB := by
  constructor
  · intro h
    constructor
    · intro i
      have hi := congrFun h (Fin.castAdd 16 i)
      have hhigh : (⟨i.val + 16, by omega⟩ : Fin 32) = Fin.natAdd 16 i :=
        Fin.ext (Nat.add_comm i.val 16)
      simpa [mixedIn, e2eGenerateKeypair, hhigh] using hi
    · funext i
      have hi := congrFun h (Fin.natAdd 16 i)
      have hlow : ¬ i.val + 16 < 16 := by omega
      simpa [mixedIn, e2eGenerateKeypair, hlow] using hi
  · intro hall
    obtain ⟨hpriv, huser⟩ := hall
    funext i
    simp only [mixedIn, e2eGenerateKeypair, huser]
    split
    · rename_i hi
      have hhigh : (⟨i.val + 16, by omega⟩ : Fin 32) = Fin.natAdd 16 ⟨i.val, hi⟩ :=
        Fin.ext (Nat.add_comm i.val 16)
      rw [hhigh]
      exact hpriv ⟨i.val, hi⟩
    · rfl

end Generated

/-- What E2E encryption asks of two keypairs: one secret for both sides, so that whatever the
first encrypts for the second carries the signature the second compares with. -/
def KeysAgree (a b : E2eKeypair) : Prop :=
  deriveSharedSecret a.privateKey b.publicKey = deriveSharedSecret b.privateKey a.publicKey ∧
  ∀ (sender recipient : E2eContext) (peerOfSender peerOfRecipient : E2ePeerKey)
    (plaintext : CString) (random : Nat → UInt8) (memory packet : E2eEncryptedPacket),
    sender.myKeys = a → recipient.myKeys = b →
    e2eFindPeerKey sender b.userId = some peerOfSender → peerOfSender.publicKey = b.publicKey →
    e2eFindPeerKey recipient a.userId = some peerOfRecipient →
    peerOfRecipient.publicKey = a.publicKey →
    e2eEncryptMessage sender plaintext b.userId random memory = some packet →
    e2eExpectedSignature recipient packet = some packet.signature

theorem keysAgree_iff_secret_eq (a b : E2eKeypair) :
    KeysAgree a b ↔
      deriveSharedSecret a.privateKey b.publicKey =
        deriveSharedSecret b.privateKey a.publicKey := by
  constructor
  · exact And.left
  · intro hsecret
    refine ⟨hsecret, ?_⟩
    intro sender recipient peerOfSender peerOfRecipient plaintext random memory packet
      hsender hrecipient hfindB hkeyB hfindA hkeyA hencrypt
    obtain ⟨peer, hpeer, hfrom, hto, hsignature⟩ := e2eEncryptMessage_eq_some hencrypt
    have hpeerEq : peer = peerOfSender := Option.some.inj (hpeer.symm.trans hfindB)
    subst hpeerEq
    simp only [e2eExpectedSignature, hrecipient, hto, ne_eq, not_true_eq_false, if_false,
      hfrom, hsender, hfindA, Option.map_some, hkeyA, hsignature, hkeyB, hsecret]

/-- Agreement holds only for keypairs that share the user id and the second half of the
private key: those bytes are mixed into one public key and never cancel. -/
theorem keysAgree_iff (nickA nickB : CString) (timeA pidA timeB pidB : UInt32)
    (privA privB : Fin 32 → UInt8) :
    KeysAgree (e2eGenerateKeypair nickA timeA pidA privA)
        (e2eGenerateKeypair nickB timeB pidB privB) ↔
      (∀ i : Fin 16, privA (Fin.natAdd 16 i) = privB (Fin.natAdd 16 i)) ∧
        e2eGenerateUserId nickA timeA pidA = e2eGenerateUserId nickB timeB pidB := by
  rw [keysAgree_iff_secret_eq, ← mixedIn_eq_iff]
  exact deriveSharedSecret_eq_iff nickA nickB timeA pidA timeB pidB privA privB

/-- Two users started at the same second by the same process id, with equal private keys. -/
theorem secrets_of_alice_and_bob_differ :
    ¬ ∀ (nickA nickB : CString) (timeA pidA timeB pidB : UInt32) (privA privB : Fin 32 → UInt8),
      KeysAgree (e2eGenerateKeypair nickA timeA pidA privA)
        (e2eGenerateKeypair nickB timeB pidB privB) := by
  intro h
  have hsecret := (h "alice" "bob" 1700000000 4242 1700000000 4242 (fun _ => 7) (fun _ => 7)).1
  have hbyte := congrFun hsecret 16
  revert hbyte
  decide

end TcpChat.KeyAgreement

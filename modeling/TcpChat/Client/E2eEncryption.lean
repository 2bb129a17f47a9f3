import Mathlib.Data.Fin.Tuple.Basic
import Mathlib.Data.Fintype.Pi
import TcpChat.Base.CString
import TcpChat.Sizes

/-!
# End-to-end encryption (client/src/e2e_encryption.c)

Fixed-size byte arrays are functions on `Fin`. The clock, the process id and the bytes drawn
with `rand` are arguments. `none` stands for a return value of -1.
-/

namespace TcpChat.Client

open Base
set_option autoImplicit false

abbrev e2eMaxMessageSize : Nat := 1024
abbrev maxClientsE2e : Nat := 64

structure E2eKeypair where
  publicKey : Fin 32 → UInt8
  privateKey : Fin 32 → UInt8
  userId : Fin 16 → UInt8
  nickname : CString

structure E2ePeerKey where
  publicKey : Fin 32 → UInt8
  userId : Fin 16 → UInt8
  nickname : CString
  active : Bool

structure E2eContext where
  myKeys : E2eKeypair
  peerKeys : Fin maxClientsE2e → E2ePeerKey
  numPeers : Nat

structure E2eEncryptedPacket where
  senderId : Fin 16 → UInt8
  recipientId : Fin 16 → UInt8
  encryptedData : Fin e2eMaxMessageSize → UInt8
  encryptedLength : UInt64
  signature : Fin 32 → UInt8

def e2eGenerateUserId (nickname : CString) (timestamp pid : UInt32) (i : Fin 16) : UInt8 :=
  let nickByte := if i.val < nickname.length then nickname.bytes.getD i.val 0 else 0
  nickByte ^^^ (timestamp >>> UInt32.ofNat (i.val % 4)).toUInt8 ^^^
    (pid >>> UInt32.ofNat (i.val % 4)).toUInt8 ^^^ UInt8.ofNat (i.val * 23)

def e2eGenerateKeypair (nickname : CString) (timestamp pid : UInt32)
    (privateKey : Fin 32 → UInt8) : E2eKeypair :=
  let userId := e2eGenerateUserId nickname timestamp pid
  let temp : Fin (32 + 16) → UInt8 := Fin.append privateKey userId
  { publicKey := fun i =>
      temp ⟨i.val, by omega⟩ ^^^ temp ⟨i.val + 16, by omega⟩ ^^^ UInt8.ofNat (i.val * 17 + 42)
    privateKey := privateKey
    userId := userId
    nickname := nickname.take 63 }

/-- The table is zeroed. -/
def e2eContextInit (nickname : CString) (timestamp pid : UInt32) (privateKey : Fin 32 → UInt8) :
    E2eContext where
  myKeys := e2eGenerateKeypair nickname timestamp pid privateKey
  peerKeys := fun _ => ⟨fun _ => 0, fun _ => 0, .empty, false⟩
  numPeers := 0

def deriveSharedSecret (myPrivate : Fin 32 → UInt8)
    (peerPublic : Fin 32 → UInt8) (i : Fin 32) : UInt8 :=
  myPrivate i ^^^ peerPublic i ^^^ UInt8.ofNat (i.val * 31 + 73)

/-- The first active entry below `num_peers` with this user id. -/
def e2eFindPeerKey (ctx : E2eContext) (userId : Fin 16 → UInt8) : Option E2ePeerKey :=
  (((List.finRange maxClientsE2e).takeWhile fun i => i.val < ctx.numPeers).find? fun i =>
    (ctx.peerKeys i).active && (ctx.peerKeys i).userId == userId).map ctx.peerKeys

def simpleEncrypt (key : Fin 32 → UInt8) (plaintext : Nat → UInt8) (i : Nat) : UInt8 :=
  plaintext i ^^^ key (Fin.ofNat 32 i) ^^^ UInt8.ofNat (i % 256)

/-- The 64-byte `mac_input` folded onto the 32 signature bytes. -/
def messageSignature (senderId recipientId : Fin 16 → UInt8) (sharedSecret : Fin 32 → UInt8)
    (i : Fin 32) : UInt8 :=
  let macInput : Fin (16 + 16 + 32) → UInt8 :=
    Fin.append (Fin.append senderId recipientId) sharedSecret
  macInput ⟨i.val, by omega⟩ ^^^ macInput ⟨i.val + 32, by omega⟩ ^^^ UInt8.ofNat (i.val * 13)

/-- The length to which `e2e_encrypt_message` pads. -/
def paddedLength (plaintext : CString) : Nat := (plaintext.length + 15) / 16 * 16

/-- The text and the random bytes behind it. -/
def paddedByte (plaintext : CString) (random : Nat → UInt8) (i : Nat) : UInt8 :=
  if i < plaintext.length then plaintext.bytes.getD i 0 else random i

/-- The packet that carries `plaintext` under `sharedSecret`. What is behind the padded text stays
as it was in `memory`. -/
def sealedPacket (senderId recipientId : Fin 16 → UInt8) (sharedSecret : Fin 32 → UInt8)
    (plaintext : CString) (random : Nat → UInt8) (memory : E2eEncryptedPacket) :
    E2eEncryptedPacket where
  senderId := senderId
  recipientId := recipientId
  encryptedData := fun i =>
    if i.val < paddedLength plaintext then
      simpleEncrypt sharedSecret (paddedByte plaintext random) i
    else memory.encryptedData i
  encryptedLength := UInt64.ofNat (paddedLength plaintext)
  signature := messageSignature senderId recipientId sharedSecret

/-- `random` are the padding bytes; `packet` is the memory the packet is built in. -/
def e2eEncryptMessage (ctx : E2eContext) (plaintext : CString) (recipientId : Fin 16 → UInt8)
    (random : Nat → UInt8) (packet : E2eEncryptedPacket) : Option E2eEncryptedPacket :=
  match e2eFindPeerKey ctx recipientId with
  | none => none
  | some peer =>
    if plaintext.length ≥ e2eMaxMessageSize - 32 then none
    else
      let sharedSecret := deriveSharedSecret ctx.myKeys.privateKey peer.publicKey
      some (sealedPacket ctx.myKeys.userId recipientId sharedSecret plaintext random packet)

/-- The signature `e2e_decrypt_message` compares with: `none` when the packet is for someone
else or its sender is unknown. -/
def e2eExpectedSignature (ctx : E2eContext) (packet : E2eEncryptedPacket) :
    Option (Fin 32 → UInt8) :=
  if packet.recipientId ≠ ctx.myKeys.userId then none
  else (e2eFindPeerKey ctx packet.senderId).map fun peer =>
    messageSignature packet.senderId packet.recipientId
      (deriveSharedSecret ctx.myKeys.privateKey peer.publicKey)

theorem paddedLength_bounds (plaintext : CString) :
    plaintext.length ≤ paddedLength plaintext ∧
      paddedLength plaintext < plaintext.length + 16 ∧ paddedLength plaintext % 16 = 0 := by
  unfold paddedLength
  omega

section Encrypt
variable {ctx : E2eContext} {plaintext : CString} {recipientId : Fin 16 → UInt8}
  {random : Nat → UInt8} {memory packet : E2eEncryptedPacket}

theorem e2eEncryptMessage_eq_some_iff :
    e2eEncryptMessage ctx plaintext recipientId random memory = some packet ↔
      ∃ peer, e2eFindPeerKey ctx recipientId = some peer ∧
        plaintext.length < e2eMaxMessageSize - 32 ∧
        packet = sealedPacket ctx.myKeys.userId recipientId
          (deriveSharedSecret ctx.myKeys.privateKey peer.publicKey) plaintext random memory := by
  unfold e2eEncryptMessage
  cases hfind : e2eFindPeerKey ctx recipientId with
  | none => simp
  | some peer =>
    dsimp only
    split
    · rename_i hlong
      constructor
      · intro h
        cases h
      · intro h
        obtain ⟨_, _, hshort, _⟩ := h
        omega
    · rename_i hshort
      constructor
      · intro h
        exact ⟨peer, rfl, Nat.not_le.mp hshort, (Option.some.inj h).symm⟩
      · intro h
        obtain ⟨peer', hpeer, _, rfl⟩ := h
        cases hpeer
        rfl

theorem e2eEncryptMessage_eq_some
    (h : e2eEncryptMessage ctx plaintext recipientId random memory = some packet) :
    ∃ peer, e2eFindPeerKey ctx recipientId = some peer ∧
      packet.senderId = ctx.myKeys.userId ∧ packet.recipientId = recipientId ∧
      packet.signature = messageSignature ctx.myKeys.userId recipientId
        (deriveSharedSecret ctx.myKeys.privateKey peer.publicKey) := by
  obtain ⟨peer, hpeer, _, rfl⟩ := e2eEncryptMessage_eq_some_iff.mp h
  exact ⟨peer, hpeer, rfl, rfl, rfl⟩

end Encrypt

theorem simpleEncrypt_simpleEncrypt (key : Fin 32 → UInt8) (plaintext : Nat → UInt8) (i : Nat) :
    simpleEncrypt key (simpleEncrypt key plaintext) i = plaintext i := by
  unfold simpleEncrypt
  generalize key (Fin.ofNat 32 i) = k
  generalize UInt8.ofNat (i % 256) = n
  have hcancel : plaintext i ^^^ k ^^^ n ^^^ k ^^^ n = plaintext i ^^^ (k ^^^ k) ^^^ (n ^^^ n) := by
    ac_rfl
  rw [hcancel, UInt8.xor_self, UInt8.xor_self, UInt8.xor_zero, UInt8.xor_zero]

/-- Byte `i` of a signature is made of byte `i` of the user ids and byte `i` of the secret. -/
theorem messageSignature_apply (senderId recipientId : Fin 16 → UInt8) (secret : Fin 32 → UInt8)
    (i : Fin 32) :
    messageSignature senderId recipientId secret i =
      Fin.append senderId recipientId i ^^^ secret i ^^^ UInt8.ofNat (i.val * 13) := by
  have hlow : (⟨i.val, by omega⟩ : Fin (16 + 16 + 32)) = Fin.castAdd 32 i := rfl
  have hhigh : (⟨i.val + 32, by omega⟩ : Fin (16 + 16 + 32)) = Fin.natAdd (16 + 16) i := by
    ext
    simp
  simp only [messageSignature, hlow, hhigh, Fin.append_left, Fin.append_right]

end TcpChat.Client
